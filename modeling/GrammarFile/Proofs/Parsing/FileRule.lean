import GrammarFile.Parse.File
import GrammarFile.Proofs.Parsing.Decided

/-!
# The rule of a whole file

`parse` reads the prolog and the definition of a file in loops that go on after an error. Here they are
rules like all the others (`Rules.prolog`, `Rules.definition`, `Rules.file`), which is what those loops
come to where there is no error.

One token decides them, whatever the number of levels that brackets may nest to (`decided_file`). That
number makes no difference to what a rule starts and goes on with, so it is enough to look at the rule
for no brackets at all: `Alike` says so of two rules, and is kept by everything that rules are made of.
-/

namespace GrammarFile

/-! ### Rules that start and go on with the same kinds -/

/-- Whether two rules start and go on with the same kinds, and are both decided or both not. -/
structure Alike {s : Bool} {α β : Type} (a : Rule s α) (b : Rule s β) : Prop where
  first : a.first = b.first
  extensions : a.extensions = b.extensions
  decided : a.decided = b.decided

namespace Alike

section Combinators

variable {s t : Bool} {α α' β β' : Type}

/-- A rule is like itself. -/
theorem refl (r : Rule s α) : Alike r r :=
  ⟨rfl, rfl, rfl⟩

/-- Two rules in a row are like two that are like them. -/
theorem seq {a : Rule s α} {a' : Rule s α'} {b : Rule t β} {b' : Rule t β'} (ha : Alike a a')
    (hb : Alike b b') : Alike (.seq a b) (.seq a' b') := by
  constructor
  · simp only [Rule.first, ha.first, hb.first]
  · simp only [Rule.extensions, ha.extensions, hb.extensions]
  · simp only [Rule.decided, ha.decided, hb.decided, ha.extensions, hb.first]

/-- A choice is like one of rules that are like them. -/
theorem choice {a : Rule true α} {a' : Rule true α'} {b : Rule t α} {b' : Rule t α'} (ha : Alike a a')
    (hb : Alike b b') : Alike (.choice a b) (.choice a' b') := by
  constructor
  · simp only [Rule.first, ha.first, hb.first]
  · simp only [Rule.extensions, ha.extensions, hb.extensions, ha.first]
  · simp only [Rule.decided, ha.decided, hb.decided, ha.first, hb.first]

/-- A repetition is like one of rounds like its own. -/
theorem iterate {a : Rule true (Step α)} {a' : Rule true (Step α')} (h : Alike a a') :
    Alike (.iterate a) (.iterate a') := by
  constructor
  · exact h.first
  · simp only [Rule.extensions, h.extensions, h.first]
  · simp only [Rule.decided, h.decided, h.extensions, h.first]

/-- Values have no part in what a rule starts with. -/
theorem map {a : Rule s α} {a' : Rule s α'} {f : α → β} {f' : α' → β'} (h : Alike a a') :
    Alike (.map f a) (.map f' a') :=
  ⟨h.first, h.extensions, h.decided⟩

/-- Values with ranges have no part in what a rule starts with. -/
theorem ranged {a : Rule true α} {a' : Rule true α'} {f : α → Range → β} {f' : α' → Range → β'}
    (h : Alike a a') : Alike (.ranged f a) (.ranged f' a') :=
  ⟨h.first, h.extensions, h.decided⟩

/-- What is optional is like what is so of a like rule. -/
theorem optional {a : Rule true α} {a' : Rule true α'} (h : Alike a a') :
    Alike a.optional a'.optional :=
  .choice (.map h) ⟨rfl, rfl, rfl⟩

/-- One or more are like one or more of a like rule. -/
theorem oneOrMore {a : Rule true α} {a' : Rule true α'} (h : Alike a a') :
    Alike a.oneOrMore a'.oneOrMore :=
  .map (.seq h (.iterate (.map h)))

end Combinators

variable {factor factor' : Rule true Factor} {body body' : Rule true Alternations}

/-- Bodies are alike if their factors are. -/
theorem alternations (h : Alike factor factor') :
    Alike (Rules.alternations factor) (Rules.alternations factor') := by
  have hone : Alike (Rules.alternation factor) (Rules.alternation factor') := .ranged h.oneOrMore
  exact .ranged (.seq hone (.iterate (.map (.seq (.refl _) hone.optional))))

/-- Brackets are alike if the bodies between them are. -/
theorem bracketed (kind : BracketKind) (h : Alike body body') :
    Alike (Rules.bracketed kind body) (Rules.bracketed kind body') :=
  .ranged (.map (.seq (.refl _) (.map (.seq h.optional (.refl _)))))

end Alike

/-- A factor starts and goes on with the same kinds on every level. -/
theorem alike_factor (levels : Nat) : Alike (Rules.factor levels) (Rules.factor 0) := by
  induction levels with
  | zero => exact .refl _
  | succ levels ih =>
    have hbody := ih.alternations
    have hone : Alike (Rules.factor (levels + 1)) (Rules.factor 1) :=
      .choice (.bracketed .group hbody)
        (.choice (.bracketed .optional hbody) (.choice (.bracketed .repetition hbody) (.refl _)))
    have hzero : Alike (Rules.factor 1) (Rules.factor 0) := ⟨rfl, rfl, rfl⟩
    exact ⟨hone.first.trans hzero.first, hone.extensions.trans hzero.extensions,
      hone.decided.trans hzero.decided⟩

/-- Productions start and go on alike, whatever their levels. -/
theorem alike_production (levels : Nat) : Alike (Rules.production levels) (Rules.production 0) := by
  have hbody := (alike_factor levels).alternations
  have hbodies : Alike (Rules.productionBody levels) (Rules.productionBody 0) :=
    .choice (.map (.map (.seq (.refl _) hbody))) (.choice (.map hbody) (.refl _))
  exact .ranged (.seq (.refl _) (.map (.seq (.refl _) (.map (.seq hbodies (.refl _))))))

/-! ### The parts of a file -/

namespace Rules

open Rule

/-- Everything before `%%`. -/
def prolog : Rule true Prolog :=
  ranged (fun (start, declarations, states) range => ⟨start, declarations, states, range⟩)
    (seq startDeclaration (seq (many declaration) (many scannerState)))

/-- `%%` and the productions, whose brackets nest to the given number of levels. -/
def definition (levels : Nat) : Rule true Definition :=
  ranged Definition.mk (skipThen (mark .percentPercent) (oneOrMore (production levels)))

/-- A whole file, whose brackets nest to the given number of levels. -/
def file (levels : Nat) : Rule true Grammar :=
  map (fun (prolog, definition) => ⟨prolog, definition, prolog.range.hull definition.range⟩)
    (seq prolog (definition levels))

end Rules

/-- The next token settles every choice of a production, at any level. -/
theorem decided_production (levels : Nat) : (Rules.production levels).decided := by
  rw [(alike_production levels).decided]
  rfl

/-- Definitions start and go on alike, whatever their levels. -/
theorem alike_definition (levels : Nat) : Alike (Rules.definition levels) (Rules.definition 0) :=
  .ranged (.map (.seq (.refl _) (alike_production levels).oneOrMore))

/-- The next token settles every choice of a definition, at any level. -/
theorem decided_definition (levels : Nat) : (Rules.definition levels).decided := by
  rw [(alike_definition levels).decided]
  rfl

/-- **One token decides every choice in a file.** -/
theorem decided_file (levels : Nat) : (Rules.file levels).decided := by
  have halike : Alike (Rules.file levels) (Rules.file 0) :=
    .map (.seq (.refl _) (alike_definition levels))
  rw [halike.decided]
  rfl

end GrammarFile
