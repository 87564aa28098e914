import GrammarFile.Proofs.Parsing.FileRule
import GrammarFile.Proofs.Parsing.FirstToken

/-!
# One more level of brackets

The rules of grammar files refuse a bracket where too many are open. `Deeper a b` says that `b` is the
rule `a` with one more level: where `a` refuses a bracket, `b` reads it. Everything that is put together
from a factor of some level is one level less deep than the same thing of the next level
(`deeper_file`).

The deeper rule reads everything that the other one reads (`Deeper.reads`), and it runs in the same way
wherever that one does not refuse a bracket (`Deeper.run`).
-/

namespace GrammarFile

open Rule

/-- Whether a rule refuses no bracket. -/
def Rule.limitless : {s : Bool} → {α : Type} → Rule s α → Bool
  | _, _, nothing _ => true
  | _, _, token _ => true
  | _, _, seq a b => a.limitless && b.limitless
  | _, _, choice a b => a.limitless && b.limitless
  | _, _, iterate body => body.limitless
  | _, _, map _ rule => rule.limitless
  | _, _, ranged _ rule => rule.limitless
  | _, _, tooDeep _ _ => false

/-- Brackets of each kind around a body, or something else. -/
def Rules.brackets (body : Rule true Alternations) (symbol : Rule true Factor) : Rule true Factor :=
  choice (bracketed .group body)
    (choice (bracketed .optional body) (choice (bracketed .repetition body) symbol))

/-- No brackets, or something else. -/
def Rules.noBrackets (symbol : Rule true Factor) : Rule true Factor :=
  choice (tooDeep maxNesting openingBrackets) symbol

/-- Whether the second rule is the first one with one more level of brackets. -/
inductive Deeper : {s : Bool} → {α : Type} → Rule s α → Rule s α → Prop where
  | nothing {α : Type} (value : α) : Deeper (.nothing value) (.nothing value)
  | token (kind : TokenKind) : Deeper (.token kind) (.token kind)
  | brackets {body : Rule true Alternations} {symbol : Rule true Factor} :
      symbol.shallow → Deeper symbol symbol →
        Deeper (Rules.noBrackets symbol) (Rules.brackets body symbol)
  | seq {s t : Bool} {α β : Type} {a a' : Rule s α} {b b' : Rule t β} :
      Deeper a a' → Deeper b b' → Deeper (.seq a b) (.seq a' b')
  | choice {t : Bool} {α : Type} {a a' : Rule true α} {b b' : Rule t α} :
      Deeper a a' → Deeper b b' → Deeper (.choice a b) (.choice a' b')
  | iterate {α : Type} {body body' : Rule true (Step α)} :
      Deeper body body' → Deeper (.iterate body) (.iterate body')
  | map {s : Bool} {α β : Type} {f : α → β} {a a' : Rule s α} :
    Deeper a a' → Deeper (.map f a) (.map f a')
  | ranged {α β : Type} {f : α → Range → β} {a a' : Rule true α} :
      Deeper a a' → Deeper (.ranged f a) (.ranged f a')

namespace Deeper

/-- A rule that refuses no bracket is its own deeper rule. -/
theorem same {s : Bool} {α : Type} {r : Rule s α} (hr : r.limitless) : Deeper r r := by
  induction r with
  | nothing value => exact .nothing value
  | token kind => exact .token kind
  | seq a b iha ihb =>
    rw [limitless, Bool.and_eq_true] at hr
    exact .seq (iha hr.1) (ihb hr.2)
  | choice a b iha ihb =>
    rw [limitless, Bool.and_eq_true] at hr
    exact .choice (iha hr.1) (ihb hr.2)
  | iterate body ih => exact .iterate (ih hr)
  | map f rule ih => exact .map (ih hr)
  | ranged f rule ih => exact .ranged (ih hr)
  | tooDeep => cases hr

/-- What is optional may be one level deeper. -/
theorem optional {α : Type} {a a' : Rule true α} (h : Deeper a a') : Deeper a.optional a'.optional :=
  .choice (.map h) (.same rfl)

/-- One or more may be one level deeper. -/
theorem oneOrMore {α : Type} {a a' : Rule true α} (h : Deeper a a') : Deeper a.oneOrMore a'.oneOrMore :=
  .map (.seq h (.iterate (.map h)))

/-- A body is one level deeper if its factors are. -/
theorem alternations {factor factor' : Rule true Factor} (h : Deeper factor factor') :
    Deeper (Rules.alternations factor) (Rules.alternations factor') := by
  have hone : Deeper (Rules.alternation factor) (Rules.alternation factor') := .ranged h.oneOrMore
  exact .ranged (.seq hone (.iterate (.map (.seq (.same rfl) hone.optional))))

/-- Brackets are one level deeper if the body between them is. -/
theorem bracketed (kind : BracketKind) {body body' : Rule true Alternations} (h : Deeper body body') :
    Deeper (Rules.bracketed kind body) (Rules.bracketed kind body') :=
  .ranged (.map (.seq (.same rfl) (.map (.seq h.optional (.same rfl)))))

end Deeper

/-- A factor with one more level is deeper. -/
theorem deeper_factor (levels : Nat) : Deeper (Rules.factor levels) (Rules.factor (levels + 1)) := by
  induction levels with
  | zero => exact .brackets rfl (.same rfl)
  | succ levels ih =>
    have hbody := ih.alternations
    exact .choice (.bracketed .group hbody)
      (.choice (.bracketed .optional hbody) (.choice (.bracketed .repetition hbody) (.same rfl)))

/-- A production with one more level is deeper. -/
theorem deeper_production (levels : Nat) :
    Deeper (Rules.production levels) (Rules.production (levels + 1)) := by
  have hbody := (deeper_factor levels).alternations
  have hbodies : Deeper (Rules.productionBody levels) (Rules.productionBody (levels + 1)) :=
    .choice (.map (.map (.seq (.same rfl) hbody))) (.choice (.map hbody) (.same rfl))
  exact .ranged (.seq (.same rfl) (.map (.seq (.same rfl) (.map (.seq hbodies (.same rfl))))))

/-- **A file of one more level is the same rule with one more level of brackets.** -/
theorem deeper_file (levels : Nat) : Deeper (Rules.file levels) (Rules.file (levels + 1)) :=
  .map (.seq (.same rfl) (.ranged (.map (.seq (.same rfl) (deeper_production levels).oneOrMore))))

/-! ### What the deeper rule reads -/

/-- The deeper rule starts with the same kinds. -/
theorem Deeper.first {s : Bool} {α : Type} {a b : Rule s α} (h : Deeper a b) : a.first = b.first := by
  induction h with
  | nothing => rfl
  | token => rfl
  | brackets => rfl
  | seq _ _ iha ihb => simp only [Rule.first, iha, ihb]
  | choice _ _ iha ihb => simp only [Rule.first, iha, ihb]
  | iterate _ ih => exact ih
  | map _ ih => exact ih
  | ranged _ ih => exact ih

/-- Rounds of readings are rounds of whatever reads as much. -/
theorem Rounds.mono {α : Type} {reads reads' : List LocatedToken → Step α → Prop}
    (hreads : ∀ ts x, reads ts x → reads' ts x) {ts : List LocatedToken} {xs : List α}
    (h : Rounds reads ts xs) : Rounds reads' ts xs := by
  induction h with
  | done => exact .done
  | last h => exact .last (hreads _ _ h)
  | more h _ ih => exact .more (hreads _ _ h) ih

/-- **The deeper rule reads everything that the other one reads.** -/
theorem Deeper.reads {s : Bool} {α : Type} {a b : Rule s α} (h : Deeper a b)
    {ts : List LocatedToken} {x : α} (hx : a.Reads ts x) : b.Reads ts x := by
  induction h generalizing ts with
  | nothing => exact hx
  | token => exact hx
  | brackets => exact .inr (.inr (.inr (hx.resolve_left id)))
  | seq _ _ iha ihb =>
    obtain ⟨us, vs, rfl, hus, hvs⟩ := hx
    exact ⟨us, vs, rfl, iha hus, ihb hvs⟩
  | choice _ _ iha ihb => exact hx.imp iha ihb
  | iterate _ ih => exact Rounds.mono (fun _ _ => ih) hx
  | map _ ih =>
    obtain ⟨y, hy, rfl⟩ := hx
    exact ⟨y, ih hy, rfl⟩
  | ranged _ ih =>
    obtain ⟨y, hy, rfl⟩ := hx
    exact ⟨y, ih hy, rfl⟩

/-! ### How the deeper rule runs -/

/-- Whether a run has refused a bracket, or has ended as another one has: with the same value at the
same place, or with the same fault in front of the same tokens. -/
inductive Outcome.SameUnlessRefused {α : Type} : Outcome α → Outcome α → Prop where
  | refused (limit : Nat) (c : Cursor) (o : Outcome α) : SameUnlessRefused (failed (.tooDeep limit) c) o
  | ok (x : α) (c : Cursor) : SameUnlessRefused (ok x c) (ok x c)
  | failed (fault : Fault) {c c' : Cursor} :
      c.rest = c'.rest → SameUnlessRefused (failed fault c) (failed fault c')

namespace Outcome.SameUnlessRefused

variable {α β : Type} {o o' : Outcome α}

/-- An outcome is the same as itself. -/
theorem refl (o : Outcome α) : o.SameUnlessRefused o := by
  cases o with
  | ok x c => exact ok x c
  | failed fault c => exact failed fault rfl

/-- What is the same unless a bracket is refused is so over a third outcome. -/
theorem trans {o'' : Outcome α} (h : o.SameUnlessRefused o') (h' : o'.SameUnlessRefused o'') :
    o.SameUnlessRefused o'' := by
  cases h with
  | refused limit c => exact refused limit c o''
  | ok x c => exact h'
  | failed fault hrest =>
    cases h' with
    | refused limit => exact refused limit _ o''
    | failed _ hrest' => exact failed fault (hrest.trans hrest')

/-- Runs that are the same unless a bracket is refused may go on so. -/
theorem bind {f f' : α → Cursor → Outcome β} (h : o.SameUnlessRefused o')
    (hf : ∀ x c, o = .ok x c → (f x c).SameUnlessRefused (f' x c)) :
    (o.bind f).SameUnlessRefused (o'.bind f') := by
  cases h with
  | refused limit c => exact refused limit c _
  | ok x c => exact hf x c rfl
  | failed fault hrest => exact failed fault hrest

/-- What is made of a value has no part in what is refused. -/
theorem map (f : α → β) (h : o.SameUnlessRefused o') : (o.map f).SameUnlessRefused (o'.map f) := by
  cases h with
  | refused limit c => exact refused limit c _
  | ok x c => exact ok (f x) c
  | failed fault hrest => exact failed fault hrest

end Outcome.SameUnlessRefused

/-- Where no bracket is next the rest runs, with the brackets looked for in vain one after the other. -/
theorem run_brackets_of_not_sees {body : Rule true Alternations} {symbol : Rule true Factor} {c : Cursor}
    (h : ¬c.sees Rules.openingBrackets) :
    (Rules.brackets body symbol).run c =
      symbol.run (c.withTried (Rules.openingBrackets.reverse ++ c.tried)) := by
  have hunseen : ∀ kind (d : Cursor), d.rest = c.rest → ¬d.sees (Rules.bracketed kind body).first := by
    intro kind d hd hsees
    rw [Cursor.sees, hd] at hsees
    refine h (Cursor.sees_mono (c := c) hsees fun k hk => ?_)
    rw [List.mem_singleton.mp hk]
    cases kind <;> decide
  rw [Rules.brackets, run_choice_of_not_sees (hunseen .group c rfl),
    run_choice_of_not_sees (hunseen .optional (c.miss _) rfl),
    run_choice_of_not_sees (hunseen .repetition ((c.miss _).miss _) rfl)]
  rfl

/-- Where no brackets may be opened the rest runs as where they may be, unless a bracket is refused. -/
theorem run_noBrackets {body : Rule true Alternations} {symbol : Rule true Factor}
    (hsymbol : symbol.shallow) (c : Cursor) :
    ((Rules.noBrackets symbol).run c).SameUnlessRefused ((Rules.brackets body symbol).run c) := by
  by_cases hbracket : c.sees Rules.openingBrackets
  · rw [Rules.noBrackets, Rule.run, first, if_pos hbracket, Rule.run, if_pos hbracket]
    exact .refused _ _ _
  · -- no bracket is next, so both go on in the same way, having missed the brackets in different orders
    have hrefusal : (Rules.noBrackets symbol).run c =
        symbol.run (c.withTried (Rules.openingBrackets ++ c.tried)) := by
      rw [Rules.noBrackets, run_choice_of_not_sees hbracket]
      rfl
    have htried : ∀ k,
        k ∈ Rules.openingBrackets ++ c.tried ↔ k ∈ Rules.openingBrackets.reverse ++ c.tried := by
      simp
    rw [hrefusal, run_brackets_of_not_sees hbracket]
    rcases run_congr_tried hsymbol c htried with hsame | ⟨fault, left, left', hrun, hrun'⟩
    · rw [hsame]
      exact .refl _
    · rw [hrun, hrun']
      exact .failed fault rfl

/-- **A deeper rule runs in the same way unless the other one refuses a bracket.** -/
theorem Deeper.run {s : Bool} {α : Type} {a b : Rule s α} (h : Deeper a b) (c : Cursor) :
    (a.run c).SameUnlessRefused (b.run c) := by
  induction h generalizing c with
  | nothing => exact .refl _
  | token => exact .refl _
  | brackets hsymbol => exact run_noBrackets hsymbol c
  | seq _ _ iha ihb => exact (iha c).bind fun x c' _ => (ihb c').map (x, ·)
  | choice ha _ iha ihb =>
    rw [Rule.run, Rule.run, ← ha.first]
    split
    · exact iha c
    · exact ihb (c.miss _)
  | @iterate _ body body' hbody ih =>
    -- every round leaves fewer tokens
    induction c using Cursor.induction_on_rest with
    | step c hrounds =>
      rw [run_iterate, run_iterate, ← hbody.first]
      split
      · refine (ih c).bind fun value c' hrun => ?_
        cases value with
        | last a => exact .refl _
        | more a => exact (hrounds c' (length_lt_of_run hrun)).map (a :: ·)
      · exact .refl _
  | map _ ih => exact (ih c).map _
  | ranged _ ih => exact (ih c).bind fun x c' _ => .ok _ c'

/-- A file of more levels runs in the same way unless a bracket is refused. -/
theorem run_file_of_le {levels more : Nat} (h : levels ≤ more) (c : Cursor) :
    ((Rules.file levels).run c).SameUnlessRefused ((Rules.file more).run c) := by
  induction h with
  | refl => exact .refl _
  | @step more _ ih => exact ih.trans ((deeper_file more).run c)

end GrammarFile
