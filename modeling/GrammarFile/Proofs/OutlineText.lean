import GrammarFile.Proofs.Catalog
import GrammarFile.Proofs.RoundTrip

/-!
# What an outline keeps of a file

The text of a file can be read off its outline (`Grammar.print_outline`): the labels of the nodes
are the texts of its parts, and where a label is something else (a name, a count, `<empty>`), the
children and the attributes make up for it. Ranges are not looked at. So outlines of the same
structure stand for the same text, hence for the same tokens, and files with the same tokens are
parsed to the same tree up to locations.
-/

namespace GrammarFile

open Outline (leaf)

namespace Outline

/-! ### Reading the text off an outline -/

/-- An alternation, of which one without children has no text. -/
def alternationText (o : Outline) : String :=
  if o.children.isEmpty then "" else o.label

/-- An alternation after its pipe. -/
def afterPipeText (o : Outline) : String :=
  if o.children.isEmpty then " |" else " | " ++ o.label

/-- A body. -/
def bodyText (o : Outline) : String :=
  match o.children with
  | [] => ""
  | head :: tail => head.alternationText ++ String.join (tail.map (·.afterPipeText))

/-- A production up to its semicolon. -/
def productionText (o : Outline) : String :=
  o.label ++ ":" ++ (if (o.attributes.get? "leading_pipe").isSome then " |" else "") ++
    String.join (o.children.map fun body => " " ++ body.bodyText) ++ ";"

/-- A scanner state as a block. -/
def stateText (o : Outline) : String :=
  if o.children.isEmpty then "%scanner " ++ o.label ++ " \x7b\x7d\n"
  else
    "%scanner " ++ o.label ++ " \x7b\n" ++
      String.join (o.children.map fun d => "    " ++ d.label ++ "\n") ++ "\x7d\n"

/-- A part of the prolog. The start declaration is the label of the prolog itself. -/
def prologPartText (o : Outline) : String :=
  if o.nodeType = "scanner_state" then "\n" ++ o.stateText
  else if o.nodeType = "declaration" then o.label ++ "\n"
  else ""

/-- The file that an outline stands for. -/
def print (o : Outline) : String :=
  match o.children with
  | [prolog, definition] =>
    prolog.label ++ "\n" ++ String.join (prolog.children.map (·.prologPartText)) ++
      "\n%%\n\n" ++ String.join (definition.children.map fun p => p.productionText ++ "\n")
  | _ => ""

section

variable (o : Outline)

/-! ### Ranges are not looked at -/

/-- An outline keeps its label without locations. -/
@[simp]
theorem label_erase : o.erase.label = o.label := by
  rw [erase_eq]

/-- An outline keeps its type without locations. -/
@[simp]
theorem nodeType_erase : o.erase.nodeType = o.nodeType := by
  rw [erase_eq]

/-- An outline keeps its attributes without locations. -/
@[simp]
theorem attributes_erase : o.erase.attributes = o.attributes := by
  rw [erase_eq]

/-- The children of an outline lose their locations with it. -/
@[simp]
theorem children_erase : o.erase.children = o.children.map erase := by
  rw [erase_eq]

/-- The text of an alternation needs no locations. -/
@[simp]
theorem alternationText_erase : o.erase.alternationText = o.alternationText := by
  simp [alternationText]

/-- The text of an alternation behind a pipe needs no locations. -/
@[simp]
theorem afterPipeText_erase : o.erase.afterPipeText = o.afterPipeText := by
  simp [afterPipeText]

/-- The text of a body needs no locations. -/
@[simp]
theorem bodyText_erase : o.erase.bodyText = o.bodyText := by
  unfold bodyText
  rw [children_erase]
  cases o.children <;> simp [Function.comp_def]

/-- The text of a production needs no locations. -/
@[simp]
theorem productionText_erase : o.erase.productionText = o.productionText := by
  simp [productionText, Function.comp_def]

/-- The text of a scanner state needs no locations. -/
@[simp]
theorem stateText_erase : o.erase.stateText = o.stateText := by
  simp [stateText, Function.comp_def]

/-- The text of a part of the prolog needs no locations. -/
@[simp]
theorem prologPartText_erase : o.erase.prologPartText = o.prologPartText := by
  simp [prologPartText]

/-- The text of a whole file needs no locations. -/
theorem print_erase : o.erase.print = o.print := by
  unfold print
  rw [children_erase]
  match o.children with
  | [] | [_] | _ :: _ :: _ :: _ => rfl
  | [prolog, definition] => simp [Function.comp_def]

end

/-- Outlines of the same structure stand for the same file. -/
theorem print_eq_of_sameStructure {a b : Outline} (h : a.sameStructure b) : a.print = b.print := by
  rw [← a.print_erase, (sameStructure_iff a b).mp h, b.print_erase]

end Outline

/-! ### The text of a tree -/

/-- The outlines of alternations behind a pipe have their text. -/
theorem join_afterPipeText (as : List Alternation) :
    String.join ((outlineAlternations as).map (·.afterPipeText)) = displayAfterPipe as := by
  induction as with
  | nil => rfl
  | cons a as ih =>
    obtain ⟨fs, r⟩ := a
    rw [outlineAlternations, List.map_cons, String.join_cons, ih]
    cases fs <;> rfl

/-- The outline of a body has its text. -/
@[simp]
theorem AlternationsOf.bodyText_outline (b : Alternations) :
    (AlternationsOf.outline b).bodyText = AlternationsOf.display b := by
  obtain ⟨as, r⟩ := b
  cases as with
  | nil => rfl
  | cons a as =>
    obtain ⟨fs, _⟩ := a
    have htail := join_afterPipeText as
    -- an alternation is labelled `<empty>` just where it has no children
    cases fs with
    | nil => exact congrArg ("" ++ ·) htail
    | cons f fs => exact congrArg (" ".intercalate (displayFactors (f :: fs)) ++ ·) htail

/-- The outline of a production has its text. -/
@[simp]
theorem Production.productionText_outline (p : Production) : p.outline.productionText = p.display := by
  obtain ⟨name, leadingPipe, body, r⟩ := p
  have hnone : (Catalog.empty : Attributes).get? "leading_pipe" = none := rfl
  cases leadingPipe <;> cases body <;>
    simp [Production.outline, Production.display, Outline.productionText, leaf, Outline.withAttribute,
      Outline.withChildren, Catalog.get?_insert, hnone]

/-- The outline of a directive is labelled with its text. -/
@[simp]
theorem Directive.label_outline (d : Directive) : d.outline.label = d.display := by
  unfold Directive.outline
  cases d.kind <;> rfl

/-- The outline of a scanner state has its text. -/
@[simp]
theorem ScannerState.stateText_outline (s : ScannerState) : s.outline.stateText = s.print := by
  simp [ScannerState.outline, ScannerState.print, Outline.stateText, leaf, Outline.withAttribute,
    Outline.withChildren, Function.comp_def]

/-- The start declaration adds nothing to the text of the parts behind it. -/
theorem StartDeclaration.prologPartText_outline (s : StartDeclaration) : s.outline.prologPartText = "" :=
  rfl

/-- The outline of a declaration has its line. -/
theorem Declaration.prologPartText_outline (d : Declaration) :
    d.outline.prologPartText = d.display ++ "\n" := by
  unfold Declaration.outline
  cases d.kind <;> rfl

/-- The outline of a scanner state has its text, behind an empty line. -/
theorem ScannerState.prologPartText_outline (s : ScannerState) :
    s.outline.prologPartText = "\n" ++ s.print := by
  rw [← s.stateText_outline]
  rfl

/-- **The text of a file can be read off its outline.** -/
theorem Grammar.print_outline (g : Grammar) : g.outline.print = g.print := by
  have hprolog : String.join (g.prolog.outline.children.map (·.prologPartText)) =
      String.join (g.prolog.declarations.map fun d => d.display ++ "\n") ++
        String.join (g.prolog.states.map fun s => "\n" ++ s.print) := by
    simp [Prolog.outline, leaf, Outline.withChildren, Function.comp_def,
      StartDeclaration.prologPartText_outline, Declaration.prologPartText_outline,
      ScannerState.prologPartText_outline]
  have hdefinition : String.join (g.definition.outline.children.map fun p => p.productionText ++ "\n") =
      String.join (g.productions.map fun p => p.display ++ "\n") := by
    simp [Definition.outline, leaf, Outline.withChildren, Function.comp_def, Grammar.productions]
  have hprint : g.outline.print = g.prolog.start.display ++ "\n" ++
      String.join (g.prolog.outline.children.map (·.prologPartText)) ++ "\n%%\n\n" ++
      String.join (g.definition.outline.children.map fun p => p.productionText ++ "\n") := rfl
  rw [hprint, hprolog, hdefinition, Grammar.print]
  simp only [String.append_assoc]

/-! ### Parsed files -/

section

variable {a b : String} {options options' : ParserOptions} {g h : Grammar}

/-- A parsed tree is decided by the tokens of its source, up to locations. -/
theorem erase_eq_of_tokens {us vs : List Lexeme} (hg : parse a options = .ok g)
    (hh : parse b options' = .ok h) (hus : lex a = .ok us) (hvs : lex b = .ok vs)
    (htokens : us.map (·.token) = vs.map (·.token)) : g.erase = h.erase := by
  obtain ⟨h', hh', herase⟩ := exists_parse_of_tokens hg hus hvs htokens.symm options'
  rw [← herase, Except.ok.inj (hh.symm.trans hh')]

/-- Parsed trees with the same text were parsed from the same tokens. -/
theorem tokens_eq_of_print_eq (hg : parse a options = .ok g) (hh : parse b options' = .ok h)
    (hprint : g.print = h.print) : g.tokens = h.tokens := by
  obtain ⟨us, hus, hutokens⟩ := exists_lex_print (isLexeme_of_parse hg)
  obtain ⟨vs, hvs, hvtokens⟩ := exists_lex_print (isLexeme_of_parse hh)
  rw [hprint, hvs] at hus
  rw [← hutokens, ← hvtokens, Except.ok.inj hus]

/-- **Two files have outlines of the same structure just where they are printed alike, and just where
they consist of the same tokens.** -/
theorem sameStructure_iff_of_parse (hg : parse a options = .ok g) (hh : parse b options' = .ok h) :
    (g.outline.sameStructure h.outline ↔ g.print = h.print) ∧
    (g.print = h.print ↔
      ∃ us vs, lex a = .ok us ∧ lex b = .ok vs ∧ us.map (·.token) = vs.map (·.token)) := by
  obtain ⟨us, hus, hgtokens⟩ := tokens_eq_of_parse hg
  obtain ⟨vs, hvs, hhtokens⟩ := tokens_eq_of_parse hh
  have hprint : g.outline.sameStructure h.outline → g.print = h.print := by
    intro hsame
    rw [← g.print_outline, ← h.print_outline, Outline.print_eq_of_sameStructure hsame]
  have htokens : g.print = h.print → us.map (·.token) = vs.map (·.token) := by
    intro heq
    rw [← hgtokens, ← hhtokens, tokens_eq_of_print_eq hg hh heq]
  have hsame : us.map (·.token) = vs.map (·.token) → g.outline.sameStructure h.outline := by
    intro heq
    exact Grammar.sameStructure_of_erase_eq (erase_eq_of_tokens hg hh hus hvs heq)
  constructor
  · exact ⟨hprint, fun heq => hsame (htokens heq)⟩
  · constructor
    · exact fun heq => ⟨us, vs, hus, hvs, htokens heq⟩
    · rintro ⟨us', vs', hus', hvs', heq⟩
      obtain rfl := Except.ok.inj (hus.symm.trans hus')
      obtain rfl := Except.ok.inj (hvs.symm.trans hvs')
      exact hprint (hsame heq)

end

/-- Layouts of a body with a trailing pipe have the same structure. Without that pipe it is another. -/
theorem sameStructure_iff_trailing_pipe :
    ∃ g h k, parse "%start A%%A:|B|;" .default = .ok g ∧
      parse "%start A // one\n%%\nA :\n | B\n | ;" .default = .ok h ∧
      parse "%start A%%A:|B;" .default = .ok k ∧
      g.outline.sameStructure h.outline ∧ g.print = h.print ∧
      ¬ g.outline.sameStructure k.outline ∧ g.print ≠ k.print := by
  have hok : (parse "%start A%%A:|B|;" .default).isOk := by decide +kernel
  have hok' : (parse "%start A // one\n%%\nA :\n | B\n | ;" .default).isOk := by decide +kernel
  have hok'' : (parse "%start A%%A:|B;" .default).isOk := by decide +kernel
  have htokens : (lex "%start A%%A:|B|;").map (·.map (·.token)) =
      (lex "%start A // one\n%%\nA :\n | B\n | ;").map (·.map (·.token)) := by
    decide +kernel
  have hprint : (parse "%start A%%A:|B|;" .default).map (·.print) ≠
      (parse "%start A%%A:|B;" .default).map (·.print) := by
    decide +kernel
  obtain ⟨g, hg⟩ := exists_parse_of_isOk hok
  obtain ⟨h, hh⟩ := exists_parse_of_isOk hok'
  obtain ⟨k, hk⟩ := exists_parse_of_isOk hok''
  obtain ⟨us, hus, -⟩ := tokens_eq_of_parse hg
  obtain ⟨vs, hvs, -⟩ := tokens_eq_of_parse hh
  obtain ⟨hsame, heq⟩ := sameStructure_iff_of_parse hg hh
  rw [hus, hvs] at htokens
  rw [hg, hk] at hprint
  have hgh : g.print = h.print := heq.mpr ⟨us, vs, hus, hvs, Except.ok.inj htokens⟩
  have hgk : g.print ≠ k.print := fun hprinted => hprint (congrArg Except.ok hprinted)
  exact ⟨g, h, k, hg, hh, hk, hsame.mpr hgh, hgh,
    fun hsame' => hgk ((sameStructure_iff_of_parse hg hk).1.mp hsame'), hgk⟩

end GrammarFile
