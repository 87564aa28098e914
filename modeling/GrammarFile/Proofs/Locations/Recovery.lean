import GrammarFile.Proofs.Locations.Run
import GrammarFile.Proofs.Parsing.Attempt

/-!
# Reading whole files without locations

`parse` goes on after errors, and where it goes on is decided by the kinds of tokens too. So a whole
reading, mistakes included, comes to the same without the locations of the tokens, up to locations in
the tree and in the errors (`parseTokens_erase`). Each part of a file has a lemma that says so, in the
order in which the parts are put together.
-/

namespace GrammarFile

/-! ### Findings and errors -/

/-- The error without its location. -/
def ParseError.erase (e : ParseError) : ParseError :=
  ⟨e.fault, e.found, .origin⟩

/-- The findings without the locations of the errors. -/
def Findings.erase (found : Findings) : Findings :=
  ⟨found.errors.map (·.erase), found.stopped⟩

/-- The same options, and a source that ends at the origin. -/
def ParseContext.erase (context : ParseContext) : ParseContext :=
  ⟨context.options, .origin⟩

/-- The reading with what was built replaced, and without the locations of errors and tokens. -/
def Reading.erase {α : Type} (e : α → α) (r : Reading α) : Reading α :=
  ⟨e r.value, r.found.erase, r.cursor.erase⟩

/-- The same fault is blamed without locations. -/
theorem ParseContext.blame_erase (context : ParseContext) (fault : Fault) (c : Cursor) :
    context.erase.blame fault c.erase = (context.blame fault c).erase := by
  unfold blame Cursor.erase
  cases c.rest <;> rfl

/-- The same fault is reported without locations. -/
@[simp]
theorem ParseContext.report_erase (context : ParseContext) (found : Findings) (fault : Fault)
    (c : Cursor) :
    context.erase.report found.erase fault c.erase = (context.report found fault c).erase := by
  simp only [report, Findings.report, Findings.erase, blame_erase, List.map_append, List.map_cons,
    List.map_nil, List.length_append, List.length_map, List.length_cons, List.length_nil]
  rfl

/-- What is made of a reading may be made before or after the locations are lost. -/
theorem Reading.erase_map {α β : Type} {e : α → α} {e' : β → β} {f f' : α → β}
    (hf : ∀ x, f' (e x) = e' (f x)) (r : Reading α) : (r.erase e).map f' = (r.map f).erase e' := by
  rw [map, erase, map, erase, hf]

/-- Whether a reading is the last one does not depend on locations. -/
theorem Reading.isLast_erase {α : Type} {e : α → α} (r : Reading α) : (r.erase e).isLast = r.isLast := by
  rw [isLast, isLast, erase, Cursor.erase, List.isEmpty_map]
  rfl

/-! ### Going on after an error -/

/-- The kind of the next token does not depend on locations. -/
theorem headIn_erase (kinds : List TokenKind) (ts : List LocatedToken) :
    headIn kinds (ts.map (·.erase)) = headIn kinds ts := by
  cases ts <;> rfl

/-- Whether a production starts does not depend on locations. -/
theorem startsProduction_erase : (ts : List LocatedToken) →
    startsProduction (ts.map (·.erase)) = startsProduction ts
  | [] | [_] | _ :: _ :: _ => rfl

/-- Skipping to a start does not depend on locations if the start does not. -/
theorem skipTo_erase {isStart : List LocatedToken → Bool}
    (h : ∀ ts, isStart (ts.map (·.erase)) = isStart ts) (ts : List LocatedToken) :
    skipTo isStart (ts.map (·.erase)) = (skipTo isStart ts).map (·.erase) := by
  induction ts with
  | nil => rfl
  | cons t ts ih =>
    have hhead : isStart (t.erase :: ts.map (·.erase)) = isStart (t :: ts) := h (t :: ts)
    rw [List.map_cons, skipTo, skipTo, hhead, ih]
    split <;> rfl

namespace Cursor

/-- Going on behind an error does not depend on locations if the start does not. -/
theorem resume_erase {isStart : List LocatedToken → Bool}
    (h : ∀ ts, isStart (ts.map (·.erase)) = isStart ts) (c start : Cursor) :
    c.erase.resume start.erase isStart = (c.resume start isStart).erase := by
  simp only [resume, erase, List.length_map, ← List.map_tail, ← apply_ite (List.map LocatedToken.erase),
    skipTo_erase h]

/-- Passing a mark does not depend on locations. -/
theorem pass_erase (c : Cursor) (m : Mark) : c.erase.pass m = (c.pass m).erase := by
  unfold pass
  rw [sees_erase, apply_ite erase]
  simp only [erase, List.map_tail]

/-- Going on in the prolog does not depend on locations. -/
theorem resumeProlog_erase (c start : Cursor) :
    c.erase.resumeProlog start.erase = (c.resumeProlog start).erase :=
  resume_erase (headIn_erase _) c start

/-- Going on behind a scanner state does not depend on locations. -/
theorem resumeState_erase (c start : Cursor) :
    c.erase.resumeState start.erase = (c.resumeState start).erase := by
  unfold resumeState
  rw [resume_erase (headIn_erase _), pass_erase]

/-- Going on behind a production does not depend on locations. -/
theorem resumeProduction_erase (c start : Cursor) :
    c.erase.resumeProduction start.erase = (c.resumeProduction start).erase := by
  unfold resumeProduction
  rw [resume_erase, pass_erase]
  intro ts
  rw [headIn_erase, startsProduction_erase]

end Cursor

/-! ### The parts of a file -/

/-- The part of the prolog without its locations. -/
def PrologItem.erase : PrologItem → PrologItem
  | declaration d => declaration d.erase
  | state s => state s.erase

/-- An item of the prolog is read alike without locations. -/
theorem Rule.Erases.prologItem (allowed : Bool) : Erases (prologItem allowed) PrologItem.erase := by
  have hstate : Erases (.map PrologItem.state Rules.scannerState) PrologItem.erase :=
    scannerState.map fun _ => rfl
  cases allowed with
  | false => exact hstate
  | true => exact hstate.choice (declaration.map fun _ => rfl)

/-- The declarations and scanner states without their locations. -/
def eraseItems (items : List Declaration × List ScannerState) : List Declaration × List ScannerState :=
  items.map (List.map (·.erase)) (List.map (·.erase))

/-- The items of the prolog are read alike without locations. -/
theorem prologItems_erase (context : ParseContext) (ahead : List LocatedToken) (allowed : Bool)
    (found : Findings) (c : Cursor) :
    prologItems context.erase (ahead.map (·.erase)) allowed found.erase c.erase =
      (prologItems context ahead allowed found c).erase eraseItems := by
  induction ahead generalizing allowed found c with
  | nil => rfl
  | cons t ahead ih =>
    have hend : (found.erase.stopped || c.erase.rest.isEmpty || c.erase.sees [.mark .percentPercent]) =
        (found.stopped || c.rest.isEmpty || c.sees [.mark .percentPercent]) := by
      rw [Cursor.sees_erase, Cursor.erase, List.isEmpty_map]
      rfl
    rw [List.map_cons, prologItems, prologItems, hend, Cursor.miss_erase,
      Rule.Erases.prologItem allowed (c.miss _)]
    split
    · rfl
    cases (prologItem allowed).run (c.miss [.mark .percentPercent]) with
    | ok item c' =>
      cases item <;> simp only [Outcome.erase, PrologItem.erase, ih] <;>
        exact Reading.erase_map (fun _ => rfl) _
    | failed fault c' =>
      simp only [Outcome.erase, Cursor.sees_erase, Cursor.resumeState_erase, Cursor.resumeProlog_erase,
        ParseContext.report_erase, ← apply_ite Cursor.erase, ih]

/-- The start declaration is read alike without locations. -/
theorem startDeclaration_erase (context : ParseContext) (c : Cursor) :
    startDeclaration context.erase c.erase =
      (startDeclaration context c).erase (Option.map (·.erase)) := by
  unfold startDeclaration
  rw [Rule.Erases.startDeclaration c]
  cases Rules.startDeclaration.run c with
  | ok start c' => rfl
  | failed fault c' =>
    have hnone : Findings.none = Findings.none.erase := rfl
    have hsame : { c'.erase with tried := [] } = Cursor.erase { c' with tried := [] } := rfl
    simp only [Outcome.erase, Reading.erase, Cursor.sees_erase, Cursor.resumeProlog_erase, hsame,
      ← apply_ite Cursor.erase]
    rw [hnone, ParseContext.report_erase]
    rfl

/-- The prolog is read alike without locations. -/
theorem prolog_erase (context : ParseContext) (c : Cursor) :
    prolog context.erase c.erase = (prolog context c).erase (Option.map (·.erase)) := by
  unfold prolog
  rw [startDeclaration_erase]
  generalize startDeclaration context c = start
  have hitems := prologItems_erase context start.cursor.rest true start.found start.cursor
  simp only [Reading.erase, Cursor.erase] at hitems ⊢
  rw [hitems]
  cases start.value <;> rfl

/-- An attempt at a production comes to the same without locations. -/
theorem productionAttempt_erase (context : ParseContext) (found : Findings) (c : Cursor) :
    productionAttempt context.erase found.erase c.erase =
      (productionAttempt context found c).erase (List.map (·.erase)) := by
  unfold productionAttempt
  rw [Rule.Erases.production maxNesting c]
  cases (Rules.production maxNesting).run c with
  | ok p c' => rfl
  | failed fault c' =>
    simp only [Outcome.erase, ParseContext.report_erase, Cursor.resumeProduction_erase, Reading.erase]
    rw [apply_ite Cursor.erase]
    rfl

/-- The productions are read alike without locations. -/
theorem productions_erase (context : ParseContext) (ahead : List LocatedToken) (found : Findings)
    (c : Cursor) :
    productions context.erase (ahead.map (·.erase)) found.erase c.erase =
      (productions context ahead found c).erase (List.map (·.erase)) := by
  induction ahead generalizing found c with
  | nil => rw [List.map_nil, productions_nil, productions_nil, productionAttempt_erase]
  | cons t ahead ih =>
    rw [List.map_cons, productions_cons, productions_cons, productionAttempt_erase]
    generalize productionAttempt context found c = first
    dsimp only
    rw [Reading.isLast_erase, apply_ite (Reading.erase _)]
    congr 1
    refine (congrArg (Reading.map _) (ih first.found first.cursor)).trans (Reading.erase_map ?_ _)
    exact fun ps => (List.map_append ..).symm

/-- What stands behind the prolog is read alike without locations. -/
theorem definition_erase (context : ParseContext) (found : Findings) (c : Cursor) :
    definition context.erase found.erase c.erase =
      (definition context found c).erase (Option.map (·.erase)) := by
  unfold definition
  rw [Rule.Erases.mark .percentPercent c]
  cases (Rules.mark .percentPercent).run c with
  | ok percent c' =>
    have hitems := productions_erase context c'.rest found c'
    simp only [Outcome.erase, Cursor.erase] at hitems ⊢
    rw [hitems]
    rfl
  | failed fault c' =>
    simp only [Outcome.erase, ParseContext.report_erase]
    rfl

/-! ### A whole file -/

/-- The productions are read alike behind a prolog that was read without locations. -/
theorem definitionAfter_erase (context : ParseContext) (first : Reading (Option Prolog)) :
    definitionAfter context.erase (first.erase (Option.map (·.erase))) =
      (definitionAfter context first).erase (Option.map (·.erase)) := by
  unfold definitionAfter
  rw [apply_ite (Reading.erase _), ← definition_erase]
  rfl

/-- The tree or the errors without their locations. -/
def eraseResult (result : Except (List ParseError) Grammar) : Except (List ParseError) Grammar :=
  (result.map (·.erase)).mapError (List.map (·.erase))

/-- What a prolog, productions and errors come to does not depend on locations. -/
theorem assemble_erase (p : Option Prolog) (d : Option Definition) (errors : List ParseError) :
    assemble (p.map (·.erase)) (d.map (·.erase)) (errors.map (·.erase)) =
      eraseResult (assemble p d errors) := by
  cases p <;> cases d <;> cases errors <;> rfl

/-- **A reading does without locations.** On the tokens without their locations it gives the same tree,
or the same errors in the same order, up to locations. -/
theorem parseTokens_erase (context : ParseContext) (tokens : List LocatedToken) :
    parseTokens context.erase (tokens.map (·.erase)) = eraseResult (parseTokens context tokens) := by
  have hprolog : prolog context.erase (.start (tokens.map (·.erase))) =
      (prolog context (.start tokens)).erase (Option.map (·.erase)) :=
        prolog_erase context (.start tokens)
  rw [parseTokens_eq, parseTokens_eq, hprolog]
  dsimp only
  rw [definitionAfter_erase]
  exact assemble_erase _ _ _

end GrammarFile
