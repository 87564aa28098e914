import GrammarFile.Proofs.Parsing.Attempt
import GrammarFile.Proofs.Parsing.File
import GrammarFile.Proofs.Parsing.FirstToken

/-!
# The first error is that of the rule of a file

A reading goes on after an error, and the rule of a whole file does not. Up to the first error the two
do the same, so the first error of a reading blames the token where a run of the rule ends, and lists
what the rule has looked for there (`parseTokens_first_error`).

There is one difference. At the end of the input the loop over the prolog does not look for another part
of the prolog, so an error behind a whole prolog does not list the kinds that such a part starts with,
while the rule has looked for them.
-/

namespace GrammarFile

open Rule

/-! ### Runs without their values -/

namespace Outcome

variable {α β γ : Type}

/-- The outcome without its value. -/
def verdict (o : Outcome α) : Outcome Unit :=
  o.map fun _ => ()

/-- What is made of a value has no part in the verdict. -/
@[simp] theorem verdict_map (f : α → β) (o : Outcome α) : (o.map f).verdict = o.verdict := by
  cases o <;> rfl

/-- The verdict ends where the outcome does. -/
@[simp] theorem cursor_verdict (o : Outcome α) : o.verdict.cursor = o.cursor :=
  cursor_map _ o

/-- Going on after an outcome whose value does not matter. -/
theorem verdict_bind {f : α → Cursor → Outcome β} {g : Cursor → Outcome Unit}
    (h : ∀ x c, (f x c).verdict = g c) (o : Outcome α) :
    (o.bind f).verdict = o.verdict.bind fun _ c => g c := by
  cases o with
  | ok x c => exact h x c
  | failed fault c => rfl

/-- What goes on twice may go on with both at once. -/
theorem bind_assoc (o : Outcome α) (f : α → Cursor → Outcome β) (g : β → Cursor → Outcome γ) :
    (o.bind f).bind g = o.bind fun x c => (f x c).bind g := by
  cases o <;> rfl

/-- The verdict has the fault of the outcome. -/
@[simp] theorem fault_verdict (o : Outcome α) : o.verdict.fault = o.fault :=
  fault_map _ o

end Outcome

namespace Rule

variable {s t : Bool} {α β : Type}

/-- A run of a rule without its value. -/
def check (r : Rule s α) (c : Cursor) : Outcome Unit :=
  (r.run c).verdict

/-- Two rules in a row are checked in a row. -/
theorem check_seq (a : Rule s α) (b : Rule t β) (c : Cursor) :
    (seq a b).check c = (a.check c).bind fun _ c => b.check c :=
  Outcome.verdict_bind (fun x c => Outcome.verdict_map (x, ·) (b.run c)) (a.run c)

/-- What is made of a value has no part in a check. -/
theorem check_map (f : α → β) (r : Rule s α) (c : Cursor) : (map f r).check c = r.check c :=
  Outcome.verdict_map f (r.run c)

/-- A range has no part in a check. -/
theorem check_ranged (f : α → Range → β) (r : Rule true α) (c : Cursor) :
    (ranged f r).check c = r.check c := by
  rw [check, run, Outcome.verdict_bind (g := fun c => .ok () c) (fun x c => rfl), check]
  cases r.run c <;> rfl

/-- Any number of rounds are a round and further ones, where one can start. -/
theorem check_many (r : Rule true α) (c : Cursor) :
    (many r).check c =
      if c.sees r.first then (r.check c).bind fun _ c => (many r).check c
        else .ok () (c.miss r.first) := by
  have hfirst : (map Step.more r).first = r.first := rfl
  rw [check, many, run_iterate, hfirst, run]
  by_cases hsees : c.sees r.first
  · rw [if_pos hsees, if_pos hsees, check]
    cases r.run c with
    | failed fault c' => rfl
    | ok x c' => exact Outcome.verdict_map (x :: ·) ((many r).run c')
  · rw [if_neg hsees, if_neg hsees]
    rfl

/-- One or more are checked as one and any number. -/
theorem check_oneOrMore (r : Rule true α) (c : Cursor) :
    r.oneOrMore.check c = (r.check c).bind fun _ c => r.many.check c := by
  rw [oneOrMore, check_map, check_seq]

/-- What was looked for before makes no difference to a run that passes over the next token. -/
theorem check_withTried {r : Rule s α} (hr : r.shallow) {c : Cursor} (h : c.sees r.first)
    (tried : List TokenKind) : r.check (c.withTried tried) = r.check c := by
  rw [check, run_withTried hr h, check]

/-- Where a rule cannot start, any number of it is none. -/
theorem check_many_of_not_sees {r : Rule true α} {c : Cursor} (h : ¬c.sees r.first) :
    (many r).check c = .ok () (c.miss r.first) := by
  rw [check_many, if_neg h]

/-- A check fails as the run does. -/
theorem check_eq_failed {r : Rule s α} {c c' : Cursor} {fault : Fault} (h : r.run c = .failed fault c') :
    r.check c = .failed fault c' := by
  rw [check, h]
  rfl

/-- A check succeeds as the run does. -/
theorem check_eq_ok {r : Rule s α} {c c' : Cursor} {x : α} (h : r.run c = .ok x c') :
    r.check c = .ok () c' := by
  rw [check, h]
  rfl

/-- A mark that is not seen is missed. -/
theorem check_mark_of_not_sees {m : Mark} {c : Cursor} (h : c.sees [.mark m] = false) :
    (Rules.mark m).check c = .failed (c.miss [.mark m]).unexpected c :=
  check_eq_failed (run_token_of_not_sees h)

end Rule

/-! ### The first error of a reading -/

variable {context : ParseContext}

/-- Whether the first of some errors blames the token in front of `rest` for `fault`. -/
def StartsWith (context : ParseContext) (errors : List ParseError) (fault : Fault)
    (rest : List LocatedToken) : Prop :=
  ∃ c others, errors = context.blame fault c :: others ∧ c.rest = rest

/-- More errors behind do not change the first one. -/
theorem StartsWith.mono {errors more : List ParseError} {fault : Fault} {rest : List LocatedToken}
    (h : StartsWith context errors fault rest) (hmore : errors <+: more) :
    StartsWith context more fault rest := by
  obtain ⟨c, others, rfl, hrest⟩ := h
  obtain ⟨others', rfl⟩ := hmore
  exact ⟨c, others ++ others', rfl, hrest⟩

/-- The first error that is reported stays the first. -/
theorem startsWith_of_report {fault : Fault} {c : Cursor} {errors : List ParseError}
    (h : (context.report .none fault c).errors <+: errors) : StartsWith context errors fault c.rest := by
  have hfirst : StartsWith context (context.report .none fault c).errors fault c.rest := ⟨c, [], rfl, rfl⟩
  exact hfirst.mono h

/-! ### The prolog -/

/-- A run over scanner states and `%%`. -/
def checkStates (c : Cursor) : Outcome Unit :=
  ((many Rules.scannerState).check c).bind fun _ c => (Rules.mark .percentPercent).check c

/-- A run over the parts of a prolog after the start declaration, and over `%%`. There are no
declarations after a scanner state. -/
def checkItems (declarationsAllowed : Bool) (c : Cursor) : Outcome Unit :=
  if declarationsAllowed then ((many Rules.declaration).check c).bind fun _ c => checkStates c
  else checkStates c

/-- Where no declaration can start, a run goes on with scanner states. -/
theorem checkItems_of_not_sees {c : Cursor} (h : ¬c.sees Rules.declaration.first) :
    checkItems true c = checkStates (c.miss Rules.declaration.first) := by
  rw [checkItems, if_pos rfl, check_many_of_not_sees h, Outcome.bind]

/-- Where a declaration can start, a run over the prolog passes over it. -/
theorem checkItems_declaration {c : Cursor} (h : c.sees Rules.declaration.first) :
    checkItems true c = (Rules.declaration.check c).bind fun _ c => checkItems true c := by
  rw [checkItems, if_pos rfl, check_many, if_pos h, Outcome.bind_assoc]
  rfl

/-- Where a scanner state can start, a run over scanner states passes over it. -/
theorem checkStates_state {c : Cursor} (h : c.sees Rules.scannerState.first) :
    checkStates c = (Rules.scannerState.check c).bind fun _ c => checkStates c := by
  rw [checkStates, check_many, if_pos h, Outcome.bind_assoc]
  rfl

/-- A token that a scanner state starts with starts no declaration. -/
theorem not_sees_declaration {c : Cursor} (h : c.sees Rules.scannerState.first) :
    ¬c.sees Rules.declaration.first := by
  obtain ⟨t, rest, hrest, hkind⟩ := c.exists_of_sees h
  intro hsees
  obtain ⟨t', rest', hrest', hkind'⟩ := c.exists_of_sees hsees
  obtain ⟨rfl, -⟩ := List.cons.inj (hrest.symm.trans hrest')
  rw [List.mem_singleton.mp hkind] at hkind'
  exact absurd hkind' (by decide)

/-- Where a scanner state can start, a run over the prolog passes over it and allows no more
declarations. -/
theorem checkItems_state (allowed : Bool) {c : Cursor} (h : c.sees Rules.scannerState.first) :
    checkItems allowed c = (Rules.scannerState.check c).bind fun _ c => checkItems false c := by
  cases allowed with
  | false => exact checkStates_state h
  | true =>
    have hmiss : (c.miss Rules.declaration.first).sees Rules.scannerState.first := h
    rw [checkItems_of_not_sees (not_sees_declaration h), checkStates_state hmiss]
    have hcheck :
        Rules.scannerState.check (c.miss Rules.declaration.first) = Rules.scannerState.check c :=
      check_withTried rfl h _
    rw [hcheck]
    rfl

/-- Where no part of the prolog can start, a run goes on with `%%`, having looked for all of them. -/
theorem checkItems_of_not_sees_item {allowed : Bool} {c : Cursor}
    (h : ¬c.sees (prologItem allowed).first) :
    ∃ tried, (∀ kind, kind ∈ tried ↔ kind ∈ (prologItem allowed).first ∨ kind ∈ c.tried) ∧
      checkItems allowed c = (Rules.mark .percentPercent).check (c.withTried tried) := by
  cases allowed with
  | false =>
    refine ⟨Rules.scannerState.first ++ c.tried, fun kind => List.mem_append, ?_⟩
    have hstates : ¬c.sees Rules.scannerState.first := h
    rw [checkItems, if_neg Bool.false_ne_true, checkStates, check_many_of_not_sees hstates, Outcome.bind]
    rfl
  | true =>
    have hstates : ¬(c.miss Rules.declaration.first).sees Rules.scannerState.first :=
      fun hsees => h (Cursor.sees_mono (c := c) hsees fun _ => List.mem_append_left _)
    have hdeclarations : ¬c.sees Rules.declaration.first :=
      fun hsees => h (Cursor.sees_mono hsees fun _ => List.mem_append_right _)
    refine ⟨Rules.scannerState.first ++ (Rules.declaration.first ++ c.tried), fun kind => ?_, ?_⟩
    · rw [List.mem_append, List.mem_append, ← or_assoc, ← List.mem_append]
      rfl
    · rw [checkItems_of_not_sees hdeclarations, checkStates, check_many_of_not_sees hstates, Outcome.bind]
      rfl

/-- How a reading of the prolog stands to a run over it and `%%`, by what it has found and where it
ends. It goes on at `%%` where the run does, its first error is that of the run, or it is at the end of
the input, where the run has looked for `%%`, for what the reading has looked for, and for the parts of
the prolog, which the reading has not looked for. -/
inductive PrologAgrees (context : ParseContext) (found : Findings) (c : Cursor) :
    Outcome Unit → Prop where
  | ok {c' : Cursor} : found = .none → (Rules.mark .percentPercent).check c = .ok () c' →
      PrologAgrees context found c (.ok () c')
  | failed {fault : Fault} {c' : Cursor} : StartsWith context found.errors fault c'.rest →
      PrologAgrees context found c (.failed fault c')
  | ended (allowed : Bool) {kinds : List TokenKind} {c' : Cursor} : found = .none → c.rest = [] →
      c'.rest = [] →
      (∀ kind, kind ∈ kinds ↔
        kind ∈ (prologItem allowed).first ∨ kind ∈ TokenKind.mark .percentPercent :: c.tried) →
      (∀ kind ∈ c.tried, kind ∉ (prologItem true).first) →
      PrologAgrees context found c (.failed (.unexpected kinds) c')

/-- A part of the prolog that starts as a scanner state is run as one, whatever was looked for. -/
theorem run_prologItem_state (allowed : Bool) {c : Cursor} (h : c.sees Rules.scannerState.first)
    (kinds : List TokenKind) :
    (prologItem allowed).run (c.miss kinds) = (Rules.scannerState.run c).map .state := by
  have hstate : (Rule.map PrologItem.state Rules.scannerState).run (c.miss kinds) =
      (Rules.scannerState.run c).map .state :=
    run_withTried (r := Rule.map PrologItem.state Rules.scannerState) rfl h _
  cases allowed with
  | false => exact hstate
  | true =>
    have hsees : (c.miss kinds).sees (Rule.map PrologItem.state Rules.scannerState).first := h
    rw [prologItem, if_pos rfl, run, if_pos hsees, hstate]

/-- Where a declaration can start, an item of the prolog is one. -/
theorem run_prologItem_declaration {c : Cursor} (h : c.sees Rules.declaration.first)
    (kinds : List TokenKind) :
    (prologItem true).run (c.miss kinds) = (Rules.declaration.run c).map .declaration := by
  have hstate : ¬(c.miss kinds).sees (Rule.map PrologItem.state Rules.scannerState).first :=
    fun hsees => not_sees_declaration (c := c) hsees h
  rw [prologItem, if_pos rfl, run_choice_of_not_sees hstate]
  exact run_withTried (r := Rule.map PrologItem.declaration Rules.declaration) rfl h _

/-- At the end of the input and at `%%` no part of the prolog can start. -/
theorem not_sees_item_of_ends {allowed : Bool} {c : Cursor}
    (h : c.rest = [] ∨ c.sees [.mark .percentPercent]) : ¬c.sees (prologItem allowed).first := by
  intro hsees
  obtain ⟨t, rest, hrest, hkind⟩ := c.exists_of_sees hsees
  rcases h with hnil | hpercent
  · rw [hnil] at hrest
    cases hrest
  · obtain ⟨t', rest', hrest', hkind'⟩ := c.exists_of_sees hpercent
    obtain ⟨rfl, -⟩ := List.cons.inj (hrest.symm.trans hrest')
    rw [List.mem_singleton.mp hkind'] at hkind
    cases allowed <;> exact absurd hkind (by decide)

/-- A loop over the prolog that ends agrees with a run over `%%`. -/
theorem agrees_of_ends (allowed : Bool) {c : Cursor} (h : c.rest = [] ∨ c.sees [.mark .percentPercent])
    (hunlooked : ∀ kind ∈ c.tried, kind ∉ (prologItem true).first) :
    PrologAgrees context .none c (checkItems allowed c) := by
  have hitem : ¬c.sees (prologItem allowed).first := not_sees_item_of_ends h
  obtain ⟨tried, htried, hcheck⟩ := checkItems_of_not_sees_item hitem
  rw [hcheck]
  by_cases hpercent : c.sees [.mark .percentPercent]
  · rw [check_withTried (r := Rules.mark .percentPercent) rfl hpercent]
    obtain ⟨t, rest, hrest, hkind⟩ := c.exists_of_sees hpercent
    have hrun : (Rules.mark .percentPercent).run c = .ok t ⟨rest, t.range, []⟩ := by
      rw [Rules.mark, run, hrest]
      simp only [if_pos (List.mem_singleton.mp hkind)]
    rw [check_eq_ok hrun]
    exact .ok rfl (check_eq_ok hrun)
  · have hnil := h.resolve_right hpercent
    have hunseen : (c.withTried tried).sees [.mark .percentPercent] = false :=
      Bool.eq_false_iff.mpr hpercent
    rw [check_mark_of_not_sees hunseen]
    refine .ended allowed rfl hnil hnil (fun kind => ?_) hunlooked
    have hlisted : kind ∈ TokenKind.sort ([.mark .percentPercent] ++ tried) ↔ _ := TokenKind.mem_sort
    rw [Cursor.miss, Cursor.withTried, hlisted, List.mem_append, htried, List.mem_singleton,
      List.mem_cons]
    exact or_left_comm

/-- Where neither a part of the prolog nor `%%` is next, both look for the same kinds. -/
theorem run_prologItem_of_not_sees {allowed : Bool} {c : Cursor}
    (hitem : ¬c.sees (prologItem allowed).first) (hpercent : ¬c.sees [.mark .percentPercent]) :
    ∃ fault left left',
      (prologItem allowed).run (c.miss [.mark .percentPercent]) = .failed fault (c.withTried left) ∧
        checkItems allowed c = .failed fault (c.withTried left') := by
  obtain ⟨tried, htried, hcheck⟩ := checkItems_of_not_sees_item hitem
  have hitem' : (c.miss [.mark .percentPercent]).sees (prologItem allowed).first = false :=
    Bool.eq_false_iff.mpr hitem
  have hpercent' : (c.withTried tried).sees [.mark .percentPercent] = false :=
    Bool.eq_false_iff.mpr hpercent
  obtain ⟨left, hrun⟩ := failed_of_not_sees (prologItem allowed) hitem'
  have hsort : TokenKind.sort ((prologItem allowed).first ++ ([.mark .percentPercent] ++ c.tried)) =
      TokenKind.sort ([.mark .percentPercent] ++ tried) := by
    refine TokenKind.sort_congr fun kind => ?_
    rw [List.mem_append, List.mem_append, List.mem_append, htried]
    exact or_left_comm
  refine ⟨_, left, tried, hrun, ?_⟩
  rw [hcheck, check_mark_of_not_sees hpercent']
  exact congrArg (fun kinds => Outcome.failed (.unexpected kinds) (c.withTried tried)) hsort.symm

/-- A run that gives a value leaves no kind as looked for that its rule cannot go on with. -/
theorem not_mem_of_run {α : Type} {r : Rule true α} {c c' : Cursor} {x : α} {kinds : List TokenKind}
    (hr : apart r.extensions kinds) (h : r.run c = .ok x c') : ∀ kind ∈ c'.tried, kind ∉ kinds := by
  intro kind hkind
  rcases mem_extensions_of_run h hkind with hkind | ⟨hrest, -⟩
  · exact not_mem_of_apart hr hkind
  · exact absurd (length_lt_of_run h) (by rw [hrest]; exact Nat.lt_irrefl _)

/-- The loop over the prolog agrees with a run over its parts and `%%`. -/
theorem prologItems_agrees {ahead : List LocatedToken} {allowed : Bool} {c : Cursor}
    (hahead : c.rest.length ≤ ahead.length)
    (hunlooked : ∀ kind ∈ c.tried, kind ∉ (prologItem true).first) :
    let r := prologItems context ahead allowed .none c
    PrologAgrees context r.found r.cursor (checkItems allowed c) := by
  induction ahead generalizing allowed c with
  | nil =>
    have hnil : c.rest = [] := List.eq_nil_of_length_eq_zero (Nat.le_zero.mp hahead)
    exact agrees_of_ends allowed (.inl hnil) hunlooked
  | cons t ahead ih =>
    have hfailed : ∀ {fault c' next}, StartsWith context
        (prologItems context ahead allowed (context.report .none fault c') next).found.errors fault
          c'.rest :=
      startsWith_of_report (errors_prologItems _ _ _ _)
    have hshorter : ∀ {α : Type} {r : Rule true α} {x c'}, r.run c = .ok x c' →
        c'.rest.length ≤ ahead.length :=
      fun hrun => Nat.lt_succ_iff.mp (Nat.lt_of_lt_of_le (length_lt_of_run hrun) hahead)
    rw [prologItems]
    split
    case isTrue hends =>
      rw [Findings.none, Bool.false_or, Bool.or_eq_true, List.isEmpty_iff] at hends
      exact agrees_of_ends allowed hends hunlooked
    case isFalse hgoes =>
      rw [Bool.or_eq_true, not_or] at hgoes
      by_cases hstate : c.sees Rules.scannerState.first
      · rw [run_prologItem_state allowed hstate, checkItems_state allowed hstate]
        cases hrun : Rules.scannerState.run c with
        | ok s c' =>
          rw [check_eq_ok hrun]
          exact ih (hshorter hrun) (not_mem_of_run rfl hrun)
        | failed fault c' =>
          rw [check_eq_failed hrun]
          exact .failed hfailed
      by_cases hdeclaration : allowed ∧ c.sees Rules.declaration.first
      · obtain ⟨rfl, hdeclaration⟩ := hdeclaration
        rw [run_prologItem_declaration hdeclaration, checkItems_declaration hdeclaration]
        cases hrun : Rules.declaration.run c with
        | ok d c' =>
          rw [check_eq_ok hrun]
          exact ih (hshorter hrun) (not_mem_of_run rfl hrun)
        | failed fault c' =>
          rw [check_eq_failed hrun]
          exact .failed hfailed
      have hitem : ¬c.sees (prologItem allowed).first := by
        cases allowed with
        | false => exact hstate
        | true =>
          have hfirst :
              (prologItem true).first = Rules.scannerState.first ++ Rules.declaration.first := rfl
          rw [hfirst, Cursor.sees_append, Bool.or_eq_true, not_or]
          exact ⟨hstate, fun hsees => hdeclaration ⟨rfl, hsees⟩⟩
      obtain ⟨fault, left, left', hrun, hcheck⟩ := run_prologItem_of_not_sees hitem hgoes.2
      rw [hrun, hcheck]
      exact .failed hfailed

/-- A run over the prolog and `%%`. -/
def checkProlog (c : Cursor) : Outcome Unit :=
  (Rules.startDeclaration.check c).bind fun _ c => checkItems true c

/-- Reading the prolog agrees with a run over it. -/
theorem prolog_agrees (context : ParseContext) (c : Cursor) :
    let r := prolog context c
    PrologAgrees context r.found r.cursor (checkProlog c) := by
  unfold prolog startDeclaration checkProlog
  cases hrun : Rules.startDeclaration.run c with
  | ok start c' =>
    rw [check_eq_ok hrun]
    exact prologItems_agrees (Nat.le_refl c'.rest.length) (not_mem_of_run rfl hrun)
  | failed fault c' =>
    rw [check_eq_failed hrun]
    exact .failed (startsWith_of_report (errors_prologItems _ _ _ _))

/-! ### The definition -/

/-- A run over some productions. -/
def checkProductions (c : Cursor) : Outcome Unit :=
  (oneOrMore (Rules.production maxNesting)).check c

/-- Behind a production a run looks for more of them, if it is not at the end of the input. -/
theorem check_many_productions {c : Cursor} (h : c.sees (Rules.production maxNesting).first) :
    (many (Rules.production maxNesting)).check c = checkProductions c := by
  rw [check_many, if_pos h, checkProductions, check_oneOrMore]

/-- Behind a production the loop goes on, unless it is at the end of the input. -/
theorem errors_productions_of_ok {t : LocatedToken} {ahead : List LocatedToken} {c c' : Cursor}
    {p : Production} (h : (Rules.production maxNesting).run c = .ok p c') (hne : c'.rest ≠ []) :
    (productions context (t :: ahead) .none c).found.errors =
      (productions context ahead .none c').found.errors := by
  have hattempt : productionAttempt context .none c = ⟨[p], .none, c'⟩ := by rw [productionAttempt, h]
  have hgoes : (⟨[p], .none, c'⟩ : Reading (List Production)).isLast = false := by
    rw [Reading.isLast, Findings.none, Bool.false_or, List.isEmpty_eq_false_iff]
    exact hne
  rw [productions_cons, hattempt]
  dsimp only
  rw [hgoes, if_neg Bool.false_ne_true]
  rfl

/-- The loop over the productions starts with the error of a run over them, unless the run ends at the
end of the input. Where the run ends before it, the loop asks for a production that does not start
there. -/
theorem productions_first_error {ahead : List LocatedToken} {c : Cursor}
    (hahead : c.rest.length ≤ ahead.length) :
    let o := checkProductions c
    (∃ c', o = .ok () c' ∧ c'.rest = []) ∨
      StartsWith context (productions context ahead .none c).found.errors o.fault o.cursor.rest := by
  have hfailed : ∀ {ahead c c' fault}, (Rules.production maxNesting).run c = .failed fault c' →
      StartsWith context (productions context ahead .none c).found.errors fault c'.rest :=
    fun hrun => startsWith_of_report (errors_productions_of_failed hrun)
  induction ahead generalizing c with
  | nil =>
    cases hrun : (Rules.production maxNesting).run c with
    | ok p c' => exact absurd (Nat.lt_of_lt_of_le (length_lt_of_run hrun) hahead) (Nat.not_lt_zero _)
    | failed fault c' =>
      rw [checkProductions, check_oneOrMore, check_eq_failed hrun]
      exact .inr (hfailed hrun)
  | cons t ahead ih =>
    rw [checkProductions, check_oneOrMore]
    cases hrun : (Rules.production maxNesting).run c with
    | failed fault c' =>
      rw [check_eq_failed hrun]
      exact .inr (hfailed hrun)
    | ok p c' =>
      have hshorter : c'.rest.length ≤ ahead.length :=
        Nat.lt_succ_iff.mp (Nat.lt_of_lt_of_le (length_lt_of_run hrun) hahead)
      rw [check_eq_ok hrun, Outcome.bind]
      by_cases hsees : c'.sees (Rules.production maxNesting).first
      · rw [check_many_productions hsees,
          errors_productions_of_ok hrun (Cursor.rest_ne_nil_of_sees hsees)]
        exact ih hshorter
      rw [check_many_of_not_sees hsees]
      by_cases hnil : c'.rest = []
      · exact .inl ⟨_, rfl, hnil⟩
      · obtain ⟨left, hrun'⟩ :=
          failed_of_not_sees (Rules.production maxNesting) (Bool.eq_false_iff.mpr hsees)
        rw [errors_productions_of_ok hrun hnil]
        have hstarts : StartsWith context (productions context ahead .none c').found.errors
            (c'.miss (Rules.production maxNesting).first).unexpected (c'.withTried left).rest :=
              hfailed hrun'
        exact .inr hstarts

/-- The loop over the productions and a run over `%%` and them. -/
theorem definition_first_error (context : ParseContext) (c : Cursor) :
    let o := ((Rules.mark .percentPercent).check c).bind fun _ c => checkProductions c
    (∃ c', o = .ok () c' ∧ c'.rest = []) ∨
      StartsWith context (definition context .none c).found.errors o.fault o.cursor.rest := by
  unfold definition
  cases hrun : (Rules.mark .percentPercent).run c with
  | ok percent c' =>
    rw [check_eq_ok hrun]
    exact productions_first_error (Nat.le_refl c'.rest.length)
  | failed fault c' =>
    rw [check_eq_failed hrun]
    exact .inr (startsWith_of_report List.prefix_rfl)

/-! ### A whole file -/

/-- A run over a whole file is one over its prolog and `%%` and one over its productions. -/
theorem check_file (c : Cursor) :
    (Rules.file maxNesting).check c = (checkProlog c).bind fun _ c => checkProductions c := by
  have hitems : ∀ c, checkItems true c =
      ((seq (many Rules.declaration) (many Rules.scannerState)).check c).bind
        fun _ c => (Rules.mark .percentPercent).check c := by
    intro c
    rw [checkItems, if_pos rfl, check_seq, Outcome.bind_assoc]
    rfl
  have hprolog : ∀ c, checkProlog c =
      (Rules.prolog.check c).bind fun _ c => (Rules.mark .percentPercent).check c := by
    intro c
    rw [checkProlog, Rules.prolog, check_ranged, check_seq, Outcome.bind_assoc]
    congr 1
    funext _ c
    exact hitems c
  rw [hprolog, Outcome.bind_assoc, Rules.file, check_map, check_seq]
  congr 1
  funext _ c
  rw [Rules.definition, check_ranged, skipThen, check_map, check_seq]
  rfl

/-- A reading that fails has not come to the end of the input by the rule of a file. -/
theorem check_file_ne_ok {tokens : List LocatedToken} {errors : List ParseError}
    (h : parseTokens context tokens = .error errors) {c : Cursor} (hnil : c.rest = []) :
    (Rules.file maxNesting).check (.start tokens) ≠ .ok () c := by
  intro hcheck
  rw [check] at hcheck
  obtain ⟨g, hrun, -⟩ := Outcome.map_eq_ok hcheck
  obtain ⟨ts, hpasses, hreads⟩ := reads_of_run hrun
  have htokens : tokens = ts := by
    have hrest := hpasses.rest
    rwa [hnil, List.append_nil] at hrest
  rw [(parseTokens_eq_ok_iff context).mpr (htokens ▸ hreads)] at h
  cases h

/-- Behind a prolog without errors the productions are read with none found. -/
theorem definitionAfter_of_found {r : Reading (Option Prolog)} (h : r.found = .none) :
    definitionAfter context r = definition context .none r.cursor := by
  have hrunning : ¬Findings.none.stopped := Bool.false_ne_true
  rw [definitionAfter, h, if_neg hrunning]

/-- **The first error of a reading is that of the rule of a file.** It blames the token where a run of
the rule ends, for the fault that the run has there. Only behind a whole prolog it does not list the kinds
that a further part of the prolog would start with. -/
theorem parseTokens_first_error {tokens : List LocatedToken} {errors : List ParseError}
    (h : parseTokens context tokens = .error errors) :
    let o := (Rules.file maxNesting).run (.start tokens)
    ∃ fault, StartsWith context errors fault o.cursor.rest ∧
      fault.nestingLimit? = o.fault.nestingLimit? ∧
      ∀ kind, kind ∈ fault.expected ↔ kind ∈ o.fault.expected ∧
        ¬((∃ p, Rules.prolog.Reads tokens p) ∧ kind ∈ (prologItem true).first) := by
  have hcheck := check_file (.start tokens)
  have hne := fun c hnil => check_file_ne_ok (c := c) h hnil
  dsimp only
  rw [← Outcome.cursor_verdict, ← Outcome.fault_verdict, exists_reads_prolog_iff context]
  rw [check] at hcheck hne
  obtain rfl := eq_of_parseTokens_eq_error context h
  have hprolog := prolog_agrees context (.start tokens)
  generalize prolog context (.start tokens) = first at hprolog ⊢
  generalize checkProlog (.start tokens) = o at hcheck hprolog
  rw [hcheck] at hne ⊢
  cases hprolog with
  | @failed fault c' hstarts =>
    have herrors : first.found ≠ .none := by
      intro hnone
      obtain ⟨c, others, heq, -⟩ := hstarts
      rw [hnone] at heq
      cases heq
    refine ⟨fault, hstarts.mono (errors_definitionAfter first), rfl, fun kind => ?_⟩
    exact (and_iff_left fun hwhole => herrors hwhole.1.1).symm
  | @ok c' hfound hpercent =>
    have hgoes : first.cursor.rest ≠ [] := by
      intro hnil
      have hunseen : first.cursor.sees [.mark .percentPercent] = false := by
        rw [Cursor.sees, hnil]
        rfl
      rw [check_mark_of_not_sees hunseen] at hpercent
      cases hpercent
    rw [definitionAfter_of_found hfound]
    have hdefinition := definition_first_error context first.cursor
    rw [hpercent] at hdefinition
    rcases hdefinition with ⟨c'', hok, hnil⟩ | hstarts
    · exact absurd hok (hne c'' hnil)
    · exact ⟨_, hstarts, rfl, fun kind => (and_iff_left fun hwhole => hgoes hwhole.1.2).symm⟩
  | @ended allowed kinds c' hfound hnil hrest hkinds hunlooked =>
    have hunseen : first.cursor.sees [.mark .percentPercent] = false := by
      rw [Cursor.sees, hnil]
      rfl
    have hrun : (Rules.mark .percentPercent).run first.cursor = .failed _ first.cursor :=
      run_token_of_not_sees hunseen
    have hstarts : StartsWith context (definitionAfter context first).found.errors
        (first.cursor.miss [.mark .percentPercent]).unexpected first.cursor.rest := by
      rw [definitionAfter_of_found hfound, definition, hrun]
      exact startsWith_of_report List.prefix_rfl
    rw [hnil, ← hrest] at hstarts
    refine ⟨_, hstarts, rfl, fun kind => ?_⟩
    have hlisted : kind ∈ TokenKind.sort ([.mark .percentPercent] ++ first.cursor.tried) ↔ _ :=
      TokenKind.mem_sort
    have hlooked : kind ∈ (prologItem allowed).first → kind ∈ (prologItem true).first := by
      cases allowed with
      | false => exact fun hkind => List.mem_append_left _ hkind
      | true => exact id
    have hpercent : TokenKind.mark .percentPercent ∉ (prologItem true).first := by decide
    rw [Cursor.miss, Cursor.unexpected, Fault.expected, hlisted, Outcome.bind, Outcome.fault,
      Fault.expected, hkinds, List.singleton_append]
    constructor
    · intro hkind
      refine ⟨.inr hkind, fun hwhole => ?_⟩
      rcases List.mem_cons.mp hkind with rfl | hkind
      · exact hpercent hwhole.2
      · exact hunlooked kind hkind hwhole.2
    · rintro ⟨hkind | hkind, hpart⟩
      · exact absurd ⟨⟨hfound, hnil⟩, hlooked hkind⟩ hpart
      · exact hkind

end GrammarFile
