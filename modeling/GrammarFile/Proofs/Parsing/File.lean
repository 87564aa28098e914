import GrammarFile.Proofs.Parsing.Attempt
import GrammarFile.Proofs.Parsing.FileRule

/-!
# Parsing a file without mistakes

`parseTokens` gives a tree just where the rule of a whole file reads the tokens as that tree
(`parseTokens_eq_ok_iff`). One direction follows a parse that reports nothing: the findings only grow, so
no attempt failed, and the loops over the prolog and the productions are the rounds of their rules. The
other direction runs the loops on the parts of a reading, each of which ends where it should because one
token decides.

The options of the parser appear on one side only: whether a source parses, and what it parses to, does
not depend on them (`parse_eq_ok_iff`).
-/

namespace GrammarFile

open Rule

/-! ### The findings only grow -/

variable {context : ParseContext}

/-- What is reported comes behind what was found before. -/
theorem errors_report (found : Findings) (fault : Fault) (c : Cursor) :
    found.errors <+: (context.report found fault c).errors :=
  List.prefix_append _ _

/-- Reading the prolog on keeps the errors that were found. -/
theorem errors_prologItems (ahead : List LocatedToken) (allowed : Bool) (found : Findings) (c : Cursor) :
    found.errors <+: (prologItems context ahead allowed found c).found.errors := by
  induction ahead generalizing allowed found c with
  | nil => exact List.prefix_rfl
  | cons _ ahead ih =>
    unfold prologItems
    split
    · exact List.prefix_rfl
    split
    · exact ih _ _ _
    · exact ih _ _ _
    · exact (errors_report _ _ _).trans (ih _ _ _)

/-- Reading the productions on keeps the errors that were found. -/
theorem errors_productions (ahead : List LocatedToken) (found : Findings) (c : Cursor) :
    found.errors <+: (productions context ahead found c).found.errors := by
  induction ahead generalizing found c with
  | nil =>
    unfold productions
    cases (Rules.production maxNesting).run c with
    | ok p c' => exact List.prefix_rfl
    | failed fault c' => exact errors_report _ _ _
  | cons _ ahead ih =>
    unfold productions
    cases (Rules.production maxNesting).run c with
    | ok p c' =>
      dsimp only
      split
      · exact List.prefix_rfl
      · exact ih _ _
    | failed fault c' =>
      have hreport : found.errors <+: (context.report found fault c').errors := errors_report _ _ _
      refine hreport.trans ?_
      dsimp only
      generalize (if (context.report found fault c').stopped then c' else c'.resumeProduction c) = next
      split
      · exact List.prefix_rfl
      · exact ih _ _

/-- Reading the definition keeps the errors that were found. -/
theorem errors_definition (found : Findings) (c : Cursor) :
    found.errors <+: (definition context found c).found.errors := by
  unfold definition
  split
  · exact errors_report _ _ _
  · exact errors_productions _ _ _

/-- What comes after the prolog keeps the errors that were found. -/
theorem errors_definitionAfter (r : Reading (Option Prolog)) :
    r.found.errors <+: (definitionAfter context r).found.errors := by
  unfold definitionAfter
  split
  · exact List.prefix_rfl
  · exact errors_definition _ _

/-- The error of a failed production is kept. -/
theorem errors_productions_of_failed {ahead : List LocatedToken} {found : Findings} {c c' : Cursor}
    {fault : Fault} (h : (Rules.production maxNesting).run c = .failed fault c') :
    (context.report found fault c').errors <+: (productions context ahead found c).found.errors := by
  unfold productions
  rw [h]
  dsimp only
  generalize (if (context.report found fault c').stopped then c' else c'.resumeProduction c) = next
  cases ahead with
  | nil => exact List.prefix_rfl
  | cons _ ahead =>
    dsimp only
    split
    · exact List.prefix_rfl
    · exact errors_productions _ _ _

/-- An error that is reported stays. -/
theorem errors_ne_nil_of_report {found : Findings} {fault : Fault} {c : Cursor} {errors : List ParseError}
    (h : (context.report found fault c).errors <+: errors) : errors ≠ [] := by
  rintro rfl
  exact List.append_ne_nil_of_right_ne_nil _ (List.cons_ne_nil _ _) (List.prefix_nil.mp h)

/-! ### The prolog -/

/-- A state is read by the rule of a state, and a declaration by that of a declaration where there may
still be one. -/
theorem reads_prologItem {allowed : Bool} {ts : List LocatedToken} {item : PrologItem} :
    (prologItem allowed).Reads ts item ↔ (∃ s, item = .state s ∧ Rules.scannerState.Reads ts s) ∨
      (allowed ∧ ∃ d, item = .declaration d ∧ Rules.declaration.Reads ts d) := by
  unfold prologItem
  cases allowed <;> simp [Reads, and_comm]

/-- The parts of a prolog after its start declaration. There are no declarations after a state. -/
inductive ReadsItems : Bool → List LocatedToken → List Declaration → List ScannerState → Prop where
  | nil (allowed : Bool) : ReadsItems allowed [] [] []
  | declaration {ts us : List LocatedToken} {d : Declaration} {ds : List Declaration}
      {ss : List ScannerState} :
      Rules.declaration.Reads ts d → ReadsItems true us ds ss → ReadsItems true (ts ++ us) (d :: ds) ss
  | state {allowed : Bool} {ts us : List LocatedToken} {s : ScannerState} {ds : List Declaration}
      {ss : List ScannerState} :
      Rules.scannerState.Reads ts s → ReadsItems false us ds ss →
        ReadsItems allowed (ts ++ us) ds (s :: ss)

namespace ReadsItems

/-- Where no declarations are allowed there are states only. -/
theorem states {allowed : Bool} {ts : List LocatedToken} {ds : List Declaration} {ss : List ScannerState}
    (h : ReadsItems allowed ts ds ss) (hallowed : allowed = false) :
    ds = [] ∧ (many Rules.scannerState).Reads ts ss := by
  induction h with
  | nil => exact ⟨rfl, reads_many_nil⟩
  | declaration => cases hallowed
  | state h _ ih =>
    obtain ⟨rfl, hs⟩ := ih rfl
    exact ⟨rfl, reads_many_cons h hs⟩

/-- The parts of a prolog are its declarations and then its states. -/
theorem reads {allowed : Bool} {ts : List LocatedToken} {ds : List Declaration} {ss : List ScannerState}
    (h : ReadsItems allowed ts ds ss) :
    (seq (many Rules.declaration) (many Rules.scannerState)).Reads ts (ds, ss) := by
  induction h with
  | nil => exact ⟨[], [], rfl, reads_many_nil, reads_many_nil⟩
  | declaration h _ ih =>
    obtain ⟨us, vs, rfl, hds, hss⟩ := ih
    exact ⟨_, vs, (List.append_assoc _ us vs).symm, reads_many_cons h hds, hss⟩
  | state h hs _ =>
    obtain ⟨rfl, hss⟩ := hs.states rfl
    exact ⟨[], _, rfl, reads_many_nil, reads_many_cons h hss⟩

/-- Declarations and then states are the parts of a prolog. -/
theorem of_reads {us vs : List LocatedToken} {ds : List Declaration} {ss : List ScannerState}
    (hds : (many Rules.declaration).Reads us ds) (hss : (many Rules.scannerState).Reads vs ss) :
    ReadsItems true (us ++ vs) ds ss := by
  have hstates : ∀ allowed, ReadsItems allowed vs [] ss := by
    induction hss using many_induction with
    | nil => exact nil
    | cons hs _ ih => exact fun _ => state hs (ih false)
  induction hds using many_induction with
  | nil => exact hstates true
  | cons hd _ ih =>
    rw [List.append_assoc]
    exact declaration hd ih

/-- Each part of a prolog starts with a kind at which the prolog can go on. -/
theorem kind_mem_prologStarts {allowed : Bool} {ts : List LocatedToken} {ds : List Declaration}
    {ss : List ScannerState} (h : ReadsItems allowed ts ds ss) {t : LocatedToken}
    (ht : ts.head? = some t) : t.token.kind ∈ prologStarts := by
  cases h with
  | nil => cases ht
  | @declaration us _ _ _ _ hd _ =>
    cases us with
    | nil => exact absurd rfl (ne_nil_of_reads rfl hd)
    | cons u us => exact List.mem_append_left _ (kind_mem_first_of_reads hd ht)
  | @state _ us _ _ _ _ hs _ =>
    cases us with
    | nil => exact absurd rfl (ne_nil_of_reads rfl hs)
    | cons u us =>
      have hkind : t.token.kind ∈ Rules.scannerState.first := kind_mem_first_of_reads hs ht
      rw [List.mem_singleton.mp hkind]
      decide

end ReadsItems

/-- Reading the prolog on without a mistake reads its parts. -/
theorem reads_of_prologItems {ahead : List LocatedToken} {allowed : Bool} {c : Cursor}
    {items : Reading (List Declaration × List ScannerState)}
    (h : prologItems context ahead allowed .none c = items) (herrors : items.found.errors = []) :
    items.found = .none ∧
      ∃ ts, Passes c ts items.cursor ∧ ReadsItems allowed ts items.value.1 items.value.2 := by
  induction ahead generalizing allowed c items with
  | nil =>
    subst h
    exact ⟨rfl, [], .none c [], .nil allowed⟩
  | cons _ ahead ih =>
    unfold prologItems at h
    split at h
    · subst h
      exact ⟨rfl, [], .none c [], .nil allowed⟩
    cases hrun : (prologItem allowed).run (c.miss [.mark .percentPercent]) with
    | ok item c' =>
      obtain ⟨ts, hpasses, hitem⟩ := reads_of_run hrun
      have hpasses : Passes c ts c' := (Passes.none c _).trans hpasses
      rcases reads_prologItem.mp hitem with ⟨s, rfl, hs⟩ | ⟨rfl, d, rfl, hd⟩
      · simp only [hrun] at h
        subst h
        obtain ⟨hfound, us, hpasses', hitems⟩ := ih rfl herrors
        exact ⟨hfound, ts ++ us, hpasses.trans hpasses', .state hs hitems⟩
      · simp only [hrun] at h
        subst h
        obtain ⟨hfound, us, hpasses', hitems⟩ := ih rfl herrors
        exact ⟨hfound, ts ++ us, hpasses.trans hpasses', .declaration hd hitems⟩
    | failed fault c' =>
      simp only [hrun] at h
      subst h
      exact absurd herrors (errors_ne_nil_of_report (errors_prologItems _ _ _ _))

/-- A part of the prolog is found where another one or `%%` follows. -/
theorem run_prologItem {allowed : Bool} {ts rest : List LocatedToken} {item : PrologItem}
    (h : (prologItem allowed).Reads ts item)
    (hrest : ∀ t, rest.head? = some t → t.token.kind ∈ prologStarts) :
    RunsTo (prologItem allowed).run ts rest item := by
  have hdecided : (prologItem allowed).decided := by cases allowed <;> rfl
  have hapart : apart prologStarts (prologItem allowed).extensions := by cases allowed <;> rfl
  exact run_of_reads hdecided h fun t ht => not_mem_of_apart hapart (hrest t ht)

/-- Where a part of the prolog stands, the loop reads it and goes on behind it. -/
theorem prologItems_cons (context : ParseContext) {allowed : Bool} {ts rest : List LocatedToken}
    {item : PrologItem} (h : (prologItem allowed).Reads ts item)
    (hrest : ∀ t, rest.head? = some t → t.token.kind ∈ prologStarts) {c : Cursor}
    (hc : c.rest = ts ++ rest) (u : LocatedToken) (ahead : List LocatedToken) :
    ∃ tried, prologItems context (u :: ahead) allowed .none c =
      match item with
      | .declaration d => (prologItems context ahead allowed .none ⟨rest, lastRange c.last ts, tried⟩).map
          fun (ds, ss) => (d :: ds, ss)
      | .state s => (prologItems context ahead false .none ⟨rest, lastRange c.last ts, tried⟩).map
          fun (ds, ss) => (ds, s :: ss) := by
  have hapart : apart (prologItem allowed).first [.mark .percentPercent] := by cases allowed <;> rfl
  have hne : ts ≠ [] := ne_nil_of_reads rfl h
  have hsees : c.sees [.mark .percentPercent] = false := by
    have havoids : Avoids (ts ++ rest) [.mark .percentPercent] :=
      (avoids_of_reads h hapart).append fun hnil => absurd hnil hne
    exact (hc ▸ havoids : Avoids c.rest _).not_sees
  have hempty : c.rest.isEmpty = false := by
    rw [hc, List.isEmpty_eq_false_iff]
    exact List.append_ne_nil_of_left_ne_nil hne rest
  obtain ⟨tried, hrun⟩ := run_prologItem h hrest (c.miss [.mark .percentPercent]) hc
  refine ⟨tried, ?_⟩
  rw [prologItems, hsees, hempty, hrun]
  cases item <;> rfl

/-- The parts of a prolog are found one by one up to `%%` or to the end of the input. -/
theorem prologItems_of_reads (context : ParseContext) {allowed : Bool} {ts rest : List LocatedToken}
    {ds : List Declaration} {ss : List ScannerState}
    (hrest : ∀ t, rest.head? = some t → t.token.kind = .mark .percentPercent)
    (h : ReadsItems allowed ts ds ss) {ahead : List LocatedToken} (hahead : ts.length ≤ ahead.length)
    {c : Cursor} (hc : c.rest = ts ++ rest) :
    ∃ tried, prologItems context ahead allowed .none c =
      ⟨(ds, ss), .none, ⟨rest, lastRange c.last ts, tried⟩⟩ := by
  have hstart : ∀ {allowed us ds ss}, ReadsItems allowed us ds ss →
      ∀ t, (us ++ rest).head? = some t → t.token.kind ∈ prologStarts := by
    intro allowed us ds ss hitems t ht
    cases us with
    | nil =>
      rw [hrest t ht]
      decide
    | cons u us => exact hitems.kind_mem_prologStarts ht
  induction h generalizing ahead c with
  | nil allowed =>
    obtain ⟨ts, last, tried⟩ := c
    obtain rfl : rest = ts := hc.symm
    refine ⟨tried, ?_⟩
    cases ahead with
    | nil => rfl
    | cons _ ahead =>
      rw [prologItems, if_pos, lastRange]
      cases rest with
      | nil => rfl
      | cons t rest =>
        have hsees : (⟨t :: rest, last, tried⟩ : Cursor).sees [.mark .percentPercent] :=
          sees_of_head? rfl (hrest t rfl ▸ List.mem_singleton_self _)
        rw [hsees, Bool.or_true]
  | @declaration us vs d ds ss hd hitems ih =>
    obtain ⟨u, ahead, rfl, hlength⟩ := exists_cons_of_length_append (ne_nil_of_reads rfl hd) hahead
    rw [List.append_assoc] at hc
    have hitem : (prologItem true).Reads us (.declaration d) :=
      reads_prologItem.mpr (.inr ⟨rfl, d, rfl, hd⟩)
    obtain ⟨tried, hcons⟩ := prologItems_cons context hitem (hstart hitems) hc u ahead
    obtain ⟨tried', hmore⟩ := ih hlength (c := ⟨vs ++ rest, lastRange c.last us, tried⟩) rfl
    refine ⟨tried', ?_⟩
    rw [hcons, lastRange_append]
    simp only [hmore, Reading.map]
  | @state allowed us vs s ds ss hs hitems ih =>
    obtain ⟨u, ahead, rfl, hlength⟩ := exists_cons_of_length_append (ne_nil_of_reads rfl hs) hahead
    rw [List.append_assoc] at hc
    have hitem : (prologItem allowed).Reads us (.state s) := reads_prologItem.mpr (.inl ⟨s, rfl, hs⟩)
    obtain ⟨tried, hcons⟩ := prologItems_cons context hitem (hstart hitems) hc u ahead
    obtain ⟨tried', hmore⟩ := ih hlength (c := ⟨vs ++ rest, lastRange c.last us, tried⟩) rfl
    refine ⟨tried', ?_⟩
    rw [hcons, lastRange_append]
    simp only [hmore, Reading.map]

/-! ### The productions -/

/-- Reading productions on without a mistake reads them up to the end. -/
theorem reads_of_productions {ahead : List LocatedToken} {c : Cursor} {items : Reading (List Production)}
    (hahead : c.rest.length ≤ ahead.length) (h : productions context ahead .none c = items)
    (herrors : items.found.errors = []) :
    items.found = .none ∧ items.cursor.rest = [] ∧
      ∃ ts, Passes c ts items.cursor ∧
        (oneOrMore (Rules.production maxNesting)).Reads ts items.value := by
  induction ahead generalizing c items with
  | nil =>
    -- without tokens there is no production
    have hnil : c.rest = [] := List.eq_nil_of_length_eq_zero (Nat.le_zero.mp hahead)
    cases hrun : (Rules.production maxNesting).run c with
    | ok p c' =>
      obtain ⟨ts, hpasses, hp⟩ := reads_of_run hrun
      have happ := hpasses.rest
      rw [hnil] at happ
      exact absurd (List.append_eq_nil_iff.mp happ.symm).1 (ne_nil_of_reads rfl hp)
    | failed fault c' =>
      subst h
      exact absurd herrors (errors_ne_nil_of_report (errors_productions_of_failed hrun))
  | cons _ ahead ih =>
    cases hrun : (Rules.production maxNesting).run c with
    | ok p c' =>
      obtain ⟨ts, hpasses, hp⟩ := reads_of_run hrun
      unfold productions at h
      simp only [hrun] at h
      split at h
      · rename_i hstop
        subst h
        have hnil : c'.rest = [] := by simpa [Findings.none] using hstop
        refine ⟨rfl, hnil, ts, hpasses, reads_oneOrMore.mpr ?_⟩
        exact ⟨ts, [], p, [], (List.append_nil ts).symm, rfl, hp, reads_many_nil⟩
      · subst h
        have hlength : c'.rest.length ≤ ahead.length := by
          have hpos := List.length_pos_iff.mpr (ne_nil_of_reads rfl hp)
          rw [hpasses.rest, List.length_append, List.length_cons] at hahead
          omega
        obtain ⟨hfound, hnil, us, hpasses', hps⟩ := ih hlength rfl herrors
        refine ⟨hfound, hnil, ts ++ us, hpasses.trans hpasses', reads_oneOrMore.mpr ?_⟩
        exact ⟨ts, us, p, _, rfl, rfl, hp, reads_many_of_oneOrMore hps⟩
    | failed fault c' =>
      subst h
      exact absurd herrors (errors_ne_nil_of_report (errors_productions_of_failed hrun))

/-- Productions are found one by one up to the end. -/
theorem productions_of_reads (context : ParseContext) {us vs : List LocatedToken} {p : Production}
    {ps : List Production} (hp : (Rules.production maxNesting).Reads us p)
    (hps : (many (Rules.production maxNesting)).Reads vs ps) {ahead : List LocatedToken}
    (hahead : (us ++ vs).length ≤ ahead.length) {c : Cursor} (hc : c.rest = us ++ vs) :
    ∃ tried, productions context ahead .none c =
      ⟨p :: ps, .none, ⟨[], lastRange c.last (us ++ vs), tried⟩⟩ := by
  have havoids : ∀ rest, Avoids rest (Rules.production maxNesting).extensions := by
    rw [(alike_production maxNesting).extensions]
    exact fun _ _ _ => List.not_mem_nil
  obtain ⟨u, ahead, rfl, hlength⟩ := exists_cons_of_length_append (ne_nil_of_reads rfl hp) hahead
  induction hps using many_induction generalizing us p u ahead c with
  | nil =>
    obtain ⟨tried, hrun⟩ := run_of_reads (decided_production maxNesting) hp (havoids []) c hc
    refine ⟨tried, ?_⟩
    rw [productions, hrun, List.append_nil]
    rfl
  | @cons us' vs' q qs hq hqs ih =>
    obtain ⟨tried, hrun⟩ := run_of_reads (decided_production maxNesting) hp (havoids _) c hc
    obtain ⟨u', ahead, rfl, hlength'⟩ := exists_cons_of_length_append (ne_nil_of_reads rfl hq) hlength
    have hempty : (us' ++ vs').isEmpty = false := by
      rw [List.isEmpty_eq_false_iff]
      exact List.append_ne_nil_of_left_ne_nil (ne_nil_of_reads rfl hq) vs'
    obtain ⟨tried', hmore⟩ :=
      ih hq (c := ⟨us' ++ vs', lastRange c.last us, tried⟩) rfl u' ahead hlength' hlength
    refine ⟨tried', ?_⟩
    rw [productions, hrun]
    dsimp only
    rw [hempty, hmore, ← lastRange_append]
    rfl

/-! ### The prolog and the definition -/

/-- The range of some tokens through the last of further ones is that of all of them. -/
theorem spanOf_append {ts : List LocatedToken} (hts : ts ≠ []) (r : Range) (us : List LocatedToken) :
    (spanOf ts).through (lastRange (lastRange r ts) us) = spanOf (ts ++ us) := by
  cases ts with
  | nil => exact absurd rfl hts
  | cons t ts =>
    rw [List.cons_append, spanOf, spanOf, lastRange, lastRange_append]
    rfl

/-- A prolog without a mistake is read by its rule. -/
theorem reads_of_prolog {c : Cursor} {p : Prolog} (hvalue : (prolog context c).value = some p)
    (herrors : (prolog context c).found.errors = []) :
    (prolog context c).found = .none ∧
      ∃ ts, Passes c ts (prolog context c).cursor ∧ Rules.prolog.Reads ts p := by
  unfold prolog startDeclaration at hvalue herrors ⊢
  cases hrun : Rules.startDeclaration.run c with
  | ok start c' =>
    obtain ⟨ts, hpasses, hstart⟩ := reads_of_run hrun
    simp only [hrun, Option.map_some, Option.some.injEq] at hvalue herrors ⊢
    obtain ⟨hfound, us, hpasses', hitems⟩ := reads_of_prologItems rfl herrors
    refine ⟨hfound, ts ++ us, hpasses.trans hpasses', (start, _), ⟨ts, us, rfl, hstart, hitems.reads⟩, ?_⟩
    rw [← hvalue, hpasses'.last, hpasses.last, ← spanOf_append (ne_nil_of_reads rfl hstart) c.last us]
    obtain ⟨i, -, rfl⟩ := hstart
    rfl
  | failed fault c' =>
    simp only [hrun] at hvalue
    cases hvalue

/-- A prolog that is missing is reported. -/
theorem errors_prolog_of_none {c : Cursor} (h : (prolog context c).value = none) :
    (prolog context c).found.errors ≠ [] := by
  unfold prolog startDeclaration at h ⊢
  cases hrun : Rules.startDeclaration.run c with
  | ok start c' =>
    simp only [hrun, Option.map_some] at h
    cases h
  | failed fault c' =>
    simp only
    exact errors_ne_nil_of_report (errors_prologItems _ _ _ _)

/-- What the rule of the prolog reads is found up to `%%` or to the end of the input. -/
theorem prolog_of_reads (context : ParseContext) {ts rest : List LocatedToken} {p : Prolog}
    (hrest : ∀ t, rest.head? = some t → t.token.kind = .mark .percentPercent)
    (h : Rules.prolog.Reads ts p) {c : Cursor} (hc : c.rest = ts ++ rest) :
    ∃ tried, prolog context c = ⟨some p, .none, ⟨rest, lastRange c.last ts, tried⟩⟩ := by
  obtain ⟨⟨start, ds, ss⟩, ⟨us, vs, rfl, hstart, ws, xs, rfl, hds, hss⟩, rfl⟩ := h
  have hitems := ReadsItems.of_reads hds hss
  rw [List.append_assoc] at hc
  obtain ⟨tried, hrun⟩ :=
    run_of_reads (r := Rules.startDeclaration) rfl hstart (fun _ _ => List.not_mem_nil) c hc
  have hlength : (ws ++ xs).length ≤ (ws ++ xs ++ rest).length :=
    (List.prefix_append _ _).length_le
  obtain ⟨tried', hmore⟩ := prologItems_of_reads context hrest hitems hlength
    (c := ⟨ws ++ xs ++ rest, lastRange c.last us, tried⟩) rfl
  refine ⟨tried', ?_⟩
  unfold prolog startDeclaration
  rw [hrun]
  simp only [hmore, Option.map_some, lastRange_append]
  rw [← spanOf_append (ne_nil_of_reads rfl hstart) c.last, lastRange_append]
  obtain ⟨i, -, rfl⟩ := hstart
  rfl

/-- Some tokens are those of a prolog just where reading it comes to their end without an error. -/
theorem exists_reads_prolog_iff (context : ParseContext) {tokens : List LocatedToken} :
    (∃ p, Rules.prolog.Reads tokens p) ↔
      (prolog context (.start tokens)).found = .none ∧
        (prolog context (.start tokens)).cursor.rest = [] := by
  constructor
  · rintro ⟨p, hp⟩
    have hend : ∀ t, ([] : List LocatedToken).head? = some t →
      t.token.kind = .mark .percentPercent := nofun
    obtain ⟨tried, hread⟩ := prolog_of_reads context hend hp (c := .start tokens)
      (List.append_nil tokens).symm
    rw [hread]
    exact ⟨rfl, rfl⟩
  · rintro ⟨hfound, hnil⟩
    have herrors : (prolog context (.start tokens)).found.errors = [] := by rw [hfound]; rfl
    cases hvalue : (prolog context (.start tokens)).value with
    | none => exact absurd herrors (errors_prolog_of_none hvalue)
    | some p =>
      obtain ⟨-, ts, hpasses, hp⟩ := reads_of_prolog hvalue herrors
      have htokens : tokens = ts ++ (prolog context (.start tokens)).cursor.rest := hpasses.rest
      rw [hnil, List.append_nil] at htokens
      exact ⟨p, htokens ▸ hp⟩

/-- A definition that is missing is reported. -/
theorem errors_definition_of_none {found : Findings} {c : Cursor}
    (h : (definition context found c).value = none) : (definition context found c).found.errors ≠ [] := by
  unfold definition at h ⊢
  cases hrun : (Rules.mark .percentPercent).run c with
  | ok percent c' =>
    simp only [hrun] at h
    cases h
  | failed fault c' => exact errors_ne_nil_of_report List.prefix_rfl

/-- A definition without a mistake is read by its rule up to the end. -/
theorem reads_of_definition {c : Cursor} {d : Definition}
    (hvalue : (definition context .none c).value = some d)
    (herrors : (definition context .none c).found.errors = []) :
    (definition context .none c).cursor.rest = [] ∧
      ∃ ts, Passes c ts (definition context .none c).cursor ∧
        (Rules.definition maxNesting).Reads ts d := by
  unfold definition at hvalue herrors ⊢
  cases hrun : (Rules.mark .percentPercent).run c with
  | ok percent c' =>
    obtain ⟨ts, hpasses, hpercent⟩ := reads_of_run hrun
    simp only [hrun, Option.some.injEq] at hvalue herrors ⊢
    obtain ⟨-, hnil, us, hpasses', hps⟩ := reads_of_productions (Nat.le_refl _) rfl herrors
    refine ⟨hnil, ts ++ us, hpasses.trans hpasses', _,
      ⟨(percent, _), ⟨ts, us, rfl, hpercent, hps⟩, rfl⟩, ?_⟩
    obtain ⟨rfl, -⟩ := hpercent
    rw [← hvalue, hpasses'.last, hpasses.last]
    rfl
  | failed fault c' =>
    simp only [hrun] at hvalue
    cases hvalue

/-- What the rule of the definition reads starts with `%%`. -/
theorem exists_percent_of_reads {levels : Nat} {ts : List LocatedToken} {d : Definition}
    (h : (Rules.definition levels).Reads ts d) :
    ∃ percent rest, ts = percent :: rest ∧ percent.token.kind = .mark .percentPercent := by
  obtain ⟨_, ⟨⟨percent, _⟩, ⟨us, vs, rfl, ⟨rfl, hpercent⟩, -⟩, -⟩, -⟩ := h
  exact ⟨percent, vs, rfl, hpercent⟩

/-- What the rule of the definition reads is found up to the end. -/
theorem definition_of_reads (context : ParseContext) {ts : List LocatedToken} {d : Definition}
    (h : (Rules.definition maxNesting).Reads ts d) {c : Cursor} (hc : c.rest = ts) :
    ∃ tried, definition context .none c = ⟨some d, .none, ⟨[], lastRange c.last ts, tried⟩⟩ := by
  obtain ⟨ps, ⟨⟨percent, _⟩, ⟨us, vs, rfl, hpercent, hps⟩, rfl⟩, rfl⟩ := h
  obtain ⟨ws, xs, p, ps, rfl, rfl, hp, hps⟩ := reads_oneOrMore.mp hps
  obtain ⟨tried, hrun⟩ :=
    run_of_reads (r := Rules.mark .percentPercent) rfl hpercent (fun _ _ => List.not_mem_nil) c hc
  obtain ⟨tried', hmore⟩ := productions_of_reads context hp hps (Nat.le_refl _)
    (c := ⟨ws ++ xs, lastRange c.last us, tried⟩) rfl
  refine ⟨tried', ?_⟩
  obtain ⟨rfl, -⟩ := hpercent
  unfold definition
  rw [hrun]
  simp only [hmore]
  rfl

/-! ### A whole file -/

/-- What a parse that gives a tree has found in the prolog and in the definition. -/
theorem parts_of_parseTokens {tokens : List LocatedToken} {g : Grammar}
    (h : parseTokens context tokens = .ok g) :
    ∃ p d, g = ⟨p, d, p.range.hull d.range⟩ ∧ (prolog context (.start tokens)).value = some p ∧
      (definition context (prolog context (.start tokens)).found
        (prolog context (.start tokens)).cursor).value = some d ∧
      (definition context (prolog context (.start tokens)).found
        (prolog context (.start tokens)).cursor).found.errors = [] := by
  unfold parseTokens at h
  dsimp only at h
  by_cases hstopped : (prolog context (.start tokens)).found.stopped
  · rw [if_pos hstopped] at h
    split at h
    · rename_i hnone _
      cases hnone
    · cases h
  · rw [if_neg hstopped] at h
    split at h
    · rename_i p d hp hd herrors
      cases h
      exact ⟨p, d, rfl, hp, hd, herrors⟩
    · cases h

/-- **A tree is given just where the rule of a whole file reads the tokens as that tree.** -/
theorem parseTokens_eq_ok_iff (context : ParseContext) {tokens : List LocatedToken} {g : Grammar} :
    parseTokens context tokens = .ok g ↔ (Rules.file maxNesting).Reads tokens g := by
  constructor
  · intro h
    obtain ⟨p, d, rfl, hp, hd, herrors⟩ := parts_of_parseTokens h
    have hnil : (prolog context (.start tokens)).found.errors = [] := by
      rw [← List.prefix_nil, ← herrors]
      exact errors_definition _ _
    obtain ⟨hfound, ts, hpasses, hprolog⟩ := reads_of_prolog hp hnil
    rw [hfound] at hd herrors
    obtain ⟨hrest, us, hpasses', hdefinition⟩ := reads_of_definition hd herrors
    have htokens : tokens = ts ++ us := by
      have hall := (hpasses.trans hpasses').rest
      rwa [hrest, List.append_nil] at hall
    exact ⟨(p, d), ⟨ts, us, htokens, hprolog, hdefinition⟩, rfl⟩
  · rintro ⟨⟨p, d⟩, ⟨us, vs, rfl, hp, hd⟩, rfl⟩
    obtain ⟨percent, rest, rfl, hpercent⟩ := exists_percent_of_reads hd
    have hahead : ∀ t, (percent :: rest).head? = some t → t.token.kind = .mark .percentPercent :=
      fun t ht => Option.some.inj ht ▸ hpercent
    obtain ⟨tried, hprolog⟩ := prolog_of_reads context hahead hp (c := .start (us ++ percent :: rest)) rfl
    obtain ⟨tried', hdefinition⟩ := definition_of_reads context hd
      (c := ⟨percent :: rest, lastRange (Cursor.start (us ++ percent :: rest)).last us, tried⟩) rfl
    have hstopped : Findings.none.stopped = false := rfl
    unfold parseTokens
    simp only [hprolog, hstopped, Bool.false_eq_true, if_false, hdefinition]
    rfl

/-- **What a source parses to, whatever the options.** It is what the rule of a whole file reads the
tokens of the source as. -/
theorem parse_eq_ok_iff {source : String} {options : ParserOptions} {g : Grammar} :
    parse source options = .ok g ↔
      ∃ lexemes, lex source = .ok lexemes ∧
        (Rules.file maxNesting).Reads (locate (.ofSource source) lexemes) g := by
  unfold parse
  cases lex source with
  | error e => simp
  | ok lexemes =>
    simp only [Except.ok.injEq, exists_eq_left']
    generalize ParseContext.mk options _ = context
    rw [← parseTokens_eq_ok_iff context]
    cases parseTokens context _ <;> simp [Except.mapError]

end GrammarFile
