import GrammarFile.Proofs.Indexed.Rounds
import GrammarFile.Proofs.Locations.Recovery
import GrammarFile.Proofs.Recovery.Limit
import GrammarFile.Proofs.Recovery.Progress
import GrammarFile.Proofs.Recovery.Segments

/-!
# A semicolon too many

Behind a production that is accepted the reading goes on with what stands there, whatever was in
front of it (`exists_before_of_accepted`). So two readings that differ only there are compared by
their errors from there on.

A semicolon that stands there is a mistake of its own, and it is passed over. But so is everything
behind it up to the next semicolon, or up to a name with a colon. If another production follows, or
nothing, then the semicolon only adds its error. If what follows is another mistake, then the error
of that one is missing, and the errors behind it are those that were there before
(`reported_stray_semicolon`).
-/

namespace GrammarFile

variable {context : ParseContext} {found : Findings} {c d start : Cursor} {ws ws' : List LocatedToken}

/-! ### Readings without a limit -/

section Unlimited

variable (hoptions : context.options = ⟨true, 0⟩)
include hoptions

/-- An attempt adds its own errors to those before it, and does not stop the reading. -/
theorem productionAttempt_unlimited (hfound : found.stopped = false) (c : Cursor) :
    productionAttempt context found c =
      ⟨(productionAttempt context .none c).value,
        ⟨found.errors ++ (productionAttempt context .none c).found.errors, false⟩,
        (productionAttempt context .none c).cursor⟩ := by
  unfold productionAttempt
  cases (Rules.production maxNesting).run c with
  | ok p c' =>
    obtain ⟨errors, stopped⟩ := found
    obtain rfl : stopped = false := hfound
    simp [Findings.none]
  | failed fault c' => simp [report_unlimited hoptions, Findings.none]

/-- The productions add their own errors to those before them. -/
theorem errors_productions_unlimited (hfound : found.stopped = false) (ahead : List LocatedToken)
    (c : Cursor) : (productions context ahead found c).found.errors =
      found.errors ++ (productions context ahead .none c).found.errors := by
  induction ahead generalizing found c with
  | nil => rw [productions_nil, productions_nil, productionAttempt_unlimited hoptions hfound]
  | cons t ahead ih =>
    have hnone := @productionAttempt_unlimited context .none hoptions rfl c
    rw [productions_cons, productions_cons, productionAttempt_unlimited hoptions hfound, hnone]
    generalize productionAttempt context .none c = first
    simp only [Reading.isLast, Bool.false_or]
    split
    · rfl
    · have hlater := fun errors => @ih ⟨errors, false⟩ rfl first.cursor
      dsimp only [Reading.map]
      rw [hlater (found.errors ++ (Findings.none.errors ++ first.found.errors)),
        hlater (Findings.none.errors ++ first.found.errors)]
      exact List.append_assoc ..

end Unlimited

/-- The errors of the productions from a place on. -/
def errorsFrom (context : ParseContext) (c : Cursor) : List ParseError :=
  (productions context c.rest .none c).found.errors

/-- The errors of the productions that a reading goes on with behind one of them, if it does. -/
def laterErrors (context : ParseContext) (c : Cursor) : List ParseError :=
  if c.rest.isEmpty then [] else errorsFrom context c

/-- Where a reading goes on there are no more tokens than before. -/
theorem productionAttempt_suffix (context : ParseContext) (found : Findings) (c : Cursor) :
    (productionAttempt context found c).cursor.rest <:+ c.rest := by
  have hmoved := Rule.rest_suffix_of_run (Rules.production maxNesting) c
  unfold productionAttempt
  cases hrun : (Rules.production maxNesting).run c with
  | ok p c' =>
    rw [hrun] at hmoved
    exact hmoved
  | failed fault c' =>
    rw [hrun] at hmoved
    dsimp only
    split
    · exact hmoved
    · exact ((Cursor.pass_suffix _ _).trans (Cursor.resume_suffix c' c _)).trans hmoved

/-- The errors from a place on are those of an attempt there and the later ones. -/
theorem errorsFrom_eq (hoptions : context.options = ⟨true, 0⟩) (c : Cursor) :
    errorsFrom context c =
      (productionAttempt context .none c).found.errors ++
        laterErrors context (productionAttempt context .none c).cursor := by
  have hsuffix := productionAttempt_suffix context .none c
  have hlt := @length_productionAttempt_lt context .none c
  have hfirst := @productionAttempt_unlimited context .none hoptions rfl c
  unfold errorsFrom laterErrors
  cases hrest : c.rest with
  | nil =>
    rw [hrest, List.suffix_nil] at hsuffix
    rw [productions_nil, hsuffix, List.isEmpty_nil, if_pos rfl, List.append_nil]
  | cons t ahead =>
    rw [hrest, List.length_cons] at hlt
    rw [productions_cons]
    rw [hfirst] at hlt ⊢
    generalize productionAttempt context .none c = first at hlt ⊢
    simp only [Reading.isLast, Bool.false_or, Findings.none, List.nil_append] at hlt ⊢
    split
    · rw [List.append_nil]
    · rename_i hgoes
      have hlength := hlt (Bool.eq_false_iff.mpr hgoes)
      have hcongr := @productions_congr context ⟨first.found.errors, false⟩ first.cursor ahead
        first.cursor.rest (Nat.lt_succ_iff.mp hlength) (Nat.le_refl _)
      rw [Reading.map, hcongr]
      exact errors_productions_unlimited hoptions rfl _ _

/-! ### The attempts of a reading -/

/-- Whether a reading makes an attempt at a production at a place, with what was found before: the
first one behind `%%`, or one after another. -/
inductive Attempted (context : ParseContext) (tokens : List LocatedToken) : Findings → Cursor → Prop where
  | first {percent : LocatedToken} {c : Cursor} :
      (prolog context (.start tokens)).found.stopped = false →
      (Rules.mark .percentPercent).run (prolog context (.start tokens)).cursor = .ok percent c →
      Attempted context tokens (prolog context (.start tokens)).found c
  | next {found : Findings} {c : Cursor} :
      Attempted context tokens found c → (productionAttempt context found c).isLast = false →
      Attempted context tokens (productionAttempt context found c).found
        (productionAttempt context found c).cursor

/-- Whether a reading accepts a production that ends in front of some tokens. -/
def AcceptedBefore (context : ParseContext) (tokens rest : List LocatedToken) : Prop :=
  ∃ found c p c', Attempted context tokens found c ∧ (Rules.production maxNesting).run c = .ok p c' ∧
    c'.rest = rest

/-- Where an attempt is made the reading has not stopped. -/
theorem Attempted.running {tokens : List LocatedToken} (h : Attempted context tokens found c) :
    found.stopped = false := by
  cases h with
  | first hrunning => exact hrunning
  | next _ hlast => exact (Bool.or_eq_false_iff.mp hlast).1

/-- The errors of tokens are those that were found on the way through a file. -/
theorem errorsIn_eq (context : ParseContext) (tokens : List LocatedToken) :
    errorsIn context tokens =
      (definitionAfter context (prolog context (.start tokens))).found.errors := by
  rw [errorsIn, parseTokens_eq]
  dsimp only
  generalize definitionAfter context (prolog context (.start tokens)) = second
  cases (prolog context (.start tokens)).value <;> cases second.value <;>
    cases second.found.errors <;> rfl

/-- The errors of a reading are those before an attempt and those from there on. -/
theorem Attempted.errorsIn_eq {tokens : List LocatedToken} (hoptions : context.options = ⟨true, 0⟩)
    (h : Attempted context tokens found c) :
    errorsIn context tokens = found.errors ++ errorsFrom context c := by
  induction h with
  | @first percent c hrunning hpercent =>
    rw [GrammarFile.errorsIn_eq, definitionAfter, if_neg (Bool.eq_false_iff.mp hrunning), definition,
      hpercent]
    exact errors_productions_unlimited hoptions hrunning c.rest c
  | @next found c hattempted hlast ih =>
    have hrunning := hattempted.running
    have hgoes : (productionAttempt context .none c).cursor.rest.isEmpty = false := by
      rw [productionAttempt_unlimited hoptions hrunning] at hlast
      exact (Bool.or_eq_false_iff.mp hlast).2
    rw [ih, errorsFrom_eq hoptions, laterErrors, hgoes, if_neg Bool.false_ne_true,
      productionAttempt_unlimited hoptions hrunning]
    exact (List.append_assoc ..).symm

/-! ### What stands behind -/

/-- Whether a reading goes on at some tokens depends on two of them. -/
theorem atBoundary_congr {ts ts' : List LocatedToken} (h : ts.take 2 = ts'.take 2) :
    atBoundary ts = atBoundary ts' := by
  rcases ts with _ | ⟨t, _ | ⟨u, ts⟩⟩ <;> rcases ts' with _ | ⟨t', _ | ⟨u', ts'⟩⟩ <;>
    simp_all [atBoundary, headIn, startsProduction]

section Behind

variable (hne : ws ≠ []) (hsame : ws.take 2 = ws'.take 2)
include hsame

/-- Tokens that agree up to the next ones start alike. -/
theorem sameNext_of_take : SameNext ws ws' := by
  rcases ws with _ | ⟨t, ws⟩ <;> rcases ws' with _ | ⟨t', ws'⟩ <;> simp_all [SameNext]

/-- Two of the tokens in front of others are the same if two of those are. -/
theorem take_append_congr (zs : List LocatedToken) : (zs ++ ws).take 2 = (zs ++ ws').take 2 := by
  rcases zs with _ | ⟨z, _ | ⟨z', zs⟩⟩
  · exact hsame
  · have hnext := congrArg (List.take 1) hsame
    simpa [List.take_take] using hnext
  · rfl

include hne

/-- What is skipped in front of some tokens does not depend on those behind the first two of them. -/
theorem skipTo_append (zs : List LocatedToken) (h : ws <:+ skipTo atBoundary (zs ++ ws)) :
    ∃ ys, skipTo atBoundary (zs ++ ws) = ys ++ ws ∧ skipTo atBoundary (zs ++ ws') = ys ++ ws' := by
  induction zs with
  | nil =>
    have hboundary : atBoundary ws = atBoundary ws' := atBoundary_congr hsame
    have hnext := sameNext_of_take hsame
    obtain ⟨w, rest, rfl⟩ := List.exists_cons_of_ne_nil hne
    cases ws' with
    | nil => cases hnext
    | cons w' rest' =>
      rw [List.nil_append, skipTo] at h
      rw [List.nil_append, List.nil_append, skipTo, skipTo, ← hboundary]
      split at h
      · rename_i hhere
        rw [if_pos hhere, if_pos hhere]
        exact ⟨[], rfl, rfl⟩
      · -- some of them would have been skipped
        have hle := (h.trans (skipTo_suffix atBoundary rest)).length_le
        exact absurd hle (Nat.not_succ_le_self rest.length)
  | cons z zs ih =>
    have hboundary : atBoundary (z :: (zs ++ ws)) = atBoundary (z :: (zs ++ ws')) :=
      atBoundary_congr (take_append_congr hsame (z :: zs))
    rw [List.cons_append, skipTo] at h ⊢
    rw [List.cons_append, skipTo, ← hboundary]
    split at h
    · rename_i hhere
      rw [if_pos hhere, if_pos hhere]
      exact ⟨z :: zs, rfl, rfl⟩
    · rename_i hhere
      rw [if_neg hhere, if_neg hhere]
      exact ih h

/-- A mark is passed alike before tokens that start alike. -/
theorem pass_before (m : Mark) (h : ws <:+ ((d.before ws).pass m).rest) :
    ∃ e : Cursor, (d.before ws).pass m = e.before ws ∧ (d.before ws').pass m = e.before ws' := by
  unfold Cursor.pass at h ⊢
  rw [← (sameNext_of_take hsame).sees d]
  split at h
  · rename_i hsees
    rw [if_pos hsees, if_pos hsees]
    obtain ⟨rest, last, tried⟩ := d
    cases rest with
    | nil =>
      have hle := h.length_le
      have hpos := List.length_pos_iff.mpr hne
      simp only [Cursor.before, List.nil_append, List.length_tail] at hle
      omega
    | cons t rest => exact ⟨⟨rest, last, tried⟩, rfl, rfl⟩
  · rename_i hsees
    rw [if_neg hsees, if_neg hsees]
    exact ⟨d, rfl, rfl⟩

/-- Nor does it matter to where a reading goes on after a failed production. -/
theorem resumeProduction_before (h : ws <:+ ((d.before ws).resumeProduction (start.before ws)).rest) :
    ∃ e : Cursor, (d.before ws).resumeProduction (start.before ws) = e.before ws ∧
      (d.before ws').resumeProduction (start.before ws') = e.before ws' := by
  have hlength : ∀ us, (d.before us).rest.length = (start.before us).rest.length ↔
      d.rest.length = start.rest.length := by
    intro us
    simp [Cursor.before]
  have hresume : ∃ e : Cursor, (d.before ws).resume (start.before ws) atBoundary = e.before ws ∧
      (d.before ws').resume (start.before ws') atBoundary = e.before ws' := by
    have hskipped := h.trans (Cursor.pass_suffix _ _)
    unfold Cursor.resume at hskipped ⊢
    simp only [hlength] at hskipped ⊢
    by_cases hmoved : d.rest.length = start.rest.length
    · simp only [if_pos hmoved] at hskipped ⊢
      obtain ⟨rest, last, tried⟩ := d
      cases rest with
      | nil =>
        have hle := (hskipped.trans (skipTo_suffix _ _)).length_le
        have hpos := List.length_pos_iff.mpr hne
        simp only [Cursor.before, List.nil_append, List.length_tail] at hle
        omega
      | cons t rest =>
        obtain ⟨ys, hys, hys'⟩ := skipTo_append hne hsame rest hskipped
        exact ⟨⟨ys, last, []⟩, congrArg (Cursor.mk · last []) hys, congrArg (Cursor.mk · last []) hys'⟩
    · simp only [if_neg hmoved] at hskipped ⊢
      obtain ⟨ys, hys, hys'⟩ := skipTo_append hne hsame d.rest hskipped
      exact ⟨⟨ys, d.last, []⟩, congrArg (Cursor.mk · d.last []) hys,
        congrArg (Cursor.mk · d.last []) hys'⟩
  obtain ⟨e, he, he'⟩ := hresume
  have hpass : ∀ us, (d.before us).resumeProduction (start.before us) =
      ((d.before us).resume (start.before us) atBoundary).pass .semicolon := fun _ => rfl
  rw [hpass, he] at h
  rw [hpass, hpass, he, he']
  exact pass_before hne hsame .semicolon h

/-- **An attempt that goes on in front of some tokens does not see what stands behind the first two of
them.** -/
theorem productionAttempt_before (hoptions : context.options = ⟨true, 0⟩) (found : Findings)
    (h : ws <:+ (productionAttempt context found (d.before ws)).cursor.rest) :
    ∃ e : Cursor, (productionAttempt context found (d.before ws)).cursor = e.before ws ∧
      (productionAttempt context found (d.before ws')).cursor = e.before ws' ∧
      (productionAttempt context found (d.before ws')).found =
        (productionAttempt context found (d.before ws)).found := by
  have hlocal := Rule.run_before (Rules.production maxNesting) (sameNext_of_take hsame) d
  unfold productionAttempt at h ⊢
  cases hrun : (Rules.production maxNesting).run (d.before ws) with
  | ok p c =>
    rw [hrun] at hlocal h
    obtain ⟨o, ho, ho'⟩ := hlocal h
    cases o with
    | failed => cases ho
    | ok p' e =>
      obtain ⟨rfl, rfl⟩ := Outcome.ok.inj ho
      rw [ho']
      exact ⟨e, rfl, rfl, rfl⟩
  | failed fault c =>
    rw [hrun] at hlocal h
    simp only [report_unlimited hoptions, Bool.false_eq_true, if_false] at h ⊢
    have hsuffix : ws <:+ c.rest :=
      h.trans ((Cursor.pass_suffix _ _).trans (Cursor.resume_suffix c (d.before ws) _))
    obtain ⟨o, ho, ho'⟩ := hlocal hsuffix
    cases o with
    | ok => cases ho
    | failed fault' e =>
      obtain ⟨rfl, rfl⟩ := Outcome.failed.inj ho
      rw [ho']
      obtain ⟨next, hnext, hnext'⟩ := resumeProduction_before hne hsame h
      have hblame : context.blame fault (e.before ws') = context.blame fault (e.before ws) := by
        refine blame_eq_of_head? ?_
        have htake := congrArg List.head? (take_append_congr hsame e.rest)
        simpa [Cursor.before, List.head?_take] using htake.symm
      simp only [Outcome.before, hblame]
      exact ⟨next, hnext, hnext', trivial⟩

end Behind

/-! ### Behind a production that is accepted -/

/-- A production ends with a token. -/
theorem tried_of_run_production {levels : Nat} {p : Production} {c' : Cursor}
    (h : (Rules.production levels).run c = .ok p c') : c'.tried = [] := by
  obtain ⟨x, d, hwhole, hranged⟩ := Outcome.bind_eq_ok h
  cases hranged
  obtain ⟨name, d, -, hrest⟩ := Outcome.bind_eq_ok hwhole
  obtain ⟨y, hskip, -⟩ := Outcome.map_eq_ok hrest
  obtain ⟨y, hcolon, -⟩ := Outcome.map_eq_ok hskip
  obtain ⟨colon, d, -, hrest⟩ := Outcome.bind_eq_ok hcolon
  obtain ⟨y, hskip, -⟩ := Outcome.map_eq_ok hrest
  obtain ⟨y, hbody, -⟩ := Outcome.map_eq_ok hskip
  obtain ⟨body, d, -, hrest⟩ := Outcome.bind_eq_ok hbody
  obtain ⟨semicolon, hsemicolon, -⟩ := Outcome.map_eq_ok hrest
  exact Rule.tried_of_run_token hsemicolon

/-- A production is a name, a colon and what follows it. -/
theorem exists_cons_cons_of_reads {levels : Nat} {ts : List LocatedToken} {p : Production}
    (h : (Rules.production levels).Reads ts p) : ∃ t u rest, ts = t :: u :: rest := by
  obtain ⟨x, ⟨us, vs, rfl, ⟨t, ⟨rfl, -⟩, -⟩, ⟨y, ⟨us', vs', rfl, ⟨rfl, -⟩, -⟩, -⟩⟩, -⟩ := h
  exact ⟨t, y.1, vs', rfl⟩

section Accepted

variable {head : List LocatedToken} (hhead : IsHead (head.map (·.token)))
include hhead

/-- The attempts behind a prolog are made among the tokens there. -/
theorem Attempted.rest_suffix {body : List LocatedToken} (h : Attempted context (head ++ body) found c) :
    c.rest <:+ body := by
  obtain ⟨percent, hread⟩ := exists_percent_of_isHead hhead
  induction h with
  | first _ hpercent =>
    obtain ⟨p, c', hprolog, hrun⟩ := hread context body
    rw [hprolog, hrun] at hpercent
    cases hpercent
    exact List.suffix_rfl
  | next _ _ ih => exact (productionAttempt_suffix context _ _).trans ih

/-- The first production behind a prolog is accepted. -/
theorem acceptedBefore_of_isProduction {us : List LocatedToken} (hus : IsProduction (us.map (·.token)))
    (vs : List LocatedToken) : AcceptedBefore context (head ++ (us ++ vs)) vs := by
  obtain ⟨percent, hread⟩ := exists_percent_of_isHead hhead
  obtain ⟨p, c, hprolog, hpercent⟩ := hread context (us ++ vs)
  have hfirst := @Attempted.first context (head ++ (us ++ vs)) percent ⟨us ++ vs, percent.range, []⟩
  rw [hprolog] at hfirst
  obtain ⟨q, c', hrun, hc'⟩ := @run_of_isProduction us vs hus ⟨us ++ vs, percent.range, []⟩ rfl
  exact ⟨_, _, q, c', hfirst rfl hpercent, hrun, hc'⟩

variable (hoptions : context.options = ⟨true, 0⟩)
include hoptions

/-- **The attempts in front of some tokens do not depend on what stands behind the first two of them.** -/
theorem Attempted.before {zs : List LocatedToken} (hne : ws ≠ []) (hsame : ws.take 2 = ws'.take 2)
    (h : Attempted context (head ++ (zs ++ ws)) found c) (hc : ws <:+ c.rest) :
    ∃ d : Cursor, c = d.before ws ∧ Attempted context (head ++ (zs ++ ws')) found (d.before ws') := by
  obtain ⟨percent, hread⟩ := exists_percent_of_isHead hhead
  induction h with
  | first hrunning hpercent =>
    obtain ⟨p, c₁, hprolog, hrun⟩ := hread context (zs ++ ws)
    obtain ⟨p', c₂, hprolog', hrun'⟩ := hread context (zs ++ ws')
    rw [hprolog, hrun] at hpercent
    cases hpercent
    have hfirst := @Attempted.first context (head ++ (zs ++ ws'))
    rw [hprolog'] at hfirst
    rw [hprolog]
    exact ⟨⟨zs, percent.range, []⟩, rfl, hfirst rfl hrun'⟩
  | @next found c _ hlast ih =>
    obtain ⟨d, rfl, hattempted⟩ := ih (hc.trans (productionAttempt_suffix context found c))
    obtain ⟨e, hcursor, hcursor', hfound⟩ := productionAttempt_before hne hsame hoptions found hc
    have hgoes : (productionAttempt context found (d.before ws')).isLast = false := by
      have hrest : (e.before ws').rest ≠ [] := by
        intro hnil
        have hnext := sameNext_of_take hsame
        rw [(List.append_eq_nil_iff.mp hnil).2] at hnext
        obtain ⟨w, rest, rfl⟩ := List.exists_cons_of_ne_nil hne
        cases hnext
      rw [Reading.isLast, hfound, (Bool.or_eq_false_iff.mp hlast).1, hcursor', Bool.false_or]
      exact List.isEmpty_eq_false_iff.mpr hrest
    have hnext := hattempted.next hgoes
    rw [hfound, hcursor'] at hnext
    exact ⟨e, hcursor, hnext⟩

/-- **What stands behind an accepted production is read by itself.** Whatever it is, the production is
accepted, the errors up to there are the same, and those behind it depend on nothing in front. -/
theorem exists_before_of_accepted {us vs : List LocatedToken}
    (h : AcceptedBefore context (head ++ (us ++ vs)) vs) :
    ∃ before last, ∀ vs', AcceptedBefore context (head ++ (us ++ vs')) vs' ∧
      errorsIn context (head ++ (us ++ vs')) = before ++ laterErrors context ⟨vs', last, []⟩ := by
  obtain ⟨found, c, p, c', hattempted, hrun, rfl⟩ := h
  obtain ⟨ts, hpasses, hreads⟩ := Rule.reads_of_run hrun
  obtain ⟨t, u, rest, hts⟩ := exists_cons_cons_of_reads hreads
  obtain ⟨zs, rfl⟩ : ∃ zs, us = zs ++ ts := by
    obtain ⟨zs, hzs⟩ := hattempted.rest_suffix hhead
    rw [hpasses.rest, ← List.append_assoc] at hzs
    exact ⟨zs, (List.append_cancel_right hzs).symm⟩
  rw [List.append_assoc] at hattempted
  refine ⟨found.errors, lastRange c.last ts, fun vs' => ?_⟩
  have hne : ts ++ c'.rest ≠ [] := by simp [hts]
  have hsame : (ts ++ c'.rest).take 2 = (ts ++ vs').take 2 := by simp [hts]
  obtain ⟨d, hd, hattempted'⟩ :=
    hattempted.before hhead hoptions hne hsame (hpasses.rest ▸ List.suffix_rfl)
  have hnil : d.rest = [] := by
    have hlength := congrArg (·.rest.length) hd
    simp only [hpasses.rest, Cursor.before, List.length_append] at hlength
    exact List.eq_nil_of_length_eq_zero (by omega)
  have havoids : Avoids vs' (Rules.production maxNesting).extensions := by
    rw [(alike_production maxNesting).extensions]
    exact fun _ _ => List.not_mem_nil
  obtain ⟨tried, hrun'⟩ := Rule.run_of_reads (decided_production maxNesting) hreads havoids
    (d.before (ts ++ vs')) (by rw [Cursor.before, hnil, List.nil_append])
  obtain rfl : tried = [] := tried_of_run_production hrun'
  have hlast : (d.before (ts ++ vs')).last = c.last := by rw [hd]; rfl
  rw [hlast] at hrun'
  rw [List.append_assoc]
  refine ⟨⟨found, _, p, _, hattempted', hrun', rfl⟩, ?_⟩
  rw [hattempted'.errorsIn_eq hoptions, errorsFrom_eq hoptions, productionAttempt, hrun']
  rfl

end Accepted

/-! ### The semicolon -/

/-- Past the next semicolon, or to the next name with a colon. -/
def Cursor.skipProduction (c : Cursor) : Cursor :=
  (Cursor.mk (skipTo atBoundary c.rest) c.last []).pass .semicolon

/-- Skipping a production does not depend on locations. -/
theorem Cursor.skipProduction_erase (c : Cursor) : c.erase.skipProduction = c.skipProduction.erase := by
  have hboundary : ∀ ts, atBoundary (ts.map (·.erase)) = atBoundary ts := by
    intro ts
    rw [atBoundary, atBoundary, headIn_erase, startsProduction_erase]
  unfold skipProduction
  rw [← pass_erase]
  simp only [erase, skipTo_erase hboundary]

/-- Nothing is skipped in front of a production, and nothing at the end. -/
theorem skipProduction_of_startsProduction {vs : List LocatedToken} (h : vs = [] ∨ startsProduction vs)
    (last : Range) : (Cursor.mk vs last []).skipProduction = ⟨vs, last, []⟩ := by
  rcases h with rfl | h
  · rfl
  · have hboundary : atBoundary vs := by rw [atBoundary, h, Bool.or_true]
    obtain ⟨t, u, rest, rfl, hname⟩ : ∃ t u rest, vs = t :: u :: rest ∧ t.token.kind = .identifier := by
      rcases vs with _ | ⟨t, _ | ⟨u, rest⟩⟩
      · cases h
      · cases h
      · exact ⟨t, u, rest, rfl, by simpa using (Bool.and_eq_true_iff.mp h).1⟩
    rw [Cursor.skipProduction, skipTo, if_pos hboundary, Cursor.pass]
    simp [Cursor.sees, hname]

/-- Only the semicolon itself is passed over where one stands. -/
theorem skipProduction_semicolon {v : LocatedToken} (hv : v.token = .mark .semicolon)
    (ws : List LocatedToken) (last : Range) :
    (Cursor.mk (v :: ws) last []).skipProduction = ⟨ws, last, []⟩ := by
  rw [Cursor.skipProduction, skipTo, if_pos (atBoundary_semicolon hv ws), Cursor.pass]
  simp [Cursor.sees, hv, Token.kind]

/-- An attempt that has not moved is passed over, token by token. -/
theorem resumeProduction_of_length_eq (h : c.rest.length = start.rest.length) :
    c.resumeProduction start = (Cursor.mk c.rest.tail c.last []).skipProduction := by
  have hresume : c.resume start atBoundary = ⟨skipTo atBoundary c.rest.tail, c.last, []⟩ := by
    rw [Cursor.resume, if_pos h]
  exact congrArg (·.pass .semicolon) hresume

/-- An attempt that has moved is passed over from where it has failed. -/
theorem resumeProduction_of_length_ne (h : c.rest.length ≠ start.rest.length) :
    c.resumeProduction start = c.skipProduction := by
  have hresume : c.resume start atBoundary = ⟨skipTo atBoundary c.rest, c.last, []⟩ := by
    rw [Cursor.resume, if_neg h]
  exact congrArg (·.pass .semicolon) hresume

/-- An attempt where no name with a colon stands fails at the first token or at the second one. -/
theorem exists_failed_of_not_startsProduction {t : LocatedToken} {rest : List LocatedToken} {last : Range}
    (h : ¬startsProduction (t :: rest)) :
    ∃ fault c, (Rules.production maxNesting).run ⟨t :: rest, last, []⟩ = .failed fault c ∧
      (c.rest = t :: rest ∨ c.rest = rest) := by
  by_cases hname : t.token.kind = .identifier
  · have hcolon : (Cursor.mk rest t.range []).sees [.mark .colon] = false := by
      cases rest with
      | nil => rfl
      | cons u rest => simpa [startsProduction, hname, Cursor.sees] using h
    have hmissing := Rule.run_token_of_not_sees hcolon
    have hrun : (Rules.production maxNesting).run ⟨t :: rest, last, []⟩ =
        .failed ((Cursor.mk rest t.range []).miss [.mark .colon]).unexpected ⟨rest, t.range, []⟩ := by
      simp only [Rules.production, Rules.identifier, Rules.mark, Rule.skipThen, Rule.run, hname, if_true]
      rw [Rule.run] at hmissing
      simp only [Outcome.map, Outcome.bind, hmissing]
    exact ⟨_, _, hrun, .inr rfl⟩
  · have hunseen : (Cursor.mk (t :: rest) last []).sees (Rules.production maxNesting).first = false := by
      show (Cursor.mk (t :: rest) last []).sees [.identifier] = false
      simpa [Cursor.sees] using hname
    obtain ⟨left, hrun⟩ := Rule.failed_of_not_sees (Rules.production maxNesting) hunseen
    exact ⟨_, _, hrun, .inl rfl⟩

/-! ### The same tokens elsewhere -/

section Elsewhere

variable {context' : ParseContext} {tokens tokens' : List LocatedToken}
  (hcontext : context'.erase = context.erase)
include hcontext

/-- The errors behind a production are the same up to locations. -/
theorem map_erase_laterErrors (hc : d.erase = c.erase) :
    (laterErrors context' d).map (·.erase) = (laterErrors context c).map (·.erase) := by
  have herase : ∀ (context : ParseContext) (c : Cursor),
      (laterErrors context c).map (·.erase) = laterErrors context.erase c.erase := by
    intro context c
    have hproductions := productions_erase context c.rest .none c
    rw [laterErrors, laterErrors, apply_ite (List.map _), Cursor.erase, List.isEmpty_map]
    exact congrArg (ite _ [] ·) (congrArg (·.found.errors) hproductions).symm
  rw [herase, herase, hcontext, hc]

/-- The errors of a whole reading are the same up to locations. -/
theorem map_erase_errorsIn (htokens : tokens'.map (·.token) = tokens.map (·.token)) :
    (errorsIn context' tokens').map (·.erase) = (errorsIn context tokens).map (·.erase) := by
  have herase : ∀ (context : ParseContext) (tokens : List LocatedToken),
      (errorsIn context tokens).map (·.erase) = errorsIn context.erase (tokens.map (·.erase)) := by
    intro context tokens
    rw [errorsIn, errorsIn, parseTokens_erase]
    cases parseTokens context tokens <;> rfl
  rw [herase, herase, hcontext, map_erase_eq htokens]

/-- So are the attempts of a reading. -/
theorem Attempted.elsewhere (htokens : tokens'.map (·.token) = tokens.map (·.token))
    (h : Attempted context tokens found c) :
    ∃ found' d, Attempted context' tokens' found' d ∧ found'.erase = found.erase ∧ d.erase = c.erase := by
  induction h with
  | @first percent c hrunning hpercent =>
    have hprolog : (prolog context' (.start tokens')).erase (Option.map (·.erase)) =
        (prolog context (.start tokens)).erase (Option.map (·.erase)) := by
      have hstart : (Cursor.start tokens').erase = (Cursor.start tokens).erase :=
        congrArg Cursor.start (map_erase_eq htokens)
      rw [← prolog_erase, ← prolog_erase, hcontext, hstart]
    have hfound : (prolog context' (.start tokens')).found.erase =
        (prolog context (.start tokens)).found.erase := congrArg (·.found) hprolog
    have hcursor := congrArg (·.cursor) hprolog
    obtain ⟨percent', d, hrun, hd⟩ :=
      Rule.exists_ok_of_erase_eq (Rule.Erases.mark .percentPercent) hcursor hpercent
    exact ⟨_, d, .first ((congrArg (·.stopped) hfound).trans hrunning) hrun, hfound, hd⟩
  | @next found c _ hlast ih =>
    obtain ⟨found', d, hattempted, hfound, hd⟩ := ih
    have hattempt : (productionAttempt context' found' d).erase (List.map (·.erase)) =
        (productionAttempt context found c).erase (List.map (·.erase)) := by
      rw [← productionAttempt_erase, ← productionAttempt_erase, hcontext, hfound, hd]
    have hgoes : (productionAttempt context' found' d).isLast = false := by
      rw [← Reading.isLast_erase, hattempt, Reading.isLast_erase, hlast]
    exact ⟨_, _, hattempted.next hgoes, congrArg (·.found) hattempt, congrArg (·.cursor) hattempt⟩

/-- So are the productions that it accepts. -/
theorem AcceptedBefore.elsewhere {head body rest rest' : List LocatedToken}
    (hhead : IsHead (head.map (·.token))) (htokens : (head ++ body).map (·.token) = tokens.map (·.token))
    (hsuffix : rest' <:+ body) (hlength : rest'.length = rest.length)
    (h : AcceptedBefore context tokens rest) : AcceptedBefore context' (head ++ body) rest' := by
  obtain ⟨found, c, p, c', hattempted, hrun, rfl⟩ := h
  obtain ⟨found', d, hattempted', -, hd⟩ := hattempted.elsewhere hcontext htokens
  obtain ⟨p', d', hrun', hd'⟩ := Rule.exists_ok_of_erase_eq (Rule.Erases.production maxNesting) hd hrun
  refine ⟨found', d, p', d', hattempted', hrun', ?_⟩
  -- what is left is told by how much of the tokens it is
  have hleft : d'.rest <:+ body := by
    have hmoved := Rule.rest_suffix_of_run (Rules.production maxNesting) d
    rw [hrun'] at hmoved
    exact hmoved.trans (hattempted'.rest_suffix hhead)
  have hcount : d'.rest.length = rest'.length := by
    have herase := congrArg (·.rest.length) hd'
    simp only [Cursor.erase, List.length_map] at herase
    rw [herase, hlength]
  exact (List.suffix_of_suffix_length_le hleft hsuffix hcount.le).eq_of_length hcount

end Elsewhere

section Stray

variable (hoptions : context.options = ⟨true, 0⟩) (last : Range)
include hoptions

/-- An attempt at a semicolon fails there, and the semicolon is passed over with what follows it. -/
theorem productionAttempt_semicolon {u : LocatedToken} (hu : u.token = .mark .semicolon)
    (vs : List LocatedToken) :
    productionAttempt context .none ⟨u :: vs, last, []⟩ =
      ⟨[], ⟨[context.blame (.unexpected [.identifier]) (.start (u :: vs))], false⟩,
        (Cursor.mk vs last []).skipProduction⟩ := by
  have hunseen : (Cursor.mk (u :: vs) last []).sees (Rules.production maxNesting).first = false := by
    show (Cursor.mk (u :: vs) last []).sees [.identifier] = false
    simp [Cursor.sees, hu, Token.kind]
  obtain ⟨left, hrun⟩ := Rule.failed_of_not_sees (Rules.production maxNesting) hunseen
  have hfault : ((Cursor.mk (u :: vs) last []).miss (Rules.production maxNesting).first).unexpected =
      .unexpected [.identifier] := rfl
  rw [hfault] at hrun
  rw [productionAttempt, hrun]
  simp only [report_unlimited hoptions, Bool.false_eq_true, if_false]
  have hresume :
      ((Cursor.mk (u :: vs) last []).withTried left).resumeProduction ⟨u :: vs, last, []⟩ = _ :=
    resumeProduction_of_length_eq rfl
  rw [hresume]
  rfl

/-- The errors behind a semicolon that is too many are its own one and those behind what is passed
over. -/
theorem laterErrors_semicolon {u : LocatedToken} (hu : u.token = .mark .semicolon)
    (vs : List LocatedToken) :
    laterErrors context ⟨u :: vs, last, []⟩ =
      context.blame (.unexpected [.identifier]) (.start (u :: vs)) ::
        laterErrors context (Cursor.mk vs last []).skipProduction := by
  have hgoes : (Cursor.mk (u :: vs) last []).rest.isEmpty = false := rfl
  rw [laterErrors, hgoes, if_neg Bool.false_ne_true, errorsFrom_eq hoptions,
    productionAttempt_semicolon hoptions last hu]
  rfl

/-- An attempt at what is neither a semicolon nor a name with a colon fails at once, and what
follows it is passed over too. -/
theorem exists_laterErrors_eq_cons {vs : List LocatedToken} (hne : vs ≠ []) (hvs : ¬atBoundary vs) :
    ∃ e last' i, i < 2 ∧ e.blamed? = vs[i]? ∧
      laterErrors context ⟨vs, last, []⟩ =
        e :: laterErrors context (Cursor.mk vs last' []).skipProduction := by
  obtain ⟨t, rest, rfl⟩ := List.exists_cons_of_ne_nil hne
  have hgoes : (Cursor.mk (t :: rest) last []).rest.isEmpty = false := rfl
  have hskip : ∀ last, (Cursor.mk (t :: rest) last []).skipProduction =
      (Cursor.mk rest last []).skipProduction := by
    intro last
    rw [Cursor.skipProduction, Cursor.skipProduction, skipTo, if_neg hvs]
  rw [atBoundary, Bool.or_eq_true, not_or] at hvs
  obtain ⟨fault, c, hrun, hc⟩ := exists_failed_of_not_startsProduction hvs.2
  have hblamed := context.blamed?_blame fault c
  rw [laterErrors, hgoes, if_neg Bool.false_ne_true, errorsFrom_eq hoptions, productionAttempt, hrun]
  simp only [report_unlimited hoptions, Bool.false_eq_true, if_false]
  refine ⟨context.blame fault c, c.last, ?_⟩
  rw [hskip, hblamed]
  rcases hc with hc | hc
  · rw [resumeProduction_of_length_eq (congrArg List.length hc), hc]
    exact ⟨0, Nat.zero_lt_two, rfl, rfl⟩
  · have hmoved : c.rest.length ≠ (Cursor.mk (t :: rest) last []).rest.length := by simp [hc]
    rw [resumeProduction_of_length_ne hmoved, Cursor.skipProduction, Cursor.skipProduction, hc]
    exact ⟨1, Nat.one_lt_two, List.head?_eq_getElem?, rfl⟩

end Stray

/-! ### From the source text -/

/-- The errors of a source text that is read to its end. -/
def reported (source : String) : List ParseError :=
  match parse source .unlimited with
  | .ok _ => []
  | .error e => e.parseErrors

/-- The errors of a source that lexes are those of its lexemes. -/
theorem reported_of_lex {source : String} {lexemes : List Lexeme} (hlex : lex source = .ok lexemes) :
    reported source = errorsIn (.ofSource source .unlimited) (locate (.ofSource source) lexemes) := by
  rw [reported, parse_of_lex hlex, errorsIn]
  cases parseTokens (.ofSource source .unlimited) (locate (.ofSource source) lexemes) <;> rfl

/-- **A semicolon too many behind an accepted production is one error of its own, and it hides the
mistake that follows it.** If a production follows, or nothing, then all other errors are those
without it. If anything else follows, then one error is missing, that of the mistake that begins
there. A second semicolon is not reported either. -/
theorem reported_stray_semicolon {source source' : String} {lexemes lexemes' : List Lexeme}
    (hlex : lex source = .ok lexemes) (hlex' : lex source' = .ok lexemes')
    {head us vs : List LocatedToken} (hhead : IsHead (head.map (·.token)))
    (htokens : locate (.ofSource source) lexemes = head ++ (us ++ vs))
    (haccepted : AcceptedBefore (.ofSource source .unlimited) (head ++ (us ++ vs)) vs)
    (hinserted : lexemes'.map (·.token) =
      (head ++ us).map (·.token) ++ .mark .semicolon :: vs.map (·.token)) :
    ∃ before after before' stray after',
      reported source = before ++ after ∧ reported source' = before' ++ stray :: after' ∧
      before'.map (·.erase) = before.map (·.erase) ∧
      stray.fault = .unexpected [.identifier] ∧
      stray.blamed? = (locate (.ofSource source') lexemes')[(head ++ us).length]? ∧
      (vs = [] ∨ startsProduction vs → after'.map (·.erase) = after.map (·.erase)) ∧
      (vs ≠ [] → ¬atBoundary vs → ∃ hidden others i, after = hidden :: others ∧
        i < 2 ∧ hidden.blamed? = vs[i]? ∧ after'.map (·.erase) = others.map (·.erase)) ∧
      ∀ v ws, vs = v :: ws → v.token = .mark .semicolon →
        (errorsIn (.ofSource source .unlimited) (head ++ (us ++ ws))).map (·.erase) =
          (before' ++ after').map (·.erase) := by
  have hcontext : (ParseContext.ofSource source' .unlimited).erase =
      (ParseContext.ofSource source .unlimited).erase := rfl
  -- the parts of the longer text have the tokens of the parts of the shorter one
  rw [← map_token_locate (.ofSource source')] at hinserted
  obtain ⟨us', ts', htokens', hus', hts'⟩ := List.map_eq_append_iff.mp hinserted
  rw [List.map_append] at hus'
  obtain ⟨head', us', rfl, hhead', hus'⟩ := List.map_eq_append_iff.mp hus'
  obtain ⟨u, vs', rfl, hu, hvs'⟩ := List.map_eq_cons_iff.mp hts'
  have hbody : ∀ {ws ws' : List LocatedToken}, ws'.map (·.token) = ws.map (·.token) →
      (head' ++ (us' ++ ws')).map (·.token) = (head ++ (us ++ ws)).map (·.token) := by
    intro ws ws' hws
    simp only [List.map_append, hhead', hus', hws]
  have haccepted' : AcceptedBefore (.ofSource source' .unlimited) (head' ++ (us' ++ vs')) vs' :=
    haccepted.elsewhere hcontext (hhead'.symm ▸ hhead) (hbody hvs') (List.suffix_append us' vs')
      (by simpa using congrArg List.length hvs')
  -- so both of them are read alike in front, and by themselves behind
  obtain ⟨before, last, hbehind⟩ := exists_before_of_accepted hhead rfl haccepted
  obtain ⟨before', last', hbehind'⟩ := exists_before_of_accepted (hhead'.symm ▸ hhead) rfl haccepted'
  have hbefore : before'.map (·.erase) = before.map (·.erase) := by
    have hend := map_erase_errorsIn hcontext (@hbody [] [] rfl)
    rw [(hbehind []).2, (hbehind' []).2] at hend
    simpa [laterErrors] using hend
  have hrest : ∀ {ws ws' : List LocatedToken}, ws'.map (·.token) = ws.map (·.token) →
      ∀ last last', (Cursor.mk ws' last' []).erase = (Cursor.mk ws last []).erase := by
    intro ws ws' hws last last'
    exact congrArg Cursor.start (map_erase_eq hws)
  have hskip : ∀ last last', (laterErrors (.ofSource source' .unlimited)
      (Cursor.mk vs' last' []).skipProduction).map (·.erase) =
      (laterErrors (.ofSource source .unlimited) (Cursor.mk vs last []).skipProduction).map
        (·.erase) := by
    intro last last'
    apply map_erase_laterErrors hcontext
    rw [← Cursor.skipProduction_erase, ← Cursor.skipProduction_erase, hrest hvs']
  have hreported :
      reported source = before ++ laterErrors (.ofSource source .unlimited) ⟨vs, last, []⟩ := by
    rw [reported_of_lex hlex, htokens, (hbehind vs).2]
  have hreported' : reported source' = before' ++
      (ParseContext.ofSource source' .unlimited).blame (.unexpected [.identifier]) (.start (u :: vs')) ::
        laterErrors (.ofSource source' .unlimited) (Cursor.mk vs' last' []).skipProduction := by
    rw [reported_of_lex hlex', htokens', List.append_assoc, (hbehind' (u :: vs')).2,
      laterErrors_semicolon rfl last' hu]
  refine ⟨before, _, before', _, _, hreported, hreported', hbefore, rfl, ?_, ?_, ?_, ?_⟩
  · have hlength : (head ++ us).length = (head' ++ us').length := by
      simpa using (congrArg List.length (congrArg₂ (· ++ ·) hhead' hus')).symm
    rw [ParseContext.blamed?_blame, htokens', hlength, List.getElem?_append_right (Nat.le_refl _),
      Nat.sub_self]
    rfl
  · intro hstarts
    rw [hskip last last', skipProduction_of_startsProduction hstarts]
  · intro hne hvs
    obtain ⟨hidden, last₂, i, hi, hblamed, hafter⟩ :=
      @exists_laterErrors_eq_cons (.ofSource source .unlimited) rfl last vs hne hvs
    exact ⟨hidden, _, i, hafter, hi, hblamed, hskip last₂ last'⟩
  · rintro v ws rfl hv
    rw [(hbehind ws).2, List.map_append, List.map_append, hbefore, hskip last last',
      skipProduction_semicolon hv]

/-- A bracket that stands by itself is a mistake, and behind a second semicolon it is not reported. -/
theorem reported_stray_semicolon_bracket :
    let source := "%start s %% s: a; ] ; t: b;"
    let source' := "%start s %% s: a; ; ] ; t: b;"
    ∃ lexemes lexemes' head us vs hidden stray, lex source = .ok lexemes ∧ lex source' = .ok lexemes' ∧
      IsHead (head.map (·.token)) ∧ locate (.ofSource source) lexemes = head ++ (us ++ vs) ∧
      AcceptedBefore (.ofSource source .unlimited) (head ++ (us ++ vs)) vs ∧
      lexemes'.map (·.token) = (head ++ us).map (·.token) ++ .mark .semicolon :: vs.map (·.token) ∧
      reported source = [hidden] ∧ hidden.found = some (.mark .rightBracket) ∧
      reported source' = [stray] ∧ stray.fault = .unexpected [.identifier] ∧
      stray.blamed? = (locate (.ofSource source') lexemes')[7]? := by
  intro source source'
  let lexemes : List Lexeme := [⟨.mark .start, ⟨0, 6⟩⟩, ⟨.identifier "s", ⟨7, 8⟩⟩,
    ⟨.mark .percentPercent, ⟨9, 11⟩⟩, ⟨.identifier "s", ⟨12, 13⟩⟩, ⟨.mark .colon, ⟨13, 14⟩⟩,
    ⟨.identifier "a", ⟨15, 16⟩⟩, ⟨.mark .semicolon, ⟨16, 17⟩⟩, ⟨.mark .rightBracket, ⟨18, 19⟩⟩,
    ⟨.mark .semicolon, ⟨20, 21⟩⟩, ⟨.identifier "t", ⟨22, 23⟩⟩, ⟨.mark .colon, ⟨23, 24⟩⟩,
    ⟨.identifier "b", ⟨25, 26⟩⟩, ⟨.mark .semicolon, ⟨26, 27⟩⟩]
  have hlex : lex source = .ok lexemes := by
    decide +kernel
  obtain ⟨lexemes', hlex', hinserted⟩ : ∃ lexemes', lex source' = .ok lexemes' ∧
      lexemes'.map (·.token) =
        (lexemes.take 7).map (·.token) ++ .mark .semicolon :: (lexemes.drop 7).map (·.token) := by
    have htokens : (lex source').map (·.map (·.token)) =
        .ok ((lexemes.take 7).map (·.token) ++ .mark .semicolon :: (lexemes.drop 7).map (·.token)) := by
      decide +kernel
    cases hlex' : lex source' with
    | error error =>
      rw [hlex'] at htokens
      cases htokens
    | ok lexemes' =>
      rw [hlex'] at htokens
      exact ⟨lexemes', rfl, Except.ok.inj htokens⟩
  let tokens := locate (.ofSource source) lexemes
  have hhead : IsHead ((tokens.take 3).map (·.token)) :=
    ⟨[.mark .start, .identifier "s"], rfl, by decide +kernel⟩
  have hproduction : IsProduction (((tokens.drop 3).take 4).map (·.token)) := by
    have hdecided : IsProduction [.identifier "s", .mark .colon, .identifier "a", .mark .semicolon] := by
      decide +kernel
    exact hdecided
  have htokens : tokens = tokens.take 3 ++ ((tokens.drop 3).take 4 ++ tokens.drop 7) := rfl
  have haccepted : AcceptedBefore (.ofSource source .unlimited)
      (tokens.take 3 ++ ((tokens.drop 3).take 4 ++ tokens.drop 7)) (tokens.drop 7) :=
    acceptedBefore_of_isProduction hhead hproduction _
  obtain ⟨before, after, before', stray, after', hreported, hreported', hbefore, hstray, hblamed, -,
    hhides, -⟩ := reported_stray_semicolon hlex hlex' hhead htokens haccepted hinserted
  obtain ⟨hidden, others, -, rfl, -, -, hothers⟩ := hhides (List.cons_ne_nil _ _) Bool.false_ne_true
  -- the bracket is the only mistake without the second semicolon
  have hfound : (reported source).map (·.found) = [some (.mark .rightBracket)] := by
    decide +kernel
  obtain ⟨e, hsingle, he⟩ := List.map_eq_singleton_iff.mp hfound
  rw [hreported] at hsingle
  obtain ⟨rfl, hsingle⟩ := (List.append_eq_singleton_iff.mp hsingle).resolve_right (by simp)
  obtain ⟨rfl, rfl⟩ := List.cons.inj hsingle
  rw [List.map_nil, List.map_eq_nil_iff] at hbefore hothers
  subst hbefore hothers
  exact ⟨lexemes, lexemes', _, _, _, hidden, stray, hlex, hlex', hhead, htokens, haccepted, hinserted,
    hreported, he, hreported', hstray, hblamed⟩

end GrammarFile
