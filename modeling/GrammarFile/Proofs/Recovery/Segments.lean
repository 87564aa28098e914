import GrammarFile.Proofs.Derivation.Rules
import GrammarFile.Proofs.Locations.Elsewhere
import GrammarFile.Proofs.Parsing.Attempt
import GrammarFile.Proofs.Parsing.Closing
import GrammarFile.Proofs.Parsing.File
import Mathlib.Data.List.Chain

/-!
# Mistakes in productions do not spread

The tokens behind `%%` fall into segments, each of which ends with its only semicolon. If one of
them is no production, and does not look as if another production started inside it (`IsSegment`),
then the attempt at it fails inside the segment and the reading goes on right behind it. So every
segment is read as if it were the only one: the errors of the whole are those of the segments by
themselves, of which a production has none and any other segment just one (`errorsIn_segments`).

That an attempt at a segment always fails in the same way (`exists_failed_of_isSegment`) is because
it does not get to the end of the segment: a production ends with the only semicolon in it
(`closes_production`).
-/

namespace GrammarFile

open Rule

/-! ### Segments -/

/-- Whether some tokens are those of a prolog. -/
def IsProlog (tokens : List Token) : Prop :=
  ∃ d : Derivation, (Phrase.rule .prolog).Derives [d] ∧ d.tokens = tokens

/-- Whether some tokens are those of a production with brackets nested to the limit. -/
def IsProduction (tokens : List Token) : Prop :=
  ∃ d : Derivation, (Phrase.rule .production).Derives [d] ∧ d.tokens = tokens ∧ d.nesting ≤ maxNesting

/-- Whether some tokens are a prolog and `%%`. -/
def IsHead (tokens : List Token) : Prop :=
  ∃ ps, tokens = ps ++ [.mark .percentPercent] ∧ IsProlog ps

/-- Whether a name is followed by a colon. -/
def NameAndColon (t u : Token) : Prop :=
  t.kind = .identifier ∧ u = .mark .colon
  deriving Decidable

/-- Whether some tokens start with a name, end with their only semicolon, and are a production or have no
name with a colon behind the first token. -/
structure IsSegment (tokens : List Token) : Prop where
  name : tokens.head?.map (·.kind) = some .identifier
  closed : ∃ inner, tokens = inner ++ [.mark .semicolon] ∧ .mark .semicolon ∉ inner
  single : IsProduction tokens ∨ tokens.tail.IsChain fun t u => ¬ NameAndColon t u

/-- Tokens are a prolog just where the rule reads them. -/
theorem isProlog_iff {ts : List LocatedToken} :
    IsProlog (ts.map (·.token)) ↔ ∃ p, Rules.prolog.Reads ts p :=
  Models.exists_derives_iff_of_forall fun _ => Models.prolog

/-- Tokens are a production just where the rule reads them. -/
theorem isProduction_iff {ts : List LocatedToken} :
    IsProduction (ts.map (·.token)) ↔ ∃ p, (Rules.production maxNesting).Reads ts p :=
  Models.production.exists_derives_iff

/-- Tokens that are located anywhere are the same tokens. -/
theorem map_token_map (tokens : List Token) :
    (tokens.map (LocatedToken.mk · .origin)).map (·.token) = tokens := by
  rw [List.map_map]
  exact List.map_id tokens

instance (tokens : List Token) : Decidable (IsProlog tokens) :=
  decidable_of_iff (Rules.prolog.run (.start (tokens.map (⟨·, .origin⟩)))).readsAll (by
    rw [← exists_reads_iff rfl, ← isProlog_iff, map_token_map])

instance (tokens : List Token) : Decidable (IsProduction tokens) :=
  decidable_of_iff ((Rules.production maxNesting).run (.start (tokens.map (⟨·, .origin⟩)))).readsAll (by
    rw [← exists_reads_iff (decided_production maxNesting), ← isProduction_iff, map_token_map])

/-! ### Attempts at segments -/

/-- Tokens with one semicolon, which is the last of them, have nothing behind a semicolon. -/
theorem eq_nil_of_only_semicolon {inner front behind : List Token}
    (h : inner ++ [.mark .semicolon] = front ++ .mark .semicolon :: behind)
    (hinner : .mark .semicolon ∉ inner) : behind = [] := by
  rcases List.eq_nil_or_concat' behind with hnil | ⟨init, last, rfl⟩
  · exact hnil
  · have heq : inner = front ++ .mark .semicolon :: init :=
      (List.append_inj' (h.trans (List.append_assoc front (.mark .semicolon :: init) [last]).symm) rfl).1
    exact absurd (heq ▸ List.mem_append_right front List.mem_cons_self) hinner

/-- A production is read to its end, whatever stands behind it. -/
theorem run_of_isProduction {s more : List LocatedToken} (h : IsProduction (s.map (·.token))) {c : Cursor}
    (hc : c.rest = s ++ more) :
    ∃ p c', (Rules.production maxNesting).run c = .ok p c' ∧ c'.rest = more := by
  obtain ⟨p, hp⟩ := isProduction_iff.mp h
  have hnone : (Rules.production maxNesting).extensions = [] := (alike_production maxNesting).extensions
  have havoids : Avoids more (Rules.production maxNesting).extensions := by
    rw [hnone]
    exact fun _ _ => List.not_mem_nil
  obtain ⟨tried, hrun⟩ := run_of_reads (decided_production maxNesting) hp havoids c hc
  exact ⟨p, _, hrun, rfl⟩

/-- An attempt at a segment that is no production fails inside the segment. -/
theorem exists_failed_start {ts : List LocatedToken} (hs : IsSegment (ts.map (·.token)))
    (hproduction : ¬ IsProduction (ts.map (·.token))) :
    ∃ fault c, (Rules.production maxNesting).run (.start ts) = .failed fault c ∧ c.rest ≠ [] := by
  obtain ⟨inner, hinner, honly⟩ := hs.closed
  cases hrun : (Rules.production maxNesting).run (.start ts) with
  | ok p c =>
    -- the semicolon that the run has passed over is that of the segment
    obtain ⟨d, u, ⟨passed, hpassed, -⟩, hd, hu⟩ := (closes_production maxNesting).ok hrun
    have hts : ts = passed ++ u :: c.rest := hd ▸ hpassed
    have hrest : c.rest = [] := by
      rw [hts, List.map_append, List.map_cons, Token.kind_eq_mark_iff.mp hu] at hinner
      exact List.map_eq_nil_iff.mp (eq_nil_of_only_semicolon hinner.symm honly)
    obtain ⟨us, hpasses, hreads⟩ := reads_of_run hrun
    have hall : ts = us := by
      have h := hpasses.rest
      rwa [hrest, List.append_nil] at h
    exact absurd (isProduction_iff.mpr ⟨p, hall ▸ hreads⟩) hproduction
  | failed fault c =>
    refine ⟨fault, c, rfl, ?_⟩
    intro hrest
    obtain ⟨passed, hpassed, hclear⟩ := (closes_production maxNesting).failed hrun
    have hts : ts = passed := by
      rw [hrest, List.append_nil] at hpassed
      exact hpassed
    have hmem : .mark .semicolon ∈ ts.map (·.token) :=
      hinner ▸ List.mem_append_right inner List.mem_cons_self
    obtain ⟨u, hu, hsemicolon⟩ := List.mem_map.mp hmem
    exact hclear u (hts ▸ hu) (Token.kind_eq_mark_iff.mpr hsemicolon)

/-- Where a segment comes next a production can start. -/
theorem IsSegment.sees {ts more : List LocatedToken} (hs : IsSegment (ts.map (·.token))) {c : Cursor}
    (hc : c.rest = ts ++ more) : c.sees (Rules.production maxNesting).first := by
  cases ts with
  | nil => cases hs.name
  | cons t ts =>
    have hkind : t.token.kind = .identifier := Option.some.inj hs.name
    apply sees_of_head? (t := t)
    · rw [hc]
      rfl
    · rw [hkind]
      exact List.mem_singleton_self _

/-- **An attempt at a segment that is no production always fails in the same way**: at the same token
behind the first one, and with the same fault. -/
theorem exists_failed_of_isSegment {tokens : List Token} (hs : IsSegment tokens)
    (hproduction : ¬ IsProduction tokens) :
    ∃ i fault, 0 < i ∧ i < tokens.length ∧
      ∀ {s more : List LocatedToken} {c : Cursor}, s.map (·.token) = tokens → c.rest = s ++ more →
        ∃ c', (Rules.production maxNesting).run c = .failed fault c' ∧ c'.rest = s.drop i ++ more := by
  obtain ⟨ts, rfl⟩ : ∃ ts : List LocatedToken, ts.map (·.token) = tokens := ⟨_, map_token_map tokens⟩
  obtain ⟨fault, c, hrun, hc⟩ := exists_failed_start hs hproduction
  have hsees := hs.sees (c := .start ts) (List.append_nil ts).symm
  have hshallow : (Rules.production maxNesting).shallow := rfl
  have hmoved : c.rest.length < ts.length := by
    have h := length_lt_of_sees hshallow hsees
    rwa [hrun] at h
  have hpos : 0 < c.rest.length := List.length_pos_iff.mpr hc
  refine ⟨ts.length - c.rest.length, fault, by omega, by rw [List.length_map]; omega, ?_⟩
  intro s more d htokens hd
  have hcount : s.length = ts.length := by simpa using congrArg List.length htokens
  rw [← htokens] at hs
  rw [← hcount]
  exact run_elsewhere hshallow (Erases.production maxNesting) htokens rfl hd hsees (hs.sees hd) hrun hc

/-! ### Going on behind a segment -/

/-- Whether a reading goes on at some tokens after a failed production. -/
def atBoundary (tokens : List LocatedToken) : Bool :=
  headIn [.mark .semicolon] tokens || startsProduction tokens

/-- A semicolon is a boundary. -/
theorem atBoundary_semicolon {u : LocatedToken} (hu : u.token = .mark .semicolon)
    (rest : List LocatedToken) : atBoundary (u :: rest) := by
  simp [atBoundary, headIn, hu, Token.kind]

/-- A token that is no semicolon and no name in front of a colon is no boundary. -/
theorem not_atBoundary {t v : LocatedToken} (ht : t.token ≠ .mark .semicolon)
    (hv : ¬ NameAndColon t.token v.token) (rest : List LocatedToken) : ¬ atBoundary (t :: v :: rest) := by
  simp only [NameAndColon, not_and] at hv
  simp only [atBoundary, headIn, startsProduction, List.head?_cons, Option.any_some, List.contains_cons,
    List.contains_nil, Bool.or_false, Bool.or_eq_true, beq_iff_eq, Bool.and_eq_true, decide_eq_true_eq,
    Token.kind_eq_mark_iff]
  rintro (hsemicolon | ⟨hname, hcolon⟩)
  · exact ht hsemicolon
  · exact hv hname hcolon

/-- In front of a semicolon and no name with a colon the tokens up to the semicolon are skipped. -/
theorem skipTo_semicolon {ts : List LocatedToken} {u : LocatedToken} (hu : u.token = .mark .semicolon)
    (hnone : ∀ t ∈ ts, t.token ≠ .mark .semicolon)
    (hchain : ((ts ++ [u]).map (·.token)).IsChain fun t v => ¬ NameAndColon t v)
    (more : List LocatedToken) : skipTo atBoundary (ts ++ u :: more) = u :: more := by
  induction ts with
  | nil => rw [List.nil_append, skipTo, if_pos (atBoundary_semicolon hu more)]
  | cons t ts ih =>
    have hrest := ih (fun v hv => hnone v (List.mem_cons_of_mem t hv)) hchain.tail
    obtain ⟨v, vs, hv⟩ : ∃ v vs, ts ++ [u] = v :: vs :=
      List.exists_cons_of_ne_nil (List.append_ne_nil_of_right_ne_nil ts (List.cons_ne_nil u []))
    have hnext : ts ++ u :: more = v :: (vs ++ more) := by
      rw [← List.cons_append, ← hv, List.append_assoc]
      rfl
    rw [List.cons_append, hv, List.map_cons, List.map_cons, List.isChain_cons_cons] at hchain
    rw [List.cons_append, skipTo]
    rw [hnext] at hrest ⊢
    rw [if_neg (not_atBoundary (hnone t List.mem_cons_self) hchain.1 _), hrest]

/-- **After a failed attempt at a segment the reading goes on right behind the segment.** -/
theorem rest_resumeProduction {s more : List LocatedToken} (hs : IsSegment (s.map (·.token)))
    (hproduction : ¬ IsProduction (s.map (·.token))) {i : Nat} (hpos : 0 < i) (hi : i < s.length)
    {c start : Cursor} (hstart : start.rest = s ++ more) (hc : c.rest = s.drop i ++ more) :
    (c.resumeProduction start).rest = more := by
  obtain ⟨inner, hinner, honly⟩ := hs.closed
  obtain ⟨front, last, rfl, rfl, hlast⟩ := List.map_eq_append_iff.mp hinner
  obtain ⟨u, rfl, hu⟩ := List.map_eq_singleton_iff.mp hlast
  have hi' : i ≤ front.length := by
    rw [List.length_append, List.length_singleton] at hi
    omega
  have hdrop : (front ++ [u]).drop i = front.drop i ++ [u] := List.drop_append_of_le_length hi'
  have hnone : ∀ t ∈ front.drop i, t.token ≠ .mark .semicolon := by
    intro t ht hsemicolon
    exact honly (hsemicolon ▸ List.mem_map_of_mem (List.mem_of_mem_drop ht))
  have hchain : ((front.drop i ++ [u]).map (·.token)).IsChain fun t v => ¬ NameAndColon t v := by
    obtain ⟨j, rfl⟩ : ∃ j, i = j + 1 := ⟨i - 1, by omega⟩
    have h := (hs.single.resolve_left hproduction).drop j
    rwa [List.drop_tail, ← List.map_drop, hdrop] at h
  have hmoved : c.rest.length ≠ start.rest.length := by
    rw [hc, hstart, List.length_append, List.length_append, List.length_drop]
    omega
  have hresume : c.resume start atBoundary = ⟨u :: more, c.last, []⟩ := by
    have hskip := skipTo_semicolon hu hnone hchain more
    rw [Cursor.resume, if_neg hmoved, hc, hdrop, List.append_assoc]
    exact congrArg (Cursor.mk · c.last []) hskip
  have hsees : (Cursor.mk (u :: more) c.last []).sees [.mark .semicolon] :=
    sees_of_head? rfl (List.mem_singleton.mpr (Token.kind_eq_mark_iff.mpr hu))
  have hpass : c.resumeProduction start = (c.resume start atBoundary).pass .semicolon := rfl
  rw [hpass, hresume, Cursor.pass, if_pos hsees]
  rfl

/-! ### One segment after another -/

section

variable {context : ParseContext}

/-- The errors of an attempt at a segment by itself. -/
def mistakes (context : ParseContext) (s : List LocatedToken) : List ParseError :=
  (productionAttempt context .none (.start s)).found.errors

/-- A segment that is a production has no mistakes. -/
theorem mistakes_of_isProduction {s : List LocatedToken} (h : IsProduction (s.map (·.token))) :
    mistakes context s = [] := by
  obtain ⟨p, c, hrun, -⟩ := run_of_isProduction h (c := .start s) (List.append_nil s).symm
  rw [mistakes, productionAttempt, hrun]
  rfl

/-- An error depends on the token that it blames, and on nothing behind it. -/
theorem blame_eq_of_head? {fault : Fault} {c c' : Cursor} (h : c.rest.head? = c'.rest.head?) :
    context.blame fault c = context.blame fault c' := by
  unfold ParseContext.blame
  rw [h]

/-- With recovery and without a limit a reading is not stopped. -/
theorem report_unlimited (hoptions : context.options = ⟨true, 0⟩) (found : Findings) (fault : Fault)
    (c : Cursor) : context.report found fault c = ⟨found.errors ++ [context.blame fault c], false⟩ := by
  simp [ParseContext.report, Findings.report, hoptions, ParserOptions.stopsAt]

/-- A segment that is no production has one mistake, always at the same token and with the same fault. -/
theorem exists_mistake {tokens : List Token} (hs : IsSegment tokens)
    (hproduction : ¬ IsProduction tokens) :
    ∃ i fault, i < tokens.length ∧
      ∀ {context : ParseContext} {s more : List LocatedToken} {c : Cursor} (found : Findings),
        context.options = ⟨true, 0⟩ → s.map (·.token) = tokens → c.rest = s ++ more →
        ∃ c', productionAttempt context found c =
          ⟨[], ⟨found.errors ++ [context.blame fault (.start (s.drop i))], false⟩, c'⟩ ∧
            c'.rest = more := by
  obtain ⟨i, fault, hpos, hi, hfailed⟩ := exists_failed_of_isSegment hs hproduction
  refine ⟨i, fault, hi, ?_⟩
  rintro context s more c found hoptions rfl hc
  rw [List.length_map] at hi
  obtain ⟨c', hrun, hc'⟩ := hfailed rfl hc
  have hblame : context.blame fault c' = context.blame fault (.start (s.drop i)) := by
    apply blame_eq_of_head?
    rw [hc', List.head?_append_of_ne_nil]
    · rfl
    · exact List.ne_nil_of_length_pos (by rw [List.length_drop]; omega)
  refine ⟨c'.resumeProduction c, ?_, rest_resumeProduction hs hproduction hpos hi hc hc'⟩
  rw [productionAttempt, hrun]
  simp only [report_unlimited hoptions, hblame, Bool.false_eq_true, if_false]

/-- An attempt at a segment finds its mistakes and ends right behind it. -/
theorem attempt_segment (hoptions : context.options = ⟨true, 0⟩) {s more : List LocatedToken}
    (hs : IsSegment (s.map (·.token))) {found : Findings} (hfound : found.stopped = false) {c : Cursor}
    (hc : c.rest = s ++ more) :
    ∃ ps c', productionAttempt context found c = ⟨ps, ⟨found.errors ++ mistakes context s, false⟩, c'⟩ ∧
      c'.rest = more := by
  by_cases hproduction : IsProduction (s.map (·.token))
  · obtain ⟨p, c', hrun, hc'⟩ := run_of_isProduction hproduction hc
    refine ⟨[p], c', ?_, hc'⟩
    rw [productionAttempt, hrun, mistakes_of_isProduction hproduction, List.append_nil, ← hfound]
  · obtain ⟨i, fault, -, hattempt⟩ := exists_mistake hs hproduction
    obtain ⟨c', hattempted, hc'⟩ := hattempt found hoptions rfl hc
    obtain ⟨c'', halone, -⟩ := hattempt (c := .start s) .none hoptions rfl (List.append_nil s).symm
    refine ⟨[], c', ?_, hc'⟩
    rw [hattempted, mistakes, halone]
    rfl

/-- A segment has tokens. -/
theorem IsSegment.ne_nil {s : List LocatedToken} (hs : IsSegment (s.map (·.token))) : s ≠ [] := by
  rintro rfl
  cases hs.name

/-- **The errors of segments in a row are those of the segments by themselves.** -/
theorem errors_productions_segments (hoptions : context.options = ⟨true, 0⟩)
    {segments : List (List LocatedToken)} (hne : segments ≠ [])
    (hsegments : ∀ s ∈ segments, IsSegment (s.map (·.token))) {ahead : List LocatedToken}
    {found : Findings}
    (hfound : found.stopped = false) {c : Cursor} (hc : c.rest = segments.flatten)
    (hahead : segments.flatten.length ≤ ahead.length) :
    (productions context ahead found c).found.errors =
      found.errors ++ segments.flatMap (mistakes context) := by
  induction segments generalizing ahead found c with
  | nil => exact absurd rfl hne
  | cons s segments ih =>
    have hs := hsegments s List.mem_cons_self
    rw [List.flatten_cons] at hc hahead
    obtain ⟨t, ahead, rfl, hlength⟩ := exists_cons_of_length_append hs.ne_nil hahead
    obtain ⟨ps, c', hattempt, hc'⟩ := attempt_segment hoptions hs hfound hc
    rw [productions_cons, hattempt]
    cases segments with
    | nil => simp [Reading.isLast, hc']
    | cons s' segments =>
      have hrest : c'.rest ≠ [] := by
        rw [hc', List.flatten_cons]
        exact List.append_ne_nil_of_left_ne_nil (hsegments s' (by simp)).ne_nil _
      have hfound' : (Findings.mk (found.errors ++ mistakes context s) false).stopped = false := rfl
      have hmore :=
        ih (List.cons_ne_nil s' segments) (fun s hmem => hsegments s (List.mem_cons_of_mem _ hmem))
        hfound' hc' hlength
      simp [Reading.isLast, hrest, Reading.map, hmore]

/-- The errors of a reading, of which a tree has none. -/
def errorsIn (context : ParseContext) (tokens : List LocatedToken) : List ParseError :=
  match parseTokens context tokens with
  | .ok _ => []
  | .error errors => errors

/-- A reading goes on behind a prolog and `%%` without an error. -/
theorem exists_percent_of_isHead {head : List LocatedToken} (hhead : IsHead (head.map (·.token))) :
    ∃ percent : LocatedToken, ∀ (context : ParseContext) (body : List LocatedToken), ∃ p c,
      prolog context (.start (head ++ body)) = ⟨some p, .none, c⟩ ∧
        (Rules.mark .percentPercent).run c = .ok percent ⟨body, percent.range, []⟩ := by
  obtain ⟨before, htokens, hprolog⟩ := hhead
  obtain ⟨ps, last, rfl, rfl, hlast⟩ := List.map_eq_append_iff.mp htokens
  obtain ⟨percent, rfl, hpercent⟩ := List.map_eq_singleton_iff.mp hlast
  obtain ⟨p, hp⟩ := isProlog_iff.mp hprolog
  have hkind : percent.token.kind = .mark .percentPercent := Token.kind_eq_mark_iff.mpr hpercent
  refine ⟨percent, fun context body => ?_⟩
  have hrest : (Cursor.start (ps ++ [percent] ++ body)).rest = ps ++ percent :: body :=
    List.append_assoc ..
  have hahead : ∀ t, (percent :: body).head? = some t → t.token.kind = .mark .percentPercent :=
    fun t ht => Option.some.inj ht ▸ hkind
  obtain ⟨tried, hread⟩ := prolog_of_reads context hahead hp hrest
  refine ⟨p, _, hread, ?_⟩
  simp only [Rules.mark, Rule.run, hkind, if_true]

/-- The errors behind a head are those of the segments by themselves, one behind the other. -/
theorem parseTokens_segments (hoptions : context.options = ⟨true, 0⟩) {head : List LocatedToken}
    (hhead : IsHead (head.map (·.token))) {segments : List (List LocatedToken)} (hne : segments ≠ [])
    (hsegments : ∀ s ∈ segments, IsSegment (s.map (·.token))) :
    errorsIn context (head ++ segments.flatten) = segments.flatMap (mistakes context) ∧
    ((parseTokens context (head ++ segments.flatten)).isOk ↔
      segments.flatMap (mistakes context) = []) := by
  obtain ⟨percent, hread⟩ := exists_percent_of_isHead hhead
  obtain ⟨p, c, hprolog, hrun⟩ := hread context segments.flatten
  have hfound : Findings.none.stopped = false := rfl
  have herrors := errors_productions_segments hoptions hne hsegments hfound
    (c := ⟨segments.flatten, percent.range, []⟩) rfl (Nat.le_refl segments.flatten.length)
  unfold errorsIn
  rw [parseTokens_eq, hprolog]
  simp only [definitionAfter, Findings.none, Bool.false_eq_true, if_false, definition, hrun]
  simp only [Findings.none, List.nil_append] at herrors
  rw [herrors]
  cases segments.flatMap (mistakes context) <;> simp [assemble, Except.isOk, Except.toBool]

/-- The errors of a segment by itself, behind any prolog. -/
theorem errorsIn_segment (hoptions : context.options = ⟨true, 0⟩) {head s : List LocatedToken}
    (hhead : IsHead (head.map (·.token))) (hs : IsSegment (s.map (·.token))) :
    errorsIn context (head ++ s) = mistakes context s := by
  have hsingle : ∀ s' ∈ [s], IsSegment (s'.map (·.token)) := by
    intro s' hs'
    rwa [List.mem_singleton.mp hs']
  have h := (parseTokens_segments hoptions hhead (List.cons_ne_nil s []) hsingle).1
  simpa using h

/-- The mistake in a segment that is no production, read by itself. -/
theorem exists_mistakes_eq {tokens : List Token} (hs : IsSegment tokens)
    (hproduction : ¬ IsProduction tokens) :
    ∃ i fault, i < tokens.length ∧ ∀ {context : ParseContext} {s : List LocatedToken},
      context.options = ⟨true, 0⟩ → s.map (·.token) = tokens →
      mistakes context s = [context.blame fault (.start (s.drop i))] := by
  obtain ⟨i, fault, hi, hattempt⟩ := exists_mistake hs hproduction
  refine ⟨i, fault, hi, ?_⟩
  intro context s hoptions htokens
  obtain ⟨c, halone, -⟩ := hattempt (c := .start s) .none hoptions htokens (List.append_nil s).symm
  rw [mistakes, halone]
  rfl

/-- A segment has no mistakes just where it is a production. -/
theorem mistakes_eq_nil_iff (hoptions : context.options = ⟨true, 0⟩) {s : List LocatedToken}
    (hs : IsSegment (s.map (·.token))) : mistakes context s = [] ↔ IsProduction (s.map (·.token)) := by
  constructor
  · intro hnone
    by_contra hproduction
    obtain ⟨i, fault, -, hmistakes⟩ := exists_mistakes_eq hs hproduction
    rw [hmistakes hoptions rfl] at hnone
    cases hnone
  · exact mistakes_of_isProduction

/-- **Recovery among the productions is local.** Without a limit on errors, the errors of segments
behind a prolog are those that each segment has by itself. A segment that is a production has none.
Any other one has just one, which blames a token of the segment, and is for the same fault and at
the same token wherever the segment stands by itself. -/
theorem errorsIn_segments (hoptions : context.options = ⟨true, 0⟩) {head : List LocatedToken}
    (hhead : IsHead (head.map (·.token))) {segments : List (List LocatedToken)} (hne : segments ≠ [])
    (hsegments : ∀ s ∈ segments, IsSegment (s.map (·.token))) :
    errorsIn context (head ++ segments.flatten) =
      segments.flatMap (fun s => errorsIn context (head ++ s)) ∧
    ((parseTokens context (head ++ segments.flatten)).isOk ↔
      ∀ s ∈ segments, IsProduction (s.map (·.token))) ∧
    ∀ s ∈ segments,
      (IsProduction (s.map (·.token)) → errorsIn context (head ++ s) = []) ∧
      (¬ IsProduction (s.map (·.token)) → ∃ i fault, i < s.length ∧
        ∀ (context' : ParseContext) (head' s' : List LocatedToken), context'.options = ⟨true, 0⟩ →
          IsHead (head'.map (·.token)) → s'.map (·.token) = s.map (·.token) →
          errorsIn context' (head' ++ s') = [context'.blame fault (.start (s'.drop i))]) := by
  obtain ⟨herrors, hok⟩ := parseTokens_segments hoptions hhead hne hsegments
  have halone : ∀ s ∈ segments, errorsIn context (head ++ s) = mistakes context s := by
    intro s hs
    exact errorsIn_segment hoptions hhead (hsegments s hs)
  refine ⟨?_, ?_, ?_⟩
  · rw [herrors]
    exact (List.flatMap_congr halone).symm
  · rw [hok, List.flatMap_eq_nil_iff]
    apply forall₂_congr
    intro s hs
    exact mistakes_eq_nil_iff hoptions (hsegments s hs)
  · intro s hs
    constructor
    · intro hproduction
      rw [halone s hs, mistakes_of_isProduction hproduction]
    · intro hproduction
      obtain ⟨i, fault, hi, hmistakes⟩ := exists_mistakes_eq (hsegments s hs) hproduction
      refine ⟨i, fault, by simpa using hi, ?_⟩
      intro context' head' s' hoptions' hhead' htokens
      rw [errorsIn_segment hoptions' hhead' (htokens ▸ hsegments s hs), hmistakes hoptions' htokens]

end

/-- Brackets that are not closed, or not opened, are mistakes of their own segments. A type between
them is none, although a name with a colon stands inside of that production. -/
theorem errorsIn_segments_stray_brackets :
    let place (tokens : List Token) : List LocatedToken := tokens.map (⟨·, .origin⟩)
    let head := place [.mark .start, .identifier "A", .mark .percentPercent]
    let first := place [.identifier "A", .mark .colon, .mark .leftParen, .mark .semicolon]
    let second := place [.identifier "B", .mark .colon, .identifier "A", .mark .colon, .identifier "T",
      .mark .semicolon]
    let third := place [.identifier "C", .mark .colon, .mark .rightBracket, .mark .semicolon]
    let context : ParseContext := ⟨⟨true, 0⟩, .origin⟩
    ∃ e e', errorsIn context (head ++ [first, second, third].flatten) = [e, e'] ∧
      errorsIn context (head ++ first) = [e] ∧ errorsIn context (head ++ second) = [] ∧
      errorsIn context (head ++ third) = [e'] := by
  intro place head first second third context
  have hhead : IsHead (head.map (·.token)) := ⟨[.mark .start, .identifier "A"], rfl, by decide +kernel⟩
  have hfirst : IsSegment (first.map (·.token)) :=
    ⟨rfl, ⟨[.identifier "A", .mark .colon, .mark .leftParen], rfl, by decide⟩, .inr (by decide)⟩
  have hproduction : IsProduction (second.map (·.token)) := by decide +kernel
  have hsecond : IsSegment (second.map (·.token)) :=
    ⟨rfl,
      ⟨[.identifier "B", .mark .colon, .identifier "A", .mark .colon, .identifier "T"],
        rfl, by decide⟩, .inl hproduction⟩
  have hthird : IsSegment (third.map (·.token)) :=
    ⟨rfl, ⟨[.identifier "C", .mark .colon, .mark .rightBracket], rfl, by decide⟩, .inr (by decide)⟩
  have hsegments : ∀ s ∈ [first, second, third], IsSegment (s.map (·.token)) := by
    simp [hfirst, hsecond, hthird]
  have hoptions : context.options = ⟨true, 0⟩ := rfl
  obtain ⟨herrors, -, hsingle⟩ :=
    errorsIn_segments hoptions hhead (List.cons_ne_nil first _) hsegments
  obtain ⟨i, fault, -, hfirst'⟩ := (hsingle first (by simp)).2 (by decide +kernel)
  obtain ⟨j, fault', -, hthird'⟩ := (hsingle third (by simp)).2 (by decide +kernel)
  have hsecond' := (hsingle second (by simp)).1 hproduction
  have halone := hfirst' context head first rfl hhead rfl
  have halone' := hthird' context head third rfl hhead rfl
  refine ⟨_, _, ?_, halone, hsecond', halone'⟩
  rw [herrors]
  simp [halone, hsecond', halone']

end GrammarFile
