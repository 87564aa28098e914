import GrammarFile.Proofs.Recovery.FirstError
import GrammarFile.Proofs.Recovery.StraySemicolon

/-!
# Mistakes in the prolog do not spread

Behind the start declaration the tokens of a prolog fall into segments, each of which starts with the
keyword of a declaration and has no other place inside where the prolog could go on (`IsPrologSegment`).
An attempt at one of them passes over its keyword and over nothing behind the segment, since a declaration
asks for keywords only at its start (`exists_behind_attempt`). So there are two ways in which a segment
can be no declaration. The attempt fails, at one of its other tokens or at the first one behind it, and
what is left of the segment is skipped. Or it succeeds early, and then the next attempt fails at once, at
the token behind the declaration. Either way there is one error, and the reading goes on with the next
segment (`prologItems_segment`).

So the errors of a file are those of its segments, none for a declaration and one for any other, and
behind them those that the file has without the segments (`errorsIn_prolog_segments`).
-/

namespace GrammarFile

open Rule

/-! ### Segments of the prolog -/

/-- The keywords that declarations start with. -/
def declarationKeywords : List Mark :=
  [.title, .comment, .userType, .ntType, .tType, .grammarType, .lineComment, .blockComment,
    .autoNewlineOff, .autoWsOff, .on, .allowUnmatched]

/-- Whether some tokens are a start declaration. -/
def IsStart (tokens : List Token) : Prop :=
  ∃ d : Derivation, (Phrase.rule .startDeclaration).Derives [d] ∧ d.tokens = tokens

/-- Whether some tokens are a declaration. -/
def IsDeclaration (tokens : List Token) : Prop :=
  ∃ d : Derivation, (Phrase.rule .declaration).Derives [d] ∧ d.tokens = tokens

/-- Whether some tokens are `%%` and productions, with brackets nested to the limit. -/
def IsDefinition (tokens : List Token) : Prop :=
  ∃ d : Derivation, (Phrase.rule .definition).Derives [d] ∧ d.tokens = tokens ∧ d.nesting ≤ maxNesting

/-- Whether some tokens start with the keyword of a declaration, and no other one of them is such a
keyword or `%scanner` or `%%`. -/
structure IsPrologSegment (tokens : List Token) : Prop where
  keyword : ∃ m ∈ declarationKeywords, tokens.head? = some (.mark m)
  single : ∀ m ∈ declarationKeywords ++ [.scanner, .percentPercent], .mark m ∉ tokens.tail

/-- Whether errors are those of segments in a row, in front of some tokens. A declaration has none. Any
other segment has one, which blames one of its tokens behind the first or the token behind the segment. -/
inductive MistakesOf (behind : List LocatedToken) : List (List LocatedToken) → List ParseError →
    Prop where
  | nil : MistakesOf behind [] []
  | declaration {s : List LocatedToken} {segments : List (List LocatedToken)} {errors : List ParseError} :
      IsDeclaration (s.map (·.token)) → MistakesOf behind segments errors →
      MistakesOf behind (s :: segments) errors
  | mistake {s : List LocatedToken} {segments : List (List LocatedToken)} {e : ParseError}
      {errors : List ParseError} {i : Nat} :
      ¬ IsDeclaration (s.map (·.token)) → 0 < i → i ≤ s.length →
      e.blamed? = (s ++ (segments.flatten ++ behind))[i]? → MistakesOf behind segments errors →
      MistakesOf behind (s :: segments) (e :: errors)

/-- Tokens are a start declaration just where the rule reads them. -/
theorem isStart_iff {ts : List LocatedToken} :
    IsStart (ts.map (·.token)) ↔ ∃ s, Rules.startDeclaration.Reads ts s :=
  Models.exists_derives_iff_of_forall fun _ => Models.startDeclaration

/-- Tokens are a declaration just where the rule reads them. -/
theorem isDeclaration_iff {ts : List LocatedToken} :
    IsDeclaration (ts.map (·.token)) ↔ ∃ d, Rules.declaration.Reads ts d :=
  Models.exists_derives_iff_of_forall fun _ => Models.declaration

/-- Tokens are `%%` with productions just where the rule reads them. -/
theorem isDefinition_iff {ts : List LocatedToken} :
    IsDefinition (ts.map (·.token)) ↔ ∃ d, (Rules.definition maxNesting).Reads ts d :=
  Models.definition.exists_derives_iff

instance (tokens : List Token) : Decidable (IsStart tokens) :=
  decidable_of_iff (Rules.startDeclaration.run (.start (tokens.map (⟨·, .origin⟩)))).readsAll (by
    rw [← exists_reads_iff rfl, ← isStart_iff, map_token_map])

instance (tokens : List Token) : Decidable (IsDeclaration tokens) :=
  decidable_of_iff (Rules.declaration.run (.start (tokens.map (⟨·, .origin⟩)))).readsAll (by
    rw [← exists_reads_iff rfl, ← isDeclaration_iff, map_token_map])

instance (tokens : List Token) : Decidable (IsDefinition tokens) :=
  decidable_of_iff ((Rules.definition maxNesting).run (.start (tokens.map (⟨·, .origin⟩)))).readsAll (by
    rw [← exists_reads_iff (decided_definition maxNesting), ← isDefinition_iff, map_token_map])

/-- The prolog can go on at the keywords of declarations, at `%scanner` and at `%%`. -/
theorem prologStarts_eq :
    prologStarts = (declarationKeywords ++ [Mark.scanner, .percentPercent]).map TokenKind.mark :=
  rfl

/-- A segment is a keyword and tokens at which the prolog cannot go on. -/
theorem IsPrologSegment.exists_cons {s : List LocatedToken} (hs : IsPrologSegment (s.map (·.token))) :
    ∃ t rest, s = t :: rest ∧ t.token.kind ∈ Rules.declaration.first ∧
      ∀ u ∈ rest, u.token.kind ∉ prologStarts := by
  obtain ⟨m, hm, hhead⟩ := hs.keyword
  cases s with
  | nil => cases hhead
  | cons t rest =>
    have ht : t.token = .mark m := Option.some.inj hhead
    refine ⟨t, rest, rfl, ?_, fun u hu hkind => ?_⟩
    · rw [ht]
      exact List.mem_map_of_mem hm
    · rw [prologStarts_eq, List.mem_map] at hkind
      obtain ⟨m', hm', heq⟩ := hkind
      exact hs.single m' hm' (Token.kind_eq_mark_iff.mp heq.symm ▸ List.mem_map_of_mem hu)

/-! ### What an attempt passes over -/

/-- A run of the rule of declarations passes over the keyword that it starts with, and over nothing
behind it at which the prolog can go on. -/
theorem exists_passed_of_sees {c : Cursor} (h : c.sees Rules.declaration.first) :
    ∃ us, us ≠ [] ∧ c.rest = us ++ (Rules.declaration.run c).cursor.rest ∧
      ∀ u ∈ us.tail, u.token.kind ∉ prologStarts := by
  have homits : ∀ kind ∈ prologStarts, Rules.declaration.omitsBehind kind := by decide
  obtain ⟨t, rest, hrest, -⟩ := Cursor.exists_of_sees h
  obtain ⟨ws, hws⟩ := rest_suffix_tail_of_run (r := Rules.declaration) rfl h
  have hpassed : c.rest = (t :: ws) ++ (Rules.declaration.run c).cursor.rest := by
    rw [hrest, List.tail_cons] at hws
    rw [hrest, List.cons_append, hws]
  refine ⟨t :: ws, List.cons_ne_nil t ws, hpassed, fun u hu hkind => ?_⟩
  obtain ⟨passed, hpassed', hbehind⟩ := Rule.clearBehind_of_omitsBehind (homits _ hkind) c
  obtain rfl : passed = t :: ws := List.append_cancel_right (hpassed'.symm.trans hpassed)
  exact hbehind u hu rfl

/-! ### Attempts at segments -/

/-- What passes over a part of some tokens, and behind its first token over none of the given kinds, does
not get to a token of these kinds behind them. -/
theorem exists_left_of_append {kinds : List TokenKind} {s more us rest : List LocatedToken} (hs : s ≠ [])
    (hmore : ∀ t, more.head? = some t → t.token.kind ∈ kinds) (h : s ++ more = us ++ rest)
    (hus : ∀ u ∈ us.tail, u.token.kind ∉ kinds) : ∃ left, s = us ++ left ∧ rest = left ++ more := by
  rcases List.append_eq_append_iff.mp h with ⟨ws, hws, hrest⟩ | ⟨ws, hws, hrest⟩
  · cases ws with
    | nil =>
      rw [List.append_nil] at hws
      exact ⟨[], by rw [hws, List.append_nil], hrest.symm⟩
    | cons w ws =>
      have hmem : w ∈ us.tail := by
        rw [hws, List.tail_append_of_ne_nil hs]
        exact List.mem_append_right _ List.mem_cons_self
      rw [hrest] at hmore
      exact absurd (hmore w rfl) (hus w hmem)
  · exact ⟨ws, hws, hrest⟩

/-- In front of tokens at which the prolog can go on all others are skipped. -/
theorem skipTo_prologStarts {left more : List LocatedToken}
    (hleft : ∀ u ∈ left, u.token.kind ∉ prologStarts)
    (hmore : ∀ t, more.head? = some t → t.token.kind ∈ prologStarts) :
    skipTo (headIn prologStarts) (left ++ more) = more := by
  induction left with
  | nil =>
    cases more with
    | nil => rfl
    | cons t more =>
      have hstart : headIn prologStarts (t :: more) := by
        simpa [headIn] using hmore t rfl
      rw [List.nil_append, skipTo, if_pos hstart]
  | cons u left ih =>
    obtain ⟨hu, hleft⟩ := List.forall_mem_cons.mp hleft
    have hstart : ¬ headIn prologStarts (u :: (left ++ more)) := by
      simpa [headIn] using hu
    rw [List.cons_append, skipTo, if_neg hstart, ih hleft]

section

variable {context : ParseContext} {s more : List LocatedToken} {c : Cursor}

/-- **An attempt at a segment passes over a part of it**, and over nothing behind it. -/
theorem exists_behind_attempt (hs : IsPrologSegment (s.map (·.token)))
    (hmore : ∀ t, more.head? = some t → t.token.kind ∈ prologStarts) (hc : c.rest = s ++ more) :
    ∃ us left, us ≠ [] ∧ s = us ++ left ∧ (∀ u ∈ left, u.token.kind ∉ prologStarts) ∧
      (Rules.declaration.run c).cursor.rest = left ++ more := by
  obtain ⟨t, rest, rfl, ht, hrest⟩ := hs.exists_cons
  have hsees : c.sees Rules.declaration.first := by
    refine sees_of_head? ?_ ht
    rw [hc]
    rfl
  obtain ⟨us, hne, hpassed, hbehind⟩ := exists_passed_of_sees hsees
  obtain ⟨left, hleft, hcursor⟩ :=
    exists_left_of_append (List.cons_ne_nil t rest) hmore (hc.symm.trans hpassed) hbehind
  refine ⟨us, left, hne, hleft, fun u hu => hrest u ?_, hcursor⟩
  obtain ⟨u', us, rfl⟩ := List.exists_cons_of_ne_nil hne
  rw [(List.cons.inj hleft).2]
  exact List.mem_append_right us hu

/-! ### One segment after another -/

variable {found : Findings} {vs ahead : List LocatedToken}

/-- Whether two readings have found the same and end at the same place. -/
structure Reading.EndsLike {α β : Type} (r : Reading α) (r' : Reading β) : Prop where
  found : r.found = r'.found
  cursor : r.cursor = r'.cursor

/-- At the keyword of a declaration the loop over the prolog makes an attempt at one. -/
theorem prologItems_of_declaration (hrunning : found.stopped = false) (h : c.sees Rules.declaration.first)
    (t : LocatedToken) (ahead : List LocatedToken) :
    prologItems context (t :: ahead) true found c =
      match Rules.declaration.run c with
      | .ok d c' => (prologItems context ahead true found c').map fun (ds, ss) => (d :: ds, ss)
      | .failed fault c' =>
        prologItems context ahead true (context.report found fault c') (c'.resumeProlog c) := by
  obtain ⟨u, rest, hrest, hu⟩ := Cursor.exists_of_sees h
  have hnot : ∀ m ∈ [Mark.percentPercent, .scanner], c.sees [.mark m] = false := by
    intro m hm
    have hkind : ∀ kind ∈ Rules.declaration.first, kind ≠ .mark m := by
      revert m
      decide
    rw [Cursor.sees, hrest]
    simpa using hkind _ hu
  have hgoes : ¬(found.stopped || c.rest.isEmpty || c.sees [.mark .percentPercent]) := by
    rw [hrunning, hrest, hnot .percentPercent (by simp)]
    exact Bool.false_ne_true
  rw [prologItems_of_goes t ahead hgoes, run_prologItem_declaration h, hnot .scanner (by simp)]
  cases Rules.declaration.run c <;> rfl

/-- At a token at which the prolog cannot go on it reports that token and skips those behind it. -/
theorem prologItems_of_stray (hoptions : context.options = ⟨true, 0⟩) (hrunning : found.stopped = false)
    {u : LocatedToken} {left : List LocatedToken} (hc : c.rest = u :: left ++ more)
    (hleft : ∀ u' ∈ u :: left, u'.token.kind ∉ prologStarts)
    (hmore : ∀ t, more.head? = some t → t.token.kind ∈ prologStarts)
    (t : LocatedToken) (ahead : List LocatedToken) :
    ∃ fault c', c'.rest = more ∧ prologItems context (t :: ahead) true found c =
      prologItems context ahead true ⟨found.errors ++ [context.blame fault c], false⟩ c' := by
  have hnot : ∀ kinds : List TokenKind, (∀ kind ∈ kinds, kind ∈ prologStarts) → c.sees kinds = false := by
    intro kinds hkinds
    have hu : u.token.kind ∉ kinds := fun hmem => hleft u List.mem_cons_self (hkinds _ hmem)
    rw [Cursor.sees, hc]
    simpa using hu
  have hgoes : ¬(found.stopped || c.rest.isEmpty || c.sees [.mark .percentPercent]) := by
    rw [hrunning, hc, hnot _ (by decide)]
    exact Bool.false_ne_true
  have hitem : (c.miss [.mark .percentPercent]).sees (prologItem true).first = false :=
    hnot _ (by decide)
  obtain ⟨tried, hrun⟩ := failed_of_not_sees (prologItem true) hitem
  have hskip : skipTo (headIn prologStarts) (left ++ more) = more :=
    skipTo_prologStarts (fun u' hu' => hleft u' (List.mem_cons_of_mem u hu')) hmore
  refine ⟨((c.miss [.mark .percentPercent]).miss (prologItem true).first).unexpected,
    (c.withTried tried).resumeProlog c, ?_, ?_⟩
  · have hstays : (c.withTried tried).rest.length = c.rest.length := rfl
    have htail : (c.withTried tried).rest.tail = left ++ more := congrArg List.tail hc
    rw [Cursor.resumeProlog, Cursor.resume, if_pos hstays, htail]
    exact hskip
  · rw [prologItems_of_goes t ahead hgoes, hrun]
    dsimp only
    rw [report_unlimited hoptions, hnot [.mark .scanner] (by decide), if_neg Bool.false_ne_true]
    rfl

/-- Where an attempt at a declaration fails in front of such tokens, it reports the first of them
and skips the others. -/
theorem prologItems_of_failed (hoptions : context.options = ⟨true, 0⟩) (hrunning : found.stopped = false)
    (hsees : c.sees Rules.declaration.first) {us left : List LocatedToken} (hne : us ≠ [])
    (hc : c.rest = us ++ (left ++ more)) (hleft : ∀ u ∈ left, u.token.kind ∉ prologStarts)
    (hmore : ∀ t, more.head? = some t → t.token.kind ∈ prologStarts) {fault : Fault} {d : Cursor}
    (hrun : Rules.declaration.run c = .failed fault d) (hd : d.rest = left ++ more)
    (t : LocatedToken) (ahead : List LocatedToken) :
    ∃ c', c'.rest = more ∧ prologItems context (t :: ahead) true found c =
      prologItems context ahead true ⟨found.errors ++ [context.blame fault d], false⟩ c' := by
  have hmoved : d.rest.length ≠ c.rest.length := by
    have hpos : 0 < us.length := List.length_pos_iff.mpr hne
    rw [hc, hd]
    simp only [List.length_append]
    omega
  refine ⟨d.resumeProlog c, ?_, ?_⟩
  · rw [Cursor.resumeProlog, Cursor.resume, if_neg hmoved, hd]
    exact skipTo_prologStarts hleft hmore
  · rw [prologItems_of_declaration hrunning hsees, hrun]
    dsimp only
    rw [report_unlimited hoptions]

variable (context) in
/-- **A declaration is passed over without an error.** -/
theorem prologItems_segment_declaration (hd : IsDeclaration (s.map (·.token)))
    (hmore : ∀ t, more.head? = some t → t.token.kind ∈ prologStarts) (hrunning : found.stopped = false)
    (hc : c.rest = s ++ more) (hahead : (s ++ vs).length ≤ ahead.length) :
    ∃ ahead' c', vs.length ≤ ahead'.length ∧ c'.rest = more ∧
      (prologItems context ahead true found c).EndsLike (prologItems context ahead' true found c') := by
  obtain ⟨d, hd⟩ := isDeclaration_iff.mp hd
  obtain ⟨t, ahead, rfl, hlength⟩ := exists_cons_of_length_append (ne_nil_of_reads rfl hd) hahead
  have hapart : apart prologStarts Rules.declaration.extensions := by decide
  obtain ⟨tried, hrun⟩ :=
    run_of_reads (r := Rules.declaration) rfl hd (fun t ht => not_mem_of_apart hapart (hmore t ht)) c hc
  refine ⟨ahead, ⟨more, lastRange c.last s, tried⟩, hlength, rfl, ?_⟩
  rw [prologItems_of_declaration hrunning (sees_of_reads hd hc), hrun]
  exact ⟨rfl, rfl⟩

/-- **Any other segment is passed over with one error.** Either the attempt at a declaration fails inside
the segment or right behind it, or it succeeds early and the next attempt fails behind it. -/
theorem prologItems_segment_mistake (hoptions : context.options = ⟨true, 0⟩)
    (hs : IsPrologSegment (s.map (·.token))) (hd : ¬ IsDeclaration (s.map (·.token)))
    (hmore : ∀ t, more.head? = some t → t.token.kind ∈ prologStarts) (hrunning : found.stopped = false)
    (hc : c.rest = s ++ more) (hahead : (s ++ vs).length ≤ ahead.length) :
    ∃ ahead' c' e i, vs.length ≤ ahead'.length ∧ c'.rest = more ∧ 0 < i ∧ i ≤ s.length ∧
      e.blamed? = (s ++ more)[i]? ∧
      (prologItems context ahead true found c).EndsLike
        (prologItems context ahead' true ⟨found.errors ++ [e], false⟩ c') := by
  obtain ⟨us, left, hne, rfl, hleft, hcursor⟩ := exists_behind_attempt hs hmore hc
  have hpos : 0 < us.length := List.length_pos_iff.mpr hne
  have hsees : c.sees Rules.declaration.first := by
    obtain ⟨t, rest, hrest, ht, -⟩ := hs.exists_cons
    exact sees_of_head? (by rw [hc, hrest]; rfl) ht
  -- wherever the attempt ends, what is left of the segment and the tokens behind it are ahead
  have hblamed : ∀ (fault : Fault) (d : Cursor), d.rest = left ++ more →
      (context.blame fault d).blamed? = (us ++ left ++ more)[us.length]? := by
    intro fault d hd
    rw [ParseContext.blamed?_blame, hd, List.append_assoc, List.getElem?_append_right (Nat.le_refl _),
      Nat.sub_self, List.head?_eq_getElem?]
  have hle : us.length ≤ (us ++ left).length := by
    rw [List.length_append]
    exact Nat.le_add_right _ _
  rw [List.append_assoc] at hc hahead
  obtain ⟨t, ahead, rfl, hlength⟩ := exists_cons_of_length_append hne hahead
  cases hrun : Rules.declaration.run c with
  | failed fault d =>
    rw [hrun] at hcursor
    obtain ⟨c', hc', hfailed⟩ :=
      prologItems_of_failed hoptions hrunning hsees hne hc hleft hmore hrun hcursor t ahead
    have hlength' : vs.length ≤ ahead.length := by
      rw [List.length_append] at hlength
      omega
    refine ⟨ahead, c', context.blame fault d, us.length, hlength', hc', hpos, hle,
      hblamed fault d hcursor, ?_⟩
    rw [hfailed]
    exact ⟨rfl, rfl⟩
  | ok d c' =>
    rw [hrun] at hcursor
    replace hcursor : c'.rest = left ++ more := hcursor
    cases left with
    | nil =>
      obtain ⟨ts, hpasses, hreads⟩ := reads_of_run hrun
      have hts : ts = us := by
        have h := hpasses.rest
        rw [hc, hcursor] at h
        exact (List.append_cancel_right h).symm
      refine absurd (isDeclaration_iff.mpr ⟨d, ?_⟩) hd
      rw [List.append_nil, ← hts]
      exact hreads
    | cons u left =>
      obtain ⟨t', ahead, rfl, hlength'⟩ := exists_cons_of_length_append (List.cons_ne_nil u left) hlength
      obtain ⟨fault, c'', hc'', hstray⟩ :=
        prologItems_of_stray hoptions hrunning hcursor hleft hmore t' ahead
      refine ⟨ahead, c'', context.blame fault c', us.length, hlength', hc'', hpos, hle,
        hblamed fault c' hcursor, ?_⟩
      rw [prologItems_of_declaration hrunning hsees, hrun]
      dsimp only
      rw [hstray]
      exact ⟨rfl, rfl⟩

end

/-! ### Files -/

section

variable {context : ParseContext} {start body : List LocatedToken} {percent : LocatedToken}
  {segments : List (List LocatedToken)}

/-- The errors of segments are as many as there are segments that are no declarations. -/
theorem MistakesOf.length_eq {behind : List LocatedToken} {errors : List ParseError}
    (h : MistakesOf behind segments errors) :
    errors.length = segments.countP fun s => ¬ IsDeclaration (s.map (·.token)) := by
  induction h with
  | nil => rfl
  | declaration hd _ ih => rw [ih, List.countP_cons_of_neg (by simpa using hd)]
  | mistake hd _ _ _ _ ih => rw [List.length_cons, ih, List.countP_cons_of_pos (by simpa using hd)]

variable (body)

/-- Segments in front of `%%` start at a place where the prolog can go on, and so does `%%`. -/
theorem head?_mem_prologStarts (hpercent : percent.token = .mark .percentPercent)
    (hsegments : ∀ s ∈ segments, IsPrologSegment (s.map (·.token))) :
    ∀ t, (segments.flatten ++ percent :: body).head? = some t → t.token.kind ∈ prologStarts := by
  intro t ht
  cases segments with
  | nil =>
    obtain rfl : percent = t := Option.some.inj ht
    rw [hpercent]
    decide
  | cons s segments =>
    obtain ⟨u, rest, rfl, hu, -⟩ := (hsegments s List.mem_cons_self).exists_cons
    obtain rfl : u = t := Option.some.inj ht
    exact List.mem_append_left _ hu

variable {body} in
/-- **The loop over the prolog finds the mistakes of its segments and ends at `%%`.** -/
theorem prologItems_segments (hoptions : context.options = ⟨true, 0⟩)
    (hpercent : percent.token = .mark .percentPercent)
    (hsegments : ∀ s ∈ segments, IsPrologSegment (s.map (·.token))) {ahead : List LocatedToken}
    {found : Findings} (hrunning : found.stopped = false) {c : Cursor}
    (hc : c.rest = segments.flatten ++ percent :: body)
    (hahead : segments.flatten.length ≤ ahead.length) :
    ∃ errors, MistakesOf (percent :: body) segments errors ∧
      (prologItems context ahead true found c).found = ⟨found.errors ++ errors, false⟩ ∧
      (prologItems context ahead true found c).cursor.rest = percent :: body := by
  induction segments generalizing ahead found c with
  | nil =>
    have hsees : c.sees [.mark .percentPercent] :=
      sees_of_head? (by rw [hc]; rfl) (List.mem_singleton.mpr (Token.kind_eq_mark_iff.mpr hpercent))
    refine ⟨[], .nil, ?_⟩
    rw [prologItems_of_ends ahead (by rw [hsees, Bool.or_true]), List.append_nil, ← hrunning]
    exact ⟨rfl, hc⟩
  | cons s segments ih =>
    obtain ⟨hs, hrest⟩ := List.forall_mem_cons.mp hsegments
    have hmore := head?_mem_prologStarts body hpercent hrest
    rw [List.flatten_cons] at hahead
    rw [List.flatten_cons, List.append_assoc] at hc
    by_cases hd : IsDeclaration (s.map (·.token))
    · obtain ⟨ahead', c', hlength, hc', hsame⟩ :=
        prologItems_segment_declaration context hd hmore hrunning hc hahead
      obtain ⟨errors, hmistakes, hfound, hcursor⟩ := ih hrest hrunning hc' hlength
      exact ⟨errors, .declaration hd hmistakes, hsame.found.trans hfound, hsame.cursor ▸ hcursor⟩
    · obtain ⟨ahead', c', e, i, hlength, hc', hpos, hle, hblamed, hsame⟩ :=
        prologItems_segment_mistake hoptions hs hd hmore hrunning hc hahead
      have hgoes : (Findings.mk (found.errors ++ [e]) false).stopped = false := rfl
      obtain ⟨errors, hmistakes, hfound, hcursor⟩ := ih hrest hgoes hc' hlength
      refine ⟨e :: errors, .mistake hd hpos hle hblamed hmistakes, ?_, hsame.cursor ▸ hcursor⟩
      rw [hsame.found, hfound, List.append_assoc, List.singleton_append]

/-- The prolog finds the mistakes of its segments and ends at `%%`. -/
theorem prolog_segments (hoptions : context.options = ⟨true, 0⟩) (hstart : IsStart (start.map (·.token)))
    (hpercent : percent.token = .mark .percentPercent)
    (hsegments : ∀ s ∈ segments, IsPrologSegment (s.map (·.token))) :
    ∃ errors, MistakesOf (percent :: body) segments errors ∧
      (prolog context (.start (start ++ segments.flatten ++ percent :: body))).found = ⟨errors, false⟩ ∧
      (prolog context (.start (start ++ segments.flatten ++ percent :: body))).cursor.rest =
        percent :: body := by
  obtain ⟨d, hd⟩ := isStart_iff.mp hstart
  have hsplit : (Cursor.start (start ++ segments.flatten ++ percent :: body)).rest =
      start ++ (segments.flatten ++ percent :: body) := List.append_assoc ..
  obtain ⟨tried, hrun⟩ :=
    run_of_reads (r := Rules.startDeclaration) rfl hd (fun _ _ => List.not_mem_nil) _ hsplit
  have hlength : segments.flatten.length ≤ (segments.flatten ++ percent :: body).length :=
    (List.prefix_append _ _).length_le
  have hrunning : Findings.none.stopped = false := rfl
  obtain ⟨errors, hmistakes, hitems⟩ := prologItems_segments hoptions hpercent hsegments hrunning
    (c := ⟨segments.flatten ++ percent :: body, _, tried⟩) rfl hlength
  refine ⟨errors, hmistakes, ?_⟩
  unfold prolog startDeclaration
  rw [hrun]
  exact hitems

variable {body}

/-- Behind a prolog that ends at `%%` the errors are those of the productions. -/
theorem errorsIn_of_prolog (hoptions : context.options = ⟨true, 0⟩)
    (hpercent : percent.token = .mark .percentPercent) {tokens : List LocatedToken}
    {errors : List ParseError} (hfound : (prolog context (.start tokens)).found = ⟨errors, false⟩)
    (hrest : (prolog context (.start tokens)).cursor.rest = percent :: body) :
    errorsIn context tokens = errors ++ errorsFrom context ⟨body, percent.range, []⟩ := by
  have hrun : (Rules.mark .percentPercent).run (prolog context (.start tokens)).cursor =
      .ok percent ⟨body, percent.range, []⟩ := by
    simp only [Rules.mark, Rule.run, hrest, Token.kind_eq_mark_iff.mpr hpercent, if_true]
  have hattempted := Attempted.first (by rw [hfound]) hrun
  rw [hattempted.errorsIn_eq hoptions, hfound]

/-- Derivable productions have no errors. -/
theorem errorsFrom_of_isDefinition (h : IsDefinition ((percent :: body).map (·.token))) :
    errorsFrom context ⟨body, percent.range, []⟩ = [] := by
  obtain ⟨d, hd⟩ := isDefinition_iff.mp h
  obtain ⟨ps, ⟨⟨percent', _⟩, ⟨us, vs, hsplit, ⟨rfl, -⟩, hps⟩, rfl⟩, -⟩ := hd
  obtain rfl : body = vs := (List.cons.inj hsplit).2
  obtain ⟨ws, xs, p, ps, rfl, rfl, hp, hps⟩ := reads_oneOrMore.mp hps
  obtain ⟨tried, hread⟩ := productions_of_reads context hp hps (Nat.le_refl _)
    (c := ⟨ws ++ xs, percent.range, []⟩) rfl
  rw [errorsFrom, hread]
  rfl

variable (body) in
/-- **Recovery in the prolog is local.** Behind a start declaration each segment that is no
declaration has one error, which blames one of its tokens behind the first or the token behind the
segment, and each declaration has none. All other errors are those that the file has without the
segments, and if its productions are derivable there are none. -/
theorem errorsIn_prolog_segments (hoptions : context.options = ⟨true, 0⟩)
    (hstart : IsStart (start.map (·.token))) (hpercent : percent.token = .mark .percentPercent)
    (hsegments : ∀ s ∈ segments, IsPrologSegment (s.map (·.token))) :
    ∃ mistakes, MistakesOf (percent :: body) segments mistakes ∧
      mistakes.length = segments.countP (fun s => ¬ IsDeclaration (s.map (·.token))) ∧
      errorsIn context (start ++ segments.flatten ++ percent :: body) =
        mistakes ++ errorsIn context (start ++ percent :: body) ∧
      (IsDefinition ((percent :: body).map (·.token)) →
        errorsIn context (start ++ percent :: body) = []) := by
  obtain ⟨mistakes, hmistakes, hfound, hrest⟩ :=
    prolog_segments body hoptions hstart hpercent hsegments
  have hwhole := errorsIn_of_prolog hoptions hpercent hfound hrest
  -- without the segments the prolog is the start declaration, and there is nothing to find in it
  have hnone : ∀ s ∈ ([] : List (List LocatedToken)), IsPrologSegment (s.map (·.token)) := by simp
  obtain ⟨none, hempty, hfound', hrest'⟩ := prolog_segments body hoptions hstart hpercent hnone
  cases hempty
  have halone := errorsIn_of_prolog hoptions hpercent hfound' hrest'
  rw [List.flatten_nil, List.append_nil, List.nil_append] at halone
  refine ⟨mistakes, hmistakes, hmistakes.length_eq, ?_, fun hdefinition => ?_⟩
  · rw [hwhole, halone]
  · rw [halone, errorsFrom_of_isDefinition hdefinition]

end

/-- A name behind a declaration that takes none, and a declaration that lacks its last part, are
mistakes of their own segments. The second one is found at `%%`. -/
theorem errorsIn_prolog_segments_two_mistakes :
    let place (tokens : List Token) : List LocatedToken := tokens.map (⟨·, .origin⟩)
    let start := place [.mark .start, .identifier "A"]
    let first := place [.mark .autoWsOff, .identifier "B", .mark .equals]
    let second := place [.mark .tType, .identifier "B", .mark .doubleColon, .identifier "C"]
    let third := place [.mark .ntType, .identifier "A", .mark .equals]
    let percent : LocatedToken := ⟨.mark .percentPercent, .origin⟩
    let body := place [.identifier "A", .mark .colon, .mark .semicolon]
    let context : ParseContext := ⟨⟨true, 0⟩, .origin⟩
    let errors := errorsIn context (start ++ [first, second, third].flatten ++ percent :: body)
    MistakesOf (percent :: body) [first, second, third] errors ∧ errors.length = 2 ∧
      errors.map (·.found) = [some (.identifier "B"), some (.mark .percentPercent)] := by
  intro place start first second third percent body context errors
  have hstart : IsStart (start.map (·.token)) := by decide +kernel
  have hfirst : IsPrologSegment (first.map (·.token)) := ⟨⟨.autoWsOff, by decide, rfl⟩, by decide⟩
  have hsecond : IsPrologSegment (second.map (·.token)) := ⟨⟨.tType, by decide, rfl⟩, by decide⟩
  have hthird : IsPrologSegment (third.map (·.token)) := ⟨⟨.ntType, by decide, rfl⟩, by decide⟩
  have hsegments : ∀ s ∈ [first, second, third], IsPrologSegment (s.map (·.token)) := by
    simp [hfirst, hsecond, hthird]
  have hoptions : context.options = ⟨true, 0⟩ := rfl
  have hpercent : percent.token = .mark .percentPercent := rfl
  have hdefinition : IsDefinition ((percent :: body).map (·.token)) := by decide +kernel
  obtain ⟨mistakes, hmistakes, hlength, herrors, halone⟩ :=
    errorsIn_prolog_segments body hoptions hstart hpercent hsegments
  rw [halone hdefinition, List.append_nil] at herrors
  have herrors : errors = mistakes := herrors
  rw [herrors]
  refine ⟨hmistakes, hlength.trans (by decide +kernel), ?_⟩
  rw [← herrors]
  decide +kernel

end GrammarFile
