import GrammarFile.Proofs.Indexed.File
import GrammarFile.Proofs.Indexed.Following
import GrammarFile.Proofs.Locations.Ranges
import GrammarFile.Proofs.Recovery.Limit
import GrammarFile.Proofs.Recovery.Progress

/-!
# Parsing by number never goes wrong

The loops over a whole file, read by the numbers of its tokens, come to what `parse` comes to
(`parse_safe`). So `parse` may take tokens off a list: the array that they stand in is never read
behind its end, no token is taken for one of another kind, no difference is negative and every loop
ends.

`Tape.Mirrors` says how a part that was read by number stands to the part itself. The findings are
the same and both end in front of the same tokens. Their values are the same as long as there is no
error; behind one there is no tree, and ranges may differ. The loops end by the measure that makes
`parse` end: every attempt passes over a token, also where it fails (`exists_skip?`,
`exists_synchronize?`).

What remains is the tree at the end. It is put together where there is no error, and where a half of
it is missing there is one (`errors_of_missing`), also if the prolog failed and the rest was read
all the same, and if the reading was stopped in front of the definition.
-/

namespace GrammarFile

namespace Tape

variable {tape : Tape} {place start : Place} {c : Cursor}

/-! ### Going on after an error -/

/-- The kind of the token with a number is that of the first token that is left. -/
theorem Stands.kindIn (h : tape.Stands 0 place c) (kinds : List TokenKind) :
    tape.kindIn kinds place.position = headIn kinds c.rest :=
  h.sees kinds

/-- The kinds of the tokens from the next one on are found by their numbers. -/
theorem Stands.kindAt? (h : tape.Stands 0 place c) (i : Nat) :
    tape.kindAt? (place.position + i) = c.rest[i]?.map (·.token.kind) := by
  rw [Tape.kindAt?, h.rest, List.getElem?_drop, tokens, locate, List.getElem?_map, Array.getElem?_toList]
  cases tape.lexemes[place.position + i]? <;> rfl

/-- A production starts at a number just where one starts with the tokens that are left. -/
theorem Stands.productionAt (h : tape.Stands 0 place c) :
    tape.productionAt place.position = startsProduction c.rest := by
  have hname := h.kindAt? 0
  have hcolon := h.kindAt? 1
  rw [Nat.add_zero] at hname
  rw [Tape.productionAt, hname, hcolon]
  rcases c.rest with _ | ⟨t, _ | ⟨u, rest⟩⟩ <;> simp [startsProduction]

/-- Passing over tokens ends where dropping them does. -/
theorem exists_skip? {isStart : Nat → Bool} {isStart' : List LocatedToken → Bool}
    (hstart : ∀ place c, tape.Stands 0 place c → isStart place.position = isStart' c.rest) {more : Nat}
    (h : tape.Stands 0 place c) (hlt : c.rest.length < more) :
    ∃ next, tape.skip? isStart more place = some next ∧
      ∀ c', c'.rest = skipTo isStart' c.rest → tape.Stands 0 next c' := by
  induction more generalizing place c with
  | zero => exact absurd hlt (Nat.not_lt_zero _)
  | succ more ih =>
    rw [skip?, h.atEnd, hstart place c h]
    cases hrest : c.rest with
    | nil =>
      refine ⟨place, rfl, fun c' hc' => ⟨h.le_size, ?_, h.depth⟩⟩
      rw [hc', ← h.rest, hrest]
      rfl
    | cons t rest =>
      rw [skipTo]
      by_cases hhere : isStart' (t :: rest)
      · rw [hhere, Bool.or_true, if_pos rfl, if_pos rfl]
        refine ⟨place, rfl, fun c' hc' => ⟨h.le_size, ?_, h.depth⟩⟩
        rw [hc', ← h.rest, hrest]
      · obtain ⟨past, hbump, -, hpast⟩ := h.bump? hrest
        have hpast : tape.Stands 0 past ⟨rest, c.last, []⟩ := hpast _ rfl
        rw [hrest, List.length_cons] at hlt
        obtain ⟨next, hskip, hnext⟩ := ih hpast (Nat.lt_of_succ_lt_succ hlt)
        rw [Bool.eq_false_iff.mpr hhere, List.isEmpty_cons, Bool.or_false, if_neg Bool.false_ne_true,
          if_neg Bool.false_ne_true, hbump]
        exact ⟨next, hskip, hnext⟩

/-- **A reading by number goes on after an error where the other one does.** -/
theorem exists_synchronize? (isStart : Nat → Bool) (isStart' : List LocatedToken → Bool)
    (hstart : ∀ place c, tape.Stands 0 place c → isStart place.position = isStart' c.rest)
    {c₀ : Cursor} (h₀ : tape.Stands 0 start c₀) (h : tape.Stands 0 place c) :
    ∃ next, tape.synchronize? start.position isStart place = some next ∧
      tape.Meets 0 next (c.resume c₀ isStart') := by
  have hsame : place.position = start.position ↔ c.rest.length = c₀.rest.length := by
    have := h.le_size
    have := h₀.le_size
    rw [h.length_rest, h₀.length_rest]
    omega
  -- past the token that the attempt started with, if it has not moved
  have hpast : ∃ past, tape.leave? start.position place = some past ∧
      tape.Stands 0 past
        ⟨if c.rest.length = c₀.rest.length then c.rest.tail else c.rest, c.last, []⟩ := by
    rw [leave?]
    by_cases hmoved : place.position = start.position
    · rw [if_pos (hsame.mp hmoved), decide_eq_true hmoved, Bool.true_and, h.atEnd]
      cases hrest : c.rest with
      | nil =>
        refine ⟨place, rfl, h.le_size, ?_, h.depth⟩
        rw [← h.rest, hrest]
        rfl
      | cons t rest =>
        obtain ⟨past, hbump, -, hpast⟩ := h.bump? hrest
        rw [hbump]
        exact ⟨past, rfl, hpast _ rfl⟩
    · rw [if_neg (fun hlength => hmoved (hsame.mpr hlength)), decide_eq_false hmoved, Bool.false_and]
      exact ⟨place, rfl, h.le_size, h.rest, h.depth⟩
  obtain ⟨past, hbump, hpast⟩ := hpast
  have hlt : tape.lexemes.size - past.position < tape.lexemes.size + 1 := by omega
  rw [← hpast.length_rest] at hlt
  obtain ⟨next, hskip, hnext⟩ := exists_skip? hstart hpast hlt
  have hstands : tape.Stands 0 next (c.resume c₀ isStart') := hnext _ rfl
  refine ⟨{ next with tried := [] }, ?_, ⟨hstands.le_size, hstands.rest, hstands.depth⟩, ?_⟩
  · rw [synchronize?, hbump]
    simp only [Option.bind_eq_bind, Option.bind_some, hskip, Option.pure_def]
  · intro kind
    exact Iff.rfl

/-- Passing a mark by number never goes wrong and passes it among the tokens. -/
theorem Meets.exists_pass? (h : tape.Meets 0 place c) (htried : c.tried = []) (m : Mark) :
    ∃ next, tape.pass? m place = some next ∧ tape.Meets 0 next (c.pass m) := by
  rw [pass?, Cursor.pass, h.sees]
  by_cases hsees : c.sees [.mark m]
  · obtain ⟨t, rest, hrest, -⟩ := Cursor.exists_of_sees hsees
    obtain ⟨next, hbump, hnone, hnext⟩ := h.bump? hrest
    rw [if_pos hsees, if_pos hsees, hbump, hrest]
    exact ⟨next, rfl, hnext _ rfl, fun kind => by rw [hnone, htried]⟩
  · rw [if_neg hsees, if_neg hsees]
    exact ⟨place, rfl, h⟩

section Resume

variable {c₀ : Cursor} (h₀ : tape.Stands 0 start c₀) (h : tape.Stands 0 place c)
include h₀ h

/-- Going on in the prolog by number never goes wrong and comes to where the parser goes on. -/
theorem exists_synchronizeProlog? :
    ∃ next, tape.synchronizeProlog? start.position place = some next ∧
      tape.Meets 0 next (c.resumeProlog c₀) :=
  exists_synchronize? _ (headIn prologStarts) (fun _ _ h => h.kindIn prologStarts) h₀ h

/-- Going on behind a scanner state by number comes to where the parser goes on. -/
theorem exists_synchronizeState? :
    ∃ next, tape.synchronizeState? start.position place = some next ∧
      tape.Meets 0 next (c.resumeState c₀) := by
  obtain ⟨stop, hstop, hmeets⟩ := exists_synchronize? _ (headIn _) (fun _ _ h => h.kindIn _) h₀ h
  obtain ⟨next, hpass, hnext⟩ := hmeets.exists_pass? rfl .rightBrace
  refine ⟨next, ?_, hnext⟩
  rw [synchronizeState?, hstop]
  exact hpass

/-- Going on behind a production by number comes to where the parser goes on. -/
theorem exists_synchronizeProduction? :
    ∃ next, tape.synchronizeProduction? start.position place = some next ∧
      tape.Meets 0 next (c.resumeProduction c₀) := by
  obtain ⟨stop, hstop, hmeets⟩ := exists_synchronize?
    (fun position => tape.kindIn [.mark .semicolon] position || tape.productionAt position)
    (fun tokens => headIn [.mark .semicolon] tokens || startsProduction tokens)
    (fun _ _ h => by rw [h.kindIn, h.productionAt]) h₀ h
  obtain ⟨next, hpass, hnext⟩ := hmeets.exists_pass? rfl .semicolon
  refine ⟨next, ?_, hnext⟩
  rw [synchronizeProduction?, hstop]
  exact hpass

/-- Going on behind an item of the prolog by number comes to where the parser goes on. -/
theorem exists_synchronizeItem? :
    ∃ next, tape.synchronizeItem? start place = some next ∧
      tape.Meets 0 next (if c₀.sees [.mark .scanner] then c.resumeState c₀ else c.resumeProlog c₀) := by
  rw [synchronizeItem?, h₀.sees]
  by_cases hstate : c₀.sees [.mark .scanner]
  · rw [if_pos hstate, if_pos hstate]
    exact exists_synchronizeState? h₀ h
  · rw [if_neg hstate, if_neg hstate]
    exact exists_synchronizeProlog? h₀ h

end Resume

/-! ### The parts of a file -/

variable (options : ParserOptions)

/-- Whether a part that was read by number is the part that was read: with the same findings and, where
there is no error, the same value, and ending in front of the same tokens. -/
structure Mirrors (tape : Tape) {α : Type} (r : TapeReading α) (m : Reading α) : Prop where
  found : r.found = m.found
  stands : tape.Stands 0 r.place m.cursor
  value : m.found.errors = [] → r.value = m.value

/-- What is made of the two values has no part in how the readings mirror each other. -/
theorem Mirrors.map {α β : Type} {r : TapeReading α} {m : Reading α} (h : tape.Mirrors r m)
    (f : α → β) : tape.Mirrors (r.map f) (m.map f) :=
  ⟨h.found, h.stands, fun hnil => congrArg f (h.value hnil)⟩

/-- The error that a reading by number reports is the one that is reported. -/
theorem report_errorAt (found : Findings) (fault : Fault) (c : Cursor) :
    (ParseContext.ofSource tape.source options).report found fault c =
      found.report options (tape.errorAt fault c) :=
  rfl

/-- **The loop over the prolog ends**, since each of its attempts passes over a token. -/
theorem exists_prologItems? (ahead : List LocatedToken) (allowed : Bool) (found : Findings) {more : Nat}
    (h : tape.Meets 0 place c) (hahead : c.rest.length ≤ ahead.length) (hmore : c.rest.length < more) :
    let m := prologItems (.ofSource tape.source options) ahead allowed found c
    ∃ r, tape.prologItems? options more allowed found place = some r ∧ tape.Mirrors r m ∧
      tape.Meets 0 r.place m.cursor := by
  induction more generalizing ahead allowed found place c with
  | zero => exact absurd hmore (Nat.not_lt_zero _)
  | succ more ih =>
    rw [prologItems?, h.atEnd, h.sees]
    by_cases hends : found.stopped || c.rest.isEmpty || c.sees [.mark .percentPercent]
    · rw [if_pos hends, prologItems_of_ends ahead hends]
      exact ⟨_, rfl, ⟨rfl, h.toStands, fun _ => rfl⟩, h⟩
    have hne : c.rest ≠ [] := by
      intro hnil
      simp [hnil] at hends
    cases ahead with
    | nil => exact absurd (List.eq_nil_of_length_eq_zero (Nat.le_zero.mp hahead)) hne
    | cons u ahead =>
      rw [List.length_cons] at hahead
      have hagrees := follows_reader (prologItem allowed) (h.miss [.mark .percentPercent])
      rw [if_neg hends, prologItems_of_goes u ahead hends]
      generalize (prologItem allowed).reader tape _ = attempt at hagrees ⊢
      cases hrun : (prologItem allowed).run (c.miss [.mark .percentPercent]) with
      | ok item c' =>
        have hlt : c'.rest.length < c.rest.length :=
          Rule.length_lt_of_run (c := c.miss [.mark .percentPercent]) hrun
        rw [hrun] at hagrees
        cases hagrees with
        | @done _ next _ hnext =>
          cases item with
          | declaration d =>
            obtain ⟨r, hr, hmirrors, hmeets⟩ := ih ahead allowed found hnext (by omega) (by omega)
            exact ⟨_, congrArg (Option.map _) hr, hmirrors.map _, hmeets⟩
          | state s =>
            obtain ⟨r, hr, hmirrors, hmeets⟩ := ih ahead false found hnext (by omega) (by omega)
            exact ⟨_, congrArg (Option.map _) hr, hmirrors.map _, hmeets⟩
      | failed fault c' =>
        have hlt := length_lt_of_prologItem hrun hne
        rw [hrun] at hagrees
        cases hagrees with
        | @failed _ next _ hstands =>
          obtain ⟨past, hpast, hmeets⟩ := exists_synchronizeItem? h.toStands hstands
          obtain ⟨r, hr, hmirrors, hmeets'⟩ :=
            ih ahead allowed (found.report options (tape.errorAt fault c')) hmeets (by omega) (by omega)
          refine ⟨r, ?_, hmirrors, hmeets'⟩
          simp only [hpast, Option.bind_eq_bind, Option.bind_some, hr]

/-- The start declaration by number, which leaves the reading at the same place. -/
theorem exists_startDeclaration? (h : tape.Meets 0 place c) :
    let m := GrammarFile.startDeclaration (.ofSource tape.source options) c
    ∃ r, tape.startDeclaration? options place = some r ∧ r.value = m.value ∧ r.found = m.found ∧
      tape.Meets 0 r.place m.cursor := by
  have hagrees := follows_reader Rules.startDeclaration h
  unfold startDeclaration? GrammarFile.startDeclaration
  generalize Rules.startDeclaration.reader tape place = attempt at hagrees ⊢
  cases hrun : Rules.startDeclaration.run c with
  | ok start c' =>
    rw [hrun] at hagrees
    cases hagrees with
    | done hnext => exact ⟨_, rfl, rfl, rfl, hnext⟩
  | failed fault c' =>
    rw [hrun] at hagrees
    cases hagrees with
    | @failed _ next _ hstands =>
      simp only [hstands.sees]
      by_cases hsees : c'.sees prologStarts
      · rw [if_pos hsees, if_pos hsees]
        refine ⟨_, rfl, rfl, rfl, ⟨hstands.le_size, hstands.rest, hstands.depth⟩, fun kind => Iff.rfl⟩
      · obtain ⟨past, hpast, hmeets⟩ := exists_synchronizeProlog? h.toStands hstands
        rw [if_neg hsees, if_neg hsees, hpast]
        exact ⟨_, rfl, rfl, rfl, hmeets⟩

/-- The ranges of what was read by number and of what was read are the same, where the latter has one. -/
theorem rangeFrom?_eq_of_passes {α : Type} {place' : Place} {c' : Cursor} {rule : Rule true α} {x : α}
    {us : List LocatedToken} (h : tape.Stands 0 place c) (h' : tape.Stands 0 place' c')
    (hpasses : Passes c us c') (hreads : rule.Reads us x) :
    tape.rangeFrom? place.position place'.position = some (spanOf us) :=
  rangeFrom?_eq_spanOf h h' (Rule.ne_nil_of_reads rfl hreads) hpasses.rest

/-- **The prolog by number is the prolog.** -/
theorem exists_prolog? (h : tape.Meets 0 place c) :
    let m := GrammarFile.prolog (.ofSource tape.source options) c
    ∃ r, tape.prolog? options place = some r ∧ tape.Mirrors r m ∧ tape.Meets 0 r.place m.cursor := by
  obtain ⟨start, hstart, hvalue, hfound, hmeets⟩ := exists_startDeclaration? options h
  have hcount : (GrammarFile.startDeclaration (.ofSource tape.source options) c).cursor.rest.length <
      tape.lexemes.size + 1 := by
    rw [hmeets.length_rest]
    omega
  obtain ⟨items, hitems, hmirrors, hmeets'⟩ :=
    exists_prologItems? options _ true start.found hmeets (Nat.le_refl _) hcount
  intro m
  have hreads := @reads_of_prolog (.ofSource tape.source options) c
  rw [hfound] at hmirrors hmeets' hitems
  cases hnone : start.value with
  | none =>
    have hprolog : tape.prolog? options place = some ⟨none, items.found, items.place⟩ := by
      rw [prolog?, hstart]
      simp only [Option.bind_eq_bind, Option.bind_some, hfound, hitems, hnone, Option.pure_def]
    refine ⟨_, hprolog, ⟨hmirrors.found, hmirrors.stands, fun _ => ?_⟩, hmeets'⟩
    show none = Option.map _ (GrammarFile.startDeclaration _ c).value
    rw [← hvalue, hnone]
    rfl
  | some declaration =>
    obtain ⟨range, hrange⟩ := exists_rangeFrom? place.position hmirrors.stands.le_size
    have hprolog : tape.prolog? options place =
        some ⟨some ⟨declaration, items.value.1, items.value.2, range⟩, items.found, items.place⟩ := by
      rw [prolog?, hstart]
      simp only [Option.bind_eq_bind, Option.bind_some, hfound, hitems, hnone, hrange, Option.pure_def]
    refine ⟨_, hprolog, ⟨hmirrors.found, hmirrors.stands, fun hnil => ?_⟩, hmeets'⟩
    have hm : m.value = some ⟨declaration, items.value.1, items.value.2,
        declaration.range.through m.cursor.last⟩ := by
      show Option.map _ (GrammarFile.startDeclaration _ c).value = _
      rw [← hvalue, hnone, hmirrors.value hnil]
      rfl
    obtain ⟨-, us, hpasses, hprolog'⟩ := hreads hm hnil
    have hspan := range_of_reads_prolog hprolog'
    rw [rangeFrom?_eq_of_passes h.toStands hmirrors.stands hpasses hprolog', Option.some.injEq] at hrange
    rw [hm, ← hrange, ← hspan]

/-- One attempt at a production by number. -/
theorem exists_productionAttempt? (found : Findings) (h : tape.Meets 0 place c) :
    let m := productionAttempt (.ofSource tape.source options) found c
    ∃ r, tape.productionAttempt? options found place = some r ∧ tape.Mirrors r (m.map some) ∧
      (m.found.stopped = false → tape.Meets 0 r.place m.cursor) := by
  have hagrees := follows_production h
  unfold productionAttempt? productionAttempt
  generalize tape.production place = attempt at hagrees ⊢
  cases hrun : (Rules.production maxNesting).run c with
  | ok p c' =>
    rw [hrun] at hagrees
    cases hagrees with
    | done hnext => exact ⟨_, rfl, ⟨rfl, hnext.toStands, fun _ => rfl⟩, fun _ => hnext⟩
  | failed fault c' =>
    rw [hrun] at hagrees
    cases hagrees with
    | @failed _ next _ hstands =>
      have hreported : (found.report options (tape.errorAt fault c')).errors ≠ [] :=
        @errors_ne_nil_of_report (.ofSource tape.source options) found fault c' _ List.prefix_rfl
      dsimp only
      rw [report_errorAt]
      by_cases hstopped : (found.report options (tape.errorAt fault c')).stopped
      · rw [if_pos hstopped, if_pos hstopped]
        refine ⟨_, rfl, ⟨rfl, hstands, fun hnil => absurd hnil hreported⟩, fun hrunning => ?_⟩
        exact absurd hstopped (Bool.eq_false_iff.mp hrunning)
      · obtain ⟨past, hpast, hmeets⟩ := exists_synchronizeProduction? h.toStands hstands
        rw [if_neg hstopped, if_neg hstopped, hpast]
        exact ⟨_, rfl, ⟨rfl, hmeets.toStands, fun hnil => absurd hnil hreported⟩, fun _ => hmeets⟩

/-- **The loop over the productions ends**, since each of its attempts but the last passes over a
token. -/
theorem exists_productions? (ahead : List LocatedToken) (found : Findings) {more : Nat}
    (h : tape.Meets 0 place c) (hahead : c.rest.length ≤ ahead.length) (hmore : c.rest.length < more) :
    let m := GrammarFile.productions (.ofSource tape.source options) ahead found c
    ∃ r, tape.productions? options more found place = some r ∧ tape.Mirrors r (m.map some) := by
  induction more generalizing ahead found place c with
  | zero => exact absurd hmore (Nat.not_lt_zero _)
  | succ more ih =>
    obtain ⟨first, hfirst, hmirrors, hmeets⟩ := exists_productionAttempt? options found h
    have hcons := fun t ahead => productions_cons (.ofSource tape.source options) t ahead found c
    have hnil := productions_nil (.ofSource tape.source options) found c
    have hlength := @length_productionAttempt_lt (.ofSource tape.source options) found c
    rw [productions?, hfirst]
    generalize productionAttempt (.ofSource tape.source options) found c = m
      at hmirrors hmeets hcons hnil hlength
    obtain ⟨hfound, hstands, hvalue⟩ := hmirrors
    have hlast : (first.found.stopped || tape.atEnd first.place) = m.isLast := by
      rw [hfound, hstands.atEnd]
      rfl
    simp only [Option.bind_eq_bind, Option.bind_some, hlast]
    cases hends : m.isLast with
    | true =>
      have hm : GrammarFile.productions (.ofSource tape.source options) ahead found c = m := by
        cases ahead with
        | nil => exact hnil
        | cons t ahead => simp only [hcons, hends, if_true]
      rw [hm]
      exact ⟨first, rfl, hfound, hstands, hvalue⟩
    | false =>
      have hlt := hlength hends
      have hrunning := (Bool.or_eq_false_iff.mp hends).1
      cases ahead with
      | nil => exact absurd (Nat.lt_of_lt_of_le hlt hahead) (Nat.not_lt_zero _)
      | cons t ahead =>
        rw [List.length_cons] at hahead
        obtain ⟨rest, hrest, hmirrors'⟩ := ih ahead m.found (hmeets hrunning) (by omega) (by omega)
        simp only [hcons, hends, Bool.false_eq_true, if_false]
        refine ⟨rest.map fun value => first.value.bind fun ps => value.map (ps ++ ·), ?_, hmirrors'.found,
          hmirrors'.stands, fun herrors => ?_⟩
        · rw [hfound]
          simp only [Reading.map, hrest, Option.bind_some, Option.pure_def]
        · have hclean : m.found.errors = [] := List.prefix_nil.mp (herrors ▸ errors_productions _ _ _)
          show (first.value.bind fun ps => rest.value.map (ps ++ ·)) = some _
          rw [hvalue hclean, hmirrors'.value herrors]
          rfl

/-- What goes on to a definition without an error has found nothing before. -/
theorem eq_none_of_definition {context : ParseContext} {found : Findings} {c : Cursor}
    (hrunning : found.stopped = false) (h : (GrammarFile.definition context found c).found.errors = []) :
    found = .none := by
  have hnil : found.errors = [] := List.prefix_nil.mp (h ▸ errors_definition found c)
  obtain ⟨errors, stopped⟩ := found
  obtain rfl : errors = [] := hnil
  obtain rfl : stopped = false := hrunning
  rfl

/-- **The definition by number is the definition**, where the reading has not been stopped. -/
theorem exists_definition? {found : Findings} (hrunning : found.stopped = false)
    (h : tape.Meets 0 place c) :
    ∃ r, tape.definition? options found place = some r ∧
      tape.Mirrors r (GrammarFile.definition (.ofSource tape.source options) found c) := by
  have hagrees : tape.Agrees 0 (tape.expect (.mark .percentPercent) place)
      ((Rules.mark .percentPercent).run c) := Follows.expect _ h
  rw [definition?]
  generalize tape.expect (.mark .percentPercent) place = attempt at hagrees ⊢
  cases hrun : (Rules.mark .percentPercent).run c with
  | failed fault c' =>
    have hwhole : GrammarFile.definition (.ofSource tape.source options) found c =
        ⟨none, found.report options (tape.errorAt fault c'), c'⟩ := by
      rw [GrammarFile.definition, hrun]
      rfl
    rw [hrun] at hagrees
    rw [hwhole]
    cases hagrees with
    | failed hstands => exact ⟨_, rfl, rfl, hstands, fun _ => rfl⟩
  | ok percent c' =>
    have hwhole : GrammarFile.definition (.ofSource tape.source options) found c =
        let items := GrammarFile.productions (.ofSource tape.source options) c'.rest found c'
        ⟨some ⟨items.value, percent.range.through items.cursor.last⟩, items.found, items.cursor⟩ := by
      rw [GrammarFile.definition, hrun]
    rw [hrun] at hagrees
    cases hagrees with
    | @done _ next _ hnext =>
      have hcount : c'.rest.length < tape.lexemes.size + 1 := by
        rw [hnext.length_rest]
        omega
      obtain ⟨items, hitems, hfound, hstands, hvalue⟩ :=
        exists_productions? options c'.rest found hnext (Nat.le_refl _) hcount
      simp only [Option.bind_eq_bind, hitems, Option.bind_some]
      cases hnone : items.value with
      | none =>
        -- a production failed, which has been reported
        refine ⟨_, rfl, ?_⟩
        rw [hwhole]
        refine ⟨hfound, hstands, fun hnil => ?_⟩
        rw [hvalue hnil] at hnone
        cases hnone
      | some productions =>
        obtain ⟨range, hrange⟩ := exists_rangeFrom? place.position hstands.le_size
        simp only [hrange, Option.bind_some]
        refine ⟨_, rfl, ?_⟩
        have hreads := @reads_of_definition (.ofSource tape.source options) c
        have hclean := @eq_none_of_definition (.ofSource tape.source options) found c hrunning
        rw [hwhole] at hclean ⊢
        refine ⟨hfound, hstands, fun hnil => ?_⟩
        obtain rfl := hclean hnil
        rw [hwhole] at hreads
        obtain ⟨-, us, hpasses, hdefinition⟩ := hreads rfl hnil
        have hproductions := Option.some.inj (hnone.symm.trans (hvalue hnil))
        rw [rangeFrom?_eq_of_passes h.toStands hstands hpasses hdefinition, Option.some.injEq] at hrange
        rw [← hrange, ← range_of_reads_definition hdefinition, hproductions]

/-- What comes after the prolog, by number. -/
theorem exists_definitionAfter? {r : TapeReading (Option Prolog)} {m : Reading (Option Prolog)}
    (h : tape.Mirrors r m) (hmeets : tape.Meets 0 r.place m.cursor) :
    ∃ r', tape.definitionAfter? options r = some r' ∧
      tape.Mirrors r' (GrammarFile.definitionAfter (.ofSource tape.source options) m) := by
  rw [definitionAfter?, GrammarFile.definitionAfter, h.found]
  by_cases hstopped : m.found.stopped
  · rw [if_pos hstopped, if_pos hstopped]
    exact ⟨_, rfl, rfl, h.stands, fun _ => rfl⟩
  · rw [if_neg hstopped, if_neg hstopped]
    exact exists_definition? options (Bool.eq_false_iff.mpr hstopped) hmeets

/-! ### A whole file -/

/-- The start of a tape is on it. -/
theorem meets_start (tape : Tape) : tape.Meets 0 ⟨0, [], 0⟩ (.start tape.tokens) :=
  ⟨⟨Nat.zero_le _, rfl, rfl⟩, fun _ => Iff.rfl⟩

/-- Both halves of a file are read by number, with the same errors and, where there are none, to the same
values. -/
theorem exists_halves (tape : Tape) :
    let context := ParseContext.ofSource tape.source options
    let m := GrammarFile.prolog context (.start tape.tokens)
    let m' := GrammarFile.definitionAfter context m
    ∃ first second, tape.prolog? options ⟨0, [], 0⟩ = some first ∧
      tape.definitionAfter? options first = some second ∧ second.found.errors = m'.found.errors ∧
      (m'.found.errors = [] → first.value = m.value ∧ second.value = m'.value) := by
  intro context m m'
  obtain ⟨first, hfirst, hmirrors, hmeets⟩ := exists_prolog? options tape.meets_start
  obtain ⟨second, hsecond, hmirrors'⟩ := exists_definitionAfter? options hmirrors hmeets
  refine ⟨first, second, hfirst, hsecond, congrArg Findings.errors hmirrors'.found, fun hnil => ?_⟩
  have hclean : m.found.errors = [] := List.prefix_nil.mp (hnil ▸ errors_definitionAfter m)
  exact ⟨hmirrors.value hclean, hmirrors'.value hnil⟩

/-- **A file is parsed by number without anything going wrong**, to what it is parsed to. -/
theorem parse?_eq (tape : Tape) :
    tape.parse? options = some (parseTokens (.ofSource tape.source options) tape.tokens) := by
  obtain ⟨first, second, hfirst, hsecond, hfound, hvalues⟩ := exists_halves options tape
  have hmissing := errors_of_missing (.ofSource tape.source options) (.start tape.tokens)
  rw [parseTokens_eq, Tape.parse?, hfirst, Option.bind_eq_bind, Option.bind_some, hsecond,
    Option.bind_eq_bind, Option.bind_some, hfound]
  dsimp only at hmissing ⊢
  generalize GrammarFile.prolog (.ofSource tape.source options) (.start tape.tokens) = m
    at hvalues hmissing ⊢
  generalize GrammarFile.definitionAfter (.ofSource tape.source options) m = m' at hvalues hmissing ⊢
  cases herrors : m'.found.errors with
  | cons e es =>
    rw [assemble_of_ne_nil (List.cons_ne_nil e es)]
    rfl
  | nil =>
    obtain ⟨hp, hd⟩ := hvalues herrors
    rw [hp, hd]
    cases hp : m.value with
    | none => exact absurd herrors (hmissing (.inl hp))
    | some p =>
      cases hd : m'.value with
      | none => exact absurd herrors (hmissing (.inr hd))
      | some d => rfl

end Tape

/-- The tokens of a source text on a tape are those that it is parsed by. -/
theorem tokens_mk_toArray (source : String) (lexemes : List Lexeme) :
    (Tape.mk source lexemes.toArray).tokens = locate (.ofSource source) lexemes := by
  rw [Tape.tokens, List.toList_toArray]
  rfl

/-- **A source is parsed by number to what it is parsed to.** -/
theorem parseByNumber?_eq (source : String) (options : ParserOptions) :
    parseByNumber? source options = some (parse source options) := by
  cases hlex : lex source with
  | error e =>
    have hparse : parse source options = .error (.lexical e) := by
      rw [parse, hlex]
    rw [parseByNumber?, hlex, hparse]
  | ok lexemes =>
    rw [parseByNumber?, hlex, parse_of_lex hlex]
    dsimp only
    rw [Tape.parse?_eq, tokens_mk_toArray]
    rfl

/-- A parse that fails behind the lexer has an error. -/
theorem ne_nil_of_parse_eq_error {source : String} {options : ParserOptions} {errors : List ParseError}
    (h : parse source options = .error (.parse errors)) : errors ≠ [] := by
  cases hlex : lex source with
  | error e =>
    rw [parse, hlex] at h
    cases h
  | ok lexemes =>
    apply ne_nil_of_parseTokens_eq_error
    exact (parse_eq_error_of_lex hlex).mp h

/-- **Parsing never goes wrong.** Every token that is taken by its number is there and of the kind
that was seen, no difference is negative and every loop ends, so a source is parsed by number to
what it is parsed to. A parse that fails has an error, and a tree is given just where none was
reported: a prolog or a definition that is missing comes with an error. -/
theorem parse_safe (source : String) (options : ParserOptions) :
    parseByNumber? source options = some (parse source options) ∧
      (∀ errors, parse source options = .error (.parse errors) → errors ≠ []) ∧
      ∀ lexemes, lex source = .ok lexemes →
        let tape := Tape.mk source lexemes.toArray
        ∃ first second, tape.prolog? options ⟨0, [], 0⟩ = some first ∧
          tape.definitionAfter? options first = some second ∧
          ((∃ g, parse source options = .ok g) ↔ second.found.errors = []) ∧
          (∀ errors, parse source options = .error (.parse errors) → errors = second.found.errors) ∧
          (first.value = none ∨ second.value = none → second.found.errors ≠ []) := by
  refine ⟨parseByNumber?_eq source options, fun errors => ne_nil_of_parse_eq_error, ?_⟩
  intro lexemes hlex tape
  obtain ⟨first, second, hfirst, hsecond, hfound, hvalues⟩ := Tape.exists_halves options tape
  have htokens : tape.tokens = locate (.ofSource source) lexemes := tokens_mk_toArray source lexemes
  have hmissing :=
    errors_of_missing (.ofSource source options) (.start (locate (.ofSource source) lexemes))
  rw [htokens] at hfound hvalues
  refine ⟨first, second, hfirst, hsecond, ?_, ?_, ?_⟩
  · simp only [parse_eq_ok_of_lex hlex]
    rw [exists_parseTokens_eq_ok_iff, hfound]
  · intro errors herrors
    rw [hfound]
    exact eq_of_parseTokens_eq_error _ ((parse_eq_error_of_lex hlex).mp herrors)
  · intro hnone hnil
    rw [hfound] at hnil
    obtain ⟨hp, hd⟩ := hvalues hnil
    rw [hp, hd] at hnone
    exact hmissing hnone hnil

/-- A prolog without the name that it starts from is missing, and has been reported. -/
theorem parse_safe_missing_name :
    ∃ lexemes errors first second, lex "%start" = .ok lexemes ∧
      parse "%start" .default = .error (.parse errors) ∧
      parseByNumber? "%start" .default = some (.error (.parse errors)) ∧ errors ≠ [] ∧
      (Tape.mk "%start" lexemes.toArray).prolog? .default ⟨0, [], 0⟩ = some first ∧
      first.value = none ∧
      (Tape.mk "%start" lexemes.toArray).definitionAfter? .default first = some second ∧
      errors = second.found.errors ∧ second.found.errors ≠ [] := by
  have hlex : lex "%start" = .ok [⟨.mark .start, ⟨0, 6⟩⟩] := by decide +kernel
  have hnone : ((Tape.mk "%start" #[⟨.mark .start, ⟨0, 6⟩⟩]).prolog? .default ⟨0, [], 0⟩).any
      (·.value.isNone) := by
    decide +kernel
  have hcount : (match parse "%start" .default with
      | .error e => e.parseErrors.length
      | .ok _ => 0) = 2 := by
    decide +kernel
  obtain ⟨hnumber, hne, hparts⟩ := parse_safe "%start" .default
  obtain ⟨first, second, hfirst, hsecond, -, herrors, hmissing⟩ := hparts _ hlex
  have hprolog : first.value = none := by
    rw [hfirst] at hnone
    exact Option.isNone_iff_eq_none.mp hnone
  cases hparse : parse "%start" .default with
  | ok g =>
    rw [hparse] at hcount
    cases hcount
  | error e =>
    cases e with
    | lexical e =>
      rw [hparse] at hcount
      cases hcount
    | parse errors =>
      rw [hparse] at hnumber
      exact ⟨_, errors, first, second, hlex, rfl, hnumber, hne errors hparse, hfirst, hprolog, hsecond,
        herrors errors hparse, hmissing (.inl hprolog)⟩

end GrammarFile
