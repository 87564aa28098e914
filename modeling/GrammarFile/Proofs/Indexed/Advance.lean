import GrammarFile.Proofs.Indexed.File

/-!
# The position never decreases

Whatever is read by number, the number of the next token does not go down, and it does not go past
the number of tokens. Where a value is given by a reader that always takes a token, it has gone up
(`Tape.Advances`). The index of a rule says whether it always takes one, so this holds of the
readers of all rules (`advances_reader`), and of those of bodies and productions, which count
brackets.

Going on after an error does not go back either, and it leaves the token behind that the attempt started
with, whether that attempt has moved or not (`GoesOn`).
-/

namespace GrammarFile

/-- The place where an attempt ends. -/
def Attempt.place {α : Type} : Attempt α → Place
  | done _ place | failed _ place => place

namespace Tape

variable (tape : Tape) {s t : Bool} {α β : Type}

/-- Whether an attempt goes on from a position, not past the last token, and where it gives a value and is
to take a token always, past the next one. -/
structure GoesFrom (s : Bool) (position : Nat) (attempt : Attempt α) : Prop where
  le : position ≤ attempt.place.position
  lt : s = true → ∀ {value next}, attempt = .done value next → position < next.position
  le_size : position ≤ tape.lexemes.size → attempt.place.position ≤ tape.lexemes.size

/-- Whether a reader goes on from wherever it starts. -/
def Advances (s : Bool) (r : TapeReader α) : Prop :=
  ∀ ⦃place attempt⦄, r place = some attempt → tape.GoesFrom s place.position attempt

variable {tape}

/-- The token that is taken is one of those on the tape. -/
theorem position_of_bump? {place next : Place} {t : LocatedToken}
    (h : tape.bump? place = some (t, next)) :
    next.position = place.position + 1 ∧ next.position ≤ tape.lexemes.size := by
  simp only [bump?, Option.bind_eq_bind, Option.bind_eq_some_iff, Option.pure_def, Option.some.injEq,
    Prod.mk.injEq] at h
  obtain ⟨lexeme, hlexeme, range, -, -, rfl⟩ := h
  exact ⟨rfl, (Array.getElem?_eq_some_iff.mp hlexeme).1⟩

namespace GoesFrom

variable {attempt : Attempt α} {position middle : Nat}

/-- What always takes a token need not be asked to. -/
theorem mono (h : tape.GoesFrom s position attempt) (hs : t = true → s = true) :
    tape.GoesFrom t position attempt :=
  ⟨h.le, fun ht => h.lt (hs ht), h.le_size⟩

/-- An attempt may end where it starts. -/
theorem of_eq (h : attempt.place.position = position) : tape.GoesFrom false position attempt :=
  ⟨Nat.le_of_eq h.symm, fun hs => Bool.noConfusion hs, fun hle => h ▸ hle⟩

/-- An attempt that fails need not have taken a token. -/
theorem failed {error : ParseError} {next : Place} (hle : position ≤ next.position)
    (hsize : position ≤ tape.lexemes.size → next.position ≤ tape.lexemes.size) :
    tape.GoesFrom s position (.failed error next : Attempt α) :=
  ⟨hle, nofun, hsize⟩

/-- An attempt that goes on from where another one has ended. -/
theorem trans {value : β} {place : Place} (h : tape.GoesFrom s position (.done value place))
    (h' : tape.GoesFrom t place.position attempt) : tape.GoesFrom (s || t) position attempt := by
  have hle : position ≤ place.position := h.le
  refine ⟨Nat.le_trans hle h'.le, fun hst _ next hdone => ?_, fun hsize => h'.le_size (h.le_size hsize)⟩
  rcases Bool.or_eq_true_iff.mp hst with hs | ht
  · have hnext : place.position ≤ next.position := by
      have hends := h'.le
      rwa [hdone] at hends
    exact Nat.lt_of_lt_of_le (h.lt hs rfl) hnext
  · exact Nat.lt_of_le_of_lt hle (h'.lt ht hdone)

end GoesFrom

namespace Advances

/-- A reader that always takes a token need not be asked to. -/
theorem mono {r : TapeReader α} (h : tape.Advances s r) (hs : t = true → s = true) : tape.Advances t r :=
  fun _ _ hr => (h hr).mono hs

/-- Reading nothing goes nowhere. -/
theorem nothing (value : α) : tape.Advances false (TapeReader.nothing value) := by
  intro place attempt h
  cases h
  exact .of_eq rfl

/-- Failing on the next token goes nowhere. -/
theorem unexpected : tape.Advances s (tape.unexpected (α := α)) := by
  intro place attempt h
  simp only [Tape.unexpected, Option.bind_eq_bind, Option.bind_eq_some_iff, Option.pure_def,
    Option.some.injEq] at h
  obtain ⟨error, -, rfl⟩ := h
  exact .failed (Nat.le_refl _) id

/-- Refusing a bracket goes nowhere. -/
theorem tooDeep (limit : Nat) : tape.Advances s (tape.tooDeep (α := α) limit) := by
  intro place attempt h
  simp only [Tape.tooDeep, Option.bind_eq_bind, Option.bind_eq_some_iff, Option.pure_def,
    Option.some.injEq] at h
  obtain ⟨error, -, rfl⟩ := h
  exact .failed (Nat.le_refl _) id

/-- One reader and then another always take a token if one of them does. -/
theorem bind {r : TapeReader α} {f : α → TapeReader β} (hr : tape.Advances s r)
    (hf : ∀ x, tape.Advances t (f x)) : tape.Advances (s || t) (r.bind f) := by
  intro place attempt h
  rw [TapeReader.bind] at h
  split at h
  · cases h
  · rename_i error next hplace
    cases h
    exact .failed (hr hplace).le (hr hplace).le_size
  · rename_i value next hplace
    exact (hr hplace).trans (hf value h)

/-- What is made of the value has no part in the position. -/
theorem map {r : TapeReader α} (h : tape.Advances s r) (f : α → β) : tape.Advances s (r.map f) :=
  (h.bind fun x => nothing (f x)).mono fun hs => by rw [hs, Bool.true_or]

/-- Of two readers in a row, it is enough that one always takes a token. -/
theorem seq {a : TapeReader α} {b : TapeReader β} (ha : tape.Advances s a) (hb : tape.Advances t b) :
    tape.Advances (s || t) (a.seq b) :=
  ha.bind fun x => hb.map (x, ·)

/-- It is enough that one always takes a token, also if the first value is dropped. -/
theorem skipThen {a : TapeReader α} {b : TapeReader β} (ha : tape.Advances s a) (hb : tape.Advances t b) :
    tape.Advances (s || t) (a.skipThen b) :=
  (ha.seq hb).map Prod.snd

/-- It is enough that one always takes a token, also if the second value is dropped. -/
theorem thenSkip {a : TapeReader α} {b : TapeReader β} (ha : tape.Advances s a) (hb : tape.Advances t b) :
    tape.Advances (s || t) (a.thenSkip b) :=
  (ha.seq hb).map Prod.fst

/-- What was looked for in vain makes no difference to the position. -/
theorem choose {kinds : List TokenKind} {a b : TapeReader α} (ha : tape.Advances true a)
    (hb : tape.Advances t b) : tape.Advances t (tape.choose kinds a b) := by
  intro place attempt h
  unfold Tape.choose at h
  split at h
  · exact (ha h).mono fun _ => rfl
  · have hmiss := hb h
    exact hmiss

/-- A token that is expected is taken. -/
theorem expect (kind : TokenKind) : tape.Advances true (tape.expect kind) := by
  intro place attempt h
  unfold Tape.expect at h
  split at h
  · simp only [Option.bind_eq_bind, Option.bind_eq_some_iff] at h
    obtain ⟨⟨token, next⟩, hbump, h⟩ := h
    obtain ⟨hnext, hsize⟩ := position_of_bump? hbump
    dsimp only at h hnext hsize
    split at h
    · cases h
      refine ⟨hnext ▸ Nat.le_succ _, fun _ _ _ hdone => ?_, fun _ => hsize⟩
      cases hdone
      exact hnext ▸ Nat.lt_succ_self _
    · cases h
  · have hmiss := @unexpected tape true LocatedToken _ _ h
    exact hmiss

/-- Rounds go on from where the first one starts. -/
theorem rounds {kinds : List TokenKind} {body : TapeReader (Step α)} (h : tape.Advances true body)
    (more : Nat) : tape.Advances false (tape.rounds kinds body more) := by
  induction more with
  | zero => exact fun _ _ hnone => by cases hnone
  | succ more ih =>
    refine choose (mono (h.bind (t := false) fun value => ?_) fun _ => rfl) (nothing [])
    cases value with
    | last a => exact nothing [a]
    | more a => exact ih.map (a :: ·)

/-- A repetition goes on if its rounds do, and need not take a token. -/
theorem iterate {kinds : List TokenKind} {body : TapeReader (Step α)} (h : tape.Advances true body) :
    tape.Advances false (tape.iterate kinds body) :=
  h.rounds _

/-- The range is looked up where a reader has ended. -/
theorem ranged {r : TapeReader α} (h : tape.Advances s r) (f : α → Range → β) :
    tape.Advances s (tape.ranged f r) := by
  intro start attempt hr
  have hlookup : ∀ value, tape.Advances false (α := β) fun place => do
      let range ← tape.rangeFrom? start.position place.position
      return .done (f value range) place := by
    intro value place attempt hplace
    simp only [Option.bind_eq_bind, Option.bind_eq_some_iff, Option.pure_def, Option.some.injEq] at hplace
    obtain ⟨range, -, rfl⟩ := hplace
    exact .of_eq rfl
  exact (h.bind hlookup hr).mono fun hs => by rw [hs, Bool.true_or]

/-- What is optional goes on if it does, and need not take a token. -/
theorem optional {kinds : List TokenKind} {r : TapeReader α} (h : tape.Advances true r) :
    tape.Advances false (tape.optional kinds r) :=
  (h.map some).choose (nothing none)

/-- One or more always take a token if one does. -/
theorem oneOrMore {kinds : List TokenKind} {r : TapeReader α} (h : tape.Advances true r) :
    tape.Advances true (tape.oneOrMore kinds r) :=
  (h.seq (h.map Step.more).iterate).map _

end Advances

/-- **The reader of a rule goes on**, past a token where the rule always consumes one. -/
theorem advances_reader (rule : Rule s α) : tape.Advances s (rule.reader tape) := by
  induction rule with
  | nothing value => exact .nothing value
  | token kind => exact .expect kind
  | seq a b iha ihb => exact iha.seq ihb
  | choice a b iha ihb => exact iha.choose ihb
  | iterate body ih => exact ih.iterate
  | map f rule ih => exact ih.map f
  | ranged f rule ih => exact ih.ranged f
  | tooDeep limit kinds => exact .choose (.tooDeep limit) .unexpected

/-! ### Bodies -/

namespace Advances

variable {factor : TapeReader Factor} {body : TapeReader Alternations}

/-- An alternation takes a token if its factors do. -/
theorem alternation (h : tape.Advances true factor) : tape.Advances true (tape.alternation factor) :=
  h.oneOrMore.ranged _

/-- What stands behind a pipe is read after the pipe is taken. -/
theorem afterPipe (h : tape.Advances true factor) : tape.Advances true (tape.afterPipe factor) := by
  have hempty : tape.Advances false (α := Step Alternation) fun place => do
      let pipe ← tape.previousRange? place.position
      return .done (.last (.empty pipe.endPoint)) place := by
    intro place attempt hplace
    simp only [Option.bind_eq_bind, Option.bind_eq_some_iff, Option.pure_def, Option.some.injEq] at hplace
    obtain ⟨pipe, -, rfl⟩ := hplace
    exact .of_eq rfl
  exact (expect (.mark .pipe)).bind fun _ => (h.alternation.map Step.more).choose hempty

/-- A body takes a token if its factors do. -/
theorem alternations (h : tape.Advances true factor) : tape.Advances true (tape.alternations factor) :=
  (h.alternation.seq h.afterPipe.iterate).ranged _

/-- Brackets take a token, whatever is between them. -/
theorem bracketed (kind : BracketKind) (h : tape.Advances true body) :
    tape.Advances true (tape.bracketed kind body) :=
  ((expect _).skipThen (h.optional.thenSkip (expect _))).ranged _

/-- Each sort of brackets takes a token. -/
theorem brackets (h : tape.Advances true body) : tape.Advances true (tape.brackets body) :=
  (h.bracketed .group).choose ((h.bracketed .optional).choose (h.bracketed .repetition))

/-- Counting a bracket makes no difference to the position. -/
theorem nested {r : TapeReader α} (h : tape.Advances true r) : tape.Advances true (tape.nested r) := by
  intro place attempt hplace
  unfold Tape.nested at hplace
  split at hplace
  · exact tooDeep maxNesting hplace
  · split at hplace
    · cases hplace
    · rename_i value next hr
      have hinner := h hr
      simp only [Option.bind_eq_bind, Option.bind_eq_some_iff, Option.pure_def,
        Option.some.injEq] at hplace
      obtain ⟨depth, -, rfl⟩ := hplace
      have hlt := hinner.lt rfl rfl
      refine ⟨hinner.le, fun _ _ _ hdone => ?_, hinner.le_size⟩
      cases hdone
      exact hlt
    · rename_i error next hr
      have hinner := h hr
      simp only [Option.bind_eq_bind, Option.bind_eq_some_iff, Option.pure_def,
        Option.some.injEq] at hplace
      obtain ⟨depth, -, rfl⟩ := hplace
      exact .failed hinner.le hinner.le_size

end Advances

/-- A factor always takes a token, however many brackets are left. -/
theorem advances_factor (calls : Nat) : tape.Advances true (tape.factor calls) := by
  induction calls with
  | zero => exact fun _ _ hnone => by cases hnone
  | succ calls ih =>
    exact ih.alternations.brackets.nested.choose ((advances_reader Rules.symbol).map Factor.symbol)

/-- A production always takes a token. -/
theorem advances_production : tape.Advances true tape.production := by
  have hfactor : tape.Advances true (tape.factor (maxNesting + 1)) := advances_factor (maxNesting + 1)
  have hbody := hfactor.alternations
  have hpiped := ((Advances.expect (.mark .pipe)).skipThen hbody).map fun body => (true, some body)
  have hplain := hbody.map fun body => (false, some body)
  have hbodies : tape.Advances false
      (tape.choose [.mark .pipe] _ (tape.choose factorStarts _ (.nothing (false, none)))) :=
    hpiped.choose (hplain.choose (.nothing (false, none)))
  have hrest := (Advances.expect (.mark .colon)).skipThen (hbodies.thenSkip (.expect (.mark .semicolon)))
  exact ((advances_reader Rules.identifier).seq hrest).ranged _

/-! ### Going on after an error -/

variable {start place next : Place} {isStart : Nat → Bool}

/-- Skipping to a start does not go back, and stays on the tape. -/
theorem le_of_skip? {more : Nat} (h : tape.skip? isStart more place = some next) :
    place.position ≤ next.position ∧
      (place.position ≤ tape.lexemes.size → next.position ≤ tape.lexemes.size) := by
  induction more generalizing place with
  | zero => cases h
  | succ more ih =>
    rw [skip?] at h
    split at h
    · cases h
      exact ⟨Nat.le_refl _, id⟩
    · simp only [Option.bind_eq_bind, Option.bind_eq_some_iff] at h
      obtain ⟨⟨t, past⟩, hbump, hskip⟩ := h
      obtain ⟨hpast, hsize⟩ := position_of_bump? hbump
      obtain ⟨hle, hsize'⟩ := ih hskip
      refine ⟨Nat.le_trans ?_ hle, fun _ => hsize' hsize⟩
      exact hpast ▸ Nat.le_succ place.position

/-- Leaving the place of a failure does not go back, and gets past a token where an attempt has not
moved. -/
theorem le_of_leave? {failedAt : Nat} (h : tape.leave? failedAt place = some next) :
    place.position ≤ next.position ∧
      (place.position ≤ tape.lexemes.size → next.position ≤ tape.lexemes.size) ∧
      (place.position = failedAt → failedAt < tape.lexemes.size → failedAt < next.position) := by
  rw [leave?] at h
  split at h
  · rename_i hstays
    rw [Option.map_eq_some_iff] at h
    obtain ⟨⟨t, past⟩, hbump, rfl⟩ := h
    obtain ⟨hpast, hsize⟩ := position_of_bump? hbump
    dsimp only at hpast ⊢
    exact ⟨by omega, fun _ => hsize, fun _ _ => by omega⟩
  · rename_i hmoves
    cases h
    refine ⟨Nat.le_refl _, id, fun hfailed hlt => absurd ?_ hmoves⟩
    rw [Bool.and_eq_true, decide_eq_true_eq, Bool.not_eq_true', atEnd, decide_eq_false_iff_not, hfailed]
    exact ⟨rfl, Nat.not_le_of_lt hlt⟩

/-- Passing a mark does not go back, and stays on the tape. -/
theorem le_of_pass? {m : Mark} (h : tape.pass? m place = some next) :
    place.position ≤ next.position ∧
      (place.position ≤ tape.lexemes.size → next.position ≤ tape.lexemes.size) := by
  rw [pass?] at h
  split at h
  · rw [Option.map_eq_some_iff] at h
    obtain ⟨⟨t, past⟩, hbump, rfl⟩ := h
    obtain ⟨hpast, hsize⟩ := position_of_bump? hbump
    dsimp only at hpast ⊢
    exact ⟨by omega, fun _ => hsize⟩
  · cases h
    exact ⟨Nat.le_refl _, id⟩

/-- Whether going on from a place after an attempt that started at number `failedAt` does not go back, nor
past the last token, and leaves the token behind that the attempt started with. -/
structure GoesOn (tape : Tape) (failedAt : Nat) (place next : Place) : Prop where
  le : place.position ≤ next.position
  lt : failedAt ≤ place.position → failedAt < tape.lexemes.size → failedAt < next.position
  le_size : place.position ≤ tape.lexemes.size → next.position ≤ tape.lexemes.size

namespace GoesOn

variable {failedAt : Nat}

/-- Passing a mark may follow. -/
theorem pass {m : Mark} {past : Place} (h : tape.GoesOn failedAt place next)
    (hpass : tape.pass? m next = some past) : tape.GoesOn failedAt place past := by
  obtain ⟨hle, hsize⟩ := le_of_pass? hpass
  exact ⟨Nat.le_trans h.le hle, fun hfailed hlt => Nat.lt_of_lt_of_le (h.lt hfailed hlt) hle,
    fun hplace => hsize (h.le_size hplace)⟩

/-- The common way to go on behind an error leaves the failed attempt behind. -/
theorem of_synchronize? (h : tape.synchronize? failedAt isStart place = some next) :
    tape.GoesOn failedAt place next := by
  simp only [synchronize?, Option.bind_eq_bind, Option.bind_eq_some_iff, Option.pure_def,
    Option.some.injEq] at h
  obtain ⟨past, hleave, stop, hskip, rfl⟩ := h
  obtain ⟨hle, hsize, hlt⟩ := le_of_leave? hleave
  obtain ⟨hle', hsize'⟩ := le_of_skip? hskip
  refine ⟨Nat.le_trans hle hle', fun hfailed hsmall => ?_, fun hplace => hsize' (hsize hplace)⟩
  -- an attempt that has moved is past the token that it started with anyway
  rcases Nat.eq_or_lt_of_le hfailed with hstays | hmoved
  · exact Nat.lt_of_lt_of_le (hlt hstays.symm hsmall) hle'
  · exact Nat.lt_of_lt_of_le hmoved (Nat.le_trans hle hle')

/-- Going on in the prolog leaves the failed attempt behind. -/
theorem of_synchronizeProlog? (h : tape.synchronizeProlog? failedAt place = some next) :
    tape.GoesOn failedAt place next :=
  of_synchronize? h

/-- Going on behind a scanner state leaves the failed attempt behind. -/
theorem of_synchronizeState? (h : tape.synchronizeState? failedAt place = some next) :
    tape.GoesOn failedAt place next := by
  rw [synchronizeState?, Option.bind_eq_bind, Option.bind_eq_some_iff] at h
  obtain ⟨stop, hstop, hpass⟩ := h
  exact (of_synchronize? hstop).pass hpass

/-- Going on behind an item of the prolog leaves the failed attempt behind. -/
theorem of_synchronizeItem? (h : tape.synchronizeItem? start place = some next) :
    tape.GoesOn start.position place next := by
  rw [synchronizeItem?] at h
  split at h
  · exact of_synchronizeState? h
  · exact of_synchronizeProlog? h

/-- Going on behind a production leaves the failed attempt behind. -/
theorem of_synchronizeProduction? (h : tape.synchronizeProduction? failedAt place = some next) :
    tape.GoesOn failedAt place next := by
  rw [synchronizeProduction?, Option.bind_eq_bind, Option.bind_eq_some_iff] at h
  obtain ⟨stop, hstop, hpass⟩ := h
  exact (of_synchronize? hstop).pass hpass

end GoesOn

end Tape

end GrammarFile
