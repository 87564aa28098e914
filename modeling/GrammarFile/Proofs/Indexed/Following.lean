import GrammarFile.Proofs.Indexed.Tape
import GrammarFile.Proofs.Locations.Pieces
import GrammarFile.Proofs.Parsing.Attempt
import GrammarFile.Proofs.Parsing.Viable

/-!
# Readers by number follow the rules

Reading tokens by their numbers never goes wrong, and comes to what running the rules comes to.
`Tape.Follows` says so of a reader and a rule: from places that stand for each other (`Tape.Meets`) both
give the same value and go on at such places, or both fail with the same error (`Tape.Agrees`).

Everything that rules are made of keeps this. A reader that follows a rule always gives something,
so every token that it takes is there and is of the kind that was seen, every range lies between
tokens that were taken, and a repetition ends. Brackets are counted, and after each of them as many
are open as before.
-/

namespace GrammarFile

namespace Tape

variable (tape : Tape)

/-- The tokens of a tape with their ranges. -/
def tokens : List LocatedToken :=
  locate tape.index tape.lexemes.toList

/-- The error that blames the token at a cursor. -/
def errorAt (fault : Fault) (c : Cursor) : ParseError :=
  (ParseContext.ofSource tape.source .default).blame fault c

/-- Whether a place on the tape, with the given number of brackets open, stands in front of the
tokens that are left at a cursor. -/
structure Stands (depth : Nat) (place : Place) (c : Cursor) : Prop where
  le_size : place.position ≤ tape.lexemes.size
  rest : c.rest = tape.tokens.drop place.position
  depth : place.depth = depth

/-- Whether moreover the same kinds were looked for there in vain. -/
structure Meets (depth : Nat) (place : Place) (c : Cursor) : Prop extends tape.Stands depth place c where
  tried : ∀ kind, kind ∈ place.tried ↔ kind ∈ c.tried

/-- Whether an attempt has not gone wrong and has come to what a run has come to. -/
inductive Agrees (depth : Nat) {α : Type} : Option (Attempt α) → Outcome α → Prop where
  | done {x : α} {place : Place} {c : Cursor} :
      tape.Meets depth place c → Agrees depth (some (.done x place)) (.ok x c)
  | failed {fault : Fault} {place : Place} {c : Cursor} :
      tape.Stands depth place c →
        Agrees depth (some (.failed (tape.errorAt fault c) place)) (.failed fault c)

/-- Whether a reader comes to what running a rule comes to, from wherever it starts with the given number
of brackets open. -/
def Follows (depth : Nat) {s : Bool} {α : Type} (reader : TapeReader α) (rule : Rule s α) : Prop :=
  ∀ ⦃place c⦄, tape.Meets depth place c → tape.Agrees depth (reader place) (rule.run c)

variable {tape} {depth : Nat} {place : Place} {c : Cursor}

/-! ### Lookups -/

/-- Every span has a range. -/
theorem range?_index (span : Span) : tape.index.range? span = some (tape.index.range span) :=
  LineIndex.range?_ofSource tape.source span

namespace Stands

/-- The token of the next number is the next one that is left. -/
theorem head? (h : tape.Stands depth place c) :
    c.rest.head? = tape.lexemes[place.position]?.map fun l => ⟨l.token, tape.index.range l.span⟩ := by
  rw [h.rest, List.head?_drop, tokens, locate, List.getElem?_map, Array.getElem?_toList]

/-- The kinds that are seen at a place are those that are seen at the cursor. -/
theorem sees (h : tape.Stands depth place c) (kinds : List TokenKind) :
    tape.sees place kinds = c.sees kinds := by
  rw [Tape.sees, kindIn, kindAt?, Cursor.sees, h.head?]
  cases tape.lexemes[place.position]? <;> rfl

/-- As many tokens are left at the cursor as on the tape from the place on. -/
theorem length_rest (h : tape.Stands depth place c) :
    c.rest.length = tape.lexemes.size - place.position := by
  rw [h.rest, List.length_drop, tokens, locate, List.length_map, Array.length_toList]

/-- A place is at the end of the tape if no token is left at the cursor. -/
theorem atEnd (h : tape.Stands depth place c) : tape.atEnd place = c.rest.isEmpty := by
  have hlength := h.length_rest
  rw [Tape.atEnd, Bool.eq_iff_iff, decide_eq_true_iff, List.isEmpty_iff, ← List.length_eq_zero_iff]
  omega

/-- **The next token is there** if one is left, and behind it stand the tokens after it. -/
theorem bump? (h : tape.Stands depth place c) {t : LocatedToken} {rest : List LocatedToken}
    (hrest : c.rest = t :: rest) :
    ∃ next, tape.bump? place = some (t, next) ∧ next.tried = [] ∧
      ∀ c', c'.rest = rest → tape.Stands depth next c' := by
  have hhead := h.head?
  rw [hrest, List.head?_cons, eq_comm, Option.map_eq_some_iff] at hhead
  obtain ⟨lexeme, hlexeme, rfl⟩ := hhead
  refine ⟨⟨place.position + 1, [], place.depth⟩, ?_, rfl, fun c' hc' => ⟨?_, ?_, h.depth⟩⟩
  · rw [Tape.bump?, hlexeme]
    simp only [Option.bind_eq_bind, Option.bind_some, range?_index, Option.pure_def]
  · exact (Array.getElem?_eq_some_iff.mp hlexeme).1
  · rw [hc', ← List.tail_drop, ← h.rest, hrest, List.tail_cons]

/-- The range that an error has is that of the next token or of the end of the source. -/
theorem blame? (h : tape.Stands depth place c) (fault : Fault) :
    tape.blame? fault place = some (tape.errorAt fault c) := by
  have hhead := h.head?
  rw [Tape.blame?, currentRange?, errorAt, ParseContext.blame, hhead]
  cases tape.lexemes[place.position]? <;>
    simp only [range?_index, Option.bind_eq_bind, Option.bind_some, Option.pure_def] <;> rfl

end Stands

/-- The token that was taken last is the previous one. -/
theorem previousRange?_of_expect {kind : TokenKind} {t : LocatedToken} {next : Place}
    (h : tape.expect kind place = some (.done t next)) :
    tape.previousRange? next.position = some t.range := by
  rw [Tape.expect] at h
  split at h
  · cases hlexeme : tape.lexemes[place.position]? with
    | none => simp [Tape.bump?, hlexeme] at h
    | some lexeme =>
      simp only [Tape.bump?, hlexeme, range?_index, Option.bind_eq_bind, Option.bind_some,
        Option.pure_def] at h
      split at h
      · cases h
        simp only [previousRange?, difference?_of_le (Nat.le_add_left 1 place.position),
          Nat.add_sub_cancel, Option.bind_some, hlexeme, range?_index]
      · cases h
  · simp [Tape.unexpected, Option.bind_eq_some_iff] at h

/-- **Every two places on the tape have a range between them.** -/
theorem exists_rangeFrom? (start : Nat) {stop : Nat} (hstop : stop ≤ tape.lexemes.size) :
    ∃ range, tape.rangeFrom? start stop = some range := by
  unfold rangeFrom?
  split
  · unfold currentRange?
    cases tape.lexemes[stop]? <;>
      simp only [range?_index, Option.bind_eq_bind, Option.bind_some, Option.pure_def] <;>
      exact ⟨_, rfl⟩
  · rename_i hlt
    have hfirst : start < tape.lexemes.size := by omega
    have hlast : stop - 1 < tape.lexemes.size := by omega
    simp only [Array.getElem?_eq_getElem hfirst, difference?_of_le (show 1 ≤ stop by omega),
      Array.getElem?_eq_getElem hlast, range?_index, Option.bind_eq_bind, Option.bind_some]
    exact ⟨_, rfl⟩

/-- The range between two places is that of the tokens that lie there, if there are any. -/
theorem rangeFrom?_eq_spanOf {place' : Place} {c' : Cursor} {us : List LocatedToken}
    (h : tape.Stands depth place c) (h' : tape.Stands depth place' c') (hus : us ≠ [])
    (hrest : c.rest = us ++ c'.rest) :
    tape.rangeFrom? place.position place'.position = some (spanOf us) := by
  have hlength : place'.position = place.position + us.length := by
    have hsum := congrArg List.length hrest
    have hle := h.le_size
    have hle' := h'.le_size
    rw [h.length_rest, List.length_append, h'.length_rest] at hsum
    omega
  have hpos : 0 < us.length := List.length_pos_iff.mpr hus
  -- the piece of the array that lies between the places
  have htokens : locate tape.index (tape.lexemes.toList.drop place.position) = us ++ c'.rest := by
    rw [← hrest, h.rest, tokens, locate, locate, List.map_drop]
  obtain ⟨ws, vs, hdrop, rfl, -⟩ := List.map_eq_append_iff.mp htokens
  have hentry : ∀ i < ws.length, tape.lexemes[place.position + i]? = ws[i]? := by
    intro i hi
    rw [← Array.getElem?_toList, ← List.getElem?_drop, hdrop, List.getElem?_append_left hi]
  rw [List.length_map] at hlength hpos
  have hfirst := hentry 0 hpos
  have hlast := hentry (ws.length - 1) (Nat.sub_lt hpos Nat.zero_lt_one)
  have hne : ws ≠ [] := List.length_pos_iff.mp hpos
  rw [← List.head?_eq_getElem?, Nat.add_zero, List.head?_eq_some_head hne] at hfirst
  rw [← List.getLast?_eq_getElem?, ← Nat.add_sub_assoc hpos, ← hlength,
    List.getLast?_eq_some_getLast hne] at hlast
  have hlt : ¬place'.position ≤ place.position := by omega
  rw [rangeFrom?, if_neg hlt, difference?_of_le (show 1 ≤ place'.position by omega)]
  simp only [hfirst, hlast, range?_index, Option.bind_eq_bind, Option.bind_some]
  exact congrArg some
    (spanOf_locate (List.head?_eq_some_head hne) (List.getLast?_eq_some_getLast hne)).symm

/-! ### Attempts and runs -/

variable {α β : Type} {s t : Bool}

/-- A place and a cursor still meet when the same kinds were looked for in vain. -/
theorem Meets.miss (h : tape.Meets depth place c) (kinds : List TokenKind) :
    tape.Meets depth (place.miss kinds) (c.miss kinds) := by
  refine ⟨⟨h.le_size, h.rest, h.depth⟩, fun kind => ?_⟩
  rw [Place.miss, Cursor.miss, List.mem_append, List.mem_append, h.tried]

/-- What was looked for in vain makes the error, wherever it is kept. -/
theorem Meets.unexpected (h : tape.Meets depth place c) {c' : Cursor} (hrest : c'.rest = c.rest) :
    tape.Agrees depth (α := α) (tape.unexpected place) (.failed c.unexpected c') := by
  have hsort : Fault.unexpected (TokenKind.sort place.tried) = c.unexpected :=
    congrArg Fault.unexpected (TokenKind.sort_congr h.tried)
  have herror : tape.errorAt c.unexpected c = tape.errorAt c.unexpected c' := by
    rw [errorAt, errorAt, ParseContext.blame, ParseContext.blame, hrest]
  rw [Tape.unexpected, hsort, h.blame? c.unexpected, herror]
  exact .failed ⟨h.le_size, hrest.trans h.rest, h.depth⟩

/-- A refused bracket is blamed where it stands. -/
theorem Stands.tooDeep (h : tape.Stands depth place c) (limit : Nat) :
    tape.Agrees depth (α := α) (tape.tooDeep limit place) (.failed (.tooDeep limit) c) := by
  rw [Tape.tooDeep, h.blame? (.tooDeep limit)]
  exact .failed h

namespace Agrees

/-- What goes on after agreeing attempts agrees if it does after each value. -/
theorem bind {r : TapeReader α} {o : Outcome α} {f : α → TapeReader β}
    {g : α → Cursor → Outcome β} (h : tape.Agrees depth (r place) o)
    (hf : ∀ x place' c', r place = some (.done x place') → o = .ok x c' → tape.Meets depth place' c' →
      tape.Agrees depth (f x place') (g x c')) :
    tape.Agrees depth (r.bind f place) (o.bind g) := by
  rw [TapeReader.bind]
  generalize r place = attempt at h hf ⊢
  cases h with
  | done hmeets => exact hf _ _ _ rfl rfl hmeets
  | failed hstands => exact .failed hstands

/-- Attempts and outcomes that agree do so for what is made of their values. -/
theorem map {r : TapeReader α} {o : Outcome α} (h : tape.Agrees depth (r place) o) (f : α → β) :
    tape.Agrees depth (r.map f place) (o.map f) := by
  have hmap : o.map f = o.bind fun x c => .ok (f x) c := by cases o <;> rfl
  rw [hmap, TapeReader.map]
  exact h.bind fun x place' c' _ _ hmeets => .done hmeets

/-- A choice agrees if each side does where it is taken. -/
theorem choose {kinds : List TokenKind} {a b : TapeReader α} {ruleA : Rule true α} {ruleB : Rule t α}
    (hkinds : ruleA.first = kinds) (h : tape.Meets depth place c)
    (ha : c.sees kinds → tape.Agrees depth (a place) (ruleA.run c))
    (hb : ¬c.sees kinds → tape.Agrees depth (b (place.miss kinds)) (ruleB.run (c.miss kinds))) :
    tape.Agrees depth (tape.choose kinds a b place) ((Rule.choice ruleA ruleB).run c) := by
  rw [Tape.choose, Rule.run, hkinds, h.sees]
  by_cases hsees : c.sees kinds
  · rw [if_pos hsees, if_pos hsees]
    exact ha hsees
  · rw [if_neg hsees, if_neg hsees]
    exact hb hsees

/-- A reader inside of one more bracket leaves as many open as there were. -/
theorem nested {r : TapeReader α} {o : Outcome α} (h : place.depth = depth) (hlt : depth < maxNesting)
    (hr : tape.Agrees (depth + 1) (r { place with depth := place.depth + 1 }) o) :
    tape.Agrees depth (tape.nested r place) o := by
  have hopen : ¬maxNesting ≤ place.depth := by omega
  have hclosed : difference? (depth + 1) 1 = some depth := by
    rw [difference?_of_le (Nat.le_add_left 1 depth), Nat.add_sub_cancel]
  rw [Tape.nested, if_neg hopen]
  generalize r _ = attempt at hr ⊢
  cases hr with
  | done hmeets =>
    simp only [hmeets.depth, hclosed, Option.bind_eq_bind, Option.bind_some, Option.pure_def]
    exact .done ⟨⟨hmeets.le_size, hmeets.rest, rfl⟩, hmeets.tried⟩
  | failed hstands =>
    simp only [hstands.depth, hclosed, Option.bind_eq_bind, Option.bind_some, Option.pure_def]
    exact .failed ⟨hstands.le_size, hstands.rest, rfl⟩

end Agrees

/-! ### Readers and rules -/

namespace Follows

variable {a : TapeReader α} {b : TapeReader β} {ruleA : Rule s α} {ruleB : Rule t β}

/-- Reading nothing follows the rule that reads nothing. -/
theorem nothing (value : α) : tape.Follows depth (.nothing value) (.nothing value) :=
  fun _ _ h => .done h

/-- **The token that is taken is there, and of the kind that was seen.** -/
theorem expect (kind : TokenKind) : tape.Follows depth (tape.expect kind) (.token kind) := by
  intro place c h
  rw [Tape.expect, h.sees]
  by_cases hsees : c.sees [kind]
  · obtain ⟨t, rest, hrest, hkind⟩ := Cursor.exists_of_sees hsees
    have hkind : t.token.kind = kind := List.mem_singleton.mp hkind
    obtain ⟨next, hbump, htried, hnext⟩ := h.bump? hrest
    rw [if_pos hsees, hbump, Rule.run, hrest]
    simp only [Option.bind_eq_bind, Option.bind_some, if_pos hkind]
    exact .done ⟨hnext _ rfl, fun k => by rw [htried]⟩
  · rw [if_neg hsees, Rule.run_token_of_not_sees (Bool.eq_false_iff.mpr hsees)]
    exact (h.miss [kind]).unexpected rfl

/-- What is made of the value has no part in how a reader follows a rule. -/
theorem map (h : tape.Follows depth a ruleA) (f : α → β) : tape.Follows depth (a.map f) (.map f ruleA) :=
  fun _ _ hmeets => (h hmeets).map f

/-- Readers in a row follow the rules in a row. -/
theorem seq (ha : tape.Follows depth a ruleA) (hb : tape.Follows depth b ruleB) :
    tape.Follows depth (a.seq b) (.seq ruleA ruleB) :=
  fun _ _ hmeets => (ha hmeets).bind fun x _ _ _ _ hmeets' => (hb hmeets').map (x, ·)

/-- Readers in a row follow the rules in a row, also if the first value is dropped. -/
theorem skipThen (ha : tape.Follows depth a ruleA) (hb : tape.Follows depth b ruleB) :
    tape.Follows depth (a.skipThen b) (ruleA.skipThen ruleB) :=
  (ha.seq hb).map Prod.snd

/-- Readers in a row follow the rules in a row, also if the second value is dropped. -/
theorem thenSkip (ha : tape.Follows depth a ruleA) (hb : tape.Follows depth b ruleB) :
    tape.Follows depth (a.thenSkip b) (ruleA.thenSkip ruleB) :=
  (ha.seq hb).map Prod.fst

/-- A choice by the kinds that start the first rule follows the choice of rules. -/
theorem choose {b : TapeReader α} {ruleA : Rule true α} {ruleB : Rule t α} {kinds : List TokenKind}
    (hkinds : ruleA.first = kinds) (ha : tape.Follows depth a ruleA) (hb : tape.Follows depth b ruleB) :
    tape.Follows depth (tape.choose kinds a b) (.choice ruleA ruleB) :=
  fun _ _ hmeets => .choose hkinds hmeets (fun _ => ha hmeets) fun _ => hb (hmeets.miss kinds)

/-- Enough rounds are a repetition, since each of them takes a token. -/
theorem rounds {body : TapeReader (Step α)} {rule : Rule true (Step α)} {kinds : List TokenKind}
    {more : Nat}
    (h : tape.Follows depth body rule) (hkinds : rule.first = kinds) (hmeets : tape.Meets depth place c)
    (hlt : c.rest.length < more) :
    tape.Agrees depth (tape.rounds kinds body more place) ((Rule.iterate rule).run c) := by
  induction more generalizing place c with
  | zero => exact absurd hlt (Nat.not_lt_zero _)
  | succ more ih =>
    rw [Rule.run_iterate, hkinds, Tape.rounds, Tape.choose, hmeets.sees]
    by_cases hsees : c.sees kinds
    · rw [if_pos hsees, if_pos hsees]
      apply (h hmeets).bind
      intro value place' c' _ hrun hmeets'
      cases value with
      | last a => exact .done hmeets'
      | more a =>
        have hfewer : c'.rest.length < c.rest.length := Rule.length_lt_of_run hrun
        have hrest := ih hmeets' (by omega)
        exact hrest.map (a :: ·)
    · rw [if_neg hsees, if_neg hsees]
      exact .done (hmeets.miss kinds)

/-- **A repetition ends**: its rounds are no more than the tokens. -/
theorem iterate {body : TapeReader (Step α)} {rule : Rule true (Step α)} {kinds : List TokenKind}
    (h : tape.Follows depth body rule) (hkinds : rule.first = kinds) :
    tape.Follows depth (tape.iterate kinds body) (.iterate rule) := by
  intro place c hmeets
  apply h.rounds hkinds hmeets
  rw [hmeets.length_rest]
  omega

/-- **The range of what a reader has taken is that of the tokens in between.** -/
theorem ranged {a : TapeReader α} {rule : Rule true α} (h : tape.Follows depth a rule)
    (f : α → Range → β) : tape.Follows depth (tape.ranged f a) (.ranged f rule) := by
  intro place c hmeets
  rw [Tape.ranged, Rule.run]
  refine (h hmeets).bind fun x place' c' _ hrun hmeets' => ?_
  obtain ⟨us, hpasses, hreads⟩ := Rule.reads_of_run hrun
  have hne : us ≠ [] := Rule.ne_nil_of_reads rfl hreads
  have hrange := rangeFrom?_eq_spanOf hmeets.toStands hmeets'.toStands hne hpasses.rest
  rw [hrange, range_of_run hrun hpasses.rest]
  exact .done hmeets'

/-- Refusing a bracket by number follows the rule that refuses it. -/
theorem tooDeep (limit : Nat) (kinds : List TokenKind) :
    tape.Follows depth (α := α) (tape.choose kinds (tape.tooDeep limit) tape.unexpected)
      (.tooDeep limit kinds) := by
  intro place c h
  rw [Tape.choose, Rule.run, h.sees]
  by_cases hsees : c.sees kinds
  · rw [if_pos hsees, if_pos hsees]
    exact h.tooDeep limit
  · rw [if_neg hsees, if_neg hsees]
    exact (h.miss kinds).unexpected rfl

/-- What is optional follows the optional rule. -/
theorem optional {a : TapeReader α} {rule : Rule true α} {kinds : List TokenKind}
    (h : tape.Follows depth a rule) (hkinds : rule.first = kinds) :
    tape.Follows depth (tape.optional kinds a) rule.optional :=
  .choose hkinds (h.map some) (.nothing none)

/-- One or more follow one or more of the rule. -/
theorem oneOrMore {a : TapeReader α} {rule : Rule true α} {kinds : List TokenKind}
    (h : tape.Follows depth a rule) (hkinds : rule.first = kinds) :
    tape.Follows depth (tape.oneOrMore kinds a) rule.oneOrMore := by
  have hround : tape.Follows depth (a.map Step.more) (.map Step.more rule) := h.map Step.more
  have hmany : tape.Follows depth (tape.iterate kinds (a.map Step.more)) rule.many :=
    hround.iterate hkinds
  exact (h.seq hmany).map _

end Follows

/-- **Every rule is followed by its reader.** -/
theorem follows_reader (rule : Rule s α) : tape.Follows depth (rule.reader tape) rule := by
  induction rule with
  | nothing value => exact .nothing value
  | token kind => exact .expect kind
  | seq a b iha ihb => exact iha.seq ihb
  | choice a b iha ihb => exact .choose rfl iha ihb
  | iterate body ih => exact ih.iterate rfl
  | map f rule ih => exact ih.map f
  | ranged f rule ih => exact ih.ranged f
  | tooDeep limit kinds => exact .tooDeep limit kinds

/-! ### Bodies -/

section Bodies

variable {factor : TapeReader Factor} {rule : Rule true Factor}

/-- An alternation follows its rule if its factors do. -/
theorem Follows.alternation (h : tape.Follows depth factor rule) (hfirst : rule.first = factorStarts) :
    tape.Follows depth (tape.alternation factor) (Rules.alternation rule) :=
  (h.oneOrMore hfirst).ranged _

/-- What stands behind a pipe is followed, and the empty alternation stands at the end of the pipe. -/
theorem Follows.afterPipe (h : tape.Follows depth factor rule) (hfirst : rule.first = factorStarts) :
    tape.Follows depth (tape.afterPipe factor)
      (.map Rules.afterPipe (.seq (Rules.mark .pipe) (Rules.alternation rule).optional)) := by
  intro place c hmeets
  have hpipe : tape.Agrees depth (tape.expect (.mark .pipe) place) ((Rules.mark .pipe).run c) :=
    Follows.expect (.mark .pipe) hmeets
  have hrun :
      (Rule.map Rules.afterPipe (.seq (Rules.mark .pipe) (Rules.alternation rule).optional)).run c =
      ((Rules.mark .pipe).run c).bind fun t c' =>
        ((Rules.alternation rule).optional.run c').map fun o => Rules.afterPipe (t, o) := by
    rw [Rule.run, Rule.run]
    cases (Rules.mark .pipe).run c with
    | ok t c' => exact Outcome.map_map _ _ _
    | failed fault c' => rfl
  rw [hrun]
  refine hpipe.bind fun t next c' hexpect _ hnext => ?_
  have hkinds : (Rule.map some (Rules.alternation rule)).first = factorStarts := hfirst
  unfold Tape.choose
  rw [hnext.sees, Rule.optional, Rule.run, hkinds]
  by_cases hfactor : c'.sees factorStarts
  · rw [if_pos hfactor, if_pos hfactor, Rule.run, Outcome.map_map]
    exact (h.alternation hfirst hnext).map Step.more
  · rw [if_neg hfactor, if_neg hfactor]
    have hposition : (next.miss factorStarts).position = next.position := rfl
    dsimp only
    rw [hposition, previousRange?_of_expect hexpect]
    exact .done (hnext.miss factorStarts)

/-- A body follows its rule if its factors do. -/
theorem Follows.alternations (h : tape.Follows depth factor rule) (hfirst : rule.first = factorStarts) :
    tape.Follows depth (tape.alternations factor) (Rules.alternations rule) := by
  have hone : tape.Follows depth (tape.alternation factor) (Rules.alternation rule) :=
    h.alternation hfirst
  exact (hone.seq ((h.afterPipe hfirst).iterate rfl)).ranged _

/-- Brackets follow their rule if what is between them does. -/
theorem Follows.bracketed (kind : BracketKind) {body : TapeReader Alternations}
    {ruleBody : Rule true Alternations} (h : tape.Follows depth body ruleBody)
    (hfirst : ruleBody.first = factorStarts) :
    tape.Follows depth (tape.bracketed kind body) (Rules.bracketed kind ruleBody) :=
  ((expect (.mark kind.left)).skipThen
    ((h.optional hfirst).thenSkip (expect (.mark kind.right)))).ranged _

/-- Where a bracket is next, it is one of the three kinds. -/
theorem agrees_brackets {body : TapeReader Alternations} {ruleBody : Rule true Alternations}
    {symbol : Rule true Factor} (hbody : tape.Follows depth body ruleBody)
    (hfirst : ruleBody.first = factorStarts) (h : tape.Meets depth place c)
    (hsees : c.sees Rules.openingBrackets) :
    tape.Agrees depth (tape.brackets body place) ((Rules.brackets ruleBody symbol).run c) := by
  have hkinds : Rules.openingBrackets = [.mark BracketKind.group.left] ++
      ([.mark BracketKind.optional.left] ++ [.mark BracketKind.repetition.left]) := rfl
  rw [hkinds, Cursor.sees_append, Cursor.sees_append, Bool.or_eq_true, Bool.or_eq_true] at hsees
  unfold Tape.brackets Rules.brackets
  refine .choose rfl h (fun _ => hbody.bracketed .group hfirst h) fun hgroup => ?_
  refine .choose rfl (h.miss _) (fun _ => hbody.bracketed .optional hfirst (h.miss _)) fun hoptional => ?_
  have hrepetition : c.sees [.mark BracketKind.repetition.left] :=
    (hsees.resolve_left hgroup).resolve_left hoptional
  rw [Rule.run, if_pos]
  · exact hbody.bracketed .repetition hfirst ((h.miss _).miss _)
  · exact hrepetition

end Bodies

/-- A factor starts with the same kinds at every level. -/
theorem first_factor (levels : Nat) : (Rules.factor levels).first = factorStarts :=
  (alike_factor levels).first

/-- Where no bracket is next, a factor of any level is a symbol with the brackets looked for in vain. -/
theorem exists_run_factor_of_not_sees (levels : Nat) (h : ¬c.sees Rules.openingBrackets) :
    ∃ tried, (Rules.factor levels).run c = (Rule.map Factor.symbol Rules.symbol).run (c.withTried tried) ∧
      ∀ kind, kind ∈ tried ↔ kind ∈ Rules.openingBrackets ++ c.tried := by
  cases levels with
  | zero => exact ⟨Rules.openingBrackets ++ c.tried, Rule.run_choice_of_not_sees h, fun _ => Iff.rfl⟩
  | succ levels =>
    refine ⟨Rules.openingBrackets.reverse ++ c.tried, run_brackets_of_not_sees h, fun kind => ?_⟩
    rw [List.mem_append, List.mem_append, List.mem_reverse]

/-- **A factor is followed however deep it stands**, and asks for one inside of it only as often as
a bracket may still be opened. -/
theorem follows_factor {calls levels : Nat} (hcalls : levels < calls)
    (hdepth : depth + levels = maxNesting) :
    tape.Follows depth (tape.factor calls) (Rules.factor levels) := by
  induction calls generalizing levels depth with
  | zero => exact absurd hcalls (Nat.not_lt_zero levels)
  | succ calls ih =>
    intro place c h
    rw [factor, Tape.choose, h.sees]
    by_cases hsees : c.sees Rules.openingBrackets
    · rw [if_pos hsees]
      cases levels with
      | zero =>
        have hfull : maxNesting ≤ place.depth := by
          rw [h.depth]
          omega
        have hrefused : (Rules.factor 0).run c = .failed (.tooDeep maxNesting) c := by
          rw [Rules.factor, Rule.run, Rule.first, if_pos hsees, Rule.run, if_pos hsees]
        rw [Tape.nested, if_pos hfull, hrefused]
        exact h.tooDeep maxNesting
      | succ levels =>
        have hopen : depth + 1 + levels = maxNesting := by omega
        have hbody : tape.Follows (depth + 1) (tape.alternations (tape.factor calls))
            (Rules.alternations (Rules.factor levels)) :=
          (ih (Nat.lt_of_succ_lt_succ hcalls) hopen).alternations (first_factor levels)
        have hmeets : tape.Meets (depth + 1) { place with depth := place.depth + 1 } c :=
          ⟨⟨h.le_size, h.rest, congrArg (· + 1) h.depth⟩, h.tried⟩
        exact .nested h.depth (by omega) (agrees_brackets hbody (first_factor levels) hmeets hsees)
    · obtain ⟨tried, hrun, htried⟩ := exists_run_factor_of_not_sees levels hsees
      have hsymbol : tape.Follows depth ((Rules.symbol.reader tape).map Factor.symbol)
          (.map Factor.symbol Rules.symbol) := (follows_reader Rules.symbol).map Factor.symbol
      rw [if_neg hsees, hrun]
      apply hsymbol
      refine ⟨⟨h.le_size, h.rest, h.depth⟩, fun kind => ?_⟩
      rw [(h.miss Rules.openingBrackets).tried]
      exact (htried kind).symm

/-- **A production is followed**, with no bracket open before it. -/
theorem follows_production : tape.Follows 0 tape.production (Rules.production maxNesting) := by
  have hbody : tape.Follows 0 (tape.alternations (tape.factor (maxNesting + 1)))
      (Rules.alternations (Rules.factor maxNesting)) :=
    (follows_factor (Nat.lt_succ_self _) (Nat.zero_add _)).alternations (first_factor _)
  have hpipe : tape.Follows 0 (tape.expect (.mark .pipe)) (Rules.mark .pipe) := .expect (.mark .pipe)
  have hpiped := (hpipe.skipThen hbody).map fun body => (true, some body)
  have hplain := hbody.map fun body => (false, some body)
  have hbodies : tape.Follows 0 _ (Rules.productionBody maxNesting) :=
    .choose rfl hpiped (.choose (first_factor _) hplain (.nothing (false, none)))
  have hrest := (Follows.expect (.mark .colon)).skipThen (hbodies.thenSkip (.expect (.mark .semicolon)))
  exact ((follows_reader Rules.identifier).seq hrest).ranged _

end Tape

end GrammarFile
