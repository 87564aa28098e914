import GrammarFile.Proofs.Indexed.Advance
import GrammarFile.Proofs.Indexed.Agreement

/-!
# The loops end by themselves

A file is read in three loops: over the parts of the prolog, over the directives of a scanner state,
and over the productions. Here their rounds are steps between states (`PrologRound`, `Again`,
`ProductionRound`), and each round that does not leave its loop ends at a larger position than it
began at.

So the rounds of a loop are no more than the tokens, and it does not matter how many it is allowed:
with any larger number it comes to the same (`EndsByItself`). For the loops of `parse`, which are
bounded by the tokens ahead, the same is said by `prologItems_of_length_le` and
`productions_of_length_le`.
-/

namespace GrammarFile

/-- Whether a number of steps in a row lead from one state to another. -/
inductive Steps {σ : Type} (step : σ → σ → Prop) : Nat → σ → σ → Prop where
  | none (x : σ) : Steps step 0 x x
  | more {n : Nat} {x y z : σ} : step x y → Steps step n y z → Steps step (n + 1) x z

namespace Steps

variable {σ : Type} {step : σ → σ → Prop} {n : Nat} {x y : σ}

/-- What grows with each step grows by as many as there are steps. -/
theorem add_le {position : σ → Nat} (h : Steps step n x y)
    (hstep : ∀ x y, step x y → position x < position y) : position x + n ≤ position y := by
  induction h with
  | none x => exact Nat.le_refl _
  | more hfirst _ ih =>
    have hlt := hstep _ _ hfirst
    omega

/-- What each step keeps is kept by all of them. -/
theorem keeps {P : σ → Prop} (h : Steps step n x y) (hstep : ∀ x y, step x y → P x → P y) (hx : P x) :
    P y := by
  induction h with
  | none x => exact hx
  | more hfirst _ ih => exact ih (hstep _ _ hfirst hx)

end Steps

/-- Whether a loop that is allowed a number of rounds ends by itself. It is left after no more rounds than
there are tokens from where it starts, and with any larger number of them it comes to the same. -/
def EndsByItself {σ β : Type} (size : Nat) (position : σ → Nat) (round : σ → σ → Prop)
    (left : σ → β → Prop) (loop : Nat → σ → Option β) (x : σ) : Prop :=
  ∃ n y r, Steps round n x y ∧ left y r ∧ position x + n ≤ size ∧ ∀ more, n < more → loop more x = some r

/-- Whether a loop makes rounds up to where it is left with a result, and needs to be allowed no more than
those and the last look. -/
def MakesRounds {σ β : Type} (round : σ → σ → Prop) (left : σ → β → Prop) (loop : Nat → σ → Option β)
    (x : σ) (r : β) : Prop :=
  ∃ n y, Steps round n x y ∧ left y r ∧ ∀ more, n < more → loop more x = some r

namespace MakesRounds

variable {σ β : Type} {round : σ → σ → Prop} {left : σ → β → Prop} {loop : Nat → σ → Option β} {x y : σ}
  {r r' : β}

/-- A loop that is left at once makes no rounds. -/
theorem none (hleft : left x r) (hloop : ∀ more, loop (more + 1) x = some r) :
    MakesRounds round left loop x r := by
  refine ⟨0, x, .none x, hleft, fun more hmore => ?_⟩
  obtain ⟨more, rfl⟩ := Nat.exists_eq_add_of_lt hmore
  rw [Nat.zero_add, hloop]

/-- One more round in front, which may add to the result. -/
theorem more (hround : round x y) (h : MakesRounds round left loop y r')
    (hleft : ∀ z, left z r' → left z r)
    (hloop : ∀ more, loop more y = some r' → loop (more + 1) x = some r) :
    MakesRounds round left loop x r := by
  obtain ⟨n, last, hsteps, hlast, henough⟩ := h
  refine ⟨n + 1, last, .more hround hsteps, hleft last hlast, fun more hmore => ?_⟩
  obtain ⟨more, rfl⟩ := Nat.exists_eq_add_of_lt hmore
  exact hloop _ (henough _ (by omega))

/-- If each round goes on, then the loop ends by itself. -/
theorem endsByItself {size : Nat} {position : σ → Nat} (h : MakesRounds round left loop x r)
    (hround : ∀ x y, round x y → position x < position y ∧ (position x ≤ size → position y ≤ size))
    (hx : position x ≤ size) : EndsByItself size position round left loop x := by
  obtain ⟨n, y, hsteps, hleft, henough⟩ := h
  have hadd : position x + n ≤ position y := hsteps.add_le fun x y h => (hround x y h).1
  have hsize : position y ≤ size := hsteps.keeps (fun x y h => (hround x y h).2) hx
  exact ⟨n, y, r, hsteps, hleft, Nat.le_trans hadd hsize, henough⟩

end MakesRounds

namespace Tape

variable (tape : Tape) (options : ParserOptions) {α : Type}

/-! ### The loop over the prolog -/

/-- What the loop over the prolog has in hand between its rounds. -/
structure PrologState where
  allowed : Bool
  found : Findings
  place : Place

/-- Whether the loop over the prolog is left. -/
def prologEnds (s : PrologState) : Bool :=
  s.found.stopped || tape.atEnd s.place || tape.sees s.place [.mark .percentPercent]

/-- What the loop over the prolog has in hand after an attempt at one more part. -/
def afterItem? (s : PrologState) : Option PrologState :=
  match (prologItem s.allowed).reader tape (s.place.miss [.mark .percentPercent]) with
  | none => none
  | some (.done (.declaration _) next) => some { s with place := next }
  | some (.done (.state _) next) => some ⟨false, s.found, next⟩
  | some (.failed error next) =>
    (tape.synchronizeItem? s.place next).map fun next => ⟨s.allowed, s.found.report options error, next⟩

/-- One round of the loop over the prolog. -/
def PrologRound (s s' : PrologState) : Prop :=
  tape.prologEnds s = false ∧ tape.afterItem? options s = some s'

/-- Whether the loop over the prolog is left with what was read. -/
def PrologLeft (s : PrologState) (r : TapeReading (List Declaration × List ScannerState)) : Prop :=
  tape.prologEnds s ∧ r.found = s.found ∧ r.place = s.place

/-- The loop over the prolog from what it has in hand. -/
def prologLoop (more : Nat) (s : PrologState) :
    Option (TapeReading (List Declaration × List ScannerState)) :=
  tape.prologItems? options more s.allowed s.found s.place

variable {tape options}

/-- **A round of the loop over the prolog goes on**, also where its attempt has failed without moving. -/
theorem lt_of_prologRound {s s' : PrologState} (h : tape.PrologRound options s s') :
    s.place.position < s'.place.position ∧ s'.place.position ≤ tape.lexemes.size := by
  obtain ⟨hgoes, hround⟩ := h
  have hlt : s.place.position < tape.lexemes.size := by
    rw [prologEnds, Bool.or_eq_false_iff, Bool.or_eq_false_iff, atEnd, decide_eq_false_iff_not] at hgoes
    exact Nat.lt_of_not_le hgoes.1.2
  rw [afterItem?] at hround
  split at hround
  case h_1 => cases hround
  case h_2 d next hread =>
    have hmoved := advances_reader _ hread
    cases hround
    exact ⟨hmoved.lt rfl rfl, hmoved.le_size (Nat.le_of_lt hlt)⟩
  case h_3 state next hread =>
    have hmoved := advances_reader _ hread
    cases hround
    exact ⟨hmoved.lt rfl rfl, hmoved.le_size (Nat.le_of_lt hlt)⟩
  case h_4 error next hread =>
    have hmoved := advances_reader _ hread
    obtain ⟨past, hpast, rfl⟩ := Option.map_eq_some_iff.mp hround
    have hgoes := GoesOn.of_synchronizeItem? hpast
    exact ⟨hgoes.lt hmoved.le hlt, hgoes.le_size (hmoved.le_size (Nat.le_of_lt hlt))⟩

/-- Where it is not left the loop over the prolog makes an attempt at one more part. -/
theorem prologLoop_succ {s : PrologState} (h : tape.prologEnds s = false) (more : Nat) :
    tape.prologLoop options (more + 1) s =
      match (prologItem s.allowed).reader tape (s.place.miss [.mark .percentPercent]) with
      | none => none
      | some (.done (.declaration d) next) =>
        (tape.prologLoop options more { s with place := next }).map (·.map fun (ds, ss) => (d :: ds, ss))
      | some (.done (.state state) next) =>
        (tape.prologLoop options more ⟨false, s.found, next⟩).map
          (·.map fun (ds, ss) => (ds, state :: ss))
      | some (.failed error next) =>
        (tape.synchronizeItem? s.place next).bind fun next =>
          tape.prologLoop options more ⟨s.allowed, s.found.report options error, next⟩ :=
  if_neg (Bool.eq_false_iff.mp h)

/-- After a round the loop over the prolog goes on, and its value is made from what comes then. -/
theorem prologLoop_of_goes {s : PrologState} (h : tape.prologEnds s = false) :
    (∀ more, tape.prologLoop options (more + 1) s = none) ∨
      ∃ s' f, tape.PrologRound options s s' ∧
        ∀ more, tape.prologLoop options (more + 1) s =
          (tape.prologLoop options more s').map (·.map f) := by
  simp only [PrologRound, afterItem?, prologLoop_succ h]
  cases (prologItem s.allowed).reader tape (s.place.miss [.mark .percentPercent]) with
  | none => exact .inl fun _ => rfl
  | some attempt =>
    cases attempt with
    | done item next =>
      cases item with
      | declaration d => exact .inr ⟨_, _, ⟨h, rfl⟩, fun _ => rfl⟩
      | state state => exact .inr ⟨_, _, ⟨h, rfl⟩, fun _ => rfl⟩
    | failed error next =>
      dsimp only
      cases tape.synchronizeItem? s.place next with
      | none => exact .inl fun _ => rfl
      | some past => exact .inr ⟨_, id, ⟨h, rfl⟩, fun _ => Option.map_id'.symm⟩

/-- **A loop over the prolog that ends makes rounds up to where it is left**, and it needs to be
allowed no more than those. -/
theorem rounds_of_prologLoop {more : Nat} {s : PrologState}
    {r : TapeReading (List Declaration × List ScannerState)}
    (h : tape.prologLoop options more s = some r) :
    MakesRounds (tape.PrologRound options) tape.PrologLeft (tape.prologLoop options) s r := by
  induction more generalizing s r with
  | zero => cases h
  | succ more ih =>
    cases hends : tape.prologEnds s with
    | true =>
      have hleft : ∀ more, tape.prologLoop options (more + 1) s = some ⟨([], []), s.found, s.place⟩ :=
        fun more => if_pos hends
      obtain rfl := Option.some.inj ((hleft more).symm.trans h)
      exact .none ⟨hends, rfl, rfl⟩ hleft
    | false =>
      rcases prologLoop_of_goes hends with hnone | ⟨s', f, hround, hloop⟩
      · cases (hnone more).symm.trans h
      · rw [hloop, Option.map_eq_some_iff] at h
        obtain ⟨r', hr', rfl⟩ := h
        exact .more hround (ih hr') (fun _ => id) fun more hmore => by rw [hloop, hmore, Option.map_some]

/-! ### The loop over the productions -/

variable (tape options)

/-- One round of the loop over the productions: an attempt after which there is another one. -/
def ProductionRound (s s' : Findings × Place) : Prop :=
  ∃ first, tape.productionAttempt? options s.1 s.2 = some first ∧
    (first.found.stopped || tape.atEnd first.place) = false ∧ s' = (first.found, first.place)

/-- Whether the loop over the productions is left after an attempt, with what was read. -/
def ProductionsLeft (s : Findings × Place) (r : TapeReading (Option (List Production))) : Prop :=
  ∃ last, tape.productionAttempt? options s.1 s.2 = some last ∧
    (last.found.stopped || tape.atEnd last.place) ∧ r.found = last.found ∧ r.place = last.place

/-- The loop over the productions from what it has in hand. -/
def productionLoop (more : Nat) (s : Findings × Place) :
    Option (TapeReading (Option (List Production))) :=
  tape.productions? options more s.1 s.2

variable {tape options}

/-- An attempt at a production goes on, and ends at the place of its reader or behind it. -/
theorem le_of_productionAttempt? {found : Findings} {place : Place}
    {r : TapeReading (Option (List Production))}
    (h : tape.productionAttempt? options found place = some r) :
    place.position ≤ r.place.position ∧
      (place.position ≤ tape.lexemes.size → r.place.position ≤ tape.lexemes.size) ∧
      (r.found.stopped = false → place.position < tape.lexemes.size →
        place.position < r.place.position) := by
  unfold productionAttempt? at h
  split at h
  case h_1 => cases h
  case h_2 p next hread =>
    have hmoved := advances_production hread
    cases h
    exact ⟨hmoved.le, hmoved.le_size, fun _ _ => hmoved.lt rfl rfl⟩
  case h_3 error next hread =>
    have hmoved := advances_production hread
    dsimp only at h
    split at h
    · rename_i hstopped
      cases h
      exact ⟨hmoved.le, hmoved.le_size, fun hrunning => absurd hstopped (Bool.eq_false_iff.mp hrunning)⟩
    · obtain ⟨past, hpast, rfl⟩ := Option.map_eq_some_iff.mp h
      have hgoes := GoesOn.of_synchronizeProduction? hpast
      exact ⟨Nat.le_trans hmoved.le hgoes.le, fun hle => hgoes.le_size (hmoved.le_size hle),
        fun _ hlt => hgoes.lt hmoved.le hlt⟩

/-- **A round of the loop over the productions goes on.** At the end of the input an attempt does not, but
there is no other one after it. -/
theorem lt_of_productionRound {s s' : Findings × Place} (h : tape.ProductionRound options s s') :
    s.2.position < s'.2.position ∧ s'.2.position ≤ tape.lexemes.size := by
  obtain ⟨first, hfirst, hgoes, rfl⟩ := h
  obtain ⟨hle, -, hlt⟩ := le_of_productionAttempt? hfirst
  rw [Bool.or_eq_false_iff, atEnd, decide_eq_false_iff_not, Nat.not_le] at hgoes
  obtain ⟨hrunning, hnext⟩ := hgoes
  exact ⟨hlt hrunning (Nat.lt_of_le_of_lt hle hnext), Nat.le_of_lt hnext⟩

/-- **A loop over the productions that ends makes rounds up to where it is left**, and it needs to
be allowed no more than those and the last attempt. -/
theorem rounds_of_productionLoop {more : Nat} {s : Findings × Place}
    {r : TapeReading (Option (List Production))} (h : tape.productionLoop options more s = some r) :
    MakesRounds (tape.ProductionRound options) (tape.ProductionsLeft options)
      (tape.productionLoop options) s r := by
  induction more generalizing s r with
  | zero => cases h
  | succ more ih =>
    cases hfirst : tape.productionAttempt? options s.1 s.2 with
    | none => simp [productionLoop, productions?, hfirst] at h
    | some first =>
      cases hends : first.found.stopped || tape.atEnd first.place with
      | true =>
        have hleft : ∀ more, tape.productionLoop options (more + 1) s = some first := by
          intro more
          simp only [productionLoop, productions?, hfirst, Option.bind_eq_bind, Option.bind_some, hends,
            if_true, Option.pure_def]
        obtain rfl := Option.some.inj ((hleft more).symm.trans h)
        exact .none ⟨first, hfirst, hends, rfl, rfl⟩ hleft
      | false =>
        have hgoes : ∀ more, tape.productionLoop options (more + 1) s =
            (tape.productionLoop options more (first.found, first.place)).map
              (·.map fun value => first.value.bind fun ps => value.map (ps ++ ·)) := by
          intro more
          simp only [productionLoop, productions?, hfirst, Option.bind_eq_bind, Option.bind_some, hends,
            Bool.false_eq_true, if_false, Option.pure_def, Option.map_eq_bind]
          rfl
        rw [hgoes, Option.map_eq_some_iff] at h
        obtain ⟨r', hr', rfl⟩ := h
        have hround : tape.ProductionRound options s (first.found, first.place) :=
          ⟨first, hfirst, hends, rfl⟩
        exact .more hround (ih hr') (fun _ => id) fun more hmore => by rw [hgoes, hmore, Option.map_some]

/-! ### Repetitions -/

variable (tape)

/-- One round of a repetition of a rule. -/
def Again (rule : Rule true α) (place next : Place) : Prop :=
  tape.sees place rule.first ∧ ∃ x, rule.reader tape place = some (.done x next)

/-- Whether a repetition is left: where no other round can start, or in a round that fails. -/
def RepetitionLeft (rule : Rule true α) (place : Place) (attempt : Attempt (List α)) : Prop :=
  tape.sees place rule.first = false ∧ (∃ xs, attempt = .done xs (place.miss rule.first)) ∨
    tape.sees place rule.first ∧
      ∃ error next, rule.reader tape place = some (.failed error next) ∧ attempt = .failed error next

/-- A repetition of a rule, which is allowed a number of rounds. -/
def repetition (rule : Rule true α) (more : Nat) : TapeReader (List α) :=
  tape.rounds rule.first ((rule.reader tape).map Step.more) more

variable {tape}

/-- **A round of a repetition goes on.** -/
theorem lt_of_again {rule : Rule true α} {place next : Place} (h : tape.Again rule place next) :
    place.position < next.position ∧
      (place.position ≤ tape.lexemes.size → next.position ≤ tape.lexemes.size) := by
  obtain ⟨-, x, hread⟩ := h
  have hmoved := advances_reader rule hread
  exact ⟨hmoved.lt rfl rfl, hmoved.le_size⟩

/-- A repetition is left where no other round can start. -/
theorem repetition_of_not_sees {rule : Rule true α} {place : Place}
    (h : tape.sees place rule.first = false)
    (more : Nat) : tape.repetition rule (more + 1) place = some (.done [] (place.miss rule.first)) := by
  rw [repetition, rounds, choose, h]
  rfl

/-- Elsewhere it makes one more round, and what comes then adds to the value of that one. -/
theorem repetition_of_sees {rule : Rule true α} {place : Place} (h : tape.sees place rule.first)
    (more : Nat) :
    tape.repetition rule (more + 1) place =
      match rule.reader tape place with
      | none => none
      | some (.failed error next) => some (.failed error next)
      | some (.done x next) => (tape.repetition rule more).map (x :: ·) next := by
  rw [repetition, rounds, choose, if_pos h]
  simp only [TapeReader.map, TapeReader.bind, TapeReader.nothing]
  cases rule.reader tape place with
  | none => rfl
  | some first => cases first <;> rfl

/-- **A repetition that ends makes rounds up to where it is left**, and it needs to be allowed no
more than those. -/
theorem rounds_of_repetition {rule : Rule true α} {more : Nat} {place : Place}
    {attempt : Attempt (List α)} (h : tape.repetition rule more place = some attempt) :
    MakesRounds (tape.Again rule) (tape.RepetitionLeft rule) (tape.repetition rule) place attempt := by
  induction more generalizing place attempt with
  | zero => cases h
  | succ more ih =>
    cases hsees : tape.sees place rule.first with
    | false =>
      rw [repetition_of_not_sees hsees, Option.some.injEq] at h
      subst h
      exact .none (.inl ⟨hsees, [], rfl⟩) (repetition_of_not_sees hsees)
    | true =>
      have hround := repetition_of_sees hsees
      cases hread : rule.reader tape place with
      | none => simp [hround, hread] at h
      | some first =>
        simp only [hread] at hround
        rw [hround] at h
        cases first with
        | failed error next =>
          cases h
          exact .none (.inr ⟨hsees, error, next, hread, rfl⟩) hround
        | done x next =>
          simp only [TapeReader.map, TapeReader.bind, TapeReader.nothing] at h hround
          cases hrest : tape.repetition rule more next with
          | none => simp [hrest] at h
          | some attempt' =>
            refine .more ⟨hsees, x, hread⟩ (ih hrest) (fun last hleft => ?_) fun more' hmore => ?_
            · rw [hrest] at h
              rcases hleft with ⟨hunseen, xs, rfl⟩ | ⟨hseen, error, next', hfailed, rfl⟩
              · cases h
                exact .inl ⟨hunseen, x :: xs, rfl⟩
              · cases h
                exact .inr ⟨hseen, error, next', hfailed, rfl⟩
            · rw [hround, hmore, ← h, hrest]

/-! ### Every loop ends -/

/-- Whether a place is on the tape, with no bracket open there. -/
structure Rests (tape : Tape) (place : Place) : Prop where
  le_size : place.position ≤ tape.lexemes.size
  depth : place.depth = 0

variable {place : Place}

/-- A place on the tape stands in front of the tokens from its number on. -/
theorem exists_meets (h : place.position ≤ tape.lexemes.size) : ∃ c, tape.Meets place.depth place c :=
  ⟨⟨tape.tokens.drop place.position, .origin, place.tried⟩, ⟨h, rfl, rfl⟩, fun _ => Iff.rfl⟩

/-- A place rests where the parser can stand with no bracket open. -/
theorem rests_iff : tape.Rests place ↔ ∃ c, tape.Meets 0 place c := by
  constructor
  · rintro ⟨hle, hdepth⟩
    obtain ⟨c, hmeets⟩ := exists_meets hle
    exact ⟨c, hdepth ▸ hmeets⟩
  · rintro ⟨c, hmeets⟩
    exact ⟨hmeets.le_size, hmeets.depth⟩

/-- The loop over the items of the prolog ends by itself. -/
theorem endsByItself_prologLoop {s : PrologState} (h : tape.Rests s.place) :
    EndsByItself tape.lexemes.size (·.place.position) (tape.PrologRound options) tape.PrologLeft
      (tape.prologLoop options) s := by
  obtain ⟨c, hmeets⟩ := rests_iff.mp h
  obtain ⟨r, hr, -⟩ := exists_prologItems? options c.rest s.allowed s.found hmeets (Nat.le_refl _)
    (Nat.lt_succ_self _)
  refine (rounds_of_prologLoop hr).endsByItself (fun _ _ hround => ?_) h.le_size
  exact ⟨(lt_of_prologRound hround).1, fun _ => (lt_of_prologRound hround).2⟩

/-- The loop over the productions ends by itself. -/
theorem endsByItself_productionLoop {s : Findings × Place} (h : tape.Rests s.2) :
    EndsByItself tape.lexemes.size (·.2.position) (tape.ProductionRound options)
      (tape.ProductionsLeft options) (tape.productionLoop options) s := by
  obtain ⟨c, hmeets⟩ := rests_iff.mp h
  obtain ⟨r, hr, -⟩ := exists_productions? options c.rest s.1 hmeets (Nat.le_refl _) (Nat.lt_succ_self _)
  refine (rounds_of_productionLoop hr).endsByItself (fun _ _ hround => ?_) h.le_size
  exact ⟨(lt_of_productionRound hround).1, fun _ => (lt_of_productionRound hround).2⟩

/-- The repetition of a rule ends by itself. -/
theorem endsByItself_repetition (rule : Rule true α) (hle : place.position ≤ tape.lexemes.size) :
    EndsByItself tape.lexemes.size (·.position) (tape.Again rule) (tape.RepetitionLeft rule)
      (tape.repetition rule) place := by
  obtain ⟨c, hmeets⟩ := exists_meets hle
  have hagrees : tape.Agrees place.depth (tape.repetition rule (tape.lexemes.size + 1) place)
      (rule.many.run c) := follows_reader rule.many hmeets
  obtain ⟨attempt, hattempt⟩ : ∃ attempt,
      tape.repetition rule (tape.lexemes.size + 1) place = some attempt := by
    generalize tape.repetition rule _ place = o at hagrees ⊢
    generalize rule.many.run c = o' at hagrees
    cases hagrees <;> exact ⟨_, rfl⟩
  exact (rounds_of_repetition hattempt).endsByItself (fun _ _ => lt_of_again) hle

/-! ### The parts of a file -/

/-- The loop over the items of the prolog does not go back. -/
theorem le_of_prologLoop {more : Nat} {s : PrologState}
    {r : TapeReading (List Declaration × List ScannerState)}
    (h : tape.prologLoop options more s = some r) :
    s.place.position ≤ r.place.position := by
  obtain ⟨n, s', hsteps, ⟨-, -, hplace⟩, -⟩ := rounds_of_prologLoop h
  have hadd : s.place.position + n ≤ s'.place.position :=
    hsteps.add_le fun _ _ hround => (lt_of_prologRound hround).1
  rw [hplace]
  exact Nat.le_trans (Nat.le_add_right _ _) hadd

/-- The loop over the productions does not go back. -/
theorem le_of_productionLoop {more : Nat} {s : Findings × Place}
    {r : TapeReading (Option (List Production))}
    (h : tape.productionLoop options more s = some r) : s.2.position ≤ r.place.position := by
  obtain ⟨n, s', hsteps, ⟨last, hlast, -, -, hplace⟩, -⟩ := rounds_of_productionLoop h
  have hadd : s.2.position + n ≤ s'.2.position :=
    hsteps.add_le fun _ _ hround => (lt_of_productionRound hround).1
  rw [hplace]
  exact Nat.le_trans (Nat.le_trans (Nat.le_add_right _ _) hadd) (le_of_productionAttempt? hlast).1

/-- Reading the start declaration does not go back. -/
theorem le_of_startDeclaration? {r : TapeReading (Option StartDeclaration)}
    (h : tape.startDeclaration? options place = some r) : place.position ≤ r.place.position := by
  unfold startDeclaration? at h
  split at h
  case h_1 => cases h
  case h_2 start next hread =>
    cases h
    exact (advances_reader _ hread).le
  case h_3 error next hread =>
    have hmoved := (advances_reader _ hread).le
    dsimp only at h
    split at h
    · cases h
      exact hmoved
    · obtain ⟨past, hpast, rfl⟩ := Option.map_eq_some_iff.mp h
      exact Nat.le_trans hmoved (GoesOn.of_synchronizeProlog? hpast).le

/-- Reading the prolog does not go back. -/
theorem le_of_prolog? {r : TapeReading (Option Prolog)} (h : tape.prolog? options place = some r) :
    place.position ≤ r.place.position := by
  simp only [prolog?, Option.bind_eq_bind, Option.bind_eq_some_iff] at h
  obtain ⟨start, hstart, items, hitems, h⟩ := h
  have hle : place.position ≤ items.place.position :=
    Nat.le_trans (le_of_startDeclaration? hstart)
      (le_of_prologLoop (s := ⟨true, start.found, start.place⟩) hitems)
  split at h
  · cases h
    exact hle
  · obtain ⟨range, -, h⟩ := Option.bind_eq_some_iff.mp h
    cases h
    exact hle

/-- Reading the productions does not go back. -/
theorem le_of_definition? {found : Findings} {r : TapeReading (Option Definition)}
    (h : tape.definition? options found place = some r) : place.position ≤ r.place.position := by
  unfold definition? at h
  split at h
  case h_1 => cases h
  case h_2 error next hread =>
    cases h
    exact (Advances.expect _ hread).le
  case h_3 percent next hread =>
    obtain ⟨items, hitems, h⟩ := Option.bind_eq_some_iff.mp h
    have hle : place.position ≤ items.place.position :=
      Nat.le_trans (Advances.expect _ hread).le (le_of_productionLoop (s := (found, next)) hitems)
    split at h
    · cases h
      exact hle
    · obtain ⟨range, -, h⟩ := Option.bind_eq_some_iff.mp h
      cases h
      exact hle

/-- Reading the productions behind the prolog does not go back. -/
theorem le_of_definitionAfter? {first : TapeReading (Option Prolog)} {r : TapeReading (Option Definition)}
    (h : tape.definitionAfter? options first = some r) : first.place.position ≤ r.place.position := by
  unfold definitionAfter? at h
  split at h
  · cases h
    exact Nat.le_refl _
  · exact le_of_definition? h

/-- Whether nothing goes back that reads a tape: no rule, no bracket and no production, nothing that
goes on after an error, and no part of a file. -/
structure Forward (tape : Tape) (options : ParserOptions) : Prop where
  rule : ∀ {s : Bool} {α : Type} (rule : Rule s α), tape.Advances s (rule.reader tape)
  factor : ∀ calls, tape.Advances true (tape.factor calls)
  production : tape.Advances true tape.production
  afterItem : ∀ {start place next : Place},
    tape.synchronizeItem? start place = some next → tape.GoesOn start.position place next
  afterStart : ∀ {failedAt : Nat} {place next : Place},
    tape.synchronizeProlog? failedAt place = some next → tape.GoesOn failedAt place next
  afterProduction : ∀ {failedAt : Nat} {place next : Place},
    tape.synchronizeProduction? failedAt place = some next → tape.GoesOn failedAt place next
  prolog : ∀ {place : Place} {r : TapeReading (Option Prolog)},
    tape.prolog? options place = some r → place.position ≤ r.place.position
  definition : ∀ {first : TapeReading (Option Prolog)} {r : TapeReading (Option Definition)},
    tape.definitionAfter? options first = some r → first.place.position ≤ r.place.position

/-- Every part of a file is read without going back. -/
theorem forward (tape : Tape) (options : ParserOptions) : tape.Forward options where
  rule := advances_reader
  factor := advances_factor
  production := advances_production
  afterItem := .of_synchronizeItem?
  afterStart := .of_synchronizeProlog?
  afterProduction := .of_synchronizeProduction?
  prolog := le_of_prolog?
  definition := le_of_definitionAfter?

/-- The loop over the prolog starts with no bracket open. -/
theorem exists_startDeclaration?_rests (tape : Tape) (options : ParserOptions) :
    ∃ start, tape.startDeclaration? options ⟨0, [], 0⟩ = some start ∧ tape.Rests start.place := by
  obtain ⟨start, hstart, -, -, hmeets⟩ := exists_startDeclaration? options tape.meets_start
  exact ⟨start, hstart, rests_iff.mpr ⟨_, hmeets⟩⟩

/-- The loop over the productions starts with no bracket open. -/
theorem rests_of_percent {first : TapeReading (Option Prolog)} {percent : LocatedToken} {next : Place}
    (hprolog : tape.prolog? options ⟨0, [], 0⟩ = some first)
    (hpercent : tape.expect (.mark .percentPercent) first.place = some (.done percent next)) :
    tape.Rests next := by
  obtain ⟨first', hfirst', -, hmeets⟩ := exists_prolog? options tape.meets_start
  obtain rfl := Option.some.inj (hprolog.symm.trans hfirst')
  have hagrees := Follows.expect (.mark .percentPercent) hmeets
  rw [hpercent] at hagrees
  generalize (Rule.token (.mark .percentPercent)).run _ = o at hagrees
  cases hagrees with
  | done hnext => exact rests_iff.mpr ⟨_, hnext⟩

end Tape

/-! ### The loops of `parse` -/

section Ahead

variable {context : ParseContext} {found : Findings} {c : Cursor} {ahead more : List LocatedToken}
  (hahead : c.rest.length ≤ ahead.length) (hmore : c.rest.length ≤ more.length)
include hahead hmore

/-- It does not matter how many rounds over the prolog there can be, as long as there can be one for each
token. -/
theorem prologItems_congr (allowed : Bool) :
    prologItems context ahead allowed found c = prologItems context more allowed found c := by
  induction ahead generalizing more allowed found c with
  | nil =>
    have hnil : c.rest = [] := List.eq_nil_of_length_eq_zero (Nat.le_zero.mp hahead)
    have hends : found.stopped || c.rest.isEmpty || c.sees [.mark .percentPercent] := by simp [hnil]
    rw [prologItems_of_ends [] hends, prologItems_of_ends more hends]
  | cons t ahead ih =>
    by_cases hends : found.stopped || c.rest.isEmpty || c.sees [.mark .percentPercent]
    · rw [prologItems_of_ends _ hends, prologItems_of_ends _ hends]
    have hne : c.rest ≠ [] := by
      intro hnil
      simp [hnil] at hends
    cases more with
    | nil => exact absurd (List.eq_nil_of_length_eq_zero (Nat.le_zero.mp hmore)) hne
    | cons u more =>
      rw [List.length_cons] at hahead hmore
      rw [prologItems_of_goes t ahead hends, prologItems_of_goes u more hends]
      cases hrun : (prologItem allowed).run (c.miss [.mark .percentPercent]) with
      | ok item c' =>
        have hlt : c'.rest.length < c.rest.length :=
          Rule.length_lt_of_run (c := c.miss [.mark .percentPercent]) hrun
        have hcongr : ∀ allowed, prologItems context ahead allowed found c' =
            prologItems context more allowed found c' := ih (by omega) (by omega)
        cases item with
        | declaration d => exact congrArg (Reading.map _) (hcongr allowed)
        | state state => exact congrArg (Reading.map _) (hcongr false)
      | failed fault c' =>
        have hlt := length_lt_of_prologItem hrun hne
        exact ih (by omega) (by omega) allowed

/-- Nor does it matter how many rounds over the productions there can be. -/
theorem productions_congr : productions context ahead found c = productions context more found c := by
  induction ahead generalizing more found c with
  | nil =>
    have hlast : (productionAttempt context found c).isLast = true := by
      by_contra hgoes
      have hlt := length_productionAttempt_lt (Bool.eq_false_iff.mpr hgoes)
      exact Nat.not_lt_zero _ (Nat.lt_of_lt_of_le hlt hahead)
    cases more with
    | nil => rfl
    | cons u more => simp only [productions_nil, productions_cons, hlast, if_true]
  | cons t ahead ih =>
    rw [productions_cons]
    cases hlast : (productionAttempt context found c).isLast with
    | true =>
      cases more with
      | nil => simp only [productions_nil, hlast, if_true]
      | cons u more => simp only [productions_cons, hlast, if_true]
    | false =>
      have hlt := length_productionAttempt_lt hlast
      cases more with
      | nil => exact absurd (Nat.lt_of_lt_of_le hlt hmore) (Nat.not_lt_zero _)
      | cons u more =>
        rw [List.length_cons] at hahead hmore
        simp only [productions_cons, hlast, Bool.false_eq_true, if_false]
        exact congrArg (Reading.map _) (ih (by omega) (by omega))

end Ahead

/-- **Every loop of a parse goes on and ends by itself.** Nothing goes back on the tape. A round of
the loop over the prolog, of the loop over the productions or of the loop over the directives of a
scanner state ends at a larger position than it began at, unless it leaves its loop. So the rounds
of a loop are no more than the tokens, and what it comes to does not depend on how many it is
allowed. Every tape is parsed, and in the loops of `parse` too the number of tokens ahead is never
what stops them. -/
theorem loops_end (tape : Tape) (options : ParserOptions) :
    tape.Forward options ∧
    (∀ s s', tape.PrologRound options s s' → s.place.position < s'.place.position) ∧
    (∀ s s', tape.ProductionRound options s s' → s.2.position < s'.2.position) ∧
    (∀ place next, tape.Again Rules.directive place next → place.position < next.position) ∧
    ((∃ start, tape.startDeclaration? options ⟨0, [], 0⟩ = some start ∧ tape.Rests start.place) ∧
      ∀ s : Tape.PrologState, tape.Rests s.place →
        EndsByItself tape.lexemes.size (·.place.position) (tape.PrologRound options) tape.PrologLeft
          (tape.prologLoop options) s) ∧
    ((∀ first percent next, tape.prolog? options ⟨0, [], 0⟩ = some first →
        tape.expect (.mark .percentPercent) first.place = some (.done percent next) → tape.Rests next) ∧
      ∀ s : Findings × Place, tape.Rests s.2 →
        EndsByItself tape.lexemes.size (·.2.position) (tape.ProductionRound options)
          (tape.ProductionsLeft options) (tape.productionLoop options) s) ∧
    (∀ place : Place, place.position ≤ tape.lexemes.size →
      EndsByItself tape.lexemes.size (·.position) (tape.Again Rules.directive)
        (tape.RepetitionLeft Rules.directive) (tape.repetition Rules.directive) place) ∧
    tape.parse? options = some (parseTokens (.ofSource tape.source options) tape.tokens) ∧
    ∀ (context : ParseContext) (found : Findings) (c : Cursor) (ahead more : List LocatedToken),
      c.rest.length ≤ ahead.length → c.rest.length ≤ more.length →
      (∀ allowed, prologItems context ahead allowed found c = prologItems context more allowed found c) ∧
      productions context ahead found c = productions context more found c ∧
      iterateRounds Rules.directive.first (Rule.map Step.more Rules.directive).run ahead c =
        iterateRounds Rules.directive.first (Rule.map Step.more Rules.directive).run more c := by
  refine ⟨tape.forward options, fun _ _ hround => (Tape.lt_of_prologRound hround).1,
    fun _ _ hround => (Tape.lt_of_productionRound hround).1, fun _ _ hround =>
      (Tape.lt_of_again hround).1,
    ⟨tape.exists_startDeclaration?_rests options, fun s => Tape.endsByItself_prologLoop⟩,
    ⟨fun _ _ _ => Tape.rests_of_percent, fun s => Tape.endsByItself_productionLoop⟩,
    fun place => Tape.endsByItself_repetition Rules.directive, Tape.parse?_eq options tape, ?_⟩
  intro context found c ahead more hahead hmore
  exact ⟨prologItems_congr hahead hmore, productions_congr hahead hmore,
    Rule.iterateRounds_eq hahead hmore⟩

/-- Where a name is missing the loop over the prolog starts at the keyword that stands there, and it
is left after one round. -/
theorem loops_end_missing_name :
    let tape : Tape := ⟨"%start %title", #[⟨.mark .start, ⟨0, 6⟩⟩, ⟨.mark .title, ⟨7, 13⟩⟩]⟩
    ∃ start n s r, tape.startDeclaration? .default ⟨0, [], 0⟩ = some start ∧ start.place.position = 1 ∧
      Steps (tape.PrologRound .default) n ⟨true, start.found, start.place⟩ s ∧ tape.PrologLeft s r ∧
      1 + n ≤ 2 ∧
      ∀ more, n < more → tape.prologItems? .default more true start.found start.place = some r := by
  intro tape
  have hposition : (tape.startDeclaration? .default ⟨0, [], 0⟩).map (·.place.position) = some 1 := by
    decide +kernel
  obtain ⟨-, -, -, -, ⟨⟨start, hstart, hrests⟩, hprolog⟩, -⟩ := loops_end tape .default
  rw [hstart] at hposition
  have hone : start.place.position = 1 := Option.some.inj hposition
  obtain ⟨n, s, r, hsteps, hleft, hcount, henough⟩ := hprolog ⟨true, start.found, start.place⟩ hrests
  exact ⟨start, n, s, r, hstart, hone, hsteps, hleft, hone ▸ hcount, henough⟩

end GrammarFile
