import GrammarFile.Proofs.Parsing.Reads

/-!
# What a run does with the next token

Running a rule only ever moves on in the token stream (`rest_suffix_of_run`), and the kind of the next
token settles how it begins:

- Where the rule cannot start with that token, the run stays in its place. A rule that always consumes a
  token fails there, and any other one gives a value, having looked for the kinds it could have started
  with (`run_of_not_sees`).
- Where it can, the run passes over the token (`rest_suffix_tail_of_run`), and what was looked for in
  vain before makes no difference to it (`run_withTried`).

The second part is about rules that do not start with a refusal (`Rule.shallow`): a bracket too many is
seen and not passed over (`passes_or_refuses`). So a run that stays in its place without a refusal could
not start with the token there, and lists all that it could start with (`not_sees_of_stays`).

A repetition is one round and the same repetition after it (`run_iterate`), and `iterate_induction` is
the induction on its rounds.
-/

namespace GrammarFile

namespace Outcome

variable {α β : Type}

/-- Two maps are one. -/
theorem map_map {γ : Type} (g : β → γ) (f : α → β) (o : Outcome α) :
    (o.map f).map g = o.map fun x => g (f x) := by
  cases o <;> rfl

/-- The place where an outcome ends. -/
def cursor : Outcome α → Cursor
  | ok _ c => c
  | failed _ c => c

/-- What is made of a value has no part in where a run ends. -/
@[simp] theorem cursor_map (f : α → β) (o : Outcome α) : (o.map f).cursor = o.cursor := by
  cases o <;> rfl

/-- The fault where a run ends. A run that gives a value ends where it cannot go on. -/
def fault : Outcome α → Fault
  | ok _ c => c.unexpected
  | failed fault _ => fault

/-- What is made of a value has no part in the fault. -/
@[simp] theorem fault_map (f : α → β) (o : Outcome α) : (o.map f).fault = o.fault := by
  cases o <;> rfl

/-- What comes after a refused bracket does not matter. -/
theorem fault_bind_of_refused {o : Outcome α} (h : o.fault.nestingLimit? ≠ none)
    (f : α → Cursor → Outcome β) : (o.bind f).fault = o.fault := by
  cases o with
  | ok x c => exact absurd rfl h
  | failed fault c => rfl

/-- Going on where an outcome ends only moves on if what goes on does. -/
theorem rest_suffix_bind {o : Outcome α} {f : α → Cursor → Outcome β} {ts : List LocatedToken}
    (ho : o.cursor.rest <:+ ts) (hf : ∀ x c, (f x c).cursor.rest <:+ c.rest) :
    (o.bind f).cursor.rest <:+ ts := by
  cases o with
  | ok x c => exact (hf x c).trans ho
  | failed fault c => exact ho

end Outcome

namespace Cursor

/-- The same place, with these kinds looked for in vain and no others. -/
def withTried (c : Cursor) (tried : List TokenKind) : Cursor :=
  { c with tried := tried }

/-- The kinds of two lists are seen if those of one are. -/
theorem sees_append (c : Cursor) (kinds others : List TokenKind) :
    c.sees (kinds ++ others) = (c.sees kinds || c.sees others) := by
  unfold sees
  cases c.rest.head? <;> simp

/-- More kinds are seen too. -/
theorem sees_mono {c : Cursor} {kinds others : List TokenKind} (h : c.sees kinds)
    (hsub : ∀ k ∈ kinds, k ∈ others) : c.sees others := by
  unfold sees at h ⊢
  rw [Option.any_eq_true] at h ⊢
  obtain ⟨t, ht, hmem⟩ := h
  exact ⟨t, ht, by simpa using hsub _ (by simpa using hmem)⟩

/-- None of no kinds is seen. -/
theorem sees_nil (c : Cursor) : c.sees [] = false := by
  unfold sees
  cases c.rest.head? <;> rfl

end Cursor

/-- The order of kinds in an error is that of their declaration. -/
theorem TokenKind.sort_congr {kinds others : List TokenKind} (h : ∀ k, k ∈ kinds ↔ k ∈ others) :
    TokenKind.sort kinds = TokenKind.sort others := by
  unfold TokenKind.sort
  congr 1
  funext k
  rw [Bool.eq_iff_iff, List.contains_iff_mem, List.contains_iff_mem, h]

/-- Sorting keeps the kinds. -/
theorem TokenKind.mem_sort {kinds : List TokenKind} {k : TokenKind} :
    k ∈ TokenKind.sort kinds ↔ k ∈ kinds := by
  rw [TokenKind.sort, List.mem_filter, List.contains_iff_mem]
  exact and_iff_right k.mem_all

/-- The next token of a cursor that sees some kinds is of one of them. -/
theorem Cursor.exists_of_sees {c : Cursor} {kinds : List TokenKind} (h : c.sees kinds) :
    ∃ t rest, c.rest = t :: rest ∧ t.token.kind ∈ kinds := by
  cases hrest : c.rest with
  | nil =>
    rw [Cursor.sees, hrest] at h
    cases h
  | cons t rest =>
    rw [Cursor.sees, hrest] at h
    exact ⟨t, rest, rfl, List.contains_iff_mem.mp h⟩

/-- Induction on the tokens that are left. -/
theorem Cursor.induction_on_rest {motive : Cursor → Prop}
    (step : ∀ c, (∀ c' : Cursor, c'.rest.length < c.rest.length → motive c') → motive c) (c : Cursor) :
    motive c := by
  induction hlength : c.rest.length using Nat.strongRecOn generalizing c with
  | _ length ih => exact step c fun c' hlt => ih c'.rest.length (hlength ▸ hlt) c' rfl

/-- Where a kind is seen there is a token. -/
theorem Cursor.rest_ne_nil_of_sees {c : Cursor} {kinds : List TokenKind} (h : c.sees kinds) :
    c.rest ≠ [] := by
  obtain ⟨t, rest, hrest, -⟩ := c.exists_of_sees h
  exact hrest ▸ List.cons_ne_nil t rest

namespace Rule

variable {s t : Bool} {α β : Type}

/-! ### Repetitions -/

section Iterate

variable {body : Rule true (Step α)}

/-- A round that gives a value has passed over a token. -/
theorem length_lt_of_run {r : Rule true α} {c c' : Cursor} {x : α} (h : r.run c = .ok x c') :
    c'.rest.length < c.rest.length := by
  obtain ⟨ts, hpasses, hreads⟩ := reads_of_run h
  have hpos : 0 < ts.length := List.length_pos_iff.mpr (ne_nil_of_reads rfl hreads)
  rw [hpasses.rest, List.length_append]
  omega

/-- It does not matter how many rounds there can be, as long as there can be one for each token. -/
theorem iterateRounds_eq {first : List TokenKind} {ahead more : List LocatedToken} {c : Cursor}
    (hahead : c.rest.length ≤ ahead.length) (hmore : c.rest.length ≤ more.length) :
    iterateRounds first body.run ahead c = iterateRounds first body.run more c := by
  induction ahead generalizing c more with
  | nil =>
    have hnil : c.rest = [] := List.eq_nil_of_length_eq_zero (Nat.le_zero.mp hahead)
    have hsees : c.sees first = false := by rw [Cursor.sees, hnil, List.head?_nil, Option.any_none]
    cases more with
    | nil => rfl
    | cons u more => rw [iterateRounds, iterateRounds, if_neg (Bool.eq_false_iff.mp hsees)]
  | cons t ahead ih =>
    cases more with
    | nil =>
      have hnil : c.rest = [] := List.eq_nil_of_length_eq_zero (Nat.le_zero.mp hmore)
      have hsees : c.sees first = false := by rw [Cursor.sees, hnil, List.head?_nil, Option.any_none]
      rw [iterateRounds, iterateRounds, if_neg (Bool.eq_false_iff.mp hsees)]
    | cons u more =>
      rw [iterateRounds, iterateRounds]
      cases hrun : body.run c with
      | failed fault c' => rfl
      | ok value c' =>
        cases value with
        | last a => rfl
        | more a =>
          have hlt := length_lt_of_run hrun
          have hahead' : c'.rest.length ≤ ahead.length :=
            Nat.lt_succ_iff.mp (Nat.lt_of_lt_of_le hlt hahead)
          have hmore' : c'.rest.length ≤ more.length := Nat.lt_succ_iff.mp (Nat.lt_of_lt_of_le hlt hmore)
          simp only [Outcome.bind]
          rw [ih hahead' hmore']

/-- A repetition is a round and what follows it. -/
theorem run_iterate (body : Rule true (Step α)) (c : Cursor) :
    (iterate body).run c =
      if c.sees body.first then
        (body.run c).bind fun value c' =>
          match value with
          | .last a => .ok [a] c'
          | .more a => ((iterate body).run c').map (a :: ·)
      else .ok [] (c.miss body.first) := by
  rw [run]
  cases hrest : c.rest with
  | nil =>
    have hsees : c.sees body.first = false := by rw [Cursor.sees, hrest, List.head?_nil, Option.any_none]
    rw [iterateRounds, if_neg (Bool.eq_false_iff.mp hsees)]
  | cons t rest =>
    rw [iterateRounds]
    cases hrun : body.run c with
    | failed fault c' => rfl
    | ok value c' =>
      cases value with
      | last a => rfl
      | more a =>
        have hlt := length_lt_of_run hrun
        rw [hrest, List.length_cons] at hlt
        simp only [Outcome.bind]
        rw [run, iterateRounds_eq (Nat.lt_succ_iff.mp hlt) (Nat.le_refl c'.rest.length)]

/-- Induction on the rounds of a repetition. -/
theorem iterate_induction {motive : Cursor → Outcome (List α) → Prop}
    (stop : ∀ c, c.sees body.first = false → motive c (.ok [] (c.miss body.first)))
    (failed : ∀ c fault c', c.sees body.first → body.run c = .failed fault c' →
      motive c (.failed fault c'))
    (last : ∀ c a c', c.sees body.first → body.run c = .ok (.last a) c' → motive c (.ok [a] c'))
    (more : ∀ c a c', c.sees body.first → body.run c = .ok (.more a) c' →
      motive c' ((iterate body).run c') → motive c (((iterate body).run c').map (a :: ·)))
    (c : Cursor) : motive c ((iterate body).run c) := by
  induction c using Cursor.induction_on_rest with
  | step c ih =>
    rw [run_iterate]
    by_cases hsees : c.sees body.first
    · rw [if_pos hsees]
      cases hrun : body.run c with
      | failed fault c' => exact failed c fault c' hsees hrun
      | ok value c' =>
        cases value with
        | last a => exact last c a c' hsees hrun
        | more a => exact more c a c' hsees hrun (ih c' (length_lt_of_run hrun))
    · rw [if_neg hsees]
      exact stop c (Bool.eq_false_iff.mpr hsees)

end Iterate

/-! ### Moving on -/

/-- **A run only moves on.** -/
theorem rest_suffix_of_run (r : Rule s α) (c : Cursor) : (r.run c).cursor.rest <:+ c.rest := by
  induction r generalizing c with
  | nothing value => exact List.suffix_rfl
  | token kind =>
    unfold run
    split
    case h_1 t rest hrest =>
      split
      · rw [hrest]
        exact List.suffix_cons t rest
      · exact List.suffix_rfl
    case h_2 => exact List.suffix_rfl
  | seq a b iha ihb =>
    refine Outcome.rest_suffix_bind (iha c) fun x c' => ?_
    rw [Outcome.cursor_map]
    exact ihb c'
  | choice a b iha ihb =>
    rw [run]
    split
    · exact iha c
    · exact ihb (c.miss a.first)
  | iterate body ih =>
    have hround : ∀ {c o}, body.run c = o → o.cursor.rest <:+ c.rest := fun hrun => hrun ▸ ih _
    induction c using @iterate_induction _ body with
    | stop c => exact List.suffix_rfl
    | failed c fault c' _ hrun => exact hround hrun
    | last c a c' _ hrun => exact hround hrun
    | more c a c' _ hrun hmore =>
      rw [Outcome.cursor_map]
      exact hmore.trans (hround hrun)
  | map f rule ih =>
    rw [run, Outcome.cursor_map]
    exact ih c
  | ranged f rule ih => exact Outcome.rest_suffix_bind (ih c) fun x c' => List.suffix_rfl
  | tooDeep limit kinds =>
    rw [run]
    split <;> exact List.suffix_rfl

/-! ### Staying in place -/

/-- The value that a rule gives without reading a token, if it gives one. -/
def idle : {s : Bool} → {α : Type} → Rule s α → Option α
  | _, _, nothing value => some value
  | _, _, token _ => none
  | _, _, seq a b => a.idle.bind fun x => b.idle.map (x, ·)
  | _, _, choice _ b => b.idle
  | _, _, iterate _ => some []
  | _, _, map f rule => rule.idle.map f
  | _, _, ranged _ _ => none
  | _, _, tooDeep _ _ => none

/-- Just the rules that always consume a token give no value without one. -/
theorem idle_eq_none_iff {r : Rule s α} : r.idle = none ↔ s = true := by
  induction r with
  | seq a b iha ihb =>
    rw [Bool.or_eq_true, ← iha, ← ihb, idle]
    cases a.idle <;> cases b.idle <;> simp
  | choice a b iha ihb => exact ihb
  | map f rule ih => rw [← ih, idle, Option.map_eq_none_iff]
  | _ => simp [idle]

/-- What a run comes to that has stayed at `c` and looked for the kinds `tried` there. -/
def stayed (r : Rule s α) (c : Cursor) (tried left : List TokenKind) : Outcome α :=
  r.idle.elim (.failed (.unexpected (TokenKind.sort tried)) (c.withTried left))
    (.ok · (c.withTried tried))

/-- A token that is not seen is missed. -/
theorem run_token_of_not_sees {kind : TokenKind} {c : Cursor} (h : c.sees [kind] = false) :
    (token kind).run c = .failed (c.miss [kind]).unexpected c := by
  rw [run]
  cases hrest : c.rest with
  | nil => rfl
  | cons t rest =>
    have hne : t.token.kind ≠ kind := by simpa [Cursor.sees, hrest] using h
    simp only [if_neg hne]

/-- Where a token is missing nothing is passed over. -/
theorem eq_of_token_failed {kind : TokenKind} {c d : Cursor} {fault : Fault}
    (h : (token kind).run c = .failed fault d) : c = d := by
  cases hsees : c.sees [kind] with
  | false =>
    rw [run_token_of_not_sees hsees] at h
    cases h
    rfl
  | true =>
    obtain ⟨u, rest, hrest, hkind⟩ := Cursor.exists_of_sees hsees
    rw [run, hrest] at h
    simp only [List.mem_singleton.mp hkind, if_true] at h
    cases h

/-- Behind a token nothing has been looked for yet. -/
theorem tried_of_run_token {kind : TokenKind} {t : LocatedToken} {c d : Cursor}
    (h : (token kind).run c = .ok t d) : d.tried = [] := by
  rw [run] at h
  split at h
  · split at h
    · cases h
      rfl
    · cases h
  · cases h

/-- Where the first rule cannot start, a choice is the second one. -/
theorem run_choice_of_not_sees {a : Rule true α} {b : Rule t α} {c : Cursor} (h : ¬c.sees a.first) :
    (choice a b).run c = b.run (c.miss a.first) := by
  rw [run, if_neg h]

/-- **A run stays in place where its rule cannot start with the next token.** -/
theorem run_of_not_sees (r : Rule s α) {c : Cursor} (h : c.sees r.first = false) :
    ∃ tried left, (∀ k, k ∈ tried ↔ k ∈ r.first ∨ k ∈ c.tried) ∧ r.run c = r.stayed c tried left := by
  induction r generalizing c with
  | nothing value => exact ⟨c.tried, [], by simp [first], rfl⟩
  | token kind =>
    refine ⟨kind :: c.tried, c.tried, by simp [first], ?_⟩
    rw [run_token_of_not_sees h]
    rfl
  | @seq s t _ _ a b iha ihb =>
    cases hidle : a.idle with
    | none =>
      obtain rfl := idle_eq_none_iff.mp hidle
      obtain ⟨tried, left, htried, hrun⟩ := iha h
      refine ⟨tried, left, htried, ?_⟩
      rw [run, hrun, stayed, stayed, idle, hidle]
      rfl
    | some x =>
      have hs : s = false := Bool.eq_false_iff.mpr fun hs => by simp [idle_eq_none_iff.mpr hs] at hidle
      subst hs
      rw [first, if_neg Bool.false_ne_true, Cursor.sees_append, Bool.or_eq_false_iff] at h
      obtain ⟨tried, left, htried, hrun⟩ := iha h.1
      obtain ⟨tried', left', htried', hrun'⟩ := ihb (c := c.withTried tried) h.2
      refine ⟨tried', left', fun k => ?_, ?_⟩
      · rw [htried', Cursor.withTried, htried, first, if_neg Bool.false_ne_true, List.mem_append,
          or_assoc]
        exact or_left_comm
      · rw [run, hrun, stayed, hidle, Option.elim, Outcome.bind, hrun', stayed, stayed, idle, hidle]
        cases b.idle <;> rfl
  | choice a b iha ihb =>
    rw [first, Cursor.sees_append, Bool.or_eq_false_iff] at h
    obtain ⟨tried, left, htried, hrun⟩ := ihb (c := c.miss a.first) h.2
    refine ⟨tried, left, fun k => ?_, ?_⟩
    · rw [htried, Cursor.miss, first, List.mem_append, List.mem_append, or_assoc]
      exact or_left_comm
    · rw [run, if_neg (Bool.eq_false_iff.mp h.1), hrun]
      rfl
  | iterate body ih =>
    refine ⟨body.first ++ c.tried, [], fun k => List.mem_append, ?_⟩
    rw [run_iterate, if_neg (Bool.eq_false_iff.mp h : ¬c.sees body.first)]
    rfl
  | map f rule ih =>
    obtain ⟨tried, left, htried, hrun⟩ := ih h
    refine ⟨tried, left, htried, ?_⟩
    rw [run, hrun, stayed, stayed, idle]
    cases rule.idle <;> rfl
  | ranged f rule ih =>
    obtain ⟨tried, left, htried, hrun⟩ := ih h
    refine ⟨tried, left, htried, ?_⟩
    rw [run, hrun, stayed, idle_eq_none_iff.mpr rfl]
    rfl
  | tooDeep limit kinds =>
    refine ⟨kinds ++ c.tried, c.tried, fun k => List.mem_append, ?_⟩
    rw [run, if_neg (Bool.eq_false_iff.mp h : ¬c.sees kinds)]
    rfl

/-- A rule that always consumes a token fails where it cannot start with the next one. -/
theorem failed_of_not_sees (r : Rule true α) {c : Cursor} (h : c.sees r.first = false) :
    ∃ left, r.run c = .failed (c.miss r.first).unexpected (c.withTried left) := by
  obtain ⟨tried, left, htried, hrun⟩ := run_of_not_sees r h
  refine ⟨left, ?_⟩
  rw [hrun, stayed, idle_eq_none_iff.mpr rfl, Option.elim,
    TokenKind.sort_congr fun k => (htried k).trans List.mem_append.symm]
  rfl

/-- A rule that need not consume a token gives its value without one where it cannot start with the
next. -/
theorem ok_of_not_sees (r : Rule false α) {c : Cursor} (h : c.sees r.first = false) :
    ∃ x tried, r.idle = some x ∧ (∀ k, k ∈ tried ↔ k ∈ r.first ∨ k ∈ c.tried) ∧
      r.run c = .ok x (c.withTried tried) := by
  obtain ⟨tried, left, htried, hrun⟩ := run_of_not_sees r h
  cases hidle : r.idle with
  | none => exact absurd (idle_eq_none_iff.mp hidle) Bool.false_ne_true
  | some x =>
    rw [stayed, hidle] at hrun
    exact ⟨x, tried, rfl, htried, hrun⟩

/-! ### Passing over the next token -/

/-- Whether a rule does not start with the refusal of a bracket. -/
def shallow : {s : Bool} → {α : Type} → Rule s α → Bool
  | _, _, nothing _ => true
  | _, _, token _ => true
  | _, _, seq (s := s) a b => a.shallow && (s || b.shallow)
  | _, _, choice a b => a.shallow && b.shallow
  | _, _, iterate body => body.shallow
  | _, _, map _ rule => rule.shallow
  | _, _, ranged _ rule => rule.shallow
  | _, _, tooDeep _ _ => false

/-- **A run passes over a token that its rule can start with**, or else the rule starts with the refusal
of a bracket and refuses it. -/
theorem passes_or_refuses (r : Rule s α) {c : Cursor} (h : c.sees r.first) :
    (r.run c).cursor.rest <:+ c.rest.tail ∨
      r.shallow = false ∧ (r.run c).fault.nestingLimit? ≠ none := by
  induction r generalizing c with
  | nothing value =>
    rw [first, Cursor.sees_nil] at h
    cases h
  | token kind =>
    left
    obtain ⟨t, rest, hrest, hkind⟩ := Cursor.exists_of_sees h
    rw [run, hrest]
    simp only [if_pos (List.mem_singleton.mp hkind)]
    exact List.suffix_rfl
  | @seq s t _ _ a b iha ihb =>
    have hpast : c.sees a.first → ((seq a b).run c).cursor.rest <:+ c.rest.tail ∨
        (seq a b).shallow = false ∧ ((seq a b).run c).fault.nestingLimit? ≠ none := by
      intro hsees
      rcases iha hsees with hsuffix | ⟨hshallow, hrefused⟩
      · left
        refine Outcome.rest_suffix_bind hsuffix fun x c' => ?_
        rw [Outcome.cursor_map]
        exact rest_suffix_of_run b c'
      · right
        rw [shallow, hshallow, Bool.false_and, run, Outcome.fault_bind_of_refused hrefused]
        exact ⟨rfl, hrefused⟩
    cases s with
    | true => exact hpast h
    | false =>
      by_cases hsees : c.sees a.first
      · exact hpast hsees
      · rw [first, if_neg Bool.false_ne_true, Cursor.sees_append, Bool.eq_false_iff.mpr hsees,
          Bool.false_or] at h
        obtain ⟨x, tried, -, -, hrun⟩ := ok_of_not_sees a (Bool.eq_false_iff.mpr hsees)
        rw [run, hrun, Outcome.bind, Outcome.cursor_map, Outcome.fault_map, shallow, Bool.false_or]
        refine (ihb (c := c.withTried tried) h).imp_right fun ⟨hshallow, hrefused⟩ => ?_
        exact ⟨by rw [hshallow, Bool.and_false], hrefused⟩
  | choice a b iha ihb =>
    rw [run, shallow]
    split
    · rename_i hsees
      refine (iha hsees).imp_right fun ⟨hshallow, hrefused⟩ => ?_
      exact ⟨by rw [hshallow, Bool.false_and], hrefused⟩
    · rename_i hsees
      rw [first, Cursor.sees_append, Bool.eq_false_iff.mpr hsees, Bool.false_or] at h
      refine (ihb (c := c.miss a.first) h).imp_right fun ⟨hshallow, hrefused⟩ => ?_
      exact ⟨by rw [hshallow, Bool.and_false], hrefused⟩
  | iterate body ih =>
    have hsees : c.sees body.first := h
    rw [run_iterate, if_pos hsees]
    rcases ih h with hsuffix | ⟨hshallow, hrefused⟩
    · left
      refine Outcome.rest_suffix_bind hsuffix fun value c' => ?_
      cases value with
      | last a => exact List.suffix_rfl
      | more a =>
        rw [Outcome.cursor_map]
        exact rest_suffix_of_run (iterate body) c'
    · right
      rw [Outcome.fault_bind_of_refused hrefused]
      exact ⟨hshallow, hrefused⟩
  | map f rule ih =>
    rw [run, Outcome.cursor_map, Outcome.fault_map]
    exact ih h
  | ranged f rule ih =>
    rcases ih h with hsuffix | ⟨hshallow, hrefused⟩
    · exact .inl (Outcome.rest_suffix_bind hsuffix fun x c' => List.suffix_rfl)
    · right
      rw [run, Outcome.fault_bind_of_refused hrefused]
      exact ⟨hshallow, hrefused⟩
  | tooDeep limit kinds =>
    right
    have hsees : c.sees kinds := h
    rw [run, if_pos hsees]
    exact ⟨rfl, Option.some_ne_none limit⟩

/-- A run passes over a token that its rule can start with, if it does not start with a refusal. -/
theorem rest_suffix_tail_of_run {r : Rule s α} (hr : r.shallow) {c : Cursor} (h : c.sees r.first) :
    (r.run c).cursor.rest <:+ c.rest.tail := by
  refine (passes_or_refuses r h).resolve_right fun ⟨hshallow, _⟩ => ?_
  rw [hr] at hshallow
  cases hshallow

/-- **A run that stays in its place**, and refuses no bracket there, cannot start with the next
token. What it lists as expected are the kinds that its rule can start with, and those that were
looked for before. -/
theorem not_sees_of_stays {r : Rule s α} {c : Cursor} (hstays : (r.run c).cursor.rest = c.rest)
    (hunrefused : (r.run c).fault.nestingLimit? = none) :
    c.sees r.first = false ∧ ∀ k, k ∈ (r.run c).fault.expected ↔ k ∈ r.first ∨ k ∈ c.tried := by
  have hunseen : c.sees r.first = false := by
    refine Bool.eq_false_iff.mpr fun hsees => ?_
    obtain ⟨t, rest, hrest, -⟩ := Cursor.exists_of_sees hsees
    have hsuffix := (passes_or_refuses r hsees).resolve_right fun h => h.2 hunrefused
    have hle := hsuffix.length_le
    rw [hstays, hrest, List.tail_cons, List.length_cons] at hle
    omega
  refine ⟨hunseen, fun k => ?_⟩
  obtain ⟨tried, left, htried, hrun⟩ := run_of_not_sees r hunseen
  rw [hrun, ← htried, stayed]
  cases r.idle <;> exact TokenKind.mem_sort

/-- A rule whose start is seen passes over a token, unless it refuses a bracket. -/
theorem length_lt_of_sees {r : Rule s α} (hr : r.shallow) {c : Cursor} (h : c.sees r.first) :
    (r.run c).cursor.rest.length < c.rest.length := by
  have hle := (rest_suffix_tail_of_run hr h).length_le
  obtain ⟨t, rest, hrest, -⟩ := Cursor.exists_of_sees h
  rw [hrest] at hle ⊢
  exact Nat.lt_succ_iff.mpr hle

/-- **What was looked for before makes no difference** to a run that passes over the next token. -/
theorem run_withTried {r : Rule s α} (hr : r.shallow) {c : Cursor} (h : c.sees r.first)
    (tried : List TokenKind) : r.run (c.withTried tried) = r.run c := by
  induction r generalizing c tried with
  | nothing value =>
    rw [first, Cursor.sees_nil] at h
    cases h
  | token kind =>
    obtain ⟨t, rest, hrest, hkind⟩ := Cursor.exists_of_sees h
    rw [run, run]
    simp only [Cursor.withTried, hrest, if_pos (List.mem_singleton.mp hkind)]
  | @seq s t _ _ a b iha ihb =>
    rw [shallow, Bool.and_eq_true, Bool.or_eq_true] at hr
    have hpast : c.sees a.first → (seq a b).run (c.withTried tried) = (seq a b).run c := by
      intro hsees
      rw [run, run, iha hr.1 hsees]
    cases s with
    | true => exact hpast h
    | false =>
      by_cases hsees : c.sees a.first
      · exact hpast hsees
      · rw [first, if_neg Bool.false_ne_true, Cursor.sees_append, Bool.eq_false_iff.mpr hsees,
          Bool.false_or] at h
        have hb := hr.2.resolve_left Bool.false_ne_true
        have hunseen := Bool.eq_false_iff.mpr hsees
        obtain ⟨x, left, hx, -, hrun⟩ := ok_of_not_sees a hunseen
        obtain ⟨y, left', hy, -, hrun'⟩ := ok_of_not_sees a (c := c.withTried tried) hunseen
        obtain rfl : x = y := Option.some.inj (hx.symm.trans hy)
        have hsame : b.run ((c.withTried tried).withTried left') = b.run (c.withTried left) :=
          (ihb hb h left').trans (ihb hb h left).symm
        rw [run, run, hrun, hrun', Outcome.bind, Outcome.bind, hsame]
  | choice a b iha ihb =>
    rw [shallow, Bool.and_eq_true] at hr
    have hsame : (c.withTried tried).sees a.first = c.sees a.first := rfl
    rw [run, run, hsame]
    split
    · rename_i hsees
      exact iha hr.1 hsees tried
    · rename_i hsees
      rw [first, Cursor.sees_append, Bool.eq_false_iff.mpr hsees, Bool.false_or] at h
      exact ihb hr.2 (c := c.miss a.first) h (a.first ++ tried)
  | iterate body ih =>
    have hsees : c.sees body.first := h
    have hsees' : (c.withTried tried).sees body.first := h
    rw [run_iterate, run_iterate, if_pos hsees, if_pos hsees', ih hr h tried]
  | map f rule ih => rw [run, run, ih hr h tried]
  | ranged f rule ih =>
    rw [run, run, ih hr h tried]
    rfl
  | tooDeep limit kinds => cases hr

/-- The order in which kinds were looked for makes no difference to a run, but for what it leaves behind
when it fails in its place. -/
theorem run_congr_tried {r : Rule true α} (hr : r.shallow) (c : Cursor) {tried tried' : List TokenKind}
    (h : ∀ k, k ∈ tried ↔ k ∈ tried') :
    r.run (c.withTried tried) = r.run (c.withTried tried') ∨
      ∃ fault left left', r.run (c.withTried tried) = .failed fault (c.withTried left) ∧
        r.run (c.withTried tried') = .failed fault (c.withTried left') := by
  by_cases hsees : c.sees r.first
  · exact .inl ((run_withTried hr hsees tried).trans (run_withTried hr hsees tried').symm)
  · have hunseen := Bool.eq_false_iff.mpr hsees
    obtain ⟨left, hrun⟩ := failed_of_not_sees r (c := c.withTried tried) hunseen
    obtain ⟨left', hrun'⟩ := failed_of_not_sees r (c := c.withTried tried') hunseen
    have hsort : TokenKind.sort (r.first ++ tried) = TokenKind.sort (r.first ++ tried') :=
      TokenKind.sort_congr fun k => by rw [List.mem_append, List.mem_append, h]
    refine .inr ⟨.unexpected (TokenKind.sort (r.first ++ tried)), left, left', hrun, ?_⟩
    rw [hrun', hsort]
    rfl

end Rule

end GrammarFile
