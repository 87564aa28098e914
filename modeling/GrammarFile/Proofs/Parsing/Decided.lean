import GrammarFile.Proofs.Parsing.FirstToken

/-!
# One token decides

Running a rule looks at one token to choose between two rules, to begin another round or to end. That
finds every reading if the choices are between different kinds: `Rule.decided` checks that the two sides
of each choice start differently, and that nothing can start where something before it could have gone
on. `Rule.extensions` lists those last kinds.

For such a rule reading and running are the same thing, as long as the token after the reading is none
the rule could have gone on with (`run_of_reads`). So there is at most one reading of given tokens
(`reads_unique`), and running the rule tells whether there is one (`exists_reads_iff`).
-/

namespace GrammarFile

/-- Whether the next of some tokens, if there is one, is of none of the given kinds. -/
def Avoids (rest : List LocatedToken) (kinds : List TokenKind) : Prop :=
  ∀ t, rest.head? = some t → t.token.kind ∉ kinds

namespace Avoids

variable {ts rest : List LocatedToken} {kinds others : List TokenKind}

/-- At the end there is no next token to avoid. -/
theorem nil : Avoids [] kinds :=
  nofun

/-- Fewer kinds are avoided too. -/
theorem mono (h : Avoids rest kinds) (hsub : ∀ k ∈ others, k ∈ kinds) : Avoids rest others :=
  fun t ht hmem => h t ht (hsub _ hmem)

/-- A cursor does not see what the tokens from there on avoid. -/
theorem not_sees {c : Cursor} (h : Avoids c.rest kinds) : c.sees kinds = false := by
  unfold Cursor.sees
  cases hc : c.rest.head? with
  | none => rfl
  | some t => simpa using h t hc

/-- Tokens put in front are avoided if their first one is, and where there are none the rest is. -/
theorem append (hts : Avoids ts kinds) (hrest : ts = [] → Avoids rest kinds) :
    Avoids (ts ++ rest) kinds := by
  cases ts with
  | nil => exact hrest rfl
  | cons t ts => exact hts

end Avoids

/-- A cursor sees a kind that the next token is of. -/
theorem sees_of_head? {c : Cursor} {t : LocatedToken} {kinds : List TokenKind}
    (ht : c.rest.head? = some t) (hmem : t.token.kind ∈ kinds) : c.sees kinds := by
  unfold Cursor.sees
  rw [ht]
  simpa using hmem

/-- Tokens ahead for a part and what follows it are one token, and others enough for what follows. -/
theorem exists_cons_of_length_append {ts : List LocatedToken} (hts : ts ≠ [])
    {us ahead : List LocatedToken}
    (h : (ts ++ us).length ≤ ahead.length) : ∃ a more, ahead = a :: more ∧ us.length ≤ more.length := by
  have hpos : 0 < ts.length := List.length_pos_iff.mpr hts
  rw [List.length_append] at h
  cases ahead with
  | nil =>
    rw [List.length_nil] at h
    omega
  | cons a more =>
    rw [List.length_cons] at h
    exact ⟨a, more, rfl, by omega⟩

namespace Rule

/-- The kinds of the tokens that a rule could have gone on with after some of its readings. -/
def extensions : {s : Bool} → {α : Type} → Rule s α → List TokenKind
  | _, _, nothing _ => []
  | _, _, token _ => []
  | _, _, seq (t := t) a b => b.extensions ++ if t then [] else a.extensions
  | _, _, choice (t := t) a b => (a.extensions ++ b.extensions) ++ if t then [] else a.first
  | _, _, iterate body => body.first ++ body.extensions
  | _, _, map _ rule => rule.extensions
  | _, _, ranged _ rule => rule.extensions
  | _, _, tooDeep _ _ => []

/-- What a run with a value leaves as looked for in vain are kinds that its rule could have gone on with.
Only where it has passed over no token there may be others, which were looked for before. -/
theorem mem_extensions_of_run {s : Bool} {α : Type} {r : Rule s α} {c c' : Cursor} {x : α}
    (h : r.run c = .ok x c') {k : TokenKind} (hk : k ∈ c'.tried) :
    k ∈ r.extensions ∨ c'.rest = c.rest ∧ k ∈ c.tried := by
  induction r generalizing c c' with
  | nothing value =>
    cases h
    exact .inr ⟨rfl, hk⟩
  | token kind =>
    unfold run at h
    split at h
    case h_1 t rest hrest =>
      split at h
      · cases h
        exact absurd hk List.not_mem_nil
      · cases h
    case h_2 => cases h
  | @seq _ t _ _ a b iha ihb =>
    unfold run at h
    obtain ⟨y, d, hy, h⟩ := Outcome.bind_eq_ok h
    obtain ⟨z, hz, rfl⟩ := Outcome.map_eq_ok h
    rcases ihb hz hk with hk | ⟨hrest, hk⟩
    · exact .inl (List.mem_append_left _ hk)
    · -- the second rule has passed over no token, so it is none that always does
      have ht : t ≠ true := by
        rintro rfl
        exact absurd (length_lt_of_run hz) (by rw [hrest]; exact Nat.lt_irrefl _)
      rcases iha hy hk with hk | ⟨hrest', hk⟩
      · left
        rw [extensions, if_neg ht]
        exact List.mem_append_right _ hk
      · exact .inr ⟨hrest.trans hrest', hk⟩
  | @choice t _ a b iha ihb =>
    unfold run at h
    split at h
    · exact (iha h hk).imp_left fun hk => List.mem_append_left _ (List.mem_append_left _ hk)
    · rcases ihb h hk with hk | ⟨hrest, hk⟩
      · exact .inl (List.mem_append_left _ (List.mem_append_right _ hk))
      rcases List.mem_append.mp hk with hk | hk
      · have ht : t ≠ true := by
          rintro rfl
          exact absurd (length_lt_of_run h) (by rw [hrest]; exact Nat.lt_irrefl _)
        left
        rw [extensions, if_neg ht]
        exact List.mem_append_right _ hk
      · exact .inr ⟨hrest, hk⟩
  | iterate body ih =>
    -- every round leaves fewer tokens
    induction c using Cursor.induction_on_rest generalizing x with
    | step c hrounds =>
      rw [run_iterate] at h
      split at h
      · obtain ⟨value, d, hvalue, h⟩ := Outcome.bind_eq_ok h
        cases value with
        | last a =>
          cases h
          exact (ih hvalue hk).imp_left fun hk => List.mem_append_right _ hk
        | more a =>
          obtain ⟨as, has, rfl⟩ := Outcome.map_eq_ok h
          rcases hrounds d (length_lt_of_run hvalue) has with hk | ⟨hrest, hk⟩
          · exact .inl hk
          · refine (ih hvalue hk).imp (fun hk => List.mem_append_right _ hk) ?_
            exact fun ⟨hrest', hk⟩ => ⟨hrest.trans hrest', hk⟩
      · cases h
        rcases List.mem_append.mp hk with hk | hk
        · exact .inl (List.mem_append_left _ hk)
        · exact .inr ⟨rfl, hk⟩
  | map f rule ih =>
    unfold run at h
    obtain ⟨y, hy, rfl⟩ := Outcome.map_eq_ok h
    exact ih hy hk
  | ranged f rule ih =>
    unfold run at h
    obtain ⟨y, d, hy, h⟩ := Outcome.bind_eq_ok h
    cases h
    exact ih hy hk
  | tooDeep limit kinds =>
    unfold run at h
    split at h <;> cases h

/-- Whether two lists of kinds have none in common. -/
def apart (kinds others : List TokenKind) : Bool :=
  kinds.all fun k => !others.contains k

/-- A kind is not in both of two lists that are apart. -/
theorem not_mem_of_apart {kinds others : List TokenKind} (h : apart kinds others) {k : TokenKind}
    (hk : k ∈ kinds) : k ∉ others := by
  simpa using List.all_eq_true.mp h k hk

/-- Whether the kind of the next token settles every choice of a rule. -/
def decided : {s : Bool} → {α : Type} → Rule s α → Bool
  | _, _, nothing _ => true
  | _, _, token _ => true
  | _, _, seq a b => a.decided && b.decided && apart b.first a.extensions
  | _, _, choice a b => a.decided && b.decided && apart b.first a.first
  | _, _, iterate body => body.decided && apart body.first body.extensions
  | _, _, map _ rule => rule.decided
  | _, _, ranged _ rule => rule.decided
  | _, _, tooDeep _ _ => true

/-! ### Running a decided rule -/

/-- What a rule reads avoids the kinds that lie apart from those it starts with. -/
theorem avoids_of_reads {s : Bool} {α : Type} {r : Rule s α} {ts : List LocatedToken} {x : α}
    (h : r.Reads ts x) {kinds : List TokenKind} (hkinds : apart r.first kinds) : Avoids ts kinds :=
  fun _ ht => not_mem_of_apart hkinds (kind_mem_first_of_reads h ht)

/-- What a rule that always consumes a token reads is seen to start with one of its kinds. -/
theorem sees_of_reads {α : Type} {r : Rule true α} {ts rest : List LocatedToken} {x : α}
    (h : r.Reads ts x) {c : Cursor} (hc : c.rest = ts ++ rest) : c.sees r.first := by
  cases ts with
  | nil => exact absurd rfl (ne_nil_of_reads rfl h)
  | cons t ts => exact sees_of_head? (hc ▸ rfl) (kind_mem_first_of_reads h rfl)

/-- A run passes over some tokens, gives a value and stops in front of the rest. -/
def RunsTo {α : Type} (run : Cursor → Outcome α) (ts rest : List LocatedToken) (x : α) : Prop :=
  ∀ c : Cursor, c.rest = ts ++ rest → ∃ tried, run c = .ok x ⟨rest, lastRange c.last ts, tried⟩

/-- Rounds of readings are found round by round, with tokens enough ahead. -/
theorem iterateRounds_of_rounds {α : Type} {body : Rule true (Step α)}
    (hbody : ∀ {ts rest x}, body.Reads ts x → Avoids rest body.extensions → RunsTo body.run ts rest x)
    (hapart : apart body.first body.extensions) {ts rest : List LocatedToken} {xs : List α}
    (h : Rounds body.Reads ts xs) (hrest : Avoids rest (body.first ++ body.extensions))
    (ahead : List LocatedToken) (hahead : ts.length ≤ ahead.length) :
    RunsTo (iterateRounds body.first body.run ahead) ts rest xs := by
  have hfirst : Avoids rest body.first := hrest.mono fun _ => List.mem_append_left _
  have hextensions : Avoids rest body.extensions := hrest.mono fun _ => List.mem_append_right _
  induction h generalizing ahead with
  | done =>
    intro c hc
    have hsees : c.sees body.first = false := (hc ▸ hfirst : Avoids c.rest body.first).not_sees
    have hcursor : c.miss body.first = ⟨rest, c.last, (c.miss body.first).tried⟩ := by
      rw [← show c.rest = rest from hc]
      rfl
    refine ⟨(c.miss body.first).tried, ?_⟩
    cases ahead with
    | nil => rw [iterateRounds, hcursor, lastRange]
    | cons _ ahead => rw [iterateRounds, hsees, if_neg Bool.false_ne_true, hcursor, lastRange]
  | @last ts a hts =>
    intro c hc
    obtain ⟨tried, hrun⟩ := hbody hts hextensions c hc
    obtain ⟨u, ahead, rfl, -⟩ :=
      exists_cons_of_length_append (ne_nil_of_reads rfl hts) ((List.append_nil ts).symm ▸ hahead)
    refine ⟨tried, ?_⟩
    rw [iterateRounds, sees_of_reads hts hc, if_pos rfl, hrun]
    rfl
  | @more ts us a as hts hus ih =>
    intro c hc
    have hnext : Avoids (us ++ rest) body.extensions := by
      refine .append ?_ fun _ => hextensions
      exact avoids_of_reads (r := iterate body) hus hapart
    rw [List.append_assoc] at hc
    obtain ⟨tried, hrun⟩ := hbody hts hnext c hc
    obtain ⟨u, ahead, rfl, hlength⟩ := exists_cons_of_length_append (ne_nil_of_reads rfl hts) hahead
    obtain ⟨tried', hmore⟩ := ih ahead hlength ⟨us ++ rest, lastRange c.last ts, tried⟩ rfl
    refine ⟨tried', ?_⟩
    rw [iterateRounds, sees_of_reads hts hc, if_pos rfl, hrun, lastRange_append]
    simp only [Outcome.bind, hmore, Outcome.map]

namespace RunsTo

variable {s t : Bool} {α β : Type} {ts us rest : List LocatedToken}

/-- Runs in a row pass over the tokens of both. -/
theorem seq {a : Rule s α} {b : Rule t β} {x : α × β} (ha : RunsTo a.run ts (us ++ rest) x.1)
    (hb : RunsTo b.run us rest x.2) : RunsTo (Rule.seq a b).run (ts ++ us) rest x := by
  intro c hc
  rw [List.append_assoc] at hc
  obtain ⟨tried, hrun⟩ := ha c hc
  obtain ⟨tried', hrun'⟩ := hb ⟨us ++ rest, lastRange c.last ts, tried⟩ rfl
  refine ⟨tried', ?_⟩
  rw [run, hrun, lastRange_append]
  simp only [Outcome.bind, hrun', Outcome.map]

/-- The first rule of a choice is run where its readings start. -/
theorem left {a : Rule true α} {b : Rule t α} {x : α} (hx : a.Reads ts x) (h : RunsTo a.run ts rest x) :
    RunsTo (Rule.choice a b).run ts rest x := by
  intro c hc
  rw [run, sees_of_reads hx hc, if_pos rfl]
  exact h c hc

/-- The second rule of a choice is run where no reading of the first one starts. -/
theorem right {a : Rule true α} {b : Rule t α} {x : α} (havoids : Avoids (ts ++ rest) a.first)
    (h : RunsTo b.run ts rest x) : RunsTo (Rule.choice a b).run ts rest x := by
  intro c hc
  have hsees : c.sees a.first = false := (hc ▸ havoids : Avoids c.rest a.first).not_sees
  rw [run, hsees, if_neg Bool.false_ne_true]
  exact h (c.miss a.first) hc

/-- What is made of a value has no part in where a run goes. -/
theorem map {r : Rule s α} {x : α} (f : α → β) (h : RunsTo r.run ts rest x) :
    RunsTo (Rule.map f r).run ts rest (f x) := by
  intro c hc
  obtain ⟨tried, hrun⟩ := h c hc
  refine ⟨tried, ?_⟩
  rw [run, hrun, Outcome.map]

/-- A run over at least one token gives its value the range of the tokens. -/
theorem ranged {r : Rule true α} {x : α} (f : α → Range → β) (hne : ts ≠ [])
    (h : RunsTo r.run ts rest x) :
    RunsTo (Rule.ranged f r).run ts rest (f x (spanOf ts)) := by
  intro c hc
  obtain ⟨tried, hrun⟩ := h c hc
  refine ⟨tried, ?_⟩
  rw [run, hrun, Outcome.bind, hc]
  cases ts with
  | nil => exact absurd rfl hne
  | cons t ts => rfl

end RunsTo

/-- **A decided rule finds every reading.** It stops right behind it, as long as the rule could not have
gone on with the token there. -/
theorem run_of_reads {s : Bool} {α : Type} {r : Rule s α} (hr : r.decided)
    {ts rest : List LocatedToken} {x : α} (h : r.Reads ts x) (hrest : Avoids rest r.extensions) :
    RunsTo r.run ts rest x := by
  induction r generalizing ts rest with
  | nothing value =>
    obtain ⟨rfl, rfl⟩ := h
    rintro ⟨_, last, tried⟩ rfl
    exact ⟨tried, rfl⟩
  | token kind =>
    obtain ⟨rfl, hkind⟩ := h
    rintro ⟨_, last, tried⟩ rfl
    refine ⟨[], ?_⟩
    simp only [run, List.singleton_append, if_pos hkind]
    rfl
  | @seq _ t _ _ a b iha ihb =>
    simp only [decided, Bool.and_eq_true] at hr
    obtain ⟨⟨ha, hb⟩, hapart⟩ := hr
    obtain ⟨us, vs, rfl, hus, hvs⟩ := h
    -- the second rule starts differently from what the first one could have gone on with
    have hnext : Avoids (vs ++ rest) a.extensions := by
      refine .append (avoids_of_reads hvs hapart) fun hnil => ?_
      cases t with
      | true => exact absurd hnil (ne_nil_of_reads rfl hvs)
      | false => exact hrest.mono fun _ => List.mem_append_right _
    exact (iha ha hus hnext).seq (ihb hb hvs (hrest.mono fun _ => List.mem_append_left _))
  | @choice t _ a b iha ihb =>
    simp only [decided, Bool.and_eq_true] at hr
    obtain ⟨⟨ha, hb⟩, hapart⟩ := hr
    have hboth : Avoids rest (a.extensions ++ b.extensions) := hrest.mono fun _ => List.mem_append_left _
    rcases h with h | h
    · exact .left h (iha ha h (hboth.mono fun _ => List.mem_append_left _))
    · have havoids : Avoids (ts ++ rest) a.first := by
        refine .append (avoids_of_reads h hapart) fun hnil => ?_
        cases t with
        | true => exact absurd hnil (ne_nil_of_reads rfl h)
        | false => exact hrest.mono fun _ => List.mem_append_right _
      exact .right havoids (ihb hb h (hboth.mono fun _ => List.mem_append_right _))
  | iterate body ih =>
    simp only [decided, Bool.and_eq_true] at hr
    obtain ⟨hbody, hapart⟩ := hr
    intro c hc
    have hlength : ts.length ≤ c.rest.length := by
      rw [hc, List.length_append]
      exact Nat.le_add_right _ _
    exact iterateRounds_of_rounds (ih hbody) hapart h hrest c.rest hlength c hc
  | map f rule ih =>
    obtain ⟨y, hy, rfl⟩ := h
    exact (ih hr hy hrest).map f
  | ranged f rule ih =>
    obtain ⟨y, hy, rfl⟩ := h
    exact (ih hr hy hrest).ranged f (ne_nil_of_reads rfl hy)
  | tooDeep => exact h.elim

/-- **There is one reading at most.** Given tokens leave a decided rule no choice. -/
theorem reads_unique {s : Bool} {α : Type} {r : Rule s α} (hr : r.decided) {ts : List LocatedToken}
    {x y : α} (hx : r.Reads ts x) (hy : r.Reads ts y) : x = y := by
  obtain ⟨tried, hrun⟩ := run_of_reads hr hx .nil (.start ts) (List.append_nil ts).symm
  obtain ⟨tried', hrun'⟩ := run_of_reads hr hy .nil (.start ts) (List.append_nil ts).symm
  rw [hrun] at hrun'
  cases hrun'
  rfl

end Rule

/-- Whether a run gives a value at the end of the tokens. -/
def Outcome.readsAll {α : Type} : Outcome α → Bool
  | ok _ c => c.rest.isEmpty
  | failed _ _ => false

/-- A decided rule reads some tokens just where running it reads all of them. -/
theorem Rule.exists_reads_iff {s : Bool} {α : Type} {r : Rule s α} (hr : r.decided)
    {ts : List LocatedToken} : (∃ x, r.Reads ts x) ↔ (r.run (.start ts)).readsAll := by
  constructor
  · rintro ⟨x, hx⟩
    obtain ⟨tried, hrun⟩ := run_of_reads hr hx .nil (.start ts) (List.append_nil ts).symm
    rw [hrun]
    rfl
  · intro h
    cases hrun : r.run (.start ts) with
    | failed fault c =>
      rw [hrun] at h
      cases h
    | ok x c =>
      rw [hrun] at h
      obtain ⟨us, hpasses, hx⟩ := reads_of_run hrun
      have hrest : ts = us ++ c.rest := hpasses.rest
      rw [List.isEmpty_iff.mp h, List.append_nil] at hrest
      exact ⟨x, hrest ▸ hx⟩

end GrammarFile
