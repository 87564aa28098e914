import GrammarFile.Proofs.Parsing.Decided
import GrammarFile.Proofs.Parsing.FirstToken

/-!
# A run does not see what stands behind its end

Apart from the tokens that it passes over, a run sees the kind of one token, the one where it ends. So
it comes to the same if other tokens stand there and behind, as long as the first of them is of that
kind, or there is none in both cases (`Rule.run_before`).

Where the run refuses no bracket, it sees even less of that token: only that it is none of the kinds that
are listed as expected. So it comes to the same with any other token that is none of them either
(`Blind`, `Rule.run_before_of_blind`).
-/

namespace GrammarFile

/-- The same place, with some tokens behind the ones that are left. -/
def Cursor.before (c : Cursor) (vs : List LocatedToken) : Cursor :=
  { c with rest := c.rest ++ vs }

/-- The same outcome, with some tokens behind the ones that are left. -/
def Outcome.before {α : Type} (vs : List LocatedToken) : Outcome α → Outcome α
  | ok x c => ok x (c.before vs)
  | failed fault c => failed fault (c.before vs)

/-- Whether two token streams start with tokens of one kind, or are both at their end. -/
def SameNext (vs vs' : List LocatedToken) : Prop :=
  vs.head?.map (·.token.kind) = vs'.head?.map (·.token.kind)

variable {vs vs' : List LocatedToken}

/-- Before tokens that start alike the same kinds are seen. -/
theorem SameNext.sees (h : SameNext vs vs') (c : Cursor) (kinds : List TokenKind) :
    (c.before vs).sees kinds = (c.before vs').sees kinds := by
  unfold Cursor.sees Cursor.before
  cases c.rest with
  | cons t rest => rfl
  | nil =>
    unfold SameNext at h
    cases vs <;> cases vs' <;> simp_all

/-- Whether a run that has ended in front of `vs` or before cannot tell `vs'` from it: the first
tokens are of one kind, or no bracket was refused and where the run ends in front of `vs` it lists
no kind that `vs'` starts with. -/
def Blind {α : Type} (vs vs' : List LocatedToken) (o : Outcome α) : Prop :=
  SameNext vs vs' ∨
    o.fault.nestingLimit? = none ∧ (o.cursor.rest = vs → Avoids vs' o.fault.expected)

namespace Blind

variable {α β : Type} {o : Outcome α}

/-- What is made of a value has no part in what a run can tell. -/
theorem of_map {f : α → β} (h : Blind vs vs' (o.map f)) : Blind vs vs' o := by
  rwa [Blind, Outcome.cursor_map, Outcome.fault_map] at h

/-- A run that goes on where another one ends lists what that one does, if it stays there. -/
theorem of_bind {f : α → Cursor → Outcome β} (h : Blind vs vs' (o.bind f))
    (hend : vs <:+ (o.bind f).cursor.rest) (hmoves : ∀ x c, (f x c).cursor.rest <:+ c.rest)
    (hkeeps : ∀ x c, (f x c).cursor.rest = c.rest → (f x c).fault.nestingLimit? = none →
      ∀ k ∈ c.tried, k ∈ (f x c).fault.expected) :
    Blind vs vs' o := by
  cases o with
  | failed fault c => exact h
  | ok x c =>
    refine h.imp_right fun ⟨hunrefused, havoids⟩ => ⟨rfl, fun hc => ?_⟩
    have hcrest : c.rest = vs := hc
    have hmoved : (f x c).cursor.rest <:+ vs := hcrest ▸ hmoves x c
    have hstays : (f x c).cursor.rest = vs := (hend.eq_of_length_le hmoved.length_le).symm
    refine (havoids hstays).mono fun k hk => ?_
    exact hkeeps x c (hstays.trans hcrest.symm) hunrefused k (TokenKind.mem_sort.mp hk)

end Blind

/-- More tokens are left than stand behind if those that stand behind are left after a token. -/
theorem Cursor.rest_ne_nil_of_length_lt {c c' : Cursor}
    (h : (c'.before vs).rest.length < (c.before vs).rest.length) : c.rest ≠ [] := by
  intro hnil
  simp only [before, hnil, List.length_append, List.nil_append] at h
  omega

namespace Rule

variable {s t : Bool} {α β : Type}

/-- Whether two runs that start before different tokens come to the same before them. -/
def Local (vs vs' : List LocatedToken) (o o' : Outcome α) : Prop :=
  vs <:+ o.cursor.rest → ∃ o₀ : Outcome α, o = o₀.before vs ∧ o' = o₀.before vs'

namespace Local

/-- What is made of a value has no part in how two runs compare. -/
theorem map {o o' : Outcome α} (f : α → β) (h : Local vs vs' o o') :
    Local vs vs' (o.map f) (o'.map f) := by
  intro hend
  rw [Outcome.cursor_map] at hend
  obtain ⟨o₀, rfl, rfl⟩ := h hend
  exact ⟨o₀.map f, by cases o₀ <;> rfl, by cases o₀ <;> rfl⟩

/-- Runs that come to the same may go on so. -/
theorem bind {o o' : Outcome α} {f f' : α → Cursor → Outcome β} (h : Local vs vs' o o')
    (hmoves : ∀ x c, (f x c).cursor.rest <:+ c.rest)
    (hf : ∀ x (c : Cursor), o = .ok x (c.before vs) →
      Local vs vs' (f x (c.before vs)) (f' x (c.before vs'))) :
    Local vs vs' (o.bind f) (o'.bind f') := by
  intro hend
  have hfirst : vs <:+ o.cursor.rest := by
    cases o with
    | ok x c => exact hend.trans (hmoves x c)
    | failed fault c => exact hend
  obtain ⟨o₀, ho, rfl⟩ := h hfirst
  cases o₀ with
  | ok x c =>
    rw [ho] at hend ⊢
    exact hf x c ho hend
  | failed fault c =>
    rw [ho]
    exact ⟨.failed fault c, rfl, rfl⟩

end Local

/-- What a run looks for first decides in the same way before tokens that it cannot tell apart. -/
theorem sees_before_of_blind {r : Rule s α} {c : Cursor} (hblind : Blind vs vs' (r.run (c.before vs)))
    (hend : vs <:+ (r.run (c.before vs)).cursor.rest) {kinds : List TokenKind}
    (hkinds : ∀ k ∈ kinds, k ∈ r.first) : (c.before vs).sees kinds = (c.before vs').sees kinds := by
  rcases hblind with hnext | ⟨hunrefused, havoids⟩
  · exact hnext.sees c kinds
  cases hrest : c.rest with
  | cons t rest =>
    unfold Cursor.sees Cursor.before
    rw [hrest]
    rfl
  | nil =>
    -- the run stays in front of the tokens behind, so it has looked for all that it can start with
    have hvs : (c.before vs).rest = vs := by rw [Cursor.before, hrest, List.nil_append]
    have hmoved := rest_suffix_of_run r (c.before vs)
    rw [hvs] at hmoved
    have hstays : (r.run (c.before vs)).cursor.rest = vs := (hend.eq_of_length_le hmoved.length_le).symm
    obtain ⟨hunseen, hexpected⟩ := not_sees_of_stays (hstays.trans hvs.symm) hunrefused
    have hvs' : (c.before vs').rest = vs' := by rw [Cursor.before, hrest, List.nil_append]
    have hunseen' : Avoids (c.before vs').rest kinds := by
      rw [hvs']
      exact (havoids hstays).mono fun k hk => (hexpected k).mpr (.inl (hkinds k hk))
    rw [hunseen'.not_sees]
    exact Bool.eq_false_iff.mpr fun hsees => Bool.eq_false_iff.mp hunseen (Cursor.sees_mono hsees hkinds)

/-- What a rule does after another one keeps the kinds that were looked for in vain, while it stays in its
place. -/
theorem mem_expected_map_of_stays (r : Rule t β) (f : β → α) (c : Cursor)
    (hstays : ((r.run c).map f).cursor.rest = c.rest)
    (hunrefused : ((r.run c).map f).fault.nestingLimit? = none) :
    ∀ k ∈ c.tried, k ∈ ((r.run c).map f).fault.expected := by
  rw [Outcome.cursor_map] at hstays
  rw [Outcome.fault_map] at hunrefused ⊢
  exact fun k hk => ((not_sees_of_stays hstays hunrefused).2 k).mpr (.inr hk)

/-- What comes after a round of a repetition leaves no more tokens than the round. -/
theorem rest_suffix_of_afterRound (body : Rule true (Step α)) (value : Step α) (c : Cursor) :
    (match value with
      | .last a => Outcome.ok [a] c
      | .more a => ((iterate body).run c).map (a :: ·)).cursor.rest <:+ c.rest := by
  cases value with
  | last a => exact List.suffix_rfl
  | more a =>
    rw [Outcome.cursor_map]
    exact rest_suffix_of_run (iterate body) c

/-- **A run comes to the same before tokens that it cannot tell apart.** -/
theorem run_before_of_blind (r : Rule s α) {c : Cursor} (hblind : Blind vs vs' (r.run (c.before vs))) :
    Local vs vs' (r.run (c.before vs)) (r.run (c.before vs')) := by
  induction r generalizing c with
  | nothing value => exact fun _ => ⟨.ok value c, rfl, rfl⟩
  | token kind =>
    intro hend
    have hsees : (c.before vs).sees [kind] = (c.before vs').sees [kind] :=
      sees_before_of_blind hblind hend fun _ hk => hk
    cases hrest : c.rest with
    | cons t rest =>
      by_cases hkind : t.token.kind = kind
      · refine ⟨.ok t ⟨rest, t.range, []⟩, ?_, ?_⟩ <;>
          simp [run, Cursor.before, Outcome.before, hrest, hkind]
      · refine ⟨.failed (c.miss [kind]).unexpected c, ?_, ?_⟩ <;>
          simp [run, Cursor.before, Outcome.before, hrest, hkind] <;> rfl
    | nil =>
      -- the token behind is not passed over, so it is not of the kind
      have hunseen : (c.before vs).sees [kind] = false := by
        refine Bool.eq_false_iff.mpr fun hseen => ?_
        have hlt := length_lt_of_sees (r := token kind) rfl hseen
        have hvs : (c.before vs).rest = vs := by rw [Cursor.before, hrest, List.nil_append]
        rw [hvs] at hlt
        exact absurd hend.length_le (Nat.not_le_of_lt hlt)
      exact ⟨.failed (c.miss [kind]).unexpected c, run_token_of_not_sees hunseen,
        run_token_of_not_sees (hsees ▸ hunseen)⟩
  | @seq _ _ α _ a b iha ihb =>
    intro hend
    have hmoves : ∀ (x : α) (c' : Cursor), ((b.run c').map fun y => (x, y)).cursor.rest <:+ c'.rest := by
      intro x c'
      rw [Outcome.cursor_map]
      exact rest_suffix_of_run b c'
    have hfirst : Blind vs vs' (a.run (c.before vs)) :=
      hblind.of_bind hend hmoves fun x c' => mem_expected_map_of_stays b (x, ·) c'
    refine (iha hfirst).bind hmoves (fun x c' hrun => ?_) hend
    rw [run, hrun] at hblind
    exact (ihb hblind.of_map).map (x, ·)
  | choice a b iha ihb =>
    intro hend
    have hsees := sees_before_of_blind hblind hend fun _ => List.mem_append_left _
    rw [run] at hblind hend ⊢
    rw [run, ← hsees]
    by_cases hseen : (c.before vs).sees a.first
    · rw [if_pos hseen] at hblind hend ⊢
      rw [if_pos hseen]
      exact iha hblind hend
    · rw [if_neg hseen] at hblind hend ⊢
      rw [if_neg hseen]
      exact ihb (c := c.miss a.first) hblind hend
  | iterate body ih =>
    -- every round leaves fewer tokens
    induction c using Cursor.induction_on_rest with
    | step c hrounds =>
      intro hend
      have hsees : (c.before vs).sees body.first = (c.before vs').sees body.first :=
        sees_before_of_blind hblind hend fun _ hk => hk
      rw [run_iterate] at hblind hend ⊢
      rw [run_iterate, ← hsees]
      by_cases hseen : (c.before vs).sees body.first
      · rw [if_pos hseen] at hblind hend ⊢
        rw [if_pos hseen]
        have hmoves := rest_suffix_of_afterRound body
        have hround : Blind vs vs' (body.run (c.before vs)) := by
          refine hblind.of_bind hend hmoves fun value c' => ?_
          cases value with
          | last a => exact fun _ _ k hk => TokenKind.mem_sort.mpr hk
          | more a => exact mem_expected_map_of_stays (iterate body) (a :: ·) c'
        refine (ih hround).bind hmoves (fun value c' hrun => ?_) hend
        rw [hrun] at hblind
        cases value with
        | last a => exact fun _ => ⟨.ok [a] c', rfl, rfl⟩
        | more a =>
          have hlt := length_lt_of_run hrun
          simp only [Cursor.before, List.length_append] at hlt
          exact (hrounds c' (by omega) hblind.of_map).map (a :: ·)
      · rw [if_neg hseen, if_neg hseen]
        exact ⟨.ok [] (c.miss body.first), rfl, rfl⟩
  | map f rule ih =>
    rw [run] at hblind
    exact (ih hblind.of_map).map f
  | ranged f rule ih =>
    intro hend
    have hinner : Blind vs vs' (rule.run (c.before vs)) :=
      hblind.of_bind hend (fun _ _ => List.suffix_rfl) fun _ _ _ _ _ hk => TokenKind.mem_sort.mpr hk
    refine (ih hinner).bind (fun x c' => List.suffix_rfl) (fun x c' hrun _ => ?_) hend
    have hne : c.rest ≠ [] := Cursor.rest_ne_nil_of_length_lt (length_lt_of_run hrun)
    obtain ⟨t, rest, hrest⟩ := List.exists_cons_of_ne_nil hne
    refine ⟨.ok (f x (t.range.through c'.last)) c', ?_, ?_⟩ <;>
      simp [Cursor.before, Outcome.before, hrest]
  | tooDeep limit kinds =>
    intro hend
    have hsees : (c.before vs).sees kinds = (c.before vs').sees kinds :=
      sees_before_of_blind hblind hend fun _ hk => hk
    rw [run, run, ← hsees]
    split
    · exact ⟨.failed (.tooDeep limit) c, rfl, rfl⟩
    · exact ⟨.failed (c.miss kinds).unexpected c, rfl, rfl⟩

/-- **A run does not see what stands behind the token where it ends.** -/
theorem run_before (r : Rule s α) (hnext : SameNext vs vs') (c : Cursor) :
    Local vs vs' (r.run (c.before vs)) (r.run (c.before vs')) :=
  run_before_of_blind r (.inl hnext)

end Rule

end GrammarFile
