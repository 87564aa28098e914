import GrammarFile.Proofs.Parsing.Levels

/-!
# Every token before an error is right

Some tokens are `Viable` for a rule if it can read them and more. This is about the tokens that a run
has passed over where it ends, and about the kinds that it says it would have gone on with.

`Tracked reads c o` says of a run from `c` that the tokens it has passed over can be completed to
something that is read, and so can those tokens followed by one of any kind that was looked for in vain.
Where a bracket is refused, the tokens can be completed with the bracket. The bracket is not one that
the rule itself reads, so it is the deeper rule that completes them (`Deeper.tracked`).

A kind may have been looked for before the run started, at the same token. Of such a kind the run says
nothing (`Live`).
-/

namespace GrammarFile

open Rule

variable {s t : Bool} {α β : Type}

/-- Whether some tokens can be completed to something that is read. -/
def Viable (reads : List LocatedToken → α → Prop) (us : List LocatedToken) : Prop :=
  ∃ vs x, reads (us ++ vs) x

namespace Viable

variable {reads : List LocatedToken → α → Prop} {us : List LocatedToken}

/-- What is read needs no completion. -/
theorem of_reads {x : α} (h : reads us x) : Viable reads us :=
  ⟨[], x, (List.append_nil us).symm ▸ h⟩

/-- What is viable for some readings is viable for longer ones. -/
theorem lift {reads' : List LocatedToken → β → Prop} (h : Viable reads us)
    (hlift : ∀ us x, reads us x → Viable reads' us) : Viable reads' us := by
  obtain ⟨vs, x, hx⟩ := h
  obtain ⟨ws, y, hy⟩ := hlift _ _ hx
  exact ⟨vs ++ ws, y, (List.append_assoc us vs ws) ▸ hy⟩

/-- What is viable behind some tokens is viable with them. -/
theorem append {us vs : List LocatedToken} (h : Viable (fun vs => reads (us ++ vs)) vs) :
    Viable reads (us ++ vs) := by
  obtain ⟨ws, x, hx⟩ := h
  exact ⟨ws, x, (List.append_assoc us vs ws).symm ▸ hx⟩

end Viable

/-! ### Every rule can read something -/

/-- There is a token of every kind. -/
theorem exists_token (kind : TokenKind) : ∃ t : LocatedToken, t.token.kind = kind := by
  cases kind with
  | trivia kind => exact ⟨⟨.trivia kind "", .origin⟩, rfl⟩
  | identifier => exact ⟨⟨.identifier "", .origin⟩, rfl⟩
  | literal kind => exact ⟨⟨.literal kind "", .origin⟩, rfl⟩
  | mark m => exact ⟨⟨.mark m, .origin⟩, rfl⟩

/-- A rule that gives a value without a token reads no token as that value. -/
theorem Rule.reads_of_idle {r : Rule s α} {x : α} (h : r.idle = some x) : r.Reads [] x := by
  induction r with
  | nothing value => exact ⟨rfl, (Option.some.inj h).symm⟩
  | seq a b iha ihb =>
    obtain ⟨y, hy, h⟩ := Option.bind_eq_some_iff.mp h
    obtain ⟨z, hz, rfl⟩ := Option.map_eq_some_iff.mp h
    exact ⟨[], [], rfl, iha hy, ihb hz⟩
  | choice a b iha ihb => exact .inr (ihb h)
  | iterate body ih =>
    obtain rfl := Option.some.inj h
    exact .done
  | map f rule ih =>
    obtain ⟨y, hy, rfl⟩ := Option.map_eq_some_iff.mp h
    exact ⟨y, ih hy, rfl⟩
  | token | ranged | tooDeep => cases h

/-- A rule that need not take a token reads nothing. -/
theorem exists_reads_nil (r : Rule false α) : ∃ x, r.Reads [] x := by
  cases hidle : r.idle with
  | none => exact absurd (idle_eq_none_iff.mp hidle) Bool.false_ne_true
  | some x => exact ⟨x, reads_of_idle hidle⟩

/-- Brackets around nothing. -/
theorem viable_bracketed (kind : BracketKind) {body : Rule true Alternations} {t : LocatedToken}
    (ht : t.token.kind = .mark kind.left) : Viable (Rules.bracketed kind body).Reads [t] := by
  obtain ⟨u, hu⟩ := exists_token (.mark kind.right)
  obtain ⟨x, hx⟩ := exists_reads_nil body.optional
  have hinner : (thenSkip body.optional (Rules.mark kind.right)).Reads [u] x :=
    ⟨(x, u), ⟨[], [u], rfl, hx, rfl, hu⟩, rfl⟩
  exact ⟨[u], _, x, ⟨(t, x), ⟨[t], [u], rfl, ⟨rfl, ht⟩, hinner⟩, rfl⟩, rfl⟩

/-- A deeper rule can read something. -/
theorem Deeper.viable_nil {a b : Rule s α} (h : Deeper a b) : Viable b.Reads [] := by
  induction h with
  | nothing value => exact .of_reads ⟨rfl, rfl⟩
  | token kind =>
    obtain ⟨t, ht⟩ := exists_token kind
    exact ⟨[t], t, rfl, ht⟩
  | brackets =>
    obtain ⟨t, ht⟩ := exists_token (.mark .leftParen)
    obtain ⟨us, x, hx⟩ := viable_bracketed .group ht
    exact ⟨t :: us, x, .inl hx⟩
  | seq _ _ iha ihb =>
    obtain ⟨us, x, hx⟩ := iha
    obtain ⟨vs, y, hy⟩ := ihb
    exact ⟨us ++ vs, (x, y), us, vs, rfl, hx, hy⟩
  | choice _ _ iha _ =>
    obtain ⟨us, x, hx⟩ := iha
    exact ⟨us, x, .inl hx⟩
  | iterate => exact .of_reads .done
  | map _ ih =>
    obtain ⟨us, x, hx⟩ := ih
    exact ⟨us, _, x, hx, rfl⟩
  | ranged _ ih =>
    obtain ⟨us, x, hx⟩ := ih
    exact ⟨us, _, x, hx, rfl⟩

/-- A round of a repetition can be followed by others, or is the last. -/
theorem viable_round {body : Rule true (Step α)} {us : List LocatedToken} {x : Step α}
    (hx : body.Reads us x) :
    Viable (iterate body).Reads us := by
  cases x with
  | last a => exact .of_reads (.last hx)
  | more a => exact ⟨[], [a], .more hx .done⟩

/-- A deeper rule can read something that starts with any kind that it can start with. -/
theorem Deeper.viable_of_first {a b : Rule s α} (h : Deeper a b) {t : LocatedToken}
    (ht : t.token.kind ∈ b.first) : Viable b.Reads [t] := by
  induction h with
  | nothing value => exact absurd ht List.not_mem_nil
  | token kind => exact .of_reads ⟨rfl, List.mem_singleton.mp ht⟩
  | @brackets body symbol _ _ ih =>
    have hmark : ∀ kind : BracketKind, t.token.kind ∈ [TokenKind.mark kind.left] →
        Viable (Rules.bracketed kind body).Reads [t] :=
      fun kind ht => viable_bracketed kind (List.mem_singleton.mp ht)
    rcases List.mem_append.mp ht with ht | ht
    · exact (hmark .group ht).lift fun us x hx => .of_reads (.inl hx)
    rcases List.mem_append.mp ht with ht | ht
    · exact (hmark .optional ht).lift fun us x hx => .of_reads (.inr (.inl hx))
    rcases List.mem_append.mp ht with ht | ht
    · exact (hmark .repetition ht).lift fun us x hx => .of_reads (.inr (.inr (.inl hx)))
    · exact (ih ht).lift fun us x hx => .of_reads (.inr (.inr (.inr hx)))
  | @seq s _ _ _ a a' b b' ha hb iha ihb =>
    have hfirst : t.token.kind ∈ a'.first → Viable (Rule.seq a' b').Reads [t] := by
      intro ht
      refine (iha ht).lift fun us x hx => ?_
      obtain ⟨vs, y, hy⟩ := hb.viable_nil
      exact ⟨vs, (x, y), us, vs, rfl, hx, hy⟩
    cases s with
    | true => exact hfirst ht
    | false =>
      rcases List.mem_append.mp ht with ht | ht
      · exact hfirst ht
      · obtain ⟨x, hx⟩ := exists_reads_nil a'
        obtain ⟨us, y, hy⟩ := ihb ht
        exact ⟨us, (x, y), [], t :: us, rfl, hx, hy⟩
  | choice _ _ iha ihb =>
    rcases List.mem_append.mp ht with ht | ht
    · exact (iha ht).lift fun us x hx => .of_reads (.inl hx)
    · exact (ihb ht).lift fun us x hx => .of_reads (.inr hx)
  | iterate _ ih => exact (ih ht).lift fun us x hx => viable_round hx
  | map _ ih => exact (ih ht).lift fun us x hx => .of_reads ⟨x, hx, rfl⟩
  | ranged _ ih => exact (ih ht).lift fun us x hx => .of_reads ⟨x, hx, rfl⟩

/-! ### Runs -/

/-- Whether a kind can come after the tokens `us` that were passed over from `c` on. Where there are
none it may also have been looked for before, at `c`. -/
def Live (reads : List LocatedToken → α → Prop) (c : Cursor) (us : List LocatedToken)
    (kind : TokenKind) : Prop :=
  us = [] ∧ kind ∈ c.tried ∨ ∀ t : LocatedToken, t.token.kind = kind → Viable reads (us ++ [t])

/-- Whether the tokens that a run has passed over can be completed, and be completed with every kind
that was looked for in vain or with the bracket that was refused. -/
inductive Tracked (reads : List LocatedToken → α → Prop) (c : Cursor) : Outcome α → Prop where
  | ok (us : List LocatedToken) {x : α} {c' : Cursor} : c.rest = us ++ c'.rest → reads us x →
      (∀ kind ∈ c'.tried, Live reads c us kind) → Tracked reads c (.ok x c')
  | unexpected (us : List LocatedToken) {kinds : List TokenKind} {c' : Cursor} : c.rest = us ++ c'.rest →
      Viable reads us → (∀ kind ∈ kinds, Live reads c us kind) →
      Tracked reads c (.failed (.unexpected kinds) c')
  | tooDeep (us : List LocatedToken) {t : LocatedToken} {limit : Nat} {c' : Cursor} :
      c.rest = us ++ c'.rest → c'.rest.head? = some t → Viable reads (us ++ [t]) →
      Tracked reads c (.failed (.tooDeep limit) c')

namespace Live

variable {reads : List LocatedToken → α → Prop} {c : Cursor} {us vs : List LocatedToken}
  {kind : TokenKind}

/-- A kind that can come after some tokens can do so in what is built around them. -/
theorem lift {reads' : List LocatedToken → β → Prop} (h : Live reads c us kind)
    (hlift : ∀ us x, reads us x → Viable reads' us) : Live reads' c us kind :=
  h.imp_right fun h t ht => (h t ht).lift hlift

/-- What can come after further tokens can come after all of them. -/
theorem append {c' : Cursor} (h : Live (fun vs => reads (us ++ vs)) c' vs kind)
    (hc' : ∀ kind ∈ c'.tried, Live reads c us kind) : Live reads c (us ++ vs) kind := by
  rcases h with ⟨rfl, hkind⟩ | h
  · rw [List.append_nil]
    exact hc' kind hkind
  · refine .inr fun t ht => ?_
    rw [List.append_assoc]
    exact (h t ht).append

end Live

namespace Tracked

variable {reads : List LocatedToken → α → Prop} {reads' : List LocatedToken → β → Prop} {c : Cursor}
  {o : Outcome α}

/-- Going on after a run. What comes after it completes what the run has read. -/
theorem bind {f : α → Cursor → Outcome β} (h : Tracked reads c o)
    (hlift : ∀ us x, reads us x → Viable reads' us)
    (hf : ∀ us x c', o = .ok x c' → c.rest = us ++ c'.rest → reads us x →
      Tracked (fun vs => reads' (us ++ vs)) c' (f x c')) :
    Tracked reads' c (o.bind f) := by
  cases h with
  | unexpected us hrest hviable hkinds =>
    exact .unexpected us hrest (hviable.lift hlift) fun kind hkind => (hkinds kind hkind).lift hlift
  | tooDeep us hrest hhead hviable => exact .tooDeep us hrest hhead (hviable.lift hlift)
  | @ok us x c' hrest hx hkinds =>
    have hlive : ∀ kind ∈ c'.tried, Live reads' c us kind :=
      fun kind hkind => (hkinds kind hkind).lift hlift
    have hnext := hf us x c' rfl hrest hx
    rw [Outcome.bind]
    generalize f x c' = o' at hnext
    cases hnext with
    | @ok vs y d hrest' hy hkinds' =>
      refine .ok (us ++ vs) ?_ hy fun kind hkind => (hkinds' kind hkind).append hlive
      rw [hrest, hrest', List.append_assoc]
    | @unexpected vs kinds d hrest' hviable hkinds' =>
      refine .unexpected (us ++ vs) ?_ hviable.append fun kind hkind => (hkinds' kind hkind).append hlive
      rw [hrest, hrest', List.append_assoc]
    | @tooDeep vs t limit d hrest' hhead hviable =>
      refine .tooDeep (us ++ vs) ?_ hhead ?_
      · rw [hrest, hrest', List.append_assoc]
      · rw [List.append_assoc]
        exact hviable.append

/-- What is made of a value is tracked as the value is. -/
theorem map (f : α → β) (h : Tracked reads c o) (hf : ∀ us x, reads us x → reads' us (f x)) :
    Tracked reads' c (o.map f) := by
  have hlift : ∀ us x, reads us x → Viable reads' us := fun us x hx => .of_reads (hf us x hx)
  cases h with
  | ok us hrest hx hkinds =>
    exact .ok us hrest (hf _ _ hx) fun kind hkind => (hkinds kind hkind).lift hlift
  | unexpected us hrest hviable hkinds =>
    exact .unexpected us hrest (hviable.lift hlift) fun kind hkind => (hkinds kind hkind).lift hlift
  | tooDeep us hrest hhead hviable => exact .tooDeep us hrest hhead (hviable.lift hlift)

/-- What is tracked for some readings is tracked for more of them. -/
theorem mono {reads' : List LocatedToken → α → Prop} (h : Tracked reads c o)
    (hreads : ∀ us x, reads us x → reads' us x) : Tracked reads' c o := by
  have hmap := h.map id hreads
  cases o <;> exact hmap

/-- Kinds that can be read may be looked for in vain before a run. -/
theorem of_miss {kinds : List TokenKind} (h : Tracked reads (c.miss kinds) o)
    (hkinds : ∀ t : LocatedToken, t.token.kind ∈ kinds → Viable reads [t]) : Tracked reads c o := by
  have hlive : ∀ us kind, Live reads (c.miss kinds) us kind → Live reads c us kind := by
    rintro us kind (⟨rfl, hmem⟩ | hviable)
    · rcases List.mem_append.mp hmem with hmem | hmem
      · exact .inr fun t ht => hkinds t (ht ▸ hmem)
      · exact .inl ⟨rfl, hmem⟩
    · exact .inr hviable
  cases h with
  | ok us hrest hx hall => exact .ok us hrest hx fun kind hkind => hlive _ _ (hall kind hkind)
  | unexpected us hrest hviable hall =>
    exact .unexpected us hrest hviable fun kind hkind => hlive _ _ (hall kind hkind)
  | tooDeep us hrest hhead hviable => exact .tooDeep us hrest hhead hviable

end Tracked

/-- The range of what a run has passed over. -/
theorem range_of_run {r : Rule true α} {c c' : Cursor} {x : α} {us : List LocatedToken}
    (h : r.run c = .ok x c') (hrest : c.rest = us ++ c'.rest) :
    (c.rest.head?.elim c'.last fun t => t.range.through c'.last) = spanOf us := by
  obtain ⟨ts, hpasses, hreads⟩ := reads_of_run h
  obtain rfl : ts = us := List.append_cancel_right (hpasses.rest.symm.trans hrest)
  cases ts with
  | nil => exact absurd rfl (ne_nil_of_reads rfl hreads)
  | cons t ts =>
    rw [hrest, hpasses.last]
    rfl

/-- **Every token before the end of a run is right**, and so is every kind that was looked for in vain
there. -/
theorem Deeper.tracked {a b : Rule s α} (h : Deeper a b) (c : Cursor) : Tracked b.Reads c (a.run c) := by
  induction h generalizing c with
  | nothing value => exact .ok [] rfl ⟨rfl, rfl⟩ fun kind hkind => .inl ⟨rfl, hkind⟩
  | token kind =>
    by_cases hsees : c.sees [kind]
    · obtain ⟨t, rest, hrest, hkind⟩ := Cursor.exists_of_sees hsees
      have hkind := List.mem_singleton.mp hkind
      rw [Rule.run, hrest]
      simp only [if_pos hkind]
      exact .ok [t] hrest ⟨rfl, hkind⟩ fun _ hnone => absurd hnone List.not_mem_nil
    · rw [run_token_of_not_sees (Bool.eq_false_iff.mpr hsees)]
      have hnone :
          Tracked (Rule.token kind).Reads (c.miss [kind]) (.failed (c.miss [kind]).unexpected c) :=
        .unexpected [] rfl (Deeper.token kind).viable_nil fun kind hkind =>
          .inl ⟨rfl, TokenKind.mem_sort.mp hkind⟩
      exact hnone.of_miss fun t ht => .of_reads ⟨rfl, List.mem_singleton.mp ht⟩
  | @brackets body symbol hsymbol hsame ih =>
    have hdeeper : Deeper (Rules.noBrackets symbol) (Rules.brackets body symbol) :=
      .brackets hsymbol hsame
    have hviable : ∀ t : LocatedToken, t.token.kind ∈ Rules.openingBrackets →
        Viable (Rules.brackets body symbol).Reads [t] :=
      fun t ht => hdeeper.viable_of_first (hdeeper.first ▸ List.mem_append_left _ ht)
    rw [Rules.noBrackets]
    by_cases hsees : c.sees Rules.openingBrackets
    · obtain ⟨t, rest, hrest, hkind⟩ := Cursor.exists_of_sees hsees
      rw [Rule.run, Rule.first, if_pos hsees, Rule.run, if_pos hsees]
      exact .tooDeep [] rfl (hrest ▸ rfl) (hviable t hkind)
    · rw [run_choice_of_not_sees hsees]
      have hrun : Tracked (Rules.brackets body symbol).Reads (c.miss Rules.openingBrackets) _ :=
        (ih (c.miss Rules.openingBrackets)).mono fun us x hx => .inr (.inr (.inr hx))
      exact hrun.of_miss hviable
  | @seq _ _ _ _ a a' b b' ha hb iha ihb =>
    refine (iha c).bind (fun us x hx => ?_) fun us x c' _ _ hx => ?_
    · obtain ⟨vs, y, hy⟩ := hb.viable_nil
      exact ⟨vs, (x, y), us, vs, rfl, hx, hy⟩
    · exact (ihb c').map (x, ·) fun vs y hy => ⟨us, vs, rfl, hx, hy⟩
  | @choice _ _ a a' b b' ha hb iha ihb =>
    by_cases hsees : c.sees a.first
    · rw [Rule.run, if_pos hsees]
      exact (iha c).mono fun us x hx => .inl hx
    · rw [run_choice_of_not_sees hsees]
      have hrun : Tracked (Rule.choice a' b').Reads (c.miss a.first) _ :=
        (ihb (c.miss a.first)).mono fun us x hx => .inr hx
      refine hrun.of_miss fun t ht => ?_
      exact (ha.viable_of_first (ha.first ▸ ht)).lift fun us x hx => .of_reads (.inl hx)
  | @iterate _ body body' hbody ih =>
    -- every round leaves fewer tokens
    induction c using Cursor.induction_on_rest with
    | step c hrounds =>
      rw [run_iterate]
      by_cases hsees : c.sees body.first
      · rw [if_pos hsees]
        refine (ih c).bind (fun us x hx => viable_round hx) fun us value c' hrun _ hx => ?_
        cases value with
        | last a =>
          refine .ok [] rfl ?_ fun kind hkind => .inl ⟨rfl, hkind⟩
          rw [List.append_nil]
          exact .last hx
        | more a =>
          exact (hrounds c' (length_lt_of_run hrun)).map (a :: ·) fun vs as has => .more hx has
      · rw [if_neg hsees]
        have hnone :
            Tracked (Rule.iterate body').Reads (c.miss body.first) (.ok [] (c.miss body.first)) :=
          .ok [] rfl .done fun kind hkind => .inl ⟨rfl, hkind⟩
        refine hnone.of_miss fun t ht => ?_
        exact (hbody.viable_of_first (hbody.first ▸ ht)).lift fun us x hx => viable_round hx
  | map _ ih => exact (ih c).map _ fun us x hx => ⟨x, hx, rfl⟩
  | ranged h ih =>
    rw [Rule.run]
    refine (ih c).bind (fun us x hx => .of_reads ⟨x, hx, rfl⟩) fun us x c' hrun hrest hx => ?_
    refine .ok [] rfl ?_ fun kind hkind => .inl ⟨rfl, hkind⟩
    rw [List.append_nil, range_of_run hrun hrest]
    exact ⟨x, hx, rfl⟩

end GrammarFile
