import GrammarFile.Parse.Rules
import GrammarFile.Proofs.Parsing.FirstToken

/-!
# Rules that close with a token

A production ends with a semicolon, and none of its parts asks for one. So an attempt at a production has
passed over a semicolon just where it has succeeded: then that is the last token it has passed over, and
the only semicolon among them (`closes_production`).

`Rule.omits` says that no part of a rule asks for tokens of a kind, and `Clear` that no such token lies
between two places. `Rule.omitsBehind` and `ClearBehind` say the same but for the first token, such as the
keyword of a declaration.
-/

namespace GrammarFile

variable {s t : Bool} {α β : Type} {kind : TokenKind}

/-- Whether one place comes after another without a token of the given kind in between. -/
def Clear (kind : TokenKind) (c c' : Cursor) : Prop :=
  ∃ passed, c.rest = passed ++ c'.rest ∧ ∀ u ∈ passed, u.token.kind ≠ kind

/-- Whether one place comes after another, and only the first token in between may be of the given
kind. -/
def ClearBehind (kind : TokenKind) (c c' : Cursor) : Prop :=
  ∃ passed, c.rest = passed ++ c'.rest ∧ ∀ u ∈ passed.tail, u.token.kind ≠ kind

namespace Outcome

/-- What is made of a value does not make a run fail. -/
theorem map_eq_failed {f : α → β} {o : Outcome α} {fault : Fault} {c : Cursor}
    (h : o.map f = .failed fault c) : o = .failed fault c := by
  cases o with
  | ok x d => cases h
  | failed fault' d =>
    cases h
    rfl

/-- Where a run that goes on fails, it fails at first or later. -/
theorem bind_eq_failed {o : Outcome α} {f : α → Cursor → Outcome β} {fault : Fault} {c : Cursor}
    (h : o.bind f = .failed fault c) :
    o = .failed fault c ∨ ∃ x d, o = .ok x d ∧ f x d = .failed fault c := by
  cases o with
  | ok x d => exact .inr ⟨x, d, rfl, h⟩
  | failed fault' d =>
    cases h
    exact .inl rfl

end Outcome

namespace Clear

/-- Nothing is passed over on the spot. -/
theorem refl (c : Cursor) : Clear kind c c :=
  ⟨[], rfl, nofun⟩

/-- What is not passed over on two ways is not on both together. -/
theorem trans {c d e : Cursor} (h : Clear kind c d) (h' : Clear kind d e) : Clear kind c e := by
  obtain ⟨us, hus, hclear⟩ := h
  obtain ⟨vs, hvs, hclear'⟩ := h'
  refine ⟨us ++ vs, by rw [hus, hvs, List.append_assoc], ?_⟩
  intro u hu
  rcases List.mem_append.mp hu with hu | hu
  · exact hclear u hu
  · exact hclear' u hu

/-- A run that goes on passes over no such token if neither part does. -/
theorem bind {c : Cursor} {o : Outcome α} {f : α → Cursor → Outcome β} (ho : Clear kind c o.cursor)
    (hf : ∀ x d, Clear kind d (f x d).cursor) : Clear kind c (o.bind f).cursor := by
  cases o with
  | ok x d => exact ho.trans (hf x d)
  | failed fault d => exact ho

/-- Where no such token is passed over, none is behind the first token. -/
theorem clearBehind {c c' : Cursor} (h : Clear kind c c') : ClearBehind kind c c' := by
  obtain ⟨passed, hpassed, hclear⟩ := h
  exact ⟨passed, hpassed, fun u hu => hclear u (List.mem_of_mem_tail hu)⟩

end Clear

/-- Behind a place that is not the first one, all tokens are behind the first token. -/
theorem ClearBehind.trans {c d e : Cursor} (h : ClearBehind kind c d)
    (hmoved : d.rest.length < c.rest.length) (h' : Clear kind d e) : ClearBehind kind c e := by
  obtain ⟨us, hus, hbehind⟩ := h
  obtain ⟨vs, hvs, hclear⟩ := h'
  have hne : us ≠ [] := by
    rintro rfl
    rw [hus] at hmoved
    exact absurd hmoved (Nat.lt_irrefl _)
  refine ⟨us ++ vs, by rw [hus, hvs, List.append_assoc], fun u hu => ?_⟩
  rw [List.tail_append_of_ne_nil hne] at hu
  rcases List.mem_append.mp hu with hu | hu
  · exact hbehind u hu
  · exact hclear u hu

namespace Rule

/-- Whether no part of a rule asks for a token of the given kind. -/
def omits (kind : TokenKind) : {s : Bool} → {α : Type} → Rule s α → Bool
  | _, _, nothing _ => true
  | _, _, token k => k != kind
  | _, _, seq a b => a.omits kind && b.omits kind
  | _, _, choice a b => a.omits kind && b.omits kind
  | _, _, iterate body => body.omits kind
  | _, _, map _ rule => rule.omits kind
  | _, _, ranged _ rule => rule.omits kind
  | _, _, tooDeep _ _ => true

/-- **A run does not pass over a token that its rule does not ask for.** -/
theorem clear_of_omits {r : Rule s α} (hr : r.omits kind) (c : Cursor) :
    Clear kind c (r.run c).cursor := by
  induction r generalizing c with
  | nothing value => exact .refl c
  | token k =>
    rw [run]
    split
    · rename_i u rest hrest
      split
      · rename_i hk
        refine ⟨[u], hrest, fun v hv => ?_⟩
        rw [List.mem_singleton.mp hv, hk]
        exact bne_iff_ne.mp hr
      · exact .refl c
    · exact .refl c
  | seq a b iha ihb =>
    rw [omits, Bool.and_eq_true] at hr
    refine (iha hr.1 c).bind fun x d => ?_
    rw [Outcome.cursor_map]
    exact ihb hr.2 d
  | choice a b iha ihb =>
    rw [omits, Bool.and_eq_true] at hr
    rw [run]
    split
    · exact iha hr.1 c
    · exact ihb hr.2 (c.miss a.first)
  | iterate body ih =>
    have hround : ∀ {c o}, body.run c = o → Clear kind c o.cursor := fun hrun => hrun ▸ ih hr _
    induction c using @iterate_induction _ body with
    | stop c => exact .refl c
    | failed c fault c' _ hrun => exact hround hrun
    | last c a c' _ hrun => exact hround hrun
    | more c a c' _ hrun hmore =>
      rw [Outcome.cursor_map]
      exact (hround hrun).trans hmore
  | map f rule ih =>
    rw [run, Outcome.cursor_map]
    exact ih hr c
  | ranged f rule ih => exact (ih hr c).bind fun x d => .refl d
  | tooDeep limit kinds =>
    rw [run]
    split <;> exact .refl c

/-- A rule that asks for no token of a kind passes over none, however it ends. -/
theorem clear_of_run {r : Rule s α} (hr : r.omits kind) {c : Cursor} {o : Outcome α} (h : r.run c = o) :
    Clear kind c o.cursor :=
  h ▸ clear_of_omits hr c

/-- Whether no part of a rule behind the first token asks for a token of the given kind. -/
def omitsBehind (kind : TokenKind) : {s : Bool} → {α : Type} → Rule s α → Bool
  | _, _, nothing _ => true
  | _, _, token _ => true
  | _, _, seq (s := s) a b => (if s then a.omitsBehind kind else a.omits kind) && b.omits kind
  | _, _, choice a b => a.omitsBehind kind && b.omitsBehind kind
  | _, _, iterate body => body.omits kind
  | _, _, map _ rule => rule.omitsBehind kind
  | _, _, ranged _ rule => rule.omitsBehind kind
  | _, _, tooDeep _ _ => true

/-- **Behind its first token a run does not pass over a token that its rule does not ask for there.** -/
theorem clearBehind_of_omitsBehind {r : Rule s α} (hr : r.omitsBehind kind) (c : Cursor) :
    ClearBehind kind c (r.run c).cursor := by
  induction r generalizing c with
  | nothing value => exact (Clear.refl c).clearBehind
  | token k =>
    rw [run]
    split
    · rename_i u rest hrest
      split
      · exact ⟨[u], hrest, fun v hv => absurd hv List.not_mem_nil⟩
      · exact (Clear.refl c).clearBehind
    · exact (Clear.refl c).clearBehind
  | @seq s _ _ _ a b iha _ =>
    rw [omitsBehind, Bool.and_eq_true] at hr
    obtain ⟨ha, hb⟩ := hr
    cases s with
    | false =>
      have homits : (seq a b).omits kind := by
        rw [omits, Bool.and_eq_true]
        exact ⟨ha, hb⟩
      exact (clear_of_omits homits c).clearBehind
    | true =>
      have hfirst := iha ha c
      rw [run]
      cases hrun : a.run c with
      | failed fault d =>
        rw [hrun] at hfirst
        exact hfirst
      | ok x d =>
        -- the first rule has passed over a token, so all that the second one passes over is behind it
        rw [hrun] at hfirst
        have hcursor :
            (Outcome.bind (.ok x d) fun x c => (b.run c).map (x, ·)).cursor = (b.run d).cursor :=
          Outcome.cursor_map _ _
        rw [hcursor]
        exact hfirst.trans (length_lt_of_run hrun) (clear_of_omits hb d)
  | choice a b iha ihb =>
    rw [omitsBehind, Bool.and_eq_true] at hr
    rw [run]
    split
    · exact iha hr.1 c
    · exact ihb hr.2 (c.miss a.first)
  | iterate body _ => exact (clear_of_omits (r := iterate body) hr c).clearBehind
  | map f rule ih =>
    rw [run, Outcome.cursor_map]
    exact ih hr c
  | ranged f rule ih =>
    have h := ih hr c
    rw [run]
    cases hrun : rule.run c <;> rw [hrun] at h <;> exact h
  | tooDeep limit kinds =>
    rw [run]
    split <;> exact (Clear.refl c).clearBehind

/-- Whether a run passes over a token of the given kind just where it succeeds, as its last one. -/
structure Closes (kind : TokenKind) (r : Rule s α) : Prop where
  ok : ∀ {c c' : Cursor} {x : α}, r.run c = .ok x c' →
    ∃ d u, Clear kind c d ∧ d.rest = u :: c'.rest ∧ u.token.kind = kind
  failed : ∀ {c c' : Cursor} {fault : Fault}, r.run c = .failed fault c' → Clear kind c c'

namespace Closes

/-- A token is the last one that is passed over. -/
theorem token (kind : TokenKind) : Closes kind (token kind) := by
  constructor
  · intro c c' x h
    obtain ⟨ts, hpasses, rfl, hkind⟩ := reads_of_run h
    exact ⟨c, x, .refl c, hpasses.rest, hkind⟩
  · intro c c' fault h
    exact eq_of_token_failed h ▸ .refl c

/-- A rule that closes may follow one that asks for no such token. -/
theorem seq {a : Rule s α} {b : Rule t β} (ha : a.omits kind) (hb : Closes kind b) :
    Closes kind (.seq a b) := by
  constructor
  · intro c c' x h
    obtain ⟨y, d, hy, h⟩ := Outcome.bind_eq_ok h
    obtain ⟨z, hz, -⟩ := Outcome.map_eq_ok h
    obtain ⟨e, u, hclear, he, hu⟩ := hb.ok hz
    exact ⟨e, u, (clear_of_run ha hy).trans hclear, he, hu⟩
  · intro c c' fault h
    rcases Outcome.bind_eq_failed h with hy | ⟨y, d, hy, h⟩
    · exact clear_of_run ha hy
    · exact (clear_of_run ha hy).trans (hb.failed (Outcome.map_eq_failed h))

/-- What is made of a value does not matter for how a rule closes. -/
theorem map {r : Rule s α} (f : α → β) (h : Closes kind r) : Closes kind (.map f r) := by
  constructor
  · intro c c' x hrun
    obtain ⟨y, hy, -⟩ := Outcome.map_eq_ok hrun
    exact h.ok hy
  · intro c c' fault hrun
    exact h.failed (Outcome.map_eq_failed hrun)

/-- A range does not matter for how a rule closes. -/
theorem ranged {r : Rule true α} (f : α → Range → β) (h : Closes kind r) : Closes kind (.ranged f r) := by
  constructor
  · intro c c' x hrun
    obtain ⟨y, d, hy, hrun⟩ := Outcome.bind_eq_ok hrun
    cases hrun
    exact h.ok hy
  · intro c c' fault hrun
    rcases Outcome.bind_eq_failed hrun with hy | ⟨y, d, -, hrun⟩
    · exact h.failed hy
    · cases hrun

end Closes

end Rule

/-! ### Productions -/

/-- A body asks for no semicolon if its factors do not. -/
theorem omits_alternations {φ : Type} {factor : Rule true φ} (h : factor.omits (.mark .semicolon)) :
    (Rules.alternations factor).omits (.mark .semicolon) := by
  simp [Rules.alternations, Rules.alternation, Rule.oneOrMore, Rule.many, Rule.optional, Rule.omits,
    Rules.mark, h]

/-- A factor does not ask for a semicolon, however deep its brackets may nest. -/
theorem omits_factor (levels : Nat) : (Rules.factor levels).omits (.mark .semicolon) := by
  induction levels with
  | zero => rfl
  | succ levels ih =>
    have hbody := omits_alternations ih
    have hbracketed : ∀ kind : BracketKind,
        (Rules.bracketed kind (Rules.alternations (Rules.factor levels))).omits (.mark .semicolon) := by
      intro kind
      cases kind <;>
        simp [Rules.bracketed, Rule.skipThen, Rule.thenSkip, Rule.optional, Rule.omits, hbody, Rules.mark,
          BracketKind.left, BracketKind.right]
    have hsymbol : Rules.symbol.omits (.mark .semicolon) := rfl
    simp [Rules.factor, Rule.omits, hbracketed, hsymbol]

/-- The body of a production asks for no semicolon. -/
theorem omits_productionBody (levels : Nat) : (Rules.productionBody levels).omits (.mark .semicolon) := by
  have hbody := omits_alternations (omits_factor levels)
  simp [Rules.productionBody, Rule.skipThen, Rule.omits, Rules.mark, hbody]

/-- **An attempt at a production passes over a semicolon just where it succeeds**, as its last token. -/
theorem closes_production (levels : Nat) : (Rules.production levels).Closes (.mark .semicolon) := by
  have hbody :
      (Rule.seq (Rules.productionBody levels) (Rules.mark .semicolon)).Closes (.mark .semicolon) :=
    .seq (omits_productionBody levels) (.token (.mark .semicolon))
  have hrest := (Rule.Closes.seq (a := Rules.mark .colon) rfl (hbody.map Prod.fst)).map Prod.snd
  exact (Rule.Closes.seq (a := Rules.identifier) rfl hrest).ranged _

end GrammarFile
