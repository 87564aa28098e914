import GrammarFile.Proofs.Parsing.Brackets

/-!
# No run opens more brackets than there are levels

At no token that a run passes over are more brackets open than its rule has levels, whether the run
succeeds or not (`Confined`). Together with where a run refuses a bracket (`Nests`) this makes the
limit exact. The refused token opens a bracket, just as many are open around it as there are levels,
and no bracket in front of it stands inside as many (`Confined.refused_at_limit`).

The rules of grammar files are confined to their levels. Tokens that are no brackets need none of
them, and what stands between brackets needs one less than the whole.
-/

namespace GrammarFile

variable {s t : Bool} {α β : Type} {levels : Nat}

/-- Whether at no place among some tokens more brackets are open than in front of them and the given
number. -/
def Climbs (levels : Nat) (ts : List LocatedToken) : Prop :=
  ∀ us, us <+: ts → ∀ brackets, (bracketsAfterAll brackets us).length ≤ brackets.length + levels

/-- A token that opens no bracket leaves no more of them open. -/
theorem length_bracketsAfter_le {t : Token} (ht : t.kind ∉ Rules.openingBrackets)
    (brackets : List BracketKind) : (bracketsAfter brackets t).length ≤ brackets.length := by
  cases t with
  | mark m =>
    cases m <;> first
      | exact Nat.le_refl _
      | exact (List.length_tail ▸ Nat.sub_le _ _ : brackets.tail.length ≤ brackets.length)
      | exact absurd (by decide) ht
  | trivia | identifier | literal => exact Nat.le_refl _

namespace Climbs

/-- Without tokens no bracket is opened. -/
theorem nil : Climbs levels [] := by
  intro us hus brackets
  rw [List.prefix_nil.mp hus]
  exact Nat.le_add_right _ _

/-- Behind balanced tokens the brackets are those in front of them. -/
theorem append {ts us : List LocatedToken} (hts : Climbs levels ts) (hbalanced : Balanced ts)
    (hus : Climbs levels us) : Climbs levels (ts ++ us) := by
  intro vs hvs brackets
  rcases List.prefix_or_prefix_of_prefix hvs (List.prefix_append ts us) with hshort | ⟨more, rfl⟩
  · exact hts vs hshort brackets
  · rw [bracketsAfterAll_append, hbalanced]
    exact hus more ((List.prefix_append_right_inj ts).mp hvs) brackets

/-- A token that opens no bracket climbs no level. -/
theorem singleton {u : LocatedToken} (hu : u.token.kind ∉ Rules.openingBrackets) : Climbs levels [u] := by
  intro us hus brackets
  rcases List.prefix_cons_iff.mp hus with rfl | ⟨more, rfl, hmore⟩
  · exact Nat.le_add_right _ _
  · rw [List.prefix_nil.mp hmore]
    exact Nat.le_trans (length_bracketsAfter_le hu brackets) (Nat.le_add_right _ _)

/-- An opening bracket climbs one. -/
theorem cons_left {u : LocatedToken} {kind : BracketKind} (hu : u.token.kind = .mark kind.left)
    {ts : List LocatedToken} (hts : Climbs levels ts) : Climbs (levels + 1) (u :: ts) := by
  intro us hus brackets
  rcases List.prefix_cons_iff.mp hus with rfl | ⟨more, rfl, hmore⟩
  · exact Nat.le_add_right _ _
  · have hinner := hts more hmore (kind :: brackets)
    rw [bracketsAfterAll_cons, bracketsAfter_left brackets hu]
    rw [List.length_cons] at hinner
    omega

end Climbs

/-- Whether one place comes after another with tokens in between at which no more than the given number of
brackets is open. -/
def Cursor.Reaches (levels : Nat) (c c' : Cursor) : Prop :=
  ∃ us, c.rest = us ++ c'.rest ∧ Climbs levels us

open Rule

/-- Whether a rule moreover passes over no more open brackets than the given number, however it ends. -/
structure Confined {s : Bool} {α : Type} (levels : Nat) (r : Rule s α) : Prop extends Nests levels r where
  reaches : ∀ c : Cursor, c.Reaches levels (r.run c).cursor

namespace Cursor.Reaches

/-- A place is reached from itself. -/
theorem refl (c : Cursor) : c.Reaches levels c :=
  ⟨[], rfl, .nil⟩

/-- A token that opens no bracket is passed over on any level. -/
theorem token {kind : TokenKind} (h : kind ∉ Rules.openingBrackets) (c : Cursor) :
    c.Reaches levels ((Rule.token kind).run c).cursor := by
  rw [run]
  split
  · rename_i u rest hrest
    split
    · rename_i hkind
      exact ⟨[u], hrest, .singleton (hkind ▸ h)⟩
    · exact refl c
  · exact refl c

/-- Where a run goes on after another one, what that one has read is balanced. -/
theorem bind {c : Cursor} {o : Outcome α} {f : α → Cursor → Outcome β} (ho : c.Reaches levels o.cursor)
    (hbalanced : ∀ {x d}, o = .ok x d → ∃ ts, c.rest = ts ++ d.rest ∧ Balanced ts)
    (hf : ∀ x d, o = .ok x d → d.Reaches levels (f x d).cursor) : c.Reaches levels (o.bind f).cursor := by
  cases o with
  | failed fault d => exact ho
  | ok x d =>
    obtain ⟨us, hus, hclimbs⟩ := ho
    obtain ⟨ts, hts, hbalanced⟩ := hbalanced rfl
    obtain rfl : us = ts := List.append_cancel_right (hus.symm.trans hts)
    obtain ⟨vs, hvs, hclimbs'⟩ := hf x d rfl
    refine ⟨us ++ vs, ?_, hclimbs.append hbalanced hclimbs'⟩
    rw [hts, hvs, List.append_assoc]
    rfl

end Cursor.Reaches

/-- What a run has read is balanced. -/
theorem Nests.exists_balanced {r : Rule s α} (h : Nests levels r) {c d : Cursor} {x : α}
    (hrun : r.run c = .ok x d) : ∃ ts, c.rest = ts ++ d.rest ∧ Balanced ts := by
  obtain ⟨ts, hpasses, hreads⟩ := reads_of_run hrun
  exact ⟨ts, hpasses.rest, h.balanced hreads⟩

namespace Confined

/-- Reading nothing passes over no bracket. -/
theorem nothing (value : α) : Confined levels (.nothing value) :=
  ⟨.nothing value, fun c => .refl c⟩

/-- A token that is no bracket is passed over without opening one. -/
theorem token {kind : TokenKind} (h : kind ∉ bracketMarks) : Confined levels (.token kind) := by
  refine ⟨.token h, .token fun hmem => h ?_⟩
  have hsub : ∀ k ∈ Rules.openingBrackets, k ∈ bracketMarks := by decide
  exact hsub kind hmem

/-- Two rules in a row are confined as each of them is. -/
theorem seq {a : Rule s α} {b : Rule t β} (ha : Confined levels a) (hb : Confined levels b) :
    Confined levels (.seq a b) := by
  refine ⟨ha.toNests.seq hb.toNests, fun c => ?_⟩
  refine .bind (ha.reaches c) ha.exists_balanced fun x d _ => ?_
  rw [Outcome.cursor_map]
  exact hb.reaches d

/-- A choice is confined as the two rules are. -/
theorem choice {a : Rule true α} {b : Rule t α} (ha : Confined levels a) (hb : Confined levels b) :
    Confined levels (.choice a b) := by
  refine ⟨ha.toNests.choice hb.toNests, fun c => ?_⟩
  rw [run]
  split
  · exact ha.reaches c
  · exact hb.reaches (c.miss a.first)

/-- A repetition is confined as its rounds are. -/
theorem iterate {body : Rule true (Step α)} (h : Confined levels body) :
    Confined levels (.iterate body) := by
  refine ⟨h.toNests.iterate, fun c => ?_⟩
  -- every round leaves fewer tokens
  induction c using Cursor.induction_on_rest with
  | step c ih =>
    rw [run_iterate]
    split
    · refine .bind (h.reaches c) h.exists_balanced fun value d hrun => ?_
      cases value with
      | last a => exact .refl d
      | more a =>
        rw [Outcome.cursor_map]
        exact ih d (length_lt_of_run hrun)
    · exact .refl c

/-- What is made of a value has no part in the confinement. -/
theorem map {f : α → β} {r : Rule s α} (h : Confined levels r) : Confined levels (.map f r) := by
  refine ⟨h.toNests.map, fun c => ?_⟩
  rw [run, Outcome.cursor_map]
  exact h.reaches c

/-- A range has no part in the confinement. -/
theorem ranged {f : α → Range → β} {r : Rule true α} (h : Confined levels r) :
    Confined levels (.ranged f r) :=
  ⟨h.toNests.ranged, fun c => .bind (h.reaches c) h.exists_balanced fun _ d _ => .refl d⟩

/-- What is optional is confined as it is itself. -/
theorem optional {r : Rule true α} (h : Confined levels r) : Confined levels r.optional :=
  h.map.choice (.nothing none)

/-- Any number of times is confined as once. -/
theorem many {r : Rule true α} (h : Confined levels r) : Confined levels r.many :=
  h.map.iterate

/-- One or more times is confined as once. -/
theorem oneOrMore {r : Rule true α} (h : Confined levels r) : Confined levels r.oneOrMore :=
  (h.seq h.many).map

/-- Brackets are one level more than what stands between them. -/
theorem between (kind : BracketKind) {r : Rule s α} (h : Confined levels r) :
    Confined (levels + 1) (skipThen (Rules.mark kind.left) (thenSkip r (Rules.mark kind.right))) := by
  refine ⟨h.toNests.between kind, fun c => ?_⟩
  have hinner : ∀ d : Cursor, d.Reaches levels ((thenSkip r (Rules.mark kind.right)).run d).cursor := by
    intro d
    rw [thenSkip, run, Outcome.cursor_map]
    refine .bind (h.reaches d) h.exists_balanced fun x e _ => ?_
    rw [Outcome.cursor_map]
    exact .token (by cases kind <;> decide) e
  rw [skipThen, run, Outcome.cursor_map, run]
  cases hrun : (Rules.mark kind.left).run c with
  | failed fault d => exact eq_of_token_failed hrun ▸ .refl c
  | ok u d =>
    obtain ⟨_, hpasses, rfl, hleft⟩ := reads_of_run hrun
    obtain ⟨us, hus, hclimbs⟩ := hinner d
    refine ⟨u :: us, ?_, hclimbs.cons_left hleft⟩
    rw [hpasses.rest, hus]
    simp only [Outcome.bind, Outcome.cursor_map]
    rfl

/-! ### The rules of grammar files -/

/-- A rule without brackets is confined to any level. -/
theorem of_unbracketed {r : Rule s α} (hr : r.unbracketed) : Confined levels r := by
  induction r with
  | nothing value => exact .nothing value
  | token kind => exact .token (by simpa [unbracketed] using hr)
  | seq a b iha ihb =>
    rw [unbracketed, Bool.and_eq_true] at hr
    exact (iha hr.1).seq (ihb hr.2)
  | choice a b iha ihb =>
    rw [unbracketed, Bool.and_eq_true] at hr
    exact (iha hr.1).choice (ihb hr.2)
  | iterate body ih => exact (ih hr).iterate
  | map f rule ih => exact (ih hr).map
  | ranged f rule ih => exact (ih hr).ranged
  | tooDeep => cases hr

/-- A body is confined as its factors are. -/
theorem alternations {factor : Rule true Factor} (h : Confined levels factor) :
    Confined levels (Rules.alternations factor) := by
  have hone : Confined levels (Rules.alternation factor) := h.oneOrMore.ranged
  exact (hone.seq ((of_unbracketed rfl).seq hone.optional).map.iterate).ranged

/-- Brackets are confined to one level more than the body between them. -/
theorem bracketed (kind : BracketKind) {body : Rule true Alternations} (h : Confined levels body) :
    Confined (levels + 1) (Rules.bracketed kind body) :=
  (h.optional.between kind).ranged

/-- A factor is confined to the levels that it is made with. -/
theorem factor (levels : Nat) : Confined levels (Rules.factor levels) := by
  induction levels with
  | zero =>
    refine ⟨.factor 0, fun c => ?_⟩
    have hsymbol : Confined 0 (.map Factor.symbol Rules.symbol) := .of_unbracketed rfl
    rw [Rules.factor, run]
    split
    · rw [run]
      split <;> exact .refl c
    · exact hsymbol.reaches (c.miss _)
  | succ levels ih =>
    have hbody := ih.alternations
    exact (hbody.bracketed .group).choice
      ((hbody.bracketed .optional).choice ((hbody.bracketed .repetition).choice (.of_unbracketed rfl)))

/-- A production is confined to the levels that it is made with. -/
theorem production (levels : Nat) : Confined levels (Rules.production levels) := by
  have hbody := (factor levels).alternations
  have hbodies : Confined levels (Rules.productionBody levels) :=
    ((of_unbracketed rfl).seq hbody).map.map.choice (hbody.map.choice (.nothing _))
  exact ((of_unbracketed rfl).seq
    ((of_unbracketed rfl).seq (hbodies.seq (.of_unbracketed rfl)).map).map).ranged

/-- A scanner state has braces, but no levels. -/
theorem scannerState (levels : Nat) : Confined (levels + 1) Rules.scannerState := by
  have hdirectives : Confined levels Rules.directive.many := .of_unbracketed rfl
  exact ((of_unbracketed rfl).seq ((of_unbracketed rfl).seq (hdirectives.between .repetition))).map.ranged

/-- A prolog is confined to one level or more, for the braces of scanner states. -/
theorem prolog (levels : Nat) : Confined (levels + 1) Rules.prolog :=
  ((of_unbracketed rfl).seq
    ((of_unbracketed rfl : Confined _ Rules.declaration.many).seq (scannerState levels).many)).ranged

/-- **No run of the rule of a file passes over more open brackets than there may be.** -/
theorem file (levels : Nat) : Confined (levels + 1) (Rules.file (levels + 1)) :=
  ((prolog levels).seq
    ((of_unbracketed rfl).seq (production (levels + 1)).oneOrMore).map.ranged).map

/-! ### Where a bracket is refused -/

/-- **A bracket that is refused stands inside just as many as there may be**, and no bracket in
front of it stands inside as many. -/
theorem refused_at_limit {r : Rule s α} (h : Confined levels r) {c c' : Cursor} {limit : Nat}
    (hrun : r.run c = .failed (.tooDeep limit) c') :
    limit = maxNesting ∧ ∃ us t rest, c.rest = us ++ t :: rest ∧ c'.rest = t :: rest ∧
      t.token.kind ∈ Rules.openingBrackets ∧ (openBrackets (us.map (·.token))).length = levels ∧
      Climbs levels us := by
  obtain ⟨rfl, us, hus, t, ht, hlength⟩ := h.toNests.refused hrun
  obtain ⟨us', hus', hclimbs⟩ := h.reaches c
  rw [hrun] at hus'
  obtain rfl : us = us' := List.append_cancel_right (hus.symm.trans hus')
  obtain ⟨rest, hrest⟩ : ∃ rest, c'.rest = t :: rest := List.head?_eq_some_iff.mp ht
  have hopen := hlength []
  rw [bracketsAfterAll_append, List.length_nil, Nat.zero_add] at hopen
  have hbefore : (bracketsAfterAll [] us).length ≤ levels := by
    simpa using hclimbs us List.prefix_rfl []
  have hkind : t.token.kind ∈ Rules.openingBrackets := by
    by_contra hclosed
    have hle := length_bracketsAfter_le hclosed (bracketsAfterAll [] us)
    have hsame : (bracketsAfterAll (bracketsAfterAll [] us) [t]).length ≤ levels :=
      Nat.le_trans hle hbefore
    omega
  refine ⟨rfl, us, t, rest, hrest ▸ hus, hrest, hkind, ?_, hclimbs⟩
  obtain ⟨kind, -, hleft⟩ := List.mem_map.mp hkind
  rw [bracketsAfterAll_cons, bracketsAfter_left _ hleft.symm] at hopen
  exact Nat.succ.inj hopen

end Confined

end GrammarFile
