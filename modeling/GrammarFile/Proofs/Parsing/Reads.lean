import GrammarFile.Parse.Rule
import Mathlib.Data.List.Basic

/-!
# What a rule reads

`Rule.Reads r tokens value` says what a rule stands for, without a cursor and without deciding
anything: the tokens can be cut up as the rule asks for, and `value` is what it builds from the parts.
Ranges are part of it. A rule with a range sees that of its first token through that of its last.

Running a rule finds such a reading, at the front of the tokens, and stops right behind it
(`reads_of_run`). A rule that always consumes a token reads at least one (`ne_nil_of_reads`), and starts
with a kind from its `first` list (`kind_mem_first_of_reads`).
-/

namespace GrammarFile

/-- The range of the last of some tokens, or the given one where there are none. -/
def lastRange (r : Range) : List LocatedToken → Range
  | [] => r
  | t :: ts => lastRange t.range ts

/-- The range from the first of some tokens through the last. -/
def spanOf : List LocatedToken → Range
  | [] => .origin
  | t :: ts => t.range.through (lastRange t.range ts)

/-- The last of tokens behind tokens is that of the later ones, if there are any. -/
theorem lastRange_append (r : Range) (ts us : List LocatedToken) :
    lastRange r (ts ++ us) = lastRange (lastRange r ts) us := by
  induction ts generalizing r with
  | nil => rfl
  | cons t ts ih => exact ih t.range

/-- Whether one cursor comes after another with the given tokens in between. -/
structure Passes (c : Cursor) (ts : List LocatedToken) (c' : Cursor) : Prop where
  rest : c.rest = ts ++ c'.rest
  last : c'.last = lastRange c.last ts

namespace Passes

/-- No token is passed by looking for some kinds in vain. -/
theorem none (c : Cursor) (kinds : List TokenKind) : Passes c [] (c.miss kinds) :=
  ⟨rfl, rfl⟩

/-- Tokens that are passed over in turn are passed over. -/
theorem trans {c d e : Cursor} {ts us : List LocatedToken} (h : Passes c ts d) (h' : Passes d us e) :
    Passes c (ts ++ us) e := by
  refine ⟨?_, ?_⟩
  · rw [h.rest, h'.rest, List.append_assoc]
  · rw [h'.last, h.last, lastRange_append]

end Passes

/-- Rounds of a repetition: any number of them, of which one may be the last by its own value. -/
inductive Rounds {α : Type} (reads : List LocatedToken → Step α → Prop) :
    List LocatedToken → List α → Prop where
  | done : Rounds reads [] []
  | last {ts : List LocatedToken} {a : α} : reads ts (.last a) → Rounds reads ts [a]
  | more {ts us : List LocatedToken} {a : α} {as : List α} :
      reads ts (.more a) → Rounds reads us as → Rounds reads (ts ++ us) (a :: as)

namespace Outcome

variable {α β : Type}

/-- A value that is made of another comes from it. -/
theorem map_eq_ok {f : α → β} {o : Outcome α} {y : β} {c : Cursor} (h : o.map f = .ok y c) :
    ∃ x, o = .ok x c ∧ y = f x := by
  cases o with
  | ok x c' =>
    cases h
    exact ⟨x, rfl, rfl⟩
  | failed => cases h

/-- A run that goes on and succeeds has succeeded twice. -/
theorem bind_eq_ok {o : Outcome α} {f : α → Cursor → Outcome β} {y : β} {c : Cursor}
    (h : o.bind f = .ok y c) : ∃ x d, o = .ok x d ∧ f x d = .ok y c := by
  cases o with
  | ok x d => exact ⟨x, d, rfl, h⟩
  | failed => cases h

end Outcome

namespace Rule

/-- Whether a rule can read some tokens, all of them, and build the given value. -/
def Reads : {s : Bool} → {α : Type} → Rule s α → List LocatedToken → α → Prop
  | _, _, nothing value, ts, x => ts = [] ∧ x = value
  | _, _, token kind, ts, t => ts = [t] ∧ t.token.kind = kind
  | _, _, seq a b, ts, x => ∃ us vs, ts = us ++ vs ∧ a.Reads us x.1 ∧ b.Reads vs x.2
  | _, _, choice a b, ts, x => a.Reads ts x ∨ b.Reads ts x
  | _, _, iterate body, ts, xs => Rounds body.Reads ts xs
  | _, _, map f rule, ts, y => ∃ x, rule.Reads ts x ∧ y = f x
  | _, _, ranged f rule, ts, y => ∃ x, rule.Reads ts x ∧ y = f x (spanOf ts)
  | _, _, tooDeep _ _, _, _ => False

/-! ### Any number of rounds -/

section Many

variable {α : Type} {r : Rule true α}

/-- Any number may be none. -/
theorem reads_many_nil : (many r).Reads [] [] :=
  Rounds.done

/-- One may be read in front of any number. -/
theorem reads_many_cons {ts us : List LocatedToken} {x : α} {xs : List α} (h : r.Reads ts x)
    (hs : (many r).Reads us xs) : (many r).Reads (ts ++ us) (x :: xs) :=
  Rounds.more ⟨x, h, rfl⟩ hs

/-- Induction on the rounds of a rule. -/
@[elab_as_elim]
theorem many_induction {motive : (ts : List LocatedToken) → (xs : List α) → (many r).Reads ts xs → Prop}
    (nil : motive [] [] reads_many_nil)
    (cons : ∀ {ts us x xs} (h : r.Reads ts x) (hs : (many r).Reads us xs), motive us xs hs →
      motive (ts ++ us) (x :: xs) (reads_many_cons h hs))
    {ts : List LocatedToken} {xs : List α} (h : (many r).Reads ts xs) : motive ts xs h := by
  have hall : ∀ {ts xs} (h : Rounds (map Step.more r).Reads ts xs), motive ts xs h := by
    intro ts xs h
    induction h with
    | done => exact nil
    | last h =>
      obtain ⟨_, _, h⟩ := h
      cases h
    | more h hs ih =>
      obtain ⟨_, h, heq⟩ := h
      cases heq
      exact cons h hs ih
  exact hall h

/-- One or more are one in front of any number. -/
theorem reads_oneOrMore {ts : List LocatedToken} {xs : List α} :
    (oneOrMore r).Reads ts xs ↔
      ∃ us vs x rest, ts = us ++ vs ∧ xs = x :: rest ∧ r.Reads us x ∧ (many r).Reads vs rest := by
  constructor
  · rintro ⟨⟨x, rest⟩, ⟨us, vs, rfl, h, hs⟩, rfl⟩
    exact ⟨us, vs, x, rest, rfl, rfl, h, hs⟩
  · rintro ⟨us, vs, x, rest, rfl, rfl, h, hs⟩
    exact ⟨(x, rest), ⟨us, vs, rfl, h, hs⟩, rfl⟩

/-- Some rounds are any number of rounds. -/
theorem reads_many_of_oneOrMore {ts : List LocatedToken} {xs : List α} (h : (oneOrMore r).Reads ts xs) :
    (many r).Reads ts xs := by
  obtain ⟨us, vs, x, rest, rfl, rfl, h, hs⟩ := reads_oneOrMore.mp h
  exact reads_many_cons h hs

end Many

/-! ### The first token -/

/-- A rule that always consumes a token reads at least one. -/
theorem ne_nil_of_reads {s : Bool} {α : Type} {r : Rule s α} (hs : s = true) {ts : List LocatedToken}
    {x : α} (h : r.Reads ts x) : ts ≠ [] := by
  induction r generalizing ts with
  | nothing => cases hs
  | token kind =>
    obtain ⟨rfl, -⟩ := h
    exact List.cons_ne_nil _ _
  | seq a b iha ihb =>
    obtain ⟨us, vs, rfl, ha, hb⟩ := h
    rcases Bool.or_eq_true_iff.mp hs with hs | hs
    · exact List.append_ne_nil_of_left_ne_nil (iha hs ha) vs
    · exact List.append_ne_nil_of_right_ne_nil us (ihb hs hb)
  | choice a b iha ihb => exact h.elim (iha rfl) (ihb hs)
  | iterate => cases hs
  | map f rule ih =>
    obtain ⟨y, hy, -⟩ := h
    exact ih hs hy
  | ranged f rule ih =>
    obtain ⟨y, hy, -⟩ := h
    exact ih hs hy
  | tooDeep => exact h.elim

/-- What a rule reads starts with a kind that the rule can start with. -/
theorem kind_mem_first_of_reads {s : Bool} {α : Type} {r : Rule s α} {ts : List LocatedToken} {x : α}
    (h : r.Reads ts x) {t : LocatedToken} (ht : ts.head? = some t) : t.token.kind ∈ r.first := by
  induction r generalizing ts with
  | nothing =>
    obtain ⟨rfl, -⟩ := h
    cases ht
  | token kind =>
    obtain ⟨rfl, hkind⟩ := h
    cases ht
    exact List.mem_singleton.mpr hkind
  | @seq s _ _ _ a b iha ihb =>
    obtain ⟨us, vs, rfl, ha, hb⟩ := h
    unfold first
    cases us with
    | nil =>
      -- the first rule read nothing, so it is none that always consumes a token
      rw [if_neg fun hs => ne_nil_of_reads hs ha rfl]
      exact List.mem_append_right _ (ihb hb ht)
    | cons u us =>
      have hmem := iha ha ht
      split
      · exact hmem
      · exact List.mem_append_left _ hmem
  | choice a b iha ihb =>
    refine List.mem_append.mpr (h.imp ?_ ?_)
    · exact fun h => iha h ht
    · exact fun h => ihb h ht
  | iterate body ih =>
    cases h with
    | done => cases ht
    | last h => exact ih h ht
    | @more us _ _ _ h _ =>
      cases us with
      | nil => exact absurd rfl (ne_nil_of_reads rfl h)
      | cons u us => exact ih h ht
  | map f rule ih =>
    obtain ⟨y, hy, -⟩ := h
    exact ih hy ht
  | ranged f rule ih =>
    obtain ⟨y, hy, -⟩ := h
    exact ih hy ht
  | tooDeep => exact h.elim

/-! ### Running a rule finds a reading -/

/-- Rounds of steps that read are rounds of readings. -/
theorem rounds_of_iterateRounds {α : Type} {first : List TokenKind}
    {step : Cursor → Outcome (Step α)} {reads : List LocatedToken → Step α → Prop}
    (hstep : ∀ {c x c'}, step c = .ok x c' → ∃ ts, Passes c ts c' ∧ reads ts x)
    {ahead : List LocatedToken} {c c' : Cursor} {xs : List α}
    (h : iterateRounds first step ahead c = .ok xs c') : ∃ ts, Passes c ts c' ∧ Rounds reads ts xs := by
  induction ahead generalizing c c' xs with
  | nil =>
    cases h
    exact ⟨[], .none c first, .done⟩
  | cons _ ahead ih =>
    unfold iterateRounds at h
    split at h
    · obtain ⟨value, d, hvalue, h⟩ := Outcome.bind_eq_ok h
      obtain ⟨ts, hpasses, hreads⟩ := hstep hvalue
      cases value with
      | last a =>
        cases h
        exact ⟨ts, hpasses, .last hreads⟩
      | more a =>
        obtain ⟨as, has, rfl⟩ := Outcome.map_eq_ok h
        obtain ⟨us, hpasses', hround⟩ := ih has
        exact ⟨ts ++ us, hpasses.trans hpasses', .more hreads hround⟩
    · cases h
      exact ⟨[], .none c first, .done⟩

/-- **A run that gives a value has read it.** The tokens up to where it ends are those that the rule
reads. -/
theorem reads_of_run {s : Bool} {α : Type} {r : Rule s α} {c c' : Cursor} {x : α}
    (h : r.run c = .ok x c') : ∃ ts, Passes c ts c' ∧ r.Reads ts x := by
  induction r generalizing c c' with
  | nothing value =>
    cases h
    exact ⟨[], .none c [], rfl, rfl⟩
  | token kind =>
    unfold run at h
    split at h
    case h_1 t rest hrest =>
      split at h
      · rename_i hkind
        cases h
        exact ⟨[x], ⟨hrest, rfl⟩, rfl, hkind⟩
      · cases h
    case h_2 => cases h
  | seq a b iha ihb =>
    unfold run at h
    obtain ⟨y, d, hy, h⟩ := Outcome.bind_eq_ok h
    obtain ⟨z, hz, rfl⟩ := Outcome.map_eq_ok h
    obtain ⟨ts, hpasses, hreads⟩ := iha hy
    obtain ⟨us, hpasses', hreads'⟩ := ihb hz
    exact ⟨ts ++ us, hpasses.trans hpasses', ts, us, rfl, hreads, hreads'⟩
  | choice a b iha ihb =>
    unfold run at h
    split at h
    · obtain ⟨ts, hpasses, hreads⟩ := iha h
      exact ⟨ts, hpasses, .inl hreads⟩
    · obtain ⟨ts, hpasses, hreads⟩ := ihb h
      exact ⟨ts, (Passes.none c a.first).trans hpasses, .inr hreads⟩
  | iterate body ih =>
    unfold run at h
    exact rounds_of_iterateRounds ih h
  | map f rule ih =>
    unfold run at h
    obtain ⟨y, hy, rfl⟩ := Outcome.map_eq_ok h
    obtain ⟨ts, hpasses, hreads⟩ := ih hy
    exact ⟨ts, hpasses, y, hreads, rfl⟩
  | ranged f rule ih =>
    unfold run at h
    obtain ⟨y, d, hy, h⟩ := Outcome.bind_eq_ok h
    cases h
    obtain ⟨ts, hpasses, hreads⟩ := ih hy
    refine ⟨ts, hpasses, y, hreads, ?_⟩
    cases ts with
    | nil => exact absurd rfl (ne_nil_of_reads rfl hreads)
    | cons t ts =>
      rw [hpasses.rest, hpasses.last]
      rfl
  | tooDeep limit kinds =>
    unfold run at h
    split at h <;> cases h

end Rule

end GrammarFile
