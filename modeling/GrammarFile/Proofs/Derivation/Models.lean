import GrammarFile.Parse.Rules
import GrammarFile.Proofs.Derivation.Table
import GrammarFile.Proofs.Parsing.Reads

/-!
# Rules against phrases

A rule says how tokens are read, and a phrase of the table what may be written. `Phrase.Spells` puts the
phrase on the side of the tokens: a row of derivations whose leaves are the given tokens and whose
brackets nest to a number of levels. `Models levels r p parts` says that the rule `r` reads the same
tokens, and that `parts` turns what it builds into the derivations.

There is a lemma for each way in which rules and phrases are put together, so that a rule of grammar
files is matched with its line of the table by following its definition.
-/

namespace GrammarFile

/-- Whether a phrase derives the given row over the given tokens, with brackets nested to the given
number of levels. -/
structure Phrase.Spells (p : Phrase) (levels : Nat) (ts : List LocatedToken) (ds : List Derivation) :
    Prop where
  derives : p.Derives ds
  tokens : tokensOfParts ds = ts.map (·.token)
  nesting : nestingOfParts ds ≤ levels

namespace Phrase

variable {a b : Phrase} {levels : Nat} {ts : List LocatedToken} {ds : List Derivation}

/-- A token spells a token of its kind. -/
theorem spells_token {kind : TokenKind} :
    (token kind).Spells levels ts ds ↔ ∃ t, ts = [t] ∧ t.token.kind = kind ∧ ds = [.leaf t.token] := by
  constructor
  · rintro ⟨⟨hkind⟩, htokens, -⟩
    obtain ⟨t, rfl, rfl⟩ := List.map_eq_singleton_iff.mp htokens.symm
    exact ⟨t, rfl, hkind, rfl⟩
  · rintro ⟨t, rfl, hkind, rfl⟩
    exact ⟨.token hkind, rfl, Nat.zero_le _⟩

/-- Two phrases in a row spell tokens that can be cut in two. -/
theorem spells_seq :
    (seq a b).Spells levels ts ds ↔ ∃ us vs ds₁ ds₂, ts = us ++ vs ∧ ds = ds₁ ++ ds₂ ∧
      a.Spells levels us ds₁ ∧ b.Spells levels vs ds₂ := by
  constructor
  · rintro ⟨h, htokens, hnesting⟩
    cases h with | seq ha hb =>
    rw [tokensOfParts_append] at htokens
    obtain ⟨us, vs, rfl, hus, hvs⟩ := List.map_eq_append_iff.mp htokens.symm
    obtain ⟨hnesting₁, hnesting₂⟩ := nestingOfParts_append_le.mp hnesting
    exact ⟨us, vs, _, _, rfl, rfl, ⟨ha, hus.symm, hnesting₁⟩, ⟨hb, hvs.symm, hnesting₂⟩⟩
  · rintro ⟨us, vs, ds₁, ds₂, rfl, rfl, ha, hb⟩
    refine ⟨.seq ha.derives hb.derives, ?_, ?_⟩
    · rw [tokensOfParts_append, ha.tokens, hb.tokens, List.map_append]
    · exact nestingOfParts_append_le.mpr ⟨ha.nesting, hb.nesting⟩

/-- A choice spells what either phrase spells. -/
theorem spells_alt :
    (alt a b).Spells levels ts ds ↔ a.Spells levels ts ds ∨ b.Spells levels ts ds := by
  constructor
  · rintro ⟨h, htokens, hnesting⟩
    cases h with
    | left h => exact .inl ⟨h, htokens, hnesting⟩
    | right h => exact .inr ⟨h, htokens, hnesting⟩
  · rintro (h | h)
    · exact ⟨.left h.derives, h.tokens, h.nesting⟩
    · exact ⟨.right h.derives, h.tokens, h.nesting⟩

/-- A part that may be missing spells nothing, or what it spells when it is there. -/
theorem spells_opt :
    (opt a).Spells levels ts ds ↔ (ts = [] ∧ ds = []) ∨ a.Spells levels ts ds := by
  constructor
  · rintro ⟨h, htokens, hnesting⟩
    cases h with
    | none => exact .inl ⟨List.map_eq_nil_iff.mp htokens.symm, rfl⟩
    | some h => exact .inr ⟨h, htokens, hnesting⟩
  · rintro (⟨rfl, rfl⟩ | h)
    · exact ⟨.none, rfl, Nat.zero_le _⟩
    · exact ⟨.some h.derives, h.tokens, h.nesting⟩

/-- Any number of parts spell nothing, or what one part and then any number of them spell. -/
theorem spells_star :
    (star a).Spells levels ts ds ↔ (ts = [] ∧ ds = []) ∨ (seq a (star a)).Spells levels ts ds := by
  constructor
  · rintro ⟨h, htokens, hnesting⟩
    cases h with
    | done => exact .inl ⟨List.map_eq_nil_iff.mp htokens.symm, rfl⟩
    | more h hs => exact .inr ⟨.seq h hs, htokens, hnesting⟩
  · rintro (⟨rfl, rfl⟩ | ⟨h, htokens, hnesting⟩)
    · exact ⟨.done, rfl, Nat.zero_le _⟩
    · cases h with | seq h hs => exact ⟨.more h hs, htokens, hnesting⟩

/-- At least one part is one part and then any number of them. -/
theorem spells_plus : (plus a).Spells levels ts ds ↔ (seq a (star a)).Spells levels ts ds := by
  constructor
  · rintro ⟨h, htokens, hnesting⟩
    cases h with | plus h hs => exact ⟨.seq h hs, htokens, hnesting⟩
  · rintro ⟨h, htokens, hnesting⟩
    cases h with | seq h hs => exact ⟨.plus h hs, htokens, hnesting⟩

/-- A rule spells what its right-hand side does, with the levels it opens to spare. -/
theorem spells_rule {name : RuleName} :
    (rule name).Spells (levels + name.levels) ts ds ↔
      ∃ parts, ds = [.node name parts] ∧ name.phrase.Spells levels ts parts := by
  constructor
  · rintro ⟨h, htokens, hnesting⟩
    cases h with | rule h =>
    rw [tokensOfParts_singleton, Derivation.tokens] at htokens
    rw [nestingOfParts_singleton, Derivation.nesting] at hnesting
    exact ⟨_, rfl, h, htokens, Nat.le_of_add_le_add_right hnesting⟩
  · rintro ⟨parts, rfl, h⟩
    refine ⟨.rule h.derives, ?_, ?_⟩
    · rw [tokensOfParts_singleton, Derivation.tokens, h.tokens]
    · rw [nestingOfParts_singleton, Derivation.nesting]
      exact Nat.add_le_add_right h.nesting _

end Phrase

/-- Whether a rule reads just the tokens that a phrase spells, and builds values whose derivations are
the given parts. -/
def Models {s : Bool} {α : Type} (levels : Nat) (r : Rule s α) (p : Phrase)
    (parts : α → List Derivation) : Prop :=
  ∀ ts ds, p.Spells levels ts ds ↔ ∃ x, r.Reads ts x ∧ parts x = ds

namespace Models

open Phrase

variable {s t : Bool} {α β : Type} {levels : Nat}

/-- One token, where the leaf can be told from what is built. -/
theorem token {kind : TokenKind} {f : LocatedToken → α} {parts : α → List Derivation}
    (h : ∀ u, u.token.kind = kind → parts (f u) = [.leaf u.token]) :
    Models levels (.map f (.token kind)) (.token kind) parts := by
  intro ts ds
  rw [spells_token]
  constructor
  · rintro ⟨u, rfl, hkind, rfl⟩
    exact ⟨f u, ⟨u, ⟨rfl, hkind⟩, rfl⟩, h u hkind⟩
  · rintro ⟨_, ⟨u, ⟨rfl, hkind⟩, rfl⟩, rfl⟩
    exact ⟨u, rfl, hkind, h u hkind⟩

/-- One mark. Its leaf is known without looking. -/
theorem mark (m : Mark) : Models levels (Rules.mark m) (Phrase.mark m) fun _ => [.mark m] := by
  intro ts ds
  unfold Phrase.mark
  rw [spells_token]
  have hleaf : ∀ {u : Token}, u.kind = .mark m → u = .mark m := by
    intro u hu
    cases u with
    | mark m' =>
      cases hu
      rfl
    | _ => cases hu
  constructor
  · rintro ⟨u, rfl, hkind, rfl⟩
    exact ⟨u, ⟨rfl, hkind⟩, by rw [hleaf hkind, Derivation.mark]⟩
  · rintro ⟨u, ⟨rfl, hkind⟩, rfl⟩
    exact ⟨u, rfl, hkind, by rw [hleaf hkind, Derivation.mark]⟩

variable {r : Rule s α} {q : Rule t β} {p p' : Phrase} {parts : α → List Derivation}
  {parts' : β → List Derivation}

/-- One rule, then another. -/
theorem seq (h : Models levels r p parts) (h' : Models levels q p' parts') :
    Models levels (.seq r q) (.seq p p') fun x => parts x.1 ++ parts' x.2 := by
  intro ts ds
  rw [spells_seq]
  constructor
  · rintro ⟨us, vs, ds₁, ds₂, rfl, rfl, h₁, h₂⟩
    obtain ⟨x, hx, rfl⟩ := (h _ _).mp h₁
    obtain ⟨y, hy, rfl⟩ := (h' _ _).mp h₂
    exact ⟨(x, y), ⟨us, vs, rfl, hx, hy⟩, rfl⟩
  · rintro ⟨x, ⟨us, vs, rfl, hx, hy⟩, rfl⟩
    exact ⟨us, vs, _, _, rfl, rfl, (h _ _).mpr ⟨_, hx, rfl⟩, (h' _ _).mpr ⟨_, hy, rfl⟩⟩

/-- One rule or another. -/
theorem choice {r : Rule true α} {q : Rule t α} (h : Models levels r p parts)
    (h' : Models levels q p' parts) : Models levels (.choice r q) (.alt p p') parts := by
  intro ts ds
  rw [spells_alt, h ts ds, h' ts ds, ← exists_or]
  simp only [Rule.Reads, or_and_right]

/-- A function of what a rule builds, where the parts are the same as before. -/
theorem map (h : Models levels r p parts) {f : α → β} {parts' : β → List Derivation}
    (hf : ∀ {ts x}, r.Reads ts x → parts' (f x) = parts x) : Models levels (.map f r) p parts' := by
  intro ts ds
  rw [h ts ds]
  constructor
  · rintro ⟨x, hx, rfl⟩
    exact ⟨f x, ⟨x, hx, rfl⟩, hf hx⟩
  · rintro ⟨_, ⟨x, hx, rfl⟩, rfl⟩
    exact ⟨x, hx, (hf hx).symm⟩

/-- A function of what a rule builds and its range, where the parts are the same as before. -/
theorem ranged {r : Rule true α} (h : Models levels r p parts) {f : α → Range → β}
    {parts' : β → List Derivation} (hf : ∀ {ts x}, r.Reads ts x → ∀ range, parts' (f x range) = parts x) :
    Models levels (.ranged f r) p parts' := by
  intro ts ds
  rw [h ts ds]
  constructor
  · rintro ⟨x, hx, rfl⟩
    exact ⟨f x (spanOf ts), ⟨x, hx, rfl⟩, hf hx _⟩
  · rintro ⟨_, ⟨x, hx, rfl⟩, rfl⟩
    exact ⟨x, hx, (hf hx _).symm⟩

/-- The rule of the table that a phrase is the right-hand side of. -/
theorem rule {name : RuleName} (h : Models levels r name.phrase parts) :
    Models (levels + name.levels) r (.rule name) fun x => [.node name (parts x)] := by
  intro ts ds
  rw [spells_rule]
  constructor
  · rintro ⟨ds, rfl, hds⟩
    obtain ⟨x, hx, rfl⟩ := (h _ _).mp hds
    exact ⟨x, hx, rfl⟩
  · rintro ⟨x, hx, rfl⟩
    exact ⟨_, rfl, (h _ _).mpr ⟨x, hx, rfl⟩⟩

/-- A rule of the table that opens no bracket. -/
theorem named (name : RuleName) (hname : name.levels = 0) (h : Models levels r name.phrase parts) :
    Models levels r (.rule name) fun x => [.node name (parts x)] := by
  have hrule := h.rule
  rwa [hname] at hrule

/-- A node with a kind and a range, whose parts depend on the kind alone. -/
theorem ofKind {r : Rule true α} {mk : α → Range → β} {node : β → Derivation}
    (h : Models levels r p fun k => (node (mk k .origin)).parts)
    (hnode : ∀ k range, (node (mk k range)).parts = (node (mk k .origin)).parts) :
    Models levels (.ranged mk r) p fun x => (node x).parts :=
  h.ranged fun _ => hnode _

/-- A phrase that spells the same. -/
theorem congr (h : Models levels r p parts)
    (hp : ∀ ts ds, p'.Spells levels ts ds ↔ p.Spells levels ts ds) : Models levels r p' parts :=
  fun ts ds => (hp ts ds).trans (h ts ds)

/-- One rule or another, in the other order. -/
theorem choice_comm {r : Rule true α} {q : Rule t α} (h : Models levels r p parts)
    (h' : Models levels q p' parts) : Models levels (.choice r q) (.alt p' p) parts := by
  refine (h.choice h').congr fun ts ds => ?_
  rw [spells_alt, spells_alt, or_comm]

/-- A mark, then a rule whose value counts. -/
theorem afterMark (m : Mark) (h : Models levels r p parts) :
    Models levels (.skipThen (Rules.mark m) r) (.seq (.mark m) p) fun x => .mark m :: parts x :=
  ((Models.mark m).seq h).map fun _ => rfl

/-- A rule whose value counts, then a mark. -/
theorem beforeMark (m : Mark) (h : Models levels r p parts) :
    Models levels (.thenSkip r (Rules.mark m)) (.seq p (.mark m)) fun x => parts x ++ [.mark m] :=
  (h.seq (Models.mark m)).map fun _ => rfl

/-- A rule that may be left out. -/
theorem optional {r : Rule true α} {f : α → Derivation} (h : Models levels r p fun x => [f x]) :
    Models levels r.optional (.opt p) fun o => (o.map f).toList := by
  intro ts ds
  rw [spells_opt, h ts ds]
  constructor
  · rintro (⟨rfl, rfl⟩ | ⟨x, hx, rfl⟩)
    · exact ⟨none, .inr ⟨rfl, rfl⟩, rfl⟩
    · exact ⟨some x, .inl ⟨x, hx, rfl⟩, rfl⟩
  · rintro ⟨_, ⟨x, hx, rfl⟩ | ⟨rfl, rfl⟩, rfl⟩
    · exact .inr ⟨x, hx, rfl⟩
    · exact .inl ⟨rfl, rfl⟩

/-- Any number of rounds of a rule. -/
theorem many {r : Rule true α} (h : Models levels r p parts) :
    Models levels r.many (.star p) fun xs => xs.flatMap parts := by
  intro ts ds
  constructor
  · rintro ⟨hds, htokens, hnesting⟩
    generalize hp : p.star = p' at hds
    induction hds generalizing ts with
    | done =>
      obtain rfl := List.map_eq_nil_iff.mp htokens.symm
      exact ⟨[], Rule.reads_many_nil, rfl⟩
    | more hds _ _ ih =>
      cases hp
      rw [tokensOfParts_append] at htokens
      obtain ⟨us, vs, rfl, hus, hvs⟩ := List.map_eq_append_iff.mp htokens.symm
      obtain ⟨hnesting₁, hnesting₂⟩ := nestingOfParts_append_le.mp hnesting
      obtain ⟨x, hx, rfl⟩ := (h us _).mp ⟨hds, hus.symm, hnesting₁⟩
      obtain ⟨xs, hxs, rfl⟩ := ih vs hvs.symm hnesting₂ rfl
      exact ⟨x :: xs, Rule.reads_many_cons hx hxs, rfl⟩
    | _ => cases hp
  · rintro ⟨xs, hxs, rfl⟩
    induction hxs using Rule.many_induction with
    | nil => exact spells_star.mpr (.inl ⟨rfl, rfl⟩)
    | @cons us vs x xs hx _ ih =>
      refine spells_star.mpr (.inr (spells_seq.mpr ?_))
      exact ⟨us, vs, _, _, rfl, rfl, (h us _).mpr ⟨x, hx, rfl⟩, ih⟩

/-- Any number of rounds of a rule that builds nodes. -/
theorem nodes {r : Rule true α} {f : α → Derivation} (h : Models levels r p fun x => [f x]) :
    Models levels r.many (.star p) fun xs => xs.map f := by
  simpa only [List.map_eq_flatMap] using h.many

/-- At least one round of a rule. -/
theorem oneOrMore {r : Rule true α} (h : Models levels r p parts) :
    Models levels r.oneOrMore (.plus p) fun xs => xs.flatMap parts := by
  intro ts ds
  rw [spells_plus]
  have hmap : Models levels r.oneOrMore (.seq p (.star p)) fun xs => xs.flatMap parts :=
    (h.seq h.many).map fun _ => rfl
  exact hmap ts ds

/-- At least one round of a rule with a mark between the rounds. -/
theorem separated (m : Mark) {r : Rule true α} (h : Models levels r p parts)
    {parts' : List α → List Derivation}
    (hparts : ∀ x xs, parts' (x :: xs) = parts x ++ xs.flatMap fun y => .mark m :: parts y) :
    Models levels (.separated (Rules.mark m) r) (.seq p (.star (.seq (.mark m) p))) parts' :=
  (h.seq (h.afterMark m).many).map fun _ => hparts _ _

/-! ### Derivations of given tokens -/

section Derivations

variable {r : Rule s α} {name : RuleName} {f : α → Derivation} {ts : List LocatedToken}

/-- **A rule for a line of the table reads the tokens of its derivations**, with brackets nested to the
given number of levels. -/
theorem exists_derives_iff (h : Models levels r (.rule name) fun x => [f x]) :
    (∃ d : Derivation, (Phrase.rule name).Derives [d] ∧ d.tokens = ts.map (·.token) ∧
      d.nesting ≤ levels) ↔ ∃ x, r.Reads ts x := by
  constructor
  · rintro ⟨d, hd, htokens, hnesting⟩
    have hspells : (Phrase.rule name).Spells levels ts [d] :=
      ⟨hd, (tokensOfParts_singleton d).trans htokens, (nestingOfParts_singleton d).symm ▸ hnesting⟩
    obtain ⟨x, hx, -⟩ := (h ts [d]).mp hspells
    exact ⟨x, hx⟩
  · rintro ⟨x, hx⟩
    obtain ⟨hd, htokens, hnesting⟩ := (h ts [f x]).mpr ⟨x, hx, rfl⟩
    exact ⟨f x, hd, (tokensOfParts_singleton _).symm.trans htokens,
      nestingOfParts_singleton (f x) ▸ hnesting⟩

/-- Where the number of levels makes no difference, it reads the tokens of all of them. -/
theorem exists_derives_iff_of_forall (h : ∀ levels, Models levels r (.rule name) fun x => [f x]) :
    (∃ d : Derivation, (Phrase.rule name).Derives [d] ∧ d.tokens = ts.map (·.token)) ↔
      ∃ x, r.Reads ts x := by
  constructor
  · rintro ⟨d, hd, htokens⟩
    exact (h d.nesting).exists_derives_iff.mp ⟨d, hd, htokens, Nat.le_refl _⟩
  · intro hreads
    obtain ⟨d, hd, htokens, -⟩ := (h 0).exists_derives_iff.mpr hreads
    exact ⟨d, hd, htokens⟩

end Derivations

end Models

end GrammarFile
