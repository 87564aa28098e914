import GrammarFile.Parse.Rules
import GrammarFile.Proofs.Parsing.Reads

/-!
# What lies along the tokens that are read

Some things that can be taken from a tree lie along the tokens that it was read from: its names, its
nodes, the nodes of its outline. `Rule.Along r C f` says so of what `f` takes from the values of a rule,
where the relation `C` says what lying along tokens means. It need only say that nothing lies along no
tokens, and that what lies along two rows of tokens lies along them in a row (`Joins`). Then everything
that rules are made of keeps it.
-/

namespace GrammarFile

/-- What a round gives, whether it is the last or not. -/
def Step.value {α : Type} : Step α → α
  | more a | last a => a

/-- Whether lying along some tokens is kept when rows of tokens are joined. -/
class Joins {ρ : Type} (C : List ρ → List LocatedToken → Prop) : Prop where
  nil : C [] []
  append : ∀ {xs ys ts us}, C xs ts → C ys us → C (xs ++ ys) (ts ++ us)

variable {ρ : Type} {C : List ρ → List LocatedToken → Prop} {s t : Bool} {α β : Type} {f : α → List ρ}
  {g : β → List ρ}

/-- Whether what is taken from the values of a rule lies along the tokens that it reads. -/
def Rule.Along (r : Rule s α) (C : List ρ → List LocatedToken → Prop) (f : α → List ρ) : Prop :=
  ∀ ⦃ts x⦄, r.Reads ts x → C (f x) ts

namespace Rule.Along

/-- It matters only what is taken from the values. -/
theorem congr {r : Rule s α} {f' : α → List ρ} (h : r.Along C f) (hf : ∀ x, f' x = f x) :
    r.Along C f' := by
  intro ts x hx
  rw [hf x]
  exact h hx

/-- What lies along the tokens of both rules lies along those of their choice. -/
theorem choice {a : Rule true α} {b : Rule t α} (ha : a.Along C f) (hb : b.Along C f) :
    (Rule.choice a b).Along C f := by
  rintro ts x (h | h)
  · exact ha h
  · exact hb h

/-- What is made of a value is taken from it. -/
theorem map {r : Rule s α} {F : α → β} (h : r.Along C fun x => g (F x)) : (Rule.map F r).Along C g := by
  rintro ts _ ⟨x, hx, rfl⟩
  exact h hx

/-- What is made of a value and a range lies along the tokens if it does for every range. -/
theorem ranged {r : Rule true α} {F : α → Range → β} (h : ∀ range, r.Along C fun x => g (F x range)) :
    (Rule.ranged F r).Along C g := by
  rintro ts _ ⟨x, hx, rfl⟩
  exact h _ hx

/-- A refused bracket has no tokens to lie along. -/
theorem tooDeep (limit : Nat) (kinds : List TokenKind) : (Rule.tooDeep limit kinds).Along C f :=
  fun _ _ h => h.elim

/-- What lies along symbols, and along brackets if it does along what they enclose, lies along factors,
however deep their brackets nest. -/
theorem factor {f : Factor → List ρ} {g : Alternations → List ρ}
    (hsymbol : (Rule.map Factor.symbol Rules.symbol).Along C f)
    (hbody : ∀ {r : Rule true Factor}, r.Along C f → (Rules.alternations r).Along C g)
    (hbracketed : ∀ (kind : BracketKind) {r : Rule true Alternations}, r.Along C g →
      (Rules.bracketed kind r).Along C f) (levels : Nat) : (Rules.factor levels).Along C f := by
  induction levels with
  | zero => exact .choice (.tooDeep _ _) hsymbol
  | succ levels ih =>
    have hinner := hbody ih
    exact .choice (hbracketed .group hinner)
      (.choice (hbracketed .optional hinner) (.choice (hbracketed .repetition hinner) hsymbol))

variable [Joins C]

/-- Nothing is taken where nothing is read. -/
theorem nothing {value : α} (h : f value = []) : (Rule.nothing value).Along C f := by
  rintro _ _ ⟨rfl, rfl⟩
  rw [h]
  exact Joins.nil

/-- What is taken from two values lies along the tokens of the two rules in a row. -/
theorem seq {a : Rule s α} {b : Rule t β} (ha : a.Along C f) (hb : b.Along C g) :
    (Rule.seq a b).Along C fun x => f x.1 ++ g x.2 := by
  rintro _ x ⟨us, vs, rfl, hx, hy⟩
  exact Joins.append (ha hx) (hb hy)

/-- What is taken round by round lies along the tokens of the repetition. -/
theorem iterate {body : Rule true (Step α)} (h : body.Along C fun x => f x.value) :
    (Rule.iterate body).Along C (·.flatMap f) := by
  intro ts xs hreads
  dsimp only
  induction hreads with
  | done => exact Joins.nil
  | last hx =>
    rw [List.flatMap_singleton]
    exact h hx
  | more hx _ ih =>
    rw [List.flatMap_cons]
    exact Joins.append (h hx) ih

/-- What is optional is taken if it is there. -/
theorem optional {r : Rule true α} (h : r.Along C f) : r.optional.Along C (·.elim [] f) :=
  .choice (.map h) (.nothing rfl)

/-- What is taken from each value lies along the tokens of them all. -/
theorem many {r : Rule true α} (h : r.Along C f) : r.many.Along C (·.flatMap f) :=
  .iterate (.map h)

/-- What is taken from each of one or more values lies along the tokens of them all. -/
theorem oneOrMore {r : Rule true α} (h : r.Along C f) : r.oneOrMore.Along C (·.flatMap f) :=
  .map (h.seq h.many)

variable {xs : List ρ}

/-- The same lies along what is skipped, whatever it is. -/
theorem skipThen {a : Rule s α} {b : Rule t β} (ha : a.Along C fun _ => xs) (hb : b.Along C g) :
    (a.skipThen b).Along C fun y => xs ++ g y :=
  .map (ha.seq hb)

/-- What is taken from the second value may be the same for all of them. -/
theorem thenSkip {a : Rule s α} {b : Rule t β} (ha : a.Along C f) (hb : b.Along C fun _ => xs) :
    (a.thenSkip b).Along C fun x => f x ++ xs :=
  .map (ha.seq hb)

/-- A second value of which nothing is taken may be dropped. -/
theorem thenHide {a : Rule s α} {b : Rule t β} (ha : a.Along C f) (hb : b.Along C fun _ => []) :
    (a.thenSkip b).Along C f :=
  (ha.thenSkip hb).congr fun x => (List.append_nil (f x)).symm

end Rule.Along

end GrammarFile
