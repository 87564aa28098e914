import GrammarFile.Catalog
import GrammarFile.Source.Position

/-!
# Outlines

An outline is a tree in which every node has the same shape: the name of the rule it was built from,
a label, attributes, a range and children. It is what renderings show, what is written as
JSON, and what two grammar files are compared by.
-/

namespace GrammarFile

/-- A tree of labelled nodes. -/
structure Outline where
  nodeType : String
  label : String
  attributes : Attributes
  range : Range
  children : List Outline

namespace Outline

/-- A node without attributes and children. -/
def leaf (nodeType label : String) (range : Range) : Outline :=
  ⟨nodeType, label, .empty, range, []⟩

/-- The node with a text for an attribute. -/
def withAttribute (o : Outline) (name text : String) : Outline :=
  { o with attributes := o.attributes.insert name text }

/-- The node with more children, after those it has. -/
def withChildren (o : Outline) (children : List Outline) : Outline :=
  { o with children := o.children ++ children }

/-- The node with one more child. -/
def withChild (o : Outline) (child : Outline) : Outline :=
  o.withChildren [child]

mutual

/-- Whether two outlines are the same, ranges included. -/
def decEq : (a b : Outline) → Decidable (a = b)
  | ⟨t, l, as, r, cs⟩, ⟨t', l', as', r', cs'⟩ =>
    have := decEqAll cs cs'
    decidable_of_iff (t = t' ∧ l = l' ∧ as = as' ∧ r = r' ∧ cs = cs') (by simp)

/-- Whether two lists of outlines are the same. -/
def decEqAll : (as bs : List Outline) → Decidable (as = bs)
  | [], [] => isTrue rfl
  | [], _ :: _ => isFalse nofun
  | _ :: _, [] => isFalse nofun
  | a :: as, b :: bs =>
    have := decEq a b
    have := decEqAll as bs
    decidable_of_iff (a = b ∧ as = bs) (by simp)

end

instance : DecidableEq Outline := decEq

mutual

/-- Whether two outlines are the same but for their ranges. -/
def sameStructure : (a b : Outline) → Bool
  | ⟨t, l, as, _, cs⟩, ⟨t', l', as', _, cs'⟩ =>
    t = t' && l = l' && as = as' && sameStructures cs cs'

/-- Whether two lists of outlines are the same but for ranges. -/
def sameStructures : (as bs : List Outline) → Bool
  | [], [] => true
  | a :: as, b :: bs => a.sameStructure b && sameStructures as bs
  | _, _ => false

end

mutual

/-- The number of nodes of an outline. -/
def nodeCount : Outline → Nat
  | ⟨_, _, _, _, children⟩ => 1 + nodeCounts children

/-- The number of nodes of a list of outlines. -/
def nodeCounts : List Outline → Nat
  | [] => 0
  | o :: rest => o.nodeCount + nodeCounts rest

end

end Outline

end GrammarFile
