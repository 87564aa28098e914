import GrammarFile.Catalog
import GrammarFile.Tree.Symbols

/-!
# Production names in order

A name may have several productions, and what they say about it is kept in one place: where the name is
defined first, and the non-terminals in the bodies of all its productions. `ProductionIndex` is a catalog
of such entries. It is in the order of the names and not in that of the file, so what is taken from many
entries has to be sorted by its places.
-/

namespace GrammarFile

/-- What the productions of a name say about it. -/
structure ProductionEntry where
  /-- The name in its first production. -/
  definition : Identifier
  /-- The non-terminals in the bodies of its productions, in the order of the file. -/
  references : List Identifier
  deriving DecidableEq, Inhabited

namespace ProductionEntry

/-- The entry of a name with one production. -/
def ofProduction (p : Production) : ProductionEntry :=
  ⟨p.name, p.references⟩

/-- The entry with one more production of its name. -/
def extend (e : ProductionEntry) (p : Production) : ProductionEntry :=
  { e with references := e.references ++ p.references }

end ProductionEntry

/-- What there is to know of production names. -/
abbrev ProductionIndex := Catalog ProductionEntry

namespace ProductionIndex

/-- The index with one more production. -/
def add (index : ProductionIndex) (p : Production) : ProductionIndex :=
  index.insert p.name.name ((index.get? p.name.name).elim (.ofProduction p) (·.extend p))

/-- The index of some productions. -/
def ofProductions (productions : List Production) : ProductionIndex :=
  productions.foldl add .empty

/-- Whether a name has a production. -/
def defines (index : ProductionIndex) (name : String) : Bool :=
  (index.get? name).isSome

/-- The names, each at its first place. -/
def definitions (index : ProductionIndex) : List Identifier :=
  index.entries.map (·.2.definition)

/-- The non-terminals of all bodies. -/
def references (index : ProductionIndex) : List Identifier :=
  index.entries.flatMap (·.2.references)

/-- The names with a production in the bodies of the productions of a name. -/
def successors (index : ProductionIndex) (name : String) : List String :=
  ((index.get? name).elim [] fun e => e.references.map (·.name)).filter index.defines

end ProductionIndex

/-- The index of the productions of a grammar. -/
def Grammar.index (g : Grammar) : ProductionIndex :=
  .ofProductions g.productions

end GrammarFile
