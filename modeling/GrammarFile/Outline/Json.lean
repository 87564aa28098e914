import GrammarFile.Json.Basic
import GrammarFile.Number.Width
import GrammarFile.Outline.Basic
import GrammarFile.Text.Digits

/-!
# Outlines as JSON

`Outline.toJson` writes a node as an object with its type, label, attributes, range and children, where
empty attributes and children are left out. `Outline.ofJson?` reads such an object back. The members
may come in any order, and unknown ones are passed over, except in a span; a member may not be
repeated. An object may also be written as the array of its members' values.

Numbers have to be whole and fit into 64 bits, and the objects and arrays that are read nest to a
limit.
-/

namespace GrammarFile

/-- A position as JSON. -/
def Position.toJson (p : Position) : Json :=
  .object [("line", .ofNat p.line), ("column", .ofNat p.column)]

/-- A range as JSON. -/
def Range.toJson (r : Range) : Json :=
  .object [
    ("span", .object [("start", .ofNat r.span.start), ("end", .ofNat r.span.stop)]),
    ("start", r.start.toJson), ("end", r.stop.toJson)]

/-- Attributes as JSON. -/
def Attributes.toJson (a : Attributes) : Json :=
  .object (a.entries.map fun (name, text) => (name, .string text))

mutual

/-- A node as JSON. -/
def Outline.toJson : Outline → Json
  | ⟨nodeType, label, attributes, range, children⟩ =>
    .object ([("node_type", .string nodeType), ("label", .string label)] ++
      (if attributes.entries.isEmpty then [] else [("attributes", attributes.toJson)]) ++
      [("range", range.toJson)] ++
      (if children.isEmpty then [] else [("children", .array (Outline.listToJson children))]))

/-- Nodes as JSON. -/
def Outline.listToJson : List Outline → List Json
  | [] => []
  | o :: rest => o.toJson :: Outline.listToJson rest

end

namespace Json

/-- A whole number of 64 bits. -/
def word? (value : Json) : Option Nat :=
  value.nat?.filter (fitsUnsigned 64)

/-- The members that a record may have, by name and in the order in which an array gives them. A
record is refused if a member is repeated or, where `strict` holds, unknown; an array if it is too
long. The result has a value for each name that is there. -/
def record? (strict : Bool) (names : List String) : Json → Option (List (String × Json))
  | object members =>
    let known := members.filter fun (name, _) => names.contains name
    if strict && known.length ≠ members.length then none
    else if names.any fun name => 1 < known.countP (·.1 == name) then none
    else some known
  | array items => if names.length < items.length then none else some (names.zip items)
  | _ => none

/-- The items of an array, each read in the same way. There are none where there is no array. -/
def items? {α : Type} (read : Json → Option α) : Option Json → Option (List α)
  | none => some []
  | some (array items) => items.mapM read
  | some _ => none

end Json

/-- The span that a JSON value describes. -/
def Span.ofJson? (value : Json) : Option Span := do
  let members ← value.record? true ["start", "end"]
  let start ← (← members.lookup "start").word?
  let stop ← (← members.lookup "end").word?
  return ⟨start, stop⟩

/-- The position that a JSON value describes. -/
def Position.ofJson? (value : Json) : Option Position := do
  let members ← value.record? false ["line", "column"]
  let line ← (← members.lookup "line").word?
  let column ← (← members.lookup "column").word?
  return ⟨line, column⟩

/-- The range that a JSON value describes. -/
def Range.ofJson? (value : Json) : Option Range := do
  let members ← value.record? false ["span", "start", "end"]
  let span ← Span.ofJson? (← members.lookup "span")
  let start ← Position.ofJson? (← members.lookup "start")
  let stop ← Position.ofJson? (← members.lookup "end")
  return ⟨span, start, stop⟩

/-- The attributes that a JSON value describes. A later text for a name replaces an earlier one. -/
def Attributes.ofJson? : Json → Option Attributes
  | .object members =>
    (members.mapM fun ((name, value) : String × Json) => value.string?.map (name, ·)).map Catalog.ofList
  | _ => none

/-- The number of objects and arrays that may stand inside each other in the text of an outline. -/
def Outline.nestingLimit : Nat := 127

/-- The most objects and arrays that a range holds inside each other. -/
def Range.jsonDepth : Nat := 2

/-- The outline that a JSON value describes, where `depth` objects and arrays may stand inside each
other. A node takes one of them, and the list of its children another one. -/
def Outline.ofJsonWithin : (depth : Nat) → Json → Option Outline
  | inner + 2, value => do
    let members ← value.record? false ["node_type", "label", "attributes", "range", "children"]
    let nodeType ← (← members.lookup "node_type").string?
    let label ← (← members.lookup "label").string?
    if inner + 1 < Range.jsonDepth then none
    let range ← Range.ofJson? (← members.lookup "range")
    let attributes ← ((members.lookup "attributes").map Attributes.ofJson?).getD (some .empty)
    let children ← Json.items? (ofJsonWithin inner) (members.lookup "children")
    return ⟨nodeType, label, attributes, range, children⟩
  | _, _ => none

/-- The outline that a JSON value describes. -/
def Outline.ofJson? (value : Json) : Option Outline :=
  Outline.ofJsonWithin Outline.nestingLimit value

end GrammarFile
