import GrammarFile.Format.Render
import GrammarFile.Proofs.Catalog
import GrammarFile.Proofs.Formats.Labels
import GrammarFile.Proofs.Json.Reading

/-!
# Outlines read back from JSON

An outline is written as records inside of each other. What is written of a range, of attributes and
of a node is read back as it was (`Range.ofJson?_toJson`, `Attributes.ofJson?_toJson`,
`Outline.ofJsonWithin_toJson`), as long as the numbers have 64 bits and the nodes do not nest too
deep: each of them takes two of the objects and arrays that may stand inside each other. So the text
of an outline is read back up to 63 nodes on one way down, and beyond that it is refused
(`Outline.read_back`).

Outlines can be told apart by their texts whatever their nesting (`Outline.eq_of_toJson_eq`).
-/

namespace GrammarFile

/-! ### Records -/

namespace Json

/-- A record with members of its own names, each once, has these members. -/
theorem record?_object {strict : Bool} {names : List String} {members : List (String × Json)}
    (hknown : ∀ name ∈ members.map (·.1), name ∈ names) (hnodup : (members.map (·.1)).Nodup) :
    record? strict names (object members) = some members := by
  have hcount : (names.any fun name => 1 < members.countP (·.1 == name)) = false := by
    refine List.any_eq_false.mpr fun name _ => ?_
    have hle : members.countP (·.1 == name) ≤ 1 := by
      have hcount := List.nodup_iff_count_le_one.mp hnodup name
      rw [List.count, List.countP_map] at hcount
      exact hcount
    simpa using hle
  simp only [record?]
  rw [List.filter_eq_self.mpr ?_, if_neg (by simp), hcount]
  · rfl
  · intro m hm
    simpa using hknown m.1 (List.mem_map_of_mem hm)

/-- Different numbers are written differently. -/
theorem ofNat_inj {m n : Nat} : ofNat m = ofNat n ↔ m = n := by
  simp only [ofNat, number.injEq, Number.whole.injEq]
  exact Int.ofNat_inj

/-- A whole number of 64 bits is read as itself. -/
theorem word?_ofNat {n : Nat} (h : fitsUnsigned 64 n) : (ofNat n).word? = some n := by
  show (some n).filter (fitsUnsigned 64) = some n
  rw [Option.filter_some, if_pos h]

end Json

/-! ### Ranges -/

/-- Whether the numbers of a range have 64 bits. -/
structure Range.Fits (r : Range) : Prop where
  start : fitsUnsigned 64 r.span.start
  stop : fitsUnsigned 64 r.span.stop
  startLine : fitsUnsigned 64 r.start.line
  startColumn : fitsUnsigned 64 r.start.column
  stopLine : fitsUnsigned 64 r.stop.line
  stopColumn : fitsUnsigned 64 r.stop.column

/-- A position whose numbers fit into 64 bits is read back. -/
theorem Position.ofJson?_toJson {p : Position} (hline : fitsUnsigned 64 p.line)
    (hcolumn : fitsUnsigned 64 p.column) : Position.ofJson? p.toJson = some p := by
  have hmembers : p.toJson.record? false ["line", "column"] =
      some [("line", .ofNat p.line), ("column", .ofNat p.column)] :=
    Json.record?_object (by simp) (by simp)
  simp [ofJson?, hmembers, List.lookup_cons, Json.word?_ofNat, hline, hcolumn]

/-- A span whose ends fit into 64 bits is read back. -/
theorem Span.ofJson?_object {s : Span} (hstart : fitsUnsigned 64 s.start)
    (hstop : fitsUnsigned 64 s.stop) :
    Span.ofJson? (.object [("start", .ofNat s.start), ("end", .ofNat s.stop)]) = some s := by
  have hmembers :
      Json.record? true ["start", "end"]
        (.object [("start", .ofNat s.start), ("end", .ofNat s.stop)]) =
      some [("start", .ofNat s.start), ("end", .ofNat s.stop)] := Json.record?_object (by simp) (by simp)
  simp [ofJson?, hmembers, List.lookup_cons, Json.word?_ofNat, hstart, hstop]

/-- A range whose numbers fit is read back. -/
theorem Range.ofJson?_toJson {r : Range} (h : r.Fits) : Range.ofJson? r.toJson = some r := by
  have hmembers : r.toJson.record? false ["span", "start", "end"] = some [
      ("span", .object [("start", .ofNat r.span.start), ("end", .ofNat r.span.stop)]),
      ("start", r.start.toJson), ("end", r.stop.toJson)] := Json.record?_object (by simp) (by simp)
  simp [ofJson?, hmembers, List.lookup_cons, Span.ofJson?_object h.start h.stop,
    Position.ofJson?_toJson h.startLine h.startColumn, Position.ofJson?_toJson h.stopLine h.stopColumn]

/-! ### Attributes -/

/-- Attributes are read back. -/
theorem Attributes.ofJson?_toJson (a : Attributes) : Attributes.ofJson? a.toJson = some a := by
  rw [toJson, ofJson?, Json.mapM_map_eq_some (f := id) ?_, List.map_id, Option.map_some,
    Catalog.ofList_entries]
  exact fun _ _ => rfl

/-! ### Nodes -/

namespace Outline

/-- The members of a node as JSON. -/
def members (o : Outline) : List (String × Json) :=
  [("node_type", .string o.nodeType), ("label", .string o.label)] ++
    (if o.attributes.entries.isEmpty then [] else [("attributes", o.attributes.toJson)]) ++
    [("range", o.range.toJson)] ++
    (if o.children.isEmpty then [] else [("children", .array (listToJson o.children))])

/-- An outline is written as the object of its members. -/
theorem toJson_eq (o : Outline) : o.toJson = .object o.members := by
  obtain ⟨nodeType, label, attributes, range, children⟩ := o
  rfl

/-- The names of the members stand in their order, with those left out that are empty. -/
theorem sublist_names_members (o : Outline) :
    (o.members.map (·.1)).Sublist ["node_type", "label", "attributes", "range", "children"] := by
  unfold members
  cases o.attributes.entries.isEmpty <;> cases o.children.isEmpty <;> simp

/-- The members of an outline are all known, and none stands twice. -/
theorem record?_members (o : Outline) :
    o.toJson.record? false ["node_type", "label", "attributes", "range", "children"] =
      some o.members := by
  rw [toJson_eq]
  exact Json.record?_object (fun name hname => o.sublist_names_members.subset hname)
    (o.sublist_names_members.nodup (by decide))

/-- The type of the node is always a member. -/
theorem lookup_nodeType (o : Outline) : o.members.lookup "node_type" = some (.string o.nodeType) :=
  rfl

/-- The label is always a member. -/
theorem lookup_label (o : Outline) : o.members.lookup "label" = some (.string o.label) :=
  rfl

/-- The range is always a member. -/
theorem lookup_range (o : Outline) : o.members.lookup "range" = some o.range.toJson := by
  unfold members
  cases o.attributes.entries.isEmpty <;> rfl

/-- The attributes are a member if there are any. -/
theorem lookup_attributes (o : Outline) : o.members.lookup "attributes" =
    if o.attributes.entries.isEmpty then none else some o.attributes.toJson := by
  unfold members
  cases o.attributes.entries.isEmpty <;> cases o.children.isEmpty <;> rfl

/-- The children are a member if there are any. -/
theorem lookup_children (o : Outline) : o.members.lookup "children" =
    if o.children.isEmpty then none else some (.array (listToJson o.children)) := by
  unfold members
  cases o.attributes.entries.isEmpty <;> cases o.children.isEmpty <;> rfl

/-- Attributes that are left out are none. -/
theorem attributes_of_lookup (o : Outline) :
    ((o.members.lookup "attributes").map Attributes.ofJson?).getD (some .empty) = some o.attributes := by
  rw [lookup_attributes]
  split
  · rename_i hempty
    have hentries : o.attributes.entries = [] := List.isEmpty_iff.mp hempty
    exact congrArg some (Catalog.eq_of_entries_eq hentries.symm)
  · exact Attributes.ofJson?_toJson o.attributes

/-! ### Nesting -/

mutual

/-- The number of nodes on the longest way down from a node, itself included. -/
def height : Outline → Nat
  | ⟨_, _, _, _, children⟩ => heights children + 1

/-- The number of nodes on the longest way down from some nodes. -/
def heights : List Outline → Nat
  | [] => 0
  | o :: rest => max o.height (heights rest)

end

/-- An outline is one higher than its children. -/
theorem height_eq (o : Outline) : o.height = heights o.children + 1 := by
  obtain ⟨nodeType, label, attributes, range, children⟩ := o
  rw [height]

/-- Nodes are read back if the one that goes deepest is. -/
theorem mapM_ofJsonWithin {depth : Nat} (os : List Outline)
    (h : ∀ o ∈ os, ofJsonWithin depth o.toJson = if 2 * o.height < depth then some o else none) :
    (listToJson os).mapM (ofJsonWithin depth) =
      if 2 * heights os < max depth 1 then some os else none := by
  induction os with
  | nil =>
    rw [heights, if_pos (by omega)]
    rfl
  | cons o os ih =>
    obtain ⟨ho, hos⟩ := List.forall_mem_cons.mp h
    have hpos : 0 < o.height := by
      rw [height_eq]
      exact Nat.succ_pos _
    rw [listToJson, List.mapM_cons, ho, ih hos, heights]
    by_cases hfirst : 2 * o.height < depth
    · by_cases hrest : 2 * heights os < max depth 1
      · rw [if_pos hfirst, if_pos hrest, if_pos (by omega)]
        rfl
      · rw [if_pos hfirst, if_neg hrest, if_neg (by omega)]
        rfl
    · have hall : ¬ 2 * max o.height (heights os) < max depth 1 := by omega
      rw [if_neg hfirst, if_neg hall]
      rfl

/-- The children of a node are read back if the one that goes deepest is. -/
theorem items?_children {depth : Nat} (o : Outline)
    (h : ∀ c ∈ o.children, ofJsonWithin depth c.toJson = if 2 * c.height < depth then some c else none) :
    Json.items? (ofJsonWithin depth) (o.members.lookup "children") =
      if 2 * heights o.children < max depth 1 then some o.children else none := by
  rw [lookup_children, ← mapM_ofJsonWithin o.children h]
  split
  · rename_i hempty
    rw [List.isEmpty_iff.mp hempty]
    rfl
  · rfl

/-- **An outline is read back up to half the depth that may be read.** -/
theorem ofJsonWithin_toJson {o : Outline} (h : o.Each fun _ r => r.Fits) (depth : Nat) :
    ofJsonWithin depth o.toJson = if 2 * o.height < depth then some o else none := by
  induction depth using Nat.strongRecOn generalizing o with
  | ind depth ih =>
    have hheight := o.height_eq
    match depth with
    | 0 | 1 =>
      rw [ofJsonWithin, if_neg (by omega)]
      all_goals simp
    | inner + 2 =>
      have hchildren := items?_children o fun c hc => ih inner (by omega) (h.of_mem_children c hc)
      rw [ofJsonWithin, record?_members]
      simp only [Option.bind_eq_bind, Option.bind_some, lookup_nodeType, lookup_label, lookup_range,
        Json.string?, Range.ofJson?_toJson h.node, attributes_of_lookup, hchildren, Range.jsonDepth]
      by_cases hshallow : inner + 1 < 2
      · have hnot : ¬ 2 * o.height < inner + 2 := by omega
        rw [if_pos hshallow, if_neg hnot]
        rfl
      · have hiff : 2 * heights o.children < max inner 1 ↔ 2 * o.height < inner + 2 := by omega
        rw [if_neg hshallow]
        simp only [hiff]
        split
        · obtain ⟨nodeType, label, attributes, range, children⟩ := o
          rfl
        · rfl

/-! ### Telling outlines apart -/

/-- Children that are left out are read as none. -/
theorem array?_children (o : Outline) :
    ((o.members.lookup "children").bind (·.array?)).getD [] = listToJson o.children := by
  rw [lookup_children]
  split
  · rename_i hempty
    rw [List.isEmpty_iff.mp hempty]
    rfl
  · rfl

end Outline

/-- Different ranges are written differently. -/
theorem Range.eq_of_toJson_eq {r r' : Range} (h : r.toJson = r'.toJson) : r = r' := by
  obtain ⟨⟨start, stop⟩, ⟨line, column⟩, ⟨line', column'⟩⟩ := r
  obtain ⟨⟨start', stop'⟩, ⟨startLine, startColumn⟩, ⟨stopLine, stopColumn⟩⟩ := r'
  simpa [toJson, Position.toJson, Json.ofNat_inj] using h

namespace Outline

mutual

/-- **Outlines that are the same as JSON are the same.** -/
theorem eq_of_toJson_eq : (o o' : Outline) → o.toJson = o'.toJson → o = o'
  | ⟨t, l, as, r, cs⟩, ⟨t', l', as', r', cs'⟩, h => by
    have hmembers : members ⟨t, l, as, r, cs⟩ = members ⟨t', l', as', r', cs'⟩ := by
      rw [toJson_eq, toJson_eq] at h
      exact Json.object.inj h
    have htype := lookup_nodeType ⟨t, l, as, r, cs⟩
    have hlabel := lookup_label ⟨t, l, as, r, cs⟩
    have hrange := lookup_range ⟨t, l, as, r, cs⟩
    have hattributes := attributes_of_lookup ⟨t, l, as, r, cs⟩
    have hchildren := array?_children ⟨t, l, as, r, cs⟩
    rw [hmembers] at htype hlabel hrange hattributes hchildren
    rw [lookup_nodeType, Option.some.injEq, Json.string.injEq] at htype
    rw [lookup_label, Option.some.injEq, Json.string.injEq] at hlabel
    rw [lookup_range, Option.some.injEq] at hrange
    rw [attributes_of_lookup, Option.some.injEq] at hattributes
    rw [array?_children] at hchildren
    rw [mk.injEq]
    exact ⟨htype.symm, hlabel.symm, hattributes.symm, Range.eq_of_toJson_eq hrange.symm,
      eq_of_listToJson_eq cs cs' hchildren.symm⟩

/-- Different lists of outlines are written differently. -/
theorem eq_of_listToJson_eq : (os os' : List Outline) → listToJson os = listToJson os' → os = os'
  | [], [], _ => rfl
  | [], _ :: _, h => absurd h.symm (List.cons_ne_nil _ _)
  | _ :: _, [], h => absurd h (List.cons_ne_nil _ _)
  | o :: os, o' :: os', h => by
    obtain ⟨hfirst, hrest⟩ := List.cons.inj h
    rw [eq_of_toJson_eq o o' hfirst, eq_of_listToJson_eq os os' hrest]

end

/-! ### The text of an outline -/

/-- A text of an outline, in either layout, is read as the outline's JSON. -/
theorem read_toJson {o : Outline} {text : String} (h : text = o.toJson.pretty ∨ text = o.toJson.compact) :
    Json.read text = some o.toJson := by
  rcases h with rfl | rfl
  · exact Json.read_pretty o.toJson
  · exact Json.read_compact o.toJson

/-- A way to write JSON that can be read back tells outlines apart. -/
theorem write_toJson_inj {write : Json → String} (hread : ∀ value, Json.read (write value) = some value)
    {o o' : Outline} : write o.toJson = write o'.toJson ↔ o = o' := by
  refine ⟨fun heq => ?_, fun heq => heq ▸ rfl⟩
  have hvalues := congrArg Json.read heq
  rw [hread, hread, Option.some.injEq] at hvalues
  exact eq_of_toJson_eq o o' hvalues

end Outline

/-- The format `json` writes the outline of a file. -/
theorem renderTree_json (options : RenderOptions) (g : Grammar) :
    renderTree options "json" g = .ok g.outline.toJson.pretty := by
  have hformat : ∀ numbered, (Registry.standard numbered).get? "json" = some Formatter.json := by
    intro numbered
    simp [Registry.standard, Registry.register, Catalog.get?_insert, Formatter.treeviz,
      Formatter.tag, Formatter.json, Formatter.yaml, Formatter.par]
  rw [renderTree, Registry.write, hformat]
  rfl

/-- A grammar that parses is shown as the text of its outline. -/
theorem render_json {options : RenderOptions} {source : String} {g : Grammar}
    (h : parse source options.parser = .ok g) :
    render (.tree "json") options source = .ok g.outline.toJson.pretty := by
  rw [render, h]
  exact renderTree_json options g

namespace Outline

/-- **Outlines whose numbers have 64 bits are read back from their JSON**, with everything in them,
if no way down is longer than 63 nodes. Each node takes two of the objects and arrays that may stand
inside each other. Where a way down is longer, the text is not read as anything else. Whatever the
nesting, different outlines have different texts, so the text of a grammar tells its outline. -/
theorem read_back :
    (∀ (o : Outline) (text : String), (o.Each fun _ r => r.Fits) →
      text = o.toJson.pretty ∨ text = o.toJson.compact →
      ((Json.read text).bind ofJson? = if o.height ≤ 63 then some o else none) ∧
        ∀ depth, (Json.read text).bind (ofJsonWithin depth) =
          if 2 * o.height < depth then some o else none) ∧
    (∀ o o' : Outline, (o.toJson.pretty = o'.toJson.pretty ↔ o = o') ∧
      (o.toJson.compact = o'.toJson.compact ↔ o = o')) ∧
    ∀ (options options' : RenderOptions) (source source' : String) (g g' : Grammar),
      parse source options.parser = .ok g → parse source' options'.parser = .ok g' →
      (render (.tree "json") options source = render (.tree "json") options' source' ↔
        g.outline = g'.outline) := by
  refine ⟨fun o text hfits htext => ?_, fun o o' => ⟨write_toJson_inj Json.read_pretty,
    write_toJson_inj Json.read_compact⟩, fun options options' source source' g g' h h' => ?_⟩
  · have hread := ofJsonWithin_toJson hfits
    rw [read_toJson htext, Option.bind_some]
    refine ⟨?_, hread⟩
    have hiff : 2 * o.height < nestingLimit ↔ o.height ≤ 63 := by
      unfold nestingLimit
      omega
    rw [ofJson?, hread]
    simp only [hiff]
  · rw [render_json h, render_json h', Except.ok.injEq]
    exact write_toJson_inj Json.read_pretty

/-- Nodes one inside of the other. -/
def chain : Nat → Outline
  | 0 => leaf "group" "( )" .origin
  | n + 1 => (leaf "group" "( )" .origin).withChild (chain n)

/-- A chain is as high as it has nodes. -/
theorem height_chain (n : Nat) : (chain n).height = n + 1 := by
  induction n with
  | zero => rfl
  | succ n ih =>
    have hchildren : (chain (n + 1)).children = [chain n] := rfl
    rw [height_eq, hchildren, heights, heights, ih, Nat.max_zero]

/-- All ranges of a chain fit. -/
theorem each_fits_chain (n : Nat) : (chain n).Each fun _ r => r.Fits := by
  have horigin : Range.Fits .origin := by constructor <;> decide
  induction n with
  | zero => exact .ofLeaf horigin
  | succ n ih => exact (Each.ofLeaf horigin).withChildren (by simpa using ih)

/-- A chain of 63 nodes is read back, and a blank at the end of a file does not show in its outline. -/
theorem read_back_chain :
    (chain 62).height = 63 ∧ ((chain 62).Each fun _ r => r.Fits) ∧
      (Json.read (chain 62).toJson.compact).bind ofJson? = some (chain 62) ∧
      render (.tree "json") ⟨.default, false⟩ "%start s %% s: a;" =
        render (.tree "json") ⟨.default, true⟩ "%start s %% s: a; " := by
  obtain ⟨hread, -, hrender⟩ := read_back
  have hheight := height_chain 62
  have hback := (hread (chain 62) _ (each_fits_chain 62) (.inr rfl)).1
  rw [hheight, if_pos (Nat.le_refl 63)] at hback
  have hok : (parse "%start s %% s: a;" .default).isOk := by decide +kernel
  have hok' : (parse "%start s %% s: a; " .default).isOk := by decide +kernel
  have hsame : (parse "%start s %% s: a;" .default).map (·.outline) =
      (parse "%start s %% s: a; " .default).map (·.outline) := by
    decide +kernel
  obtain ⟨g, hg⟩ := exists_parse_of_isOk hok
  obtain ⟨g', hg'⟩ := exists_parse_of_isOk hok'
  rw [hg, hg'] at hsame
  exact ⟨hheight, each_fits_chain 62, hback,
    (hrender ⟨.default, false⟩ ⟨.default, true⟩ _ _ g g' hg hg').mpr (Except.ok.inj hsame)⟩

/-- A chain of 64 nodes has a text that is not read back, in either layout. -/
theorem not_read_back_chain :
    ((chain 63).Each fun _ r => r.Fits) ∧
      (Json.read (chain 63).toJson.compact).bind ofJson? ≠ some (chain 63) ∧
      (Json.read (chain 63).toJson.pretty).bind ofJson? ≠ some (chain 63) := by
  have hrefused : ofJson? (chain 63).toJson = none := by
    rw [ofJson?, ofJsonWithin_toJson (each_fits_chain 63), height_chain 63]
    rfl
  refine ⟨each_fits_chain 63, ?_, ?_⟩
  · rw [Json.read_compact, Option.bind_some, hrefused]
    exact nofun
  · rw [Json.read_pretty, Option.bind_some, hrefused]
    exact nofun

end Outline

end GrammarFile
