import GrammarFile.Format.Treeviz
import GrammarFile.Proofs.Formats.Labels
import GrammarFile.Proofs.Formats.NodeTypes
import GrammarFile.Proofs.Locations.SourceLines

/-!
# What a drawing shows

A drawing is made of rows, one for each node (`rows`, `draw_eq_stack`). A row has the connectors
that lead to its node, and these tell how far below the root the node stands (`Leads`). Behind them
stand the icon, which tells the type (`eq_of_icon_eq`), and the label. From that much of each row
the whole tree can be read back (`agreesOn_of_map_seen_rows`).

The rows are the lines of a drawing only if no label has a line feed, which a literal may bring with
it (`draw_of_parse`). Where none does, drawings are the same just where the outlines agree in all
that is shown (`draw_eq_iff_of_parse`).
-/

namespace GrammarFile.Treeviz

open Text (OneLine stack)

/-! ### The rows of a drawing -/

/-- What a drawing shows of one node: how far below the root it stands, the connectors that lead to
it, and the node. -/
structure Row where
  depth : Nat
  connectors : String
  node : Outline

/-- The text of a row. In a numbered drawing the rows below the root start with a line number. -/
def Row.text (numbered : Bool) (row : Row) : String :=
  (if numbered && row.depth ≠ 0 then lineNumber row.node.range ++ " " else "") ++ row.connectors ++
    caption row.node.nodeType row.node.label

/-- What can be seen of the node of a row. -/
def Row.seen (row : Row) : Nat × String × String :=
  (row.depth, row.node.nodeType, shorten row.node.label)

mutual

/-- The rows of a node below the root and of the nodes below it. -/
def rowsOf (depth : Nat) (stem : String) (isLast : Bool) : Outline → List Row
  | ⟨nodeType, label, attributes, range, children⟩ =>
    ⟨depth, stem ++ (if isLast then "└─ " else "├─ "), ⟨nodeType, label, attributes, range, children⟩⟩ ::
      rowsOfAll (depth + 1) (stem ++ if isLast then "  " else "│ ") children

/-- The rows of the children of a node. -/
def rowsOfAll (depth : Nat) (stem : String) : List Outline → List Row
  | [] => []
  | o :: rest => rowsOf depth stem rest.isEmpty o ++ rowsOfAll depth stem rest

end

/-- The rows of an outline. -/
def rows (o : Outline) : List Row :=
  ⟨0, "", o⟩ :: rowsOfAll 1 "" o.children

mutual

/-- A drawing of a node is the stack of its rows. -/
theorem drawNode_eq_stack (numbered : Bool) (depth : Nat) (stem : String) (isLast : Bool) :
    (o : Outline) → drawNode numbered stem isLast o =
      stack ((rowsOf (depth + 1) stem isLast o).map (Row.text numbered))
  | ⟨nodeType, label, attributes, range, children⟩ => by
    rw [drawNode, rowsOf, List.map_cons, Text.stack_cons,
      drawNodes_eq_stack numbered (depth + 1) _ children]
    cases numbered <;> simp [Row.text, String.append_assoc]

/-- A drawing of several nodes is the stack of their rows. -/
theorem drawNodes_eq_stack (numbered : Bool) (depth : Nat) (stem : String) :
    (os : List Outline) → drawNodes numbered stem os =
      stack ((rowsOfAll (depth + 1) stem os).map (Row.text numbered))
  | [] => rfl
  | o :: os => by
    rw [drawNodes, rowsOfAll, List.map_append, Text.stack_append,
      drawNode_eq_stack numbered depth stem os.isEmpty o, drawNodes_eq_stack numbered depth stem os]

end

/-- A drawing is made of its rows. -/
theorem draw_eq_stack (numbered : Bool) (o : Outline) :
    draw numbered o = stack ((rows o).map (Row.text numbered)) := by
  rw [draw, rows, List.map_cons, Text.stack_cons, drawNodes_eq_stack numbered 0]
  simp [Row.text]

mutual

/-- The rows below a node show its nodes in preorder. -/
theorem map_node_rowsOf (depth : Nat) (stem : String) (isLast : Bool) :
    (o : Outline) → (rowsOf depth stem isLast o).map (·.node) = o.preorder
  | ⟨_, _, _, _, children⟩ => by
    rw [rowsOf, List.map_cons, map_node_rowsOfAll _ _ children, Outline.preorder]

/-- The rows of several nodes show all of them in preorder. -/
theorem map_node_rowsOfAll (depth : Nat) (stem : String) :
    (os : List Outline) → (rowsOfAll depth stem os).map (·.node) = Outline.preorderAll os
  | [] => rfl
  | o :: os => by
    rw [rowsOfAll, List.map_append, map_node_rowsOf depth stem os.isEmpty o,
      map_node_rowsOfAll depth stem os, Outline.preorderAll]

end

/-- There is a row for each node, in their order. -/
theorem map_node_rows (o : Outline) : (rows o).map (·.node) = o.preorder := by
  rw [rows, List.map_cons, map_node_rowsOfAll, Outline.preorderAll_eq_flatMap, o.preorder_eq]

/-! ### Connectors -/

/-- Whether connectors lead to nodes so many levels below the root: two characters for each level in
between, and then a branch. -/
def Leads : Nat → List Char → Prop
  | 0, cs => cs = []
  | depth + 1, cs => ∃ cells branch, cs = cells ++ branch :: ['─', ' '] ∧ cells.length = 2 * depth ∧
      (∀ c ∈ cells, c ∈ ['│', ' ']) ∧ branch ∈ ['├', '└']

mutual

/-- Each row of a node is deeper than the stem, and its connectors tell how deep. -/
theorem leads_rowsOf (depth : Nat) (stem : String) (isLast : Bool)
    (hlength : stem.toList.length = 2 * depth) (hstem : ∀ c ∈ stem.toList, c ∈ ['│', ' ']) :
    (o : Outline) → ∀ row ∈ rowsOf (depth + 1) stem isLast o,
      depth < row.depth ∧ Leads row.depth row.connectors.toList
  | ⟨nodeType, label, attributes, range, children⟩ => by
    have hcells : ∀ c ∈ (stem ++ if isLast then "  " else "│ ").toList, c ∈ ['│', ' '] := by
      rw [String.toList_append]
      refine List.forall_mem_append.mpr ⟨hstem, ?_⟩
      cases isLast <;> simp
    have hwidth : (stem ++ if isLast then "  " else "│ ").toList.length = 2 * (depth + 1) := by
      rw [String.toList_append, List.length_append, hlength]
      cases isLast <;> simp <;> omega
    refine List.forall_mem_cons.mpr ⟨⟨Nat.lt_succ_self depth, ?_⟩, fun row hrow => ?_⟩
    · refine ⟨stem.toList, if isLast then '└' else '├', ?_, hlength, hstem, ?_⟩
      · cases isLast <;> simp
      · cases isLast <;> simp
    · obtain ⟨hdepth, hleads⟩ := leads_rowsOfAll (depth + 1) _ hwidth hcells children row hrow
      exact ⟨Nat.lt_of_succ_lt hdepth, hleads⟩

/-- Each row of several nodes is deeper than the stem, and its connectors tell how deep. -/
theorem leads_rowsOfAll (depth : Nat) (stem : String) (hlength : stem.toList.length = 2 * depth)
    (hstem : ∀ c ∈ stem.toList, c ∈ ['│', ' ']) :
    (os : List Outline) → ∀ row ∈ rowsOfAll (depth + 1) stem os,
      depth < row.depth ∧ Leads row.depth row.connectors.toList
  | [] => by simp [rowsOfAll]
  | o :: os => List.forall_mem_append.mpr
      ⟨leads_rowsOf depth stem os.isEmpty hlength hstem o, leads_rowsOfAll depth stem hlength hstem os⟩

end

/-- The connectors of a row of a drawing tell its depth. -/
theorem leads_rows (o : Outline) : ∀ row ∈ rows o, Leads row.depth row.connectors.toList :=
  List.forall_mem_cons.mpr
    ⟨rfl, fun row hrow => (leads_rowsOfAll 0 "" rfl (by simp) o.children row hrow).2⟩

/-- In a numbered drawing the rows below the root start with a line number, and nothing else is
different. -/
theorem map_text_true (o : Outline) :
    (rows o).map (Row.text true) = caption o.nodeType o.label ::
      (rowsOfAll 1 "" o.children).map fun row => lineNumber row.node.range ++ " " ++ row.text false := by
  have hbelow : ∀ row ∈ rowsOfAll 1 "" o.children,
      row.text true = lineNumber row.node.range ++ " " ++ row.text false := by
    intro row hrow
    have hdepth : row.depth ≠ 0 := Nat.ne_of_gt (leads_rowsOfAll 0 "" rfl (by simp) o.children row hrow).1
    simp [Row.text, hdepth, String.append_assoc]
  rw [rows, List.map_cons, List.map_congr_left hbelow]
  simp [Row.text]

/-! ### Reading a row back -/

/-- An icon starts with no connector, and has no blank. -/
theorem icon_of_mem_nodeTypes : ∀ t ∈ Outline.nodeTypes, ∃ c rest, (icon t).toList = c :: rest ∧
    c ∉ ['│', ' '] ∧ c ∉ ['├', '└'] ∧ ' ' ∉ c :: rest := by
  have hicons : ∀ t ∈ Outline.nodeTypes,
      ((icon t).toList.head?.any fun c => c ∉ ['│', ' '] ∧ c ∉ ['├', '└']) ∧
      ' ' ∉ (icon t).toList := by
    decide +kernel
  intro t ht
  obtain ⟨hhead, hblank⟩ := hicons t ht
  cases hicon : (icon t).toList with
  | nil => simp [hicon] at hhead
  | cons c rest =>
    rw [hicon, List.head?_cons, Option.any_some, decide_eq_true_eq] at hhead
    exact ⟨c, rest, rfl, hhead.1, hhead.2, hicon ▸ hblank⟩

/-- Nodes with the same icon are of one type. -/
theorem eq_of_icon_eq : ∀ t ∈ Outline.nodeTypes, ∀ t' ∈ Outline.nodeTypes, icon t = icon t' → t = t' := by
  decide +kernel

/-- A caption is the icon of the type, a blank and the label as far as it is shown. -/
theorem toList_caption (t label : String) :
    (caption t label).toList = (icon t).toList ++ ' ' :: (shorten label).toList := by
  simp [caption]

/-- A caption tells the type of a node and what is shown of its label. -/
theorem eq_of_caption_eq {t t' label label' : String} (ht : t ∈ Outline.nodeTypes)
    (ht' : t' ∈ Outline.nodeTypes) (heq : (caption t label).toList = (caption t' label').toList) :
    t = t' ∧ shorten label = shorten label' := by
  obtain ⟨c, rest, hicon, -, -, hblank⟩ := icon_of_mem_nodeTypes t ht
  obtain ⟨c', rest', hicon', -, -, hblank'⟩ := icon_of_mem_nodeTypes t' ht'
  rw [toList_caption, toList_caption, hicon, hicon'] at heq
  obtain ⟨hicons, hlabels⟩ := Text.append_cons_inj_of_not_mem hblank hblank' heq
  rw [← hicon, ← hicon'] at hicons
  exact ⟨eq_of_icon_eq t ht t' ht' (String.toList_injective hicons), String.toList_injective hlabels⟩

/-- The first character of a row that is neither a bar nor a blank is a branch, except in the row of
the root, and it comes behind two characters for each level in between. -/
theorem exists_branch {row : Row} (h : Leads row.depth row.connectors.toList)
    (ht : row.node.nodeType ∈ Outline.nodeTypes) :
    ∃ cells c behind, (row.text false).toList = cells ++ c :: behind ∧ (∀ d ∈ cells, d ∈ ['│', ' ']) ∧
      c ∉ ['│', ' '] ∧ cells.length = 2 * (row.depth - 1) ∧ (c ∈ ['├', '└'] ↔ row.depth ≠ 0) ∧
      c :: behind = (if row.depth = 0 then [] else [c, '─', ' ']) ++
        (caption row.node.nodeType row.node.label).toList := by
  have htext : (row.text false).toList =
      row.connectors.toList ++ (caption row.node.nodeType row.node.label).toList := by
    simp [Row.text]
  rw [htext]
  generalize hdepth : row.depth = depth at h ⊢
  cases depth with
  | zero =>
    obtain ⟨c, rest, hicon, hcell, hbranch, -⟩ := icon_of_mem_nodeTypes _ ht
    rw [h, toList_caption, hicon]
    exact ⟨[], c, _, rfl, by simp, hcell, rfl, by simpa using hbranch, by simp⟩
  | succ depth =>
    obtain ⟨cells, branch, hcs, hlength, hcells, hbranch⟩ := h
    rw [hcs]
    refine ⟨cells, branch,
      '─' :: ' ' :: (caption row.node.nodeType row.node.label).toList, by simp, hcells,
      ?_, hlength, by simpa using hbranch, by simp⟩
    simp only [List.mem_cons, List.not_mem_nil, or_false] at hbranch
    rcases hbranch with rfl | rfl <;> decide

/-- **A row tells how far below the root a node stands**, of what type it is and what is shown of
its label. -/
theorem seen_eq_of_text_eq {row row' : Row} (h : Leads row.depth row.connectors.toList)
    (h' : Leads row'.depth row'.connectors.toList) (ht : row.node.nodeType ∈ Outline.nodeTypes)
    (ht' : row'.node.nodeType ∈ Outline.nodeTypes) (heq : row.text false = row'.text false) :
    row.seen = row'.seen := by
  obtain ⟨cells, c, behind, htext, hcells, hc, hlength, hdepth, hcaption⟩ := exists_branch h ht
  obtain ⟨cells', c', behind', htext', hcells', hc', hlength', hdepth', hcaption'⟩ := exists_branch h' ht'
  rw [heq, htext'] at htext
  obtain ⟨rfl, rfl, rfl⟩ :=
    Text.append_cons_inj (p := (· ∉ ['│', ' '])) (fun d hd => not_not.mpr (hcells' d hd))
    (fun d hd => not_not.mpr (hcells d hd)) hc' hc htext
  have hsame : row.depth = row'.depth := by
    have hroot : row.depth ≠ 0 ↔ row'.depth ≠ 0 := hdepth.symm.trans hdepth'
    omega
  rw [hsame, hcaption'] at hcaption
  obtain ⟨htype, hlabel⟩ := eq_of_caption_eq ht ht' (List.append_cancel_left hcaption).symm
  rw [Row.seen, Row.seen, hsame, htype, hlabel]

/-! ### Reading the shape back -/

/-- What is seen of some nodes starts with the first of them. -/
theorem exists_map_seen_rowsOfAll (depth : Nat) (stem : String) (o : Outline) (os : List Outline) :
    ∃ more, (rowsOfAll depth stem (o :: os)).map Row.seen =
      (depth, o.nodeType, shorten o.label) :: more := by
  obtain ⟨nodeType, label, attributes, range, children⟩ := o
  exact ⟨_, rfl⟩

/-- Rows behind those of some nodes stand no further below the root. -/
theorem depth_le_of_mem_head? (depth : Nat) (stem : String) (os : List Outline)
    {rest : List (Nat × String × String)} (h : ∀ seen ∈ rest.head?, seen.1 < depth) :
    ∀ seen ∈ ((rowsOfAll depth stem os).map Row.seen ++ rest).head?, seen.1 ≤ depth := by
  cases os with
  | nil => exact fun seen hseen => Nat.le_of_lt (h seen hseen)
  | cons o os =>
    obtain ⟨more, hrows⟩ := exists_map_seen_rowsOfAll depth stem o os
    rw [hrows]
    simp

/-- Rows that all stand above a level are none of nodes at that level. -/
theorem ne_map_seen_rowsOfAll_cons (depth : Nat) (stem : String) (o : Outline) (os : List Outline)
    {rest : List (Nat × String × String)} (h : ∀ seen ∈ rest.head?, seen.1 < depth)
    (more : List (Nat × String × String)) :
    rest ≠ (rowsOfAll depth stem (o :: os)).map Row.seen ++ more := by
  obtain ⟨others, hrows⟩ := exists_map_seen_rowsOfAll depth stem o os
  rw [hrows]
  rintro rfl
  exact absurd (h _ rfl) (Nat.lt_irrefl depth)

mutual

/-- **The rows of a node tell the node but for attributes and ranges**, and where those of the next
one start. -/
theorem agreesOn_of_seen (depth : Nat) (stem stem' : String) (isLast isLast' : Bool) : (o o' : Outline) →
    (rest rest' : List (Nat × String × String)) → (∀ seen ∈ rest.head?, seen.1 ≤ depth) →
    (∀ seen ∈ rest'.head?, seen.1 ≤ depth) →
    (rowsOf depth stem isLast o).map Row.seen ++ rest =
      (rowsOf depth stem' isLast' o').map Row.seen ++ rest' → o.AgreesOn shorten o' ∧ rest = rest'
  | ⟨t, l, as, r, cs⟩, ⟨t', l', as', r', cs'⟩, rest, rest', h, h', heq => by
    obtain ⟨hseen, hbelow⟩ := List.cons.inj heq
    have hnode : (depth, t, shorten l) = (depth, t', shorten l') := hseen
    simp only [Prod.mk.injEq, true_and] at hnode
    obtain ⟨htype, hlabel⟩ := hnode
    obtain ⟨hchildren, hrest⟩ := agreesOn_of_seenAll (depth + 1) _ _ cs cs' rest rest'
      (fun seen hseen => Nat.lt_succ_of_le (h seen hseen))
      (fun seen hseen => Nat.lt_succ_of_le (h' seen hseen)) hbelow
    exact ⟨⟨htype, hlabel, hchildren⟩, hrest⟩

/-- Lists of nodes with the same rows, up to a row that is less deep, agree in what the rows show.
-/
theorem agreesOn_of_seenAll (depth : Nat) (stem stem' : String) : (os os' : List Outline) →
    (rest rest' : List (Nat × String × String)) → (∀ seen ∈ rest.head?, seen.1 < depth) →
    (∀ seen ∈ rest'.head?, seen.1 < depth) →
    (rowsOfAll depth stem os).map Row.seen ++ rest = (rowsOfAll depth stem' os').map Row.seen ++ rest' →
    List.Forall₂ (Outline.AgreesOn shorten) os os' ∧ rest = rest'
  | [], [], rest, rest', _, _, heq => ⟨.nil, heq⟩
  | [], o' :: os', rest, rest', h, _, heq =>
    absurd heq (ne_map_seen_rowsOfAll_cons depth stem' o' os' h rest')
  | o :: os, [], rest, rest', _, h', heq =>
    absurd heq.symm (ne_map_seen_rowsOfAll_cons depth stem o os h' rest)
  | o :: os, o' :: os', rest, rest', h, h', heq => by
    rw [rowsOfAll, rowsOfAll, List.map_append, List.map_append, List.append_assoc,
      List.append_assoc] at heq
    obtain ⟨hagrees, hothers⟩ :=
      agreesOn_of_seen depth _ _ _ _ o o' _ _ (depth_le_of_mem_head? depth stem os h)
      (depth_le_of_mem_head? depth stem' os' h') heq
    obtain ⟨hall, hrest⟩ := agreesOn_of_seenAll depth stem stem' os os' rest rest' h h' hothers
    exact ⟨.cons hagrees hall, hrest⟩

end

/-- **The rows of an outline tell the outline** but for attributes and ranges. -/
theorem agreesOn_of_map_seen_rows {o o' : Outline} (h : (rows o).map Row.seen = (rows o').map Row.seen) :
    o.AgreesOn shorten o' := by
  obtain ⟨hseen, hbelow⟩ := List.cons.inj h
  have hnode : (0, o.nodeType, shorten o.label) = (0, o'.nodeType, shorten o'.label) := hseen
  simp only [Prod.mk.injEq, true_and] at hnode
  obtain ⟨htype, hlabel⟩ := hnode
  obtain ⟨hchildren, -⟩ := agreesOn_of_seenAll 1 "" "" o.children o'.children [] [] (by simp) (by simp)
    (by simpa using hbelow)
  exact ⟨htype, hlabel, hchildren⟩

mutual

/-- Attributes and ranges are not shown. -/
theorem drawNode_eq_of_agreesOn (stem : String) (isLast : Bool) :
    (o o' : Outline) → o.AgreesOn shorten o' →
    drawNode false stem isLast o = drawNode false stem isLast o'
  | ⟨t, l, _, r, cs⟩, ⟨t', l', _, r', cs'⟩, h => by
    obtain ⟨htype, hlabel, hchildren⟩ := h
    have hcaption : caption t l = caption t' l' := by
      rw [caption, caption, show t = t' from htype, show shorten l = shorten l' from hlabel]
    rw [drawNode, drawNode, hcaption, (drawNodes_eq_of_agreesOn _ cs cs' hchildren).1]
    simp only [Bool.false_eq_true, if_false]

/-- Lists of nodes that agree in what the rows show are drawn alike. -/
theorem drawNodes_eq_of_agreesOn (stem : String) : (os os' : List Outline) →
    List.Forall₂ (Outline.AgreesOn shorten) os os' →
    drawNodes false stem os = drawNodes false stem os' ∧ os.isEmpty = os'.isEmpty
  | [], _, .nil => ⟨rfl, rfl⟩
  | o :: os, o' :: os', .cons h hs => by
    obtain ⟨hrest, hempty⟩ := drawNodes_eq_of_agreesOn stem os os' hs
    rw [drawNodes, drawNodes, hempty, hrest, drawNode_eq_of_agreesOn stem os'.isEmpty o o' h]
    exact ⟨rfl, rfl⟩

end

/-- Trees that agree in what the rows show are drawn alike. -/
theorem draw_eq_of_agreesOn {o o' : Outline} (h : o.AgreesOn shorten o') :
    draw false o = draw false o' := by
  obtain ⟨htype, hlabel, hchildren⟩ := h
  rw [draw, draw, caption, caption, htype, hlabel, (drawNodes_eq_of_agreesOn "" _ _ hchildren).1]

/-! ### Rows and lines -/

/-- An icon is on one line. -/
theorem oneLine_icon (nodeType : String) : OneLine (icon nodeType) := by
  unfold icon
  split <;> decide

/-- A label that is cut ends with the ellipsis. -/
theorem oneLine_shorten {label : String} (h : OneLine label) : OneLine (shorten label) := by
  unfold shorten
  split
  · refine .append_of_ne ?_ (by decide) (by decide)
    rw [String.toList_ofList]
    exact fun hfeed => h.noFeed (List.mem_of_mem_take hfeed)
  · exact h

/-- Connectors are bars, branches and blanks. -/
theorem mem_of_leads {depth : Nat} {cs : List Char} (h : Leads depth cs) :
    ∀ c ∈ cs, c ∈ ['│', ' ', '├', '└', '─'] := by
  cases depth with
  | zero =>
    rw [show cs = [] from h]
    simp
  | succ depth =>
    obtain ⟨cells, branch, rfl, -, hcells, hbranch⟩ := h
    intro c hc
    simp only [List.mem_append, List.mem_cons, List.not_mem_nil, or_false] at hc hcells hbranch ⊢
    rcases hc with hc | rfl | rfl | rfl
    · rcases hcells c hc with rfl | rfl <;> simp
    · rcases hbranch with rfl | rfl <;> simp
    · simp
    · simp

/-- The connectors of a row are on one line. -/
theorem oneLine_connectors {row : Row} (h : Leads row.depth row.connectors.toList) :
    OneLine row.connectors :=
  .ofAll (mem_of_leads h) (by decide) (by decide)

/-- What stands in a row in front of what is shown of the label. -/
theorem exists_lead {row : Row} (h : Leads row.depth row.connectors.toList) :
    ∃ lead, row.text false = lead ++ shorten row.node.label ∧ OneLine lead := by
  have hblank : OneLine " " := by decide
  refine ⟨row.connectors ++ icon row.node.nodeType ++ " ", ?_, ?_⟩
  · simp [Row.text, caption, String.append_assoc]
  · exact ((oneLine_connectors h).append (oneLine_icon _)).append hblank

/-- A row is on one line if its label is. -/
theorem oneLine_text {row : Row} (h : Leads row.depth row.connectors.toList)
    (hlabel : OneLine row.node.label) : OneLine (row.text false) := by
  obtain ⟨lead, htext, hlead⟩ := exists_lead h
  rw [htext]
  exact hlead.append (oneLine_shorten hlabel)

/-- The line feeds of a row are those in what is shown of the label. -/
theorem count_text {row : Row} (h : Leads row.depth row.connectors.toList) :
    (row.text false).toList.count '\n' = (shorten row.node.label).toList.count '\n' := by
  obtain ⟨lead, htext, hlead⟩ := exists_lead h
  rw [htext, String.toList_append, List.count_append, List.count_eq_zero.mpr hlead.noFeed, Nat.zero_add]

/-- Whether a text shows a node: behind connectors it has the icon for the type of the node, a
blank, and what is shown of the label. -/
def Shows (text : String) (node : Outline) : Prop :=
  ∃ connectors, text = connectors ++ caption node.nodeType node.label ∧
    ∀ c ∈ connectors.toList, c ∈ ['│', ' ', '├', '└', '─']

/-- The text of a row shows the node of the row. -/
theorem shows_text {row : Row} (h : Leads row.depth row.connectors.toList) :
    Shows (row.text false) row.node :=
  ⟨row.connectors, by simp [Row.text], mem_of_leads h⟩

/-- The rows show the nodes in their order. -/
theorem forall₂_shows (o : Outline) : List.Forall₂ Shows ((rows o).map (Row.text false)) o.preorder := by
  rw [← map_node_rows, List.forall₂_map_left_iff, List.forall₂_map_right_iff, List.forall₂_same]
  exact fun row hrow => shows_text (leads_rows o row hrow)

/-- **A drawing has a line for each node, and one more for each line feed that it shows.** -/
theorem length_lines_draw (o : Outline) :
    (Text.lines (draw false o)).length =
      o.nodeCount + (o.preorder.map fun node => (shorten node.label).toList.count '\n').sum := by
  have hfeeds : ((rows o).map (Row.text false)).map (fun text => text.toList.count '\n') =
      o.preorder.map fun node => (shorten node.label).toList.count '\n' := by
    rw [← map_node_rows, List.map_map, List.map_map]
    exact List.map_congr_left fun row hrow => count_text (leads_rows o row hrow)
  rw [draw_eq_stack, Text.length_lines_stack, hfeeds, List.length_map, ← Outline.length_preorder,
    ← map_node_rows, List.length_map]

/-- Where each label is one line, the lines of a drawing are its rows. -/
theorem lines_draw {o : Outline} (h : o.OneLine) :
    Text.lines (draw false o) = (rows o).map (Row.text false) := by
  rw [draw_eq_stack, Text.lines_stack]
  intro text htext
  obtain ⟨row, hrow, rfl⟩ := List.mem_map.mp htext
  refine oneLine_text (leads_rows o row hrow) (h row.node ?_)
  rw [← map_node_rows]
  exact List.mem_map_of_mem hrow

/-- **Outlines with types of grammar files can be told from their drawings** where each label is one
line, but for attributes and ranges. -/
theorem agreesOn_of_draw_eq {o o' : Outline} (h : o.Typed) (h' : o'.Typed) (hlines : o.OneLine)
    (hlines' : o'.OneLine) (heq : draw false o = draw false o') : o.AgreesOn shorten o' := by
  have hrows : ∀ {p : Outline}, p.Typed → ∀ row ∈ rows p,
      Leads row.depth row.connectors.toList ∧ row.node.nodeType ∈ Outline.nodeTypes := by
    intro p hp row hrow
    refine ⟨leads_rows p row hrow, hp.of_mem_preorder row.node ?_⟩
    rw [← map_node_rows]
    exact List.mem_map_of_mem hrow
  have htexts := congrArg Text.lines heq
  rw [lines_draw hlines, lines_draw hlines'] at htexts
  refine agreesOn_of_map_seen_rows (Text.map_eq_of_map_eq ?_ (hrows h) (hrows h') htexts)
  rintro row row' ⟨hleads, htype⟩ ⟨hleads', htype'⟩ htext
  exact seen_eq_of_text_eq hleads hleads' htype htype' htext

/-- A line number has two digits at least. -/
theorem lineNumber_eq (range : Range) : lineNumber range =
    (if range.start.line + 1 < 10 then "0" else "") ++ toString (range.start.line + 1) := by
  simp only [lineNumber, Text.length_toString_lt_two]

/-! ### Drawings of grammars -/

section Parsed

variable {source : String} {options : ParserOptions} {g : Grammar}

/-- **A drawing shows one node in each row, in the order of the nodes, and a row is a line unless a
line feed of a literal is shown in it.** There are as many lines as nodes just where no line feed is
shown. -/
theorem draw_of_parse (h : parse source options = .ok g) :
    (∃ texts, draw false g.outline = stack texts ∧ List.Forall₂ Shows texts g.outline.preorder) ∧
      (Text.lines (draw false g.outline)).length = g.outline.nodeCount +
        (g.outline.preorder.map fun node => (shorten node.label).toList.count '\n').sum ∧
      ((Text.lines (draw false g.outline)).length = g.outline.nodeCount ↔
        ∀ node ∈ g.outline.preorder, '\n' ∉ (shorten node.label).toList) ∧
      (g.LiteralsWithoutFeed →
        List.Forall₂ Shows (Text.lines (draw false g.outline)) g.outline.preorder) := by
  have hlength := length_lines_draw g.outline
  refine ⟨⟨_, draw_eq_stack false g.outline, forall₂_shows g.outline⟩, hlength, ?_, fun hliterals => ?_⟩
  · rw [hlength, Nat.add_eq_left, List.sum_eq_zero_iff_forall_eq_nat, List.forall_mem_map]
    simp only [List.count_eq_zero]
  · rw [lines_draw (oneLine_of_parse h hliterals)]
    exact forall₂_shows g.outline

/-- In a literal with a line feed there is a line more for each label that shows the feed. -/
theorem draw_of_parse_line_feed :
    ∃ g, parse "%start s %% s: \"a\nb\";" .default = .ok g ∧ g.outline.nodeCount = 9 ∧
      (Text.lines (draw false g.outline)).length = 12 := by
  have hok : (parse "%start s %% s: \"a\nb\";" .default).isOk := by decide +kernel
  have hcounts : (parse "%start s %% s: \"a\nb\";" .default).map (fun g => (g.outline.nodeCount,
      (g.outline.preorder.map fun node => (shorten node.label).toList.count '\n').sum)) = .ok (9, 3) := by
    decide +kernel
  obtain ⟨g, hg⟩ := exists_parse_of_isOk hok
  rw [hg] at hcounts
  obtain ⟨hnodes, hfeeds⟩ := Prod.mk.inj (Except.ok.inj hcounts)
  obtain ⟨-, hlength, -⟩ := draw_of_parse hg
  rw [hnodes, hfeeds] at hlength
  exact ⟨g, hg, hnodes, hlength⟩

/-- **Drawings without line feeds in literals are the same just where the outlines agree node by
node**, in the type, in what is shown of the label and in the number of children. With numbers each
row but the first has the line of its node in front. That line is counted from 1 by the line feeds
of the source in front of the node. -/
theorem draw_eq_iff_of_parse {source' : String} {options' : ParserOptions} {g' : Grammar}
    (h : parse source options = .ok g) (h' : parse source' options' = .ok g') :
    (g.LiteralsWithoutFeed → g'.LiteralsWithoutFeed →
      (draw false g.outline = draw false g'.outline ↔ g.outline.AgreesOn shorten g'.outline)) ∧
    (∃ first texts, draw false g.outline = stack (first :: texts) ∧
      List.Forall₂ Shows (first :: texts) g.outline.preorder ∧
      draw true g.outline = stack (first :: List.zipWith
        (fun node text => lineNumber node.range ++ " " ++ text) g.outline.preorder.tail texts)) ∧
    ∀ node ∈ g.outline.preorder, ∃ before behind, source.toList = before ++ behind ∧
      node.range.span.start = byteCount before ∧
      lineNumber node.range = (if before.count '\n' + 1 < 10 then "0" else "") ++
        toString (before.count '\n' + 1) := by
  refine ⟨fun hliterals hliterals' => ⟨?_, draw_eq_of_agreesOn⟩, ?_, fun node hnode => ?_⟩
  · exact agreesOn_of_draw_eq g.typed_outline g'.typed_outline (oneLine_of_parse h hliterals)
      (oneLine_of_parse h' hliterals')
  · refine ⟨_, _, draw_eq_stack false g.outline, forall₂_shows g.outline, ?_⟩
    rw [draw_eq_stack, map_text_true, ← map_node_rows, rows, List.map_cons, List.tail_cons,
      List.zipWith_map_left, List.zipWith_map_right, List.zipWith_self]
    simp [Row.text]
  · obtain ⟨before, behind, hsource, hstart, hline⟩ := startsOnLine_of_parse h node hnode
    exact ⟨before, behind, hsource, hstart, by rw [lineNumber_eq, hline]⟩

/-- A line break between two parts of a file shows in the line numbers only. -/
theorem draw_eq_iff_of_parse_line_break :
    ∃ g g', parse "%start s %% s: \"x\";" .default = .ok g ∧
      parse "%start s\n%% s: \"x\";" .default = .ok g' ∧
      g.LiteralsWithoutFeed ∧ g'.LiteralsWithoutFeed ∧ g.outline.AgreesOn shorten g'.outline ∧
      draw true g.outline ≠ draw true g'.outline := by
  have hok : (parse "%start s %% s: \"x\";" .default).isOk := by decide +kernel
  have hok' : (parse "%start s\n%% s: \"x\";" .default).isOk := by decide +kernel
  have htokens : (parse "%start s %% s: \"x\";" .default).map (·.tokens) =
      .ok [.mark .start, .identifier "s", .mark .percentPercent, .identifier "s", .mark .colon,
        .literal .string "\"x\"", .mark .semicolon] := by
    decide +kernel
  have htokens' : (parse "%start s\n%% s: \"x\";" .default).map (·.tokens) =
      (parse "%start s %% s: \"x\";" .default).map (·.tokens) := by
    decide +kernel
  have hplain : (parse "%start s %% s: \"x\";" .default).map (fun g => draw false g.outline) =
      (parse "%start s\n%% s: \"x\";" .default).map (fun g => draw false g.outline) := by
    decide +kernel
  have hnumbered : (parse "%start s %% s: \"x\";" .default).map (fun g => draw true g.outline) ≠
      (parse "%start s\n%% s: \"x\";" .default).map (fun g => draw true g.outline) := by
    decide +kernel
  obtain ⟨g, hg⟩ := exists_parse_of_isOk hok
  obtain ⟨g', hg'⟩ := exists_parse_of_isOk hok'
  rw [hg, hg'] at htokens' hplain hnumbered
  rw [hg] at htokens
  simp only [Except.map, Except.ok.injEq] at htokens htokens'
  have hliterals : g.LiteralsWithoutFeed := by
    intro kind text ht
    rw [htokens] at ht
    obtain ⟨-, rfl⟩ : kind = .string ∧ text = "\"x\"" := by simpa using ht
    decide
  have hliterals' : g'.LiteralsWithoutFeed := by
    unfold Grammar.LiteralsWithoutFeed
    rw [htokens']
    exact hliterals
  obtain ⟨hagrees, -⟩ := draw_eq_iff_of_parse hg hg'
  exact ⟨g, g', hg, hg', hliterals, hliterals', (hagrees hliterals hliterals').mp (Except.ok.inj hplain),
    fun heq => hnumbered (congrArg Except.ok heq)⟩

end Parsed

end GrammarFile.Treeviz
