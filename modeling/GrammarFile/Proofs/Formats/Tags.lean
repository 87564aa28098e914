import GrammarFile.Format.Tags
import GrammarFile.Proofs.Formats.NodeTypes
import GrammarFile.Proofs.Text.Lines

/-!
# Tags are nested, and say all that they show

In an outline as tags every opening tag is closed by one of the same name, and what is opened in
between is closed before (`Marked`). What could be taken for markup is written as an entity: between
the tags there is no bracket and no quote, and each `&` starts an entity (`Clean`).

Entities can be read back (`unescape_escape`), and the first `<` behind a label ends it. It begins a
closing tag if the node has no children, or the tag of the first child, which stands a line feed and
some blanks behind the label. So a label is known, whatever it looks like, and so are the types and
the number of the children: outlines with the same text as tags agree node by node
(`agreesOn_of_write`).
-/

namespace GrammarFile.Tags

/-! ### Markup -/

/-- The entities for the five characters of markup. -/
def entities : List (List Char) :=
  ["&amp;".toList, "&lt;".toList, "&gt;".toList, "&quot;".toList, "&apos;".toList]

/-- Whether a text has nothing in it that could be taken for markup: no angle bracket, no quote, and
no `&` that does not start an entity. -/
structure Clean (text : List Char) : Prop where
  lessThan : '<' ∉ text
  greaterThan : '>' ∉ text
  quote : '\x22' ∉ text
  apostrophe : '\x27' ∉ text
  entity : ∀ before behind, text = before ++ '&' :: behind → ∃ e ∈ entities, e <+: '&' :: behind

/-- Whether a text can stand between angle brackets as the name of a tag. -/
structure IsTagName (name : List Char) : Prop where
  nonempty : name ≠ []
  letters : ∀ c ∈ name, c.isLower ∨ c = '-'

/-- Whether a text has its tags in pairs of one name, one pair inside of the other or behind it,
with clean text between them. -/
inductive Marked : List Char → Prop where
  | text {cs : List Char} : Clean cs → Marked cs
  | element {name inside : List Char} : IsTagName name → Marked inside →
      Marked ('<' :: (name ++ '>' :: (inside ++ '<' :: '/' :: (name ++ ['>']))))
  | append {cs ds : List Char} : Marked cs → Marked ds → Marked (cs ++ ds)

namespace Clean

variable {cs ds : List Char}

/-- Characters that are written as they are make a clean text. -/
theorem ofPlain (h : ∀ c ∈ cs, escapeChar c = [c]) : Clean cs := by
  have hplain : ∀ c, escapeChar c ≠ [c] → c ∉ cs := fun c hc hmem => hc (h c hmem)
  refine ⟨hplain _ (by decide), hplain _ (by decide), hplain _ (by decide), hplain _ (by decide), ?_⟩
  rintro before behind rfl
  exact absurd (List.mem_append_right before List.mem_cons_self) (hplain '&' (by decide))

/-- An entity is a clean text. -/
theorem ofEntity (h : cs ∈ entities) : Clean cs := by
  have hentities : ∀ e ∈ entities, e.head? = some '&' ∧ '&' ∉ e.tail ∧
      '<' ∉ e ∧ '>' ∉ e ∧ '\x22' ∉ e ∧ '\x27' ∉ e := by decide
  obtain ⟨hhead, htail, hlt, hgt, hquote, hapostrophe⟩ := hentities cs h
  refine ⟨hlt, hgt, hquote, hapostrophe, ?_⟩
  -- its first character is the only `&` of an entity
  rintro (_ | ⟨c, before⟩) behind rfl
  · exact ⟨_, h, List.prefix_refl _⟩
  · exact absurd (List.mem_append_right before List.mem_cons_self) htail

/-- Clean texts behind each other are clean. -/
theorem append (h : Clean cs) (h' : Clean ds) : Clean (cs ++ ds) := by
  refine ⟨by simp [h.lessThan, h'.lessThan], by simp [h.greaterThan, h'.greaterThan],
    by simp [h.quote, h'.quote], by simp [h.apostrophe, h'.apostrophe], ?_⟩
  intro before behind heq
  rcases List.append_eq_append_iff.mp heq with ⟨middle, rfl, hds⟩ | ⟨middle, hcs, hmiddle⟩
  · exact h'.entity middle behind hds
  · cases middle with
    | nil => exact h'.entity [] behind hmiddle.symm
    | cons c middle =>
      obtain ⟨rfl, rfl⟩ := List.cons.inj hmiddle
      obtain ⟨e, he, hprefix⟩ := h.entity before middle hcs
      exact ⟨e, he, hprefix.trans (List.prefix_append ('&' :: middle) ds)⟩

end Clean

/-! ### Entities -/

/-- A character is written as an entity or as itself. -/
theorem escapeChar_mem_or_eq (c : Char) : escapeChar c ∈ entities ∨ escapeChar c = [c] := by
  unfold escapeChar
  repeat' split
  all_goals simp [entities]

/-- Every character is written as a clean text. -/
theorem clean_escapeChar (c : Char) : Clean (escapeChar c) := by
  rcases escapeChar_mem_or_eq c with hentity | hplain
  · exact .ofEntity hentity
  · rw [hplain]
    exact .ofPlain (by simpa using hplain)

/-- **An escaped text is clean.** -/
theorem clean_escape (cs : List Char) : Clean (cs.flatMap escapeChar) := by
  induction cs with
  | nil => exact .ofPlain (by simp)
  | cons c cs ih => exact (clean_escapeChar c).append ih

/-- A text with a character replaced wherever it stands. -/
def replace (c : Char) (text : List Char) (cs : List Char) : List Char :=
  cs.flatMap fun d => if d = c then text else [d]

/-- The characters of markup can as well be replaced one after the other, if `&` is the first of them. -/
theorem escape_eq_replace (cs : List Char) :
    cs.flatMap escapeChar = replace '\x27' "&apos;".toList (replace '\x22' "&quot;".toList
      (replace '>' "&gt;".toList (replace '<' "&lt;".toList (replace '&' "&amp;".toList cs)))) := by
  unfold replace
  rw [List.flatMap_assoc, List.flatMap_assoc, List.flatMap_assoc, List.flatMap_assoc]
  refine List.flatMap_congr fun c _ => ?_
  by_cases hmarkup : c ∈ ['&', '<', '>', '\x22', '\x27']
  · simp only [List.mem_cons, List.not_mem_nil, or_false] at hmarkup
    rcases hmarkup with rfl | rfl | rfl | rfl | rfl <;> rfl
  · simp only [List.mem_cons, List.not_mem_nil, or_false, not_or] at hmarkup
    obtain ⟨hamp, hlt, hgt, hquot, hapos⟩ := hmarkup
    simp only [escapeChar, if_neg hamp, if_neg hlt, if_neg hgt, if_neg hquot, if_neg hapos,
      List.flatMap_singleton]

/-- A text with its entities read back. -/
def unescape : List Char → List Char
  | '&' :: 'a' :: 'm' :: 'p' :: ';' :: rest => '&' :: unescape rest
  | '&' :: 'l' :: 't' :: ';' :: rest => '<' :: unescape rest
  | '&' :: 'g' :: 't' :: ';' :: rest => '>' :: unescape rest
  | '&' :: 'q' :: 'u' :: 'o' :: 't' :: ';' :: rest => '\x22' :: unescape rest
  | '&' :: 'a' :: 'p' :: 'o' :: 's' :: ';' :: rest => '\x27' :: unescape rest
  | c :: rest => c :: unescape rest
  | [] => []

/-- A character other than `&` is read as itself. -/
theorem unescape_of_ne {c : Char} (h : c ≠ '&') (rest : List Char) :
    unescape (c :: rest) = c :: unescape rest := by
  rw [unescape] <;> (intro _ heq _; exact h heq)

/-- What a character is written as is read as that character. -/
theorem unescape_escapeChar (c : Char) (rest : List Char) :
    unescape (escapeChar c ++ rest) = c :: unescape rest := by
  by_cases hamp : c = '&'
  · subst c
    rfl
  · unfold escapeChar
    rw [if_neg hamp]
    repeat' split
    case isFalse => exact unescape_of_ne hamp rest
    all_goals
      subst c
      rfl

/-- **An escaped text can be read back.** -/
theorem unescape_escape (cs : List Char) : unescape (cs.flatMap escapeChar) = cs := by
  induction cs with
  | nil => rfl
  | cons c cs ih => rw [List.flatMap_cons, unescape_escapeChar, ih]

/-- What looks like an entity in a text is still a text. -/
example : escape "&lt;" = "&amp;lt;" ∧ unescape "&amp;lt;".toList = "&lt;".toList := by
  decide

/-! ### Names of tags -/

/-- The listed types are made of lower-case letters and underscores, and none is empty. -/
theorem letters_nodeTypes :
    ∀ t ∈ Outline.nodeTypes, t.toList ≠ [] ∧ t.toList.all fun c => c.isLower || c = '_' := by
  decide +kernel

/-- The types of nodes give names of tags. -/
theorem isTagName_tagName {nodeType : String} (h : nodeType ∈ Outline.nodeTypes) :
    IsTagName (tagName nodeType).toList := by
  obtain ⟨hnonempty, hletters⟩ := letters_nodeTypes nodeType h
  rw [tagName, String.toList_ofList]
  refine ⟨by simpa using hnonempty, ?_⟩
  intro c hc
  obtain ⟨d, hd, rfl⟩ := List.mem_map.mp hc
  have hletter := List.all_eq_true.mp hletters d hd
  rw [Bool.or_eq_true, decide_eq_true_eq] at hletter
  rcases hletter with hlower | rfl
  · split
    · exact .inr rfl
    · exact .inl hlower
  · exact .inr rfl

/-- Nodes with tags of one name are of one type. -/
theorem eq_of_tagName_eq {t t' : String} (ht : t ∈ Outline.nodeTypes) (ht' : t' ∈ Outline.nodeTypes)
    (h : (tagName t).toList = (tagName t').toList) : t = t' := by
  have hback : ∀ s ∈ Outline.nodeTypes,
      (tagName s).toList.map (fun c => if c = '-' then '_' else c) = s.toList := by
    decide +kernel
  apply String.toList_injective
  rw [← hback t ht, ← hback t' ht', h]

/-- A tag name does not close a tag. -/
theorem IsTagName.greaterThan_not_mem {name : List Char} (h : IsTagName name) : '>' ∉ name := by
  intro hmem
  rcases h.letters '>' hmem with hlower | heq
  · exact absurd hlower (by decide)
  · exact absurd heq (by decide)

/-- A tag name has a first character, which is no slash. -/
theorem IsTagName.exists_cons {name : List Char} (h : IsTagName name) :
    ∃ c rest, name = c :: rest ∧ c ≠ '/' := by
  obtain ⟨hnonempty, hletters⟩ := h
  cases name with
  | nil => exact absurd rfl hnonempty
  | cons c rest =>
    refine ⟨c, rest, rfl, ?_⟩
    rintro rfl
    exact absurd (hletters '/' List.mem_cons_self) (by decide)

/-! ### The text of a node -/

/-- What stands between the label of a node and its closing tag: the children on lines of their own. -/
def inside (level : Nat) (o : Outline) : List Char :=
  if o.children.isEmpty then []
    else '\n' :: ((writeAll (level + 1) o.children).toList ++ (indent level).toList)

/-- A node is an opening tag, its escaped label, what is inside and a closing tag on a line. -/
theorem toList_write (level : Nat) (o : Outline) :
    (write level o).toList = (indent level).toList ++ '<' :: ((tagName o.nodeType).toList ++ '>' ::
      (o.label.toList.flatMap escapeChar ++ (inside level o ++
        '<' :: '/' :: ((tagName o.nodeType).toList ++ ['>', '\n'])))) := by
  obtain ⟨nodeType, label, attributes, range, children⟩ := o
  cases children <;> simp [write, opening, closing, escape, inside]

/-- Several nodes are written one behind the other. -/
theorem toList_writeAll_cons (level : Nat) (o : Outline) (os : List Outline) :
    (writeAll level (o :: os)).toList = (write level o).toList ++ (writeAll level os).toList := by
  rw [writeAll, String.toList_append]

/-- An indentation is a clean text. -/
theorem clean_indent (level : Nat) : Clean (indent level).toList := by
  refine .ofPlain fun c hc => ?_
  rw [indent, String.toList_ofList] at hc
  rw [(List.mem_replicate.mp hc).2]
  rfl

/-! ### Nesting -/

mutual

/-- **A node as tags has its tags in pairs, one inside of the other.** -/
theorem marked_write (level : Nat) : (o : Outline) → o.Typed → Marked (write level o).toList
  | ⟨nodeType, label, attributes, range, children⟩, h => by
    have hname := isTagName_tagName h.nodeType_mem
    have hline : Clean ['\n'] := .ofPlain (by simp [escapeChar])
    have hinside : Marked (inside level ⟨nodeType, label, attributes, range, children⟩) := by
      have hchildren := marked_writeAll (level + 1) children h.of_mem_children
      unfold inside
      split
      · exact .text (.ofPlain (by simp))
      · exact (Marked.text hline).append (hchildren.append (.text (clean_indent level)))
    have helement := Marked.element hname ((Marked.text (clean_escape label.toList)).append hinside)
    have hnode := (Marked.text (clean_indent level)).append (helement.append (.text hline))
    rw [toList_write]
    simpa using hnode

/-- Several nodes of listed types are written as well-formed markup. -/
theorem marked_writeAll (level : Nat) : (os : List Outline) → (∀ o ∈ os, o.Typed) →
    Marked (writeAll level os).toList
  | [], _ => .text (.ofPlain (by simp [writeAll]))
  | o :: os, h => by
    obtain ⟨ho, hos⟩ := List.forall_mem_cons.mp h
    rw [toList_writeAll_cons]
    exact (marked_write level o ho).append (marked_writeAll level os hos)

end

/-! ### Reading a node back -/

/-- The lines of some nodes start with a tag that is no closing one. -/
theorem exists_writeAll_cons (level : Nat) {o : Outline} (h : o.Typed) (os : List Outline) :
    ∃ c rest, (writeAll level (o :: os)).toList = (indent level).toList ++ '<' :: c :: rest ∧
      c ≠ '/' := by
  obtain ⟨c, name, hname, hc⟩ := (isTagName_tagName h.nodeType_mem).exists_cons
  rw [toList_writeAll_cons, toList_write, hname]
  simp [hc]

/-- The lines of no nodes, and then a closing tag, are not the lines of some nodes. -/
theorem closing_ne_writeAll_cons (level outer : Nat) {o : Outline} (h : o.Typed) (os : List Outline)
    (rest behind : List Char) :
    (indent outer).toList ++ '<' :: '/' :: rest ≠ (writeAll level (o :: os)).toList ++ behind := by
  obtain ⟨c, line, hlines, hc⟩ := exists_writeAll_cons level h os
  rw [hlines, List.append_assoc, List.cons_append]
  intro heq
  obtain ⟨-, hclosing⟩ :=
    Text.append_cons_inj_of_not_mem (clean_indent outer).lessThan (clean_indent level).lessThan heq
  exact hc (List.cons.inj hclosing).1.symm

/-- What stands between the label of a node and the first `<` behind it. -/
def gap (level : Nat) (o : Outline) : List Char :=
  if o.children.isEmpty then [] else '\n' :: (indent (level + 1)).toList

/-- The first `<` behind the label of a node tells whether the node has children. -/
theorem exists_gap (level : Nat) {o : Outline} (h : o.Typed) (behind : List Char) :
    ∃ c rest, inside level o ++ '<' :: '/' :: behind = gap level o ++ '<' :: c :: rest ∧
      (c = '/' ↔ o.children.isEmpty) := by
  obtain ⟨nodeType, label, attributes, range, children⟩ := o
  cases children with
  | nil => exact ⟨'/', behind, rfl, by simp⟩
  | cons child children =>
    obtain ⟨c, rest, hchild, hc⟩ :=
      exists_writeAll_cons (level + 1) (h.of_mem_children child List.mem_cons_self) children
    refine ⟨c, rest ++ ((indent level).toList ++ '<' :: '/' :: behind), ?_, by simp [hc]⟩
    simp [inside, gap, hchild]

/-- **The label of a node can be read off its text**, and whether it has children. -/
theorem label_eq_of_inside (level : Nat) {o o' : Outline} (h : o.Typed) (h' : o'.Typed)
    {behind behind' : List Char}
    (heq : o.label.toList.flatMap escapeChar ++ (inside level o ++ '<' :: '/' :: behind) =
      o'.label.toList.flatMap escapeChar ++ (inside level o' ++ '<' :: '/' :: behind')) :
    o.label = o'.label ∧ o.children.isEmpty = o'.children.isEmpty := by
  have hnot : ∀ p : Outline, '<' ∉ p.label.toList.flatMap escapeChar ++ gap level p := by
    intro p
    have hlabel := (clean_escape p.label.toList).lessThan
    have hindent := (clean_indent (level + 1)).lessThan
    unfold gap
    split <;> simp [hlabel, hindent]
  obtain ⟨c, rest, hinside, hc⟩ := exists_gap level h behind
  obtain ⟨c', rest', hinside', hc'⟩ := exists_gap level h' behind'
  rw [hinside, hinside', ← List.append_assoc, ← List.append_assoc] at heq
  obtain ⟨htext, hbehind⟩ := Text.append_cons_inj_of_not_mem (hnot o) (hnot o') heq
  obtain ⟨rfl, -⟩ := List.cons.inj hbehind
  have hempty : o.children.isEmpty = o'.children.isEmpty := Bool.eq_iff_iff.mpr (hc.symm.trans hc')
  have hgap : gap level o = gap level o' := by
    rw [gap, gap, hempty]
  rw [hgap] at htext
  have hescaped := congrArg unescape (List.append_cancel_right htext)
  rw [unescape_escape, unescape_escape] at hescaped
  exact ⟨String.toList_injective hescaped, hempty⟩

mutual

/-- **The text of a node tells where the node ends, and tells the node but for attributes and ranges.** -/
theorem agreesOn_of_write (level : Nat) :
    (o o' : Outline) → o.Typed → o'.Typed → (rest rest' : List Char) →
    (write level o).toList ++ rest = (write level o').toList ++ rest' → o.AgreesOn id o' ∧ rest = rest'
  | ⟨t, l, as, r, cs⟩, ⟨t', l', as', r', cs'⟩, h, h', rest, rest', heq => by
    have hname := isTagName_tagName h.nodeType_mem
    have hname' := isTagName_tagName h'.nodeType_mem
    rw [toList_write, toList_write] at heq
    simp only [List.append_assoc, List.cons_append, List.append_cancel_left_eq, List.cons.injEq,
      true_and] at heq
    obtain ⟨htag, heq⟩ :=
      Text.append_cons_inj_of_not_mem hname.greaterThan_not_mem hname'.greaterThan_not_mem heq
    obtain rfl : t = t' := eq_of_tagName_eq h.nodeType_mem h'.nodeType_mem htag
    obtain ⟨hlabel, hempty⟩ := label_eq_of_inside level h h' heq
    obtain rfl : l = l' := hlabel
    have hinside := List.append_cancel_left heq
    cases hcs : cs.isEmpty with
    | true =>
      obtain rfl := List.isEmpty_iff.mp hcs
      obtain rfl := List.isEmpty_iff.mp (hempty.symm.trans hcs)
      exact ⟨⟨rfl, rfl, .nil⟩, by simpa [inside] using hinside⟩
    | false =>
      have hcs' : cs'.isEmpty = false := hempty.symm.trans hcs
      simp only [inside, hcs, hcs', Bool.false_eq_true, if_false, List.cons_append, List.append_assoc,
        List.cons.injEq, true_and] at hinside
      obtain ⟨hchildren, hrest⟩ := agreesOn_of_writeAll (level + 1) level cs cs' h.of_mem_children
        h'.of_mem_children _ _ hinside
      exact ⟨⟨rfl, rfl, hchildren⟩, by simpa using hrest⟩

/-- Lists of nodes that are written alike, up to a closing tag, agree and leave the same rest. -/
theorem agreesOn_of_writeAll (level outer : Nat) : (os os' : List Outline) → (∀ o ∈ os, o.Typed) →
    (∀ o ∈ os', o.Typed) → (rest rest' : List Char) →
    (writeAll level os).toList ++ ((indent outer).toList ++ '<' :: '/' :: rest) =
      (writeAll level os').toList ++ ((indent outer).toList ++ '<' :: '/' :: rest') →
    List.Forall₂ (Outline.AgreesOn id) os os' ∧ rest = rest'
  | [], [], _, _, rest, rest', heq => ⟨.nil, by simpa [writeAll] using heq⟩
  | [], o' :: os', _, h', _, _, heq =>
    absurd heq (closing_ne_writeAll_cons level outer (h' o' List.mem_cons_self) os' _ _)
  | o :: os, [], h, _, _, _, heq =>
    absurd heq.symm (closing_ne_writeAll_cons level outer (h o List.mem_cons_self) os _ _)
  | o :: os, o' :: os', h, h', rest, rest', heq => by
    obtain ⟨ho, hos⟩ := List.forall_mem_cons.mp h
    obtain ⟨ho', hos'⟩ := List.forall_mem_cons.mp h'
    rw [toList_writeAll_cons, toList_writeAll_cons, List.append_assoc, List.append_assoc] at heq
    obtain ⟨hagrees, heq⟩ := agreesOn_of_write level o o' ho ho' _ _ heq
    obtain ⟨hall, hrest⟩ := agreesOn_of_writeAll level outer os os' hos hos' rest rest' heq
    exact ⟨.cons hagrees hall, hrest⟩

end

mutual

/-- Attributes and ranges are not shown. -/
theorem write_eq_of_agreesOn (level : Nat) :
    (o o' : Outline) → o.AgreesOn id o' → write level o = write level o'
  | ⟨_, _, _, _, cs⟩, ⟨_, _, _, _, cs'⟩, h => by
    obtain ⟨rfl, rfl, hchildren⟩ := h
    obtain ⟨hlines, hempty⟩ := writeAll_eq_of_agreesOn (level + 1) cs cs' hchildren
    rw [write, write, hlines, hempty]
    rfl

/-- Lists of nodes that agree are written alike. -/
theorem writeAll_eq_of_agreesOn (level : Nat) : (os os' : List Outline) →
    List.Forall₂ (Outline.AgreesOn id) os os' →
    writeAll level os = writeAll level os' ∧ os.isEmpty = os'.isEmpty
  | [], _, .nil => ⟨rfl, rfl⟩
  | o :: os, o' :: os', .cons h hs => by
    rw [writeAll, writeAll, write_eq_of_agreesOn level o o' h,
      (writeAll_eq_of_agreesOn level os os' hs).1]
    exact ⟨rfl, rfl⟩

end

/-! ### Grammars -/

/-- **The tags of a grammar are nested, and what they do not show is attributes and ranges only.**
Every opening tag is closed by its own, and what could be taken for markup in a label is not. Two
grammars have the same text as tags just where their outlines agree node by node: in the types, in
the labels, down to each blank and line feed, and in the numbers of children. -/
theorem write_outline :
    (∀ g : Grammar, Marked (write 0 g.outline).toList) ∧
      ∀ g g' : Grammar, write 0 g.outline = write 0 g'.outline ↔ g.outline.AgreesOn id g'.outline := by
  constructor
  · exact fun g => marked_write 0 g.outline g.typed_outline
  · intro g g'
    constructor
    · intro heq
      exact (agreesOn_of_write 0 g.outline g'.outline g.typed_outline g'.typed_outline [] []
        (by rw [heq])).1
    · exact write_eq_of_agreesOn 0 g.outline g'.outline

end GrammarFile.Tags
