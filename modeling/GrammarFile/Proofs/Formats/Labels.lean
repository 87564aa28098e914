import GrammarFile.Proofs.Formats.NodeTypes
import GrammarFile.Proofs.RoundTrip
import GrammarFile.Proofs.Text.Digits
import GrammarFile.Proofs.Text.Lines

/-!
# The labels of an outline

An outline is listed node by node, each in front of the nodes below it (`Outline.preorder`). The
labels are the texts of the parts of a file, so what holds of the texts of the tokens goes over to
the labels: if each token is one line, then so is each label (`Grammar.oneLine_outline`). In a
parsed file only a literal can take more than one line (`oneLine_of_parse`).
-/

namespace GrammarFile

open Outline (leaf)
open Text (OneLine)

namespace Outline

/-! ### The nodes of an outline -/

mutual

/-- The nodes of an outline, each in front of those below it. -/
def preorder : Outline → List Outline
  | ⟨nodeType, label, attributes, range, children⟩ =>
    ⟨nodeType, label, attributes, range, children⟩ :: preorderAll children

/-- The nodes of some outlines, one after the other. -/
def preorderAll : List Outline → List Outline
  | [] => []
  | o :: rest => o.preorder ++ preorderAll rest

end

/-- The preorder of several trees is made of those of each. -/
theorem preorderAll_eq_flatMap (os : List Outline) : preorderAll os = os.flatMap preorder := by
  induction os with
  | nil => rfl
  | cons o os ih => rw [preorderAll, ih, List.flatMap_cons]

/-- A preorder starts with the root and goes on with the children in order. -/
theorem preorder_eq (o : Outline) : o.preorder = o :: o.children.flatMap preorder := by
  obtain ⟨nodeType, label, attributes, range, children⟩ := o
  rw [preorder, preorderAll_eq_flatMap]

mutual

/-- As many nodes are listed as are counted. -/
theorem length_preorder : (o : Outline) → o.preorder.length = o.nodeCount
  | ⟨_, _, _, _, children⟩ => by
    rw [preorder, nodeCount, List.length_cons, length_preorderAll children, Nat.add_comm]

/-- The preorder of several trees is as long as there are nodes in them. -/
theorem length_preorderAll : (os : List Outline) → (preorderAll os).length = nodeCounts os
  | [] => rfl
  | o :: os => by
    rw [preorderAll, nodeCounts, List.length_append, length_preorder o, length_preorderAll os]

end

/-- All nodes are of the types of grammar files. -/
theorem Typed.of_mem_preorder {o : Outline} (h : o.Typed) :
    ∀ node ∈ o.preorder, node.nodeType ∈ nodeTypes := by
  induction h with
  | @mk o hnodeType _ ih =>
    intro node hnode
    rw [preorder_eq] at hnode
    rcases List.mem_cons.mp hnode with rfl | hbelow
    · exact hnodeType
    · obtain ⟨c, hc, hnode⟩ := List.mem_flatMap.mp hbelow
      exact ih c hc node hnode

/-! ### What holds of every node -/

/-- Whether something holds of the label and the range of every node. -/
def Each (p : String → Range → Prop) (o : Outline) : Prop :=
  ∀ node ∈ o.preorder, p node.label node.range

namespace Each

variable {p : String → Range → Prop} {o : Outline}

/-- What holds of each node holds of the root. -/
theorem node (h : o.Each p) : p o.label o.range := by
  apply h
  rw [preorder_eq]
  exact List.mem_cons_self

/-- What holds of each node of a tree holds of each node of a child. -/
theorem of_mem_children (h : o.Each p) : ∀ c ∈ o.children, c.Each p := by
  intro c hc node hnode
  apply h
  rw [preorder_eq]
  exact List.mem_cons_of_mem o (List.mem_flatMap.mpr ⟨c, hc, hnode⟩)

/-- What is known of a node and of its children is known of all nodes. -/
theorem mk (hnode : p o.label o.range) (hchildren : ∀ c ∈ o.children, c.Each p) : o.Each p := by
  intro node hmem
  rw [preorder_eq] at hmem
  rcases List.mem_cons.mp hmem with rfl | hbelow
  · exact hnode
  · obtain ⟨c, hc, hmem⟩ := List.mem_flatMap.mp hbelow
    exact hchildren c hc node hmem

/-- It is enough to look at the label and the range of a leaf. -/
theorem ofLeaf {nodeType label : String} {range : Range} (h : p label range) :
    (leaf nodeType label range).Each p :=
  mk h fun _ hc => absurd hc List.not_mem_nil

/-- An attribute more changes nothing about labels and ranges. -/
theorem withAttribute (h : o.Each p) (name text : String) : (o.withAttribute name text).Each p :=
  mk h.node h.of_mem_children

/-- Children of which it holds may be put below a node of which it holds. -/
theorem withChildren (h : o.Each p) {children : List Outline} (hchildren : ∀ c ∈ children, c.Each p) :
    (o.withChildren children).Each p :=
  mk h.node (List.forall_mem_append.mpr ⟨h.of_mem_children, hchildren⟩)

end Each

/-- Whether the label of every node is one line. -/
abbrev OneLine (o : Outline) : Prop :=
  o.Each fun label _ => Text.OneLine label

end Outline

/-! ### Texts of symbols -/

/-- Every mark is on one line. -/
theorem Mark.oneLine_text (m : Mark) : OneLine m.text := by
  cases m <;> decide

/-- The names between separators. -/
theorem oneLine_name_of_tokensBetween {separator : Mark} {names : List Identifier}
    (h : ∀ t ∈ tokensBetween separator names, OneLine t.text) : ∀ i ∈ names, OneLine i.name := by
  cases names with
  | nil => simp
  | cons i names =>
    obtain ⟨hi, hnames⟩ := List.forall_mem_cons.mp h
    refine List.forall_mem_cons.mpr ⟨hi, fun j hj => h j.token ?_⟩
    exact List.mem_cons_of_mem _ (List.mem_flatMap.mpr ⟨j, hj, by simp⟩)

/-- The text of a list of identifiers is on one line if its tokens are. -/
theorem IdentifierList.oneLine_display (l : IdentifierList) (h : ∀ t ∈ l.tokens, OneLine t.text) :
    OneLine l.display :=
  .intercalate (by decide) (List.forall_mem_map.mpr (oneLine_name_of_tokensBetween h))

/-- The text of a type name is on one line if its tokens are. -/
theorem TypeName.oneLine_display (t : TypeName) (h : ∀ u ∈ t.tokens, OneLine u.text) :
    OneLine t.display :=
  .intercalate (by decide) (List.forall_mem_map.mpr (oneLine_name_of_tokensBetween h))

/-- The text of a look-ahead is on one line if its literal is. -/
theorem LookAhead.oneLine_display (l : LookAhead) (h : OneLine l.literal.text) : OneLine l.display := by
  have hblank : OneLine " " := by decide
  exact (l.kind.operator.oneLine_text.append hblank).append h

/-- The text of a terminal is on one line if its tokens are. -/
theorem Terminal.oneLine_display (t : Terminal) (h : ∀ u ∈ t.tokens, OneLine u.text) :
    OneLine t.display := by
  obtain ⟨hliteral, hlookAhead⟩ := List.forall_mem_cons.mp h
  have hblank : OneLine " " := by decide
  refine hliteral.append (.elim t.lookAhead fun l hl => hblank.append (l.oneLine_display ?_))
  rw [hl] at hlookAhead
  exact hlookAhead l.literal.token (by simp [LookAhead.tokens])

/-- The text of a type annotation is on one line if its tokens are. -/
theorem TypeAnnotation.oneLine_display (a : TypeAnnotation) (h : ∀ t ∈ a.tokens, OneLine t.text) :
    OneLine a.display := by
  have hcolon : OneLine ": " := by decide
  exact hcolon.append (a.typeName.oneLine_display fun t ht => h t (List.mem_cons_of_mem _ ht))

/-- The text of what is written after a symbol is on one line if its tokens are. -/
theorem TreeControl.oneLine_display (c : TreeControl) (h : ∀ t ∈ c.tokens, OneLine t.text) :
    OneLine c.display := by
  unfold TreeControl.display TreeControl.tokens at *
  cases hc : c.kind with
  | cut => decide
  | member name type =>
    simp only [hc, List.forall_mem_cons] at h
    obtain ⟨-, hname, htype⟩ := h
    have hat : OneLine "@" := by decide
    refine (hat.append hname).append (.elim type ?_)
    rintro a rfl
    exact a.oneLine_display htype
  | typed type =>
    simp only [hc] at h
    exact type.oneLine_display h

/-- The text of a symbol by itself is on one line if its tokens are. -/
theorem SymbolKind.oneLine_display (s : SymbolKind) (h : ∀ t ∈ s.tokens, OneLine t.text) :
    OneLine s.display := by
  cases s with
  | nonTerminal i => exact h _ List.mem_cons_self
  | terminal t => exact t.oneLine_display h
  | terminalIn states t =>
    simp only [SymbolKind.tokens, List.forall_mem_cons, List.forall_mem_append] at h
    obtain ⟨-, hstates, -, ht⟩ := h
    have hopen : OneLine "<" := by decide
    have hclose : OneLine ">" := by decide
    exact ((hopen.append (states.oneLine_display hstates)).append hclose).append (t.oneLine_display ht)

/-- The text of a symbol is on one line if its tokens are. -/
theorem Symbol.oneLine_display (s : Symbol) (h : ∀ t ∈ s.tokens, OneLine t.text) : OneLine s.display := by
  obtain ⟨hkind, hcontrol⟩ := List.forall_mem_append.mp h
  refine (s.kind.oneLine_display hkind).append (.elim s.control fun c hc => c.oneLine_display ?_)
  rwa [hc] at hcontrol

/-! ### Texts of bodies -/

mutual

/-- The text of a factor is on one line if its tokens are. -/
theorem Factor.oneLine_display : (f : Factor) → (∀ t ∈ f.tokens, OneLine t.text) → OneLine f.display
  | .symbol s, h => s.oneLine_display h
  | .bracketed kind none _, _ => kind.left.oneLine_text.append kind.right.oneLine_text
  | .bracketed kind (some ⟨as, _⟩) _, h => by
    have hbody : ∀ t ∈ tokensOfBody as, OneLine t.text := by
      intro t ht
      exact h t (List.mem_cons_of_mem _ (List.mem_append_left _ ht))
    exact (kind.left.oneLine_text.append (oneLine_displayBody as hbody)).append kind.right.oneLine_text

/-- The text of a body is on one line if its tokens are. -/
theorem oneLine_displayBody :
    (as : List (AlternationOf Factor)) → (∀ t ∈ tokensOfBody as, OneLine t.text) →
    OneLine (displayBody as)
  | [], _ => .empty
  | ⟨fs, _⟩ :: as, h => by
    obtain ⟨hfs, has⟩ := List.forall_mem_append.mp h
    have hblank : OneLine " " := by decide
    exact (hblank.intercalate (oneLine_displayFactors fs hfs)).append (oneLine_displayAfterPipe as has)

/-- The text of alternations behind a pipe is on one line if their tokens are. -/
theorem oneLine_displayAfterPipe : (as : List (AlternationOf Factor)) →
    (∀ t ∈ tokensAfterPipe as, OneLine t.text) → OneLine (displayAfterPipe as)
  | [], _ => .empty
  | ⟨[], _⟩ :: as, h => by
    obtain ⟨-, has⟩ := List.forall_mem_cons.mp h
    have hpipe : OneLine " |" := by decide
    exact hpipe.append (oneLine_displayAfterPipe as has)
  | ⟨f :: fs, _⟩ :: as, h => by
    obtain ⟨-, h⟩ := List.forall_mem_cons.mp h
    obtain ⟨hfs, has⟩ := List.forall_mem_append.mp h
    have hpipe : OneLine " | " := by decide
    have hblank : OneLine " " := by decide
    have hfactors := hpipe.append (hblank.intercalate (oneLine_displayFactors (f :: fs) hfs))
    exact hfactors.append (oneLine_displayAfterPipe as has)

/-- The text of each of some factors is on one line if all their tokens are. -/
theorem oneLine_displayFactors : (fs : List Factor) → (∀ t ∈ tokensOfFactors fs, OneLine t.text) →
    ∀ text ∈ displayFactors fs, OneLine text
  | [], _ => by simp [displayFactors]
  | f :: fs, h => by
    obtain ⟨hf, hfs⟩ := List.forall_mem_append.mp h
    rw [displayFactors]
    exact List.forall_mem_cons.mpr ⟨f.oneLine_display hf, oneLine_displayFactors fs hfs⟩

end

/-! ### Outlines of symbols and bodies -/

/-- The outline of a literal has labels on one line if the literal is. -/
theorem Literal.oneLine_outline (l : Literal) (h : OneLine l.text) : l.outline.OneLine :=
  .ofLeaf h

/-- The outline of a list of identifiers has labels on one line if the tokens are. -/
theorem IdentifierList.oneLine_outline (l : IdentifierList) (h : ∀ t ∈ l.tokens, OneLine t.text) :
    l.outline.OneLine :=
  .ofLeaf (l.oneLine_display h)

/-- The outline of a look-ahead has labels on one line if the literal is. -/
theorem LookAhead.oneLine_outline (l : LookAhead) (h : OneLine l.literal.text) : l.outline.OneLine :=
  (Outline.Each.ofLeaf (l.oneLine_display h)).withChildren (by simpa using l.literal.oneLine_outline h)

/-- The outlines of a terminal have labels on one line if its tokens are. -/
theorem Terminal.oneLine_outlines (t : Terminal) (h : ∀ u ∈ t.tokens, OneLine u.text) :
    ∀ o ∈ t.outlines, o.OneLine := by
  obtain ⟨literal, lookAhead, range⟩ := t
  obtain ⟨hliteral, hlookAhead⟩ := List.forall_mem_cons.mp h
  refine List.forall_mem_cons.mpr ⟨literal.oneLine_outline hliteral, ?_⟩
  cases lookAhead with
  | none => simp
  | some l =>
    have hl : OneLine l.literal.text := hlookAhead l.literal.token (by simp [LookAhead.tokens])
    simpa using l.oneLine_outline hl

/-- The outline of what is written after a symbol has labels on one line if its tokens are. -/
theorem TreeControl.oneLine_outline (c : TreeControl) (h : ∀ t ∈ c.tokens, OneLine t.text) :
    c.outline.OneLine := by
  have hnode :
      Outline.OneLine ((leaf "ast_control" c.display c.range).withAttribute "kind" c.kind.name) :=
    (Outline.Each.ofLeaf (c.oneLine_display h)).withAttribute _ _
  unfold outline
  cases c.memberName? <;> cases c.typeName? <;> simp [hnode, Outline.Each.withAttribute]

/-- The outline of a symbol has labels on one line if its tokens are. -/
theorem Symbol.oneLine_outline (s : Symbol) (h : ∀ t ∈ s.tokens, OneLine t.text) : s.outline.OneLine := by
  have hnode : (leaf s.kind.name s.display s.range).OneLine := .ofLeaf (s.oneLine_display h)
  obtain ⟨hkind, hcontrol⟩ := List.forall_mem_append.mp h
  have hcontrols : ∀ o ∈ (s.control.map (·.outline)).toList, o.OneLine := by
    cases hc : s.control with
    | none => simp
    | some c =>
      rw [hc] at hcontrol
      simpa using c.oneLine_outline hcontrol
  obtain ⟨kind, control, range⟩ := s
  cases kind with
  | nonTerminal i => exact (hnode.withAttribute _ _).withChildren hcontrols
  | terminal t => exact (hnode.withChildren (t.oneLine_outlines hkind)).withChildren hcontrols
  | terminalIn states t =>
    simp only [SymbolKind.tokens, List.forall_mem_cons, List.forall_mem_append] at hkind
    obtain ⟨-, hstates, -, ht⟩ := hkind
    have hparts := List.forall_mem_cons.mpr ⟨states.oneLine_outline hstates, t.oneLine_outlines ht⟩
    exact (hnode.withChildren hparts).withChildren hcontrols

/-- A number is on one line. -/
theorem oneLine_toString (n : Nat) : OneLine (toString n) :=
  .ofAll (Text.isDigit_of_mem_toString n) (by decide) (by decide)

/-- A number with a noun is on one line if the noun is. -/
theorem oneLine_count (n : Nat) (noun : String) (h : OneLine noun) : OneLine (toString n ++ noun) :=
  (oneLine_toString n).append h

/-- The label of an alternation is on one line if its tokens are. -/
theorem AlternationOf.oneLine_label (a : Alternation)
    (h : ∀ t ∈ tokensOfFactors a.factors, OneLine t.text) : OneLine (AlternationOf.label a) := by
  have hblank : OneLine " " := by decide
  unfold AlternationOf.label
  split
  · decide
  · exact hblank.intercalate (oneLine_displayFactors a.factors h)

/-- What holds of all tokens behind a pipe holds of those of each alternation. -/
theorem forall_mem_tokensOfFactors_of_afterPipe {p : Token → Prop} (as : List (AlternationOf Factor))
    (h : ∀ t ∈ tokensAfterPipe as, p t) : ∀ a ∈ as, ∀ t ∈ tokensOfFactors a.factors, p t := by
  induction as with
  | nil => simp
  | cons a as ih =>
    obtain ⟨-, h⟩ := List.forall_mem_cons.mp h
    obtain ⟨ha, has⟩ := List.forall_mem_append.mp h
    exact List.forall_mem_cons.mpr ⟨ha, ih has⟩

/-- The tokens of an alternation are among those of the body. -/
theorem forall_mem_tokensOfFactors {p : Token → Prop} (as : List (AlternationOf Factor))
    (h : ∀ t ∈ tokensOfBody as, p t) : ∀ a ∈ as, ∀ t ∈ tokensOfFactors a.factors, p t := by
  cases as with
  | nil => simp
  | cons a as =>
    obtain ⟨ha, has⟩ := List.forall_mem_append.mp h
    exact List.forall_mem_cons.mpr ⟨ha, forall_mem_tokensOfFactors_of_afterPipe as has⟩

mutual

/-- The outline of a factor has labels on one line if its tokens are. -/
theorem Factor.oneLine_outline : (f : Factor) → (∀ t ∈ f.tokens, OneLine t.text) → f.outline.OneLine
  | .symbol s, h => s.oneLine_outline h
  | .bracketed kind none r, h => .ofLeaf (Factor.oneLine_display (.bracketed kind none r) h)
  | .bracketed kind (some ⟨as, inner⟩) r, h => by
    have hlabel := Factor.oneLine_display _ h
    have hbody : ∀ t ∈ tokensOfBody as, OneLine t.text := by
      intro t ht
      exact h t (List.mem_cons_of_mem _ (List.mem_append_left _ ht))
    have halternations : ((leaf "alternations" (toString as.length ++ " alternatives") inner).withChildren
        (outlineAlternations as)).OneLine :=
      (Outline.Each.ofLeaf (oneLine_count as.length " alternatives" (by decide))).withChildren
        (oneLine_outlineAlternations as (forall_mem_tokensOfFactors as hbody))
    exact (Outline.Each.ofLeaf hlabel).withChildren (by simpa using halternations)

/-- The outlines of alternations have labels on one line if their tokens are. -/
theorem oneLine_outlineAlternations : (as : List (AlternationOf Factor)) →
    (∀ a ∈ as, ∀ t ∈ tokensOfFactors a.factors, OneLine t.text) → ∀ o ∈ outlineAlternations as, o.OneLine
  | [], _ => by simp [outlineAlternations]
  | ⟨fs, r⟩ :: as, h => by
    obtain ⟨hfs, has⟩ := List.forall_mem_cons.mp h
    have hlabel := AlternationOf.oneLine_label ⟨fs, r⟩ hfs
    refine List.forall_mem_cons.mpr ⟨?_, oneLine_outlineAlternations as has⟩
    exact (Outline.Each.ofLeaf hlabel).withChildren (oneLine_outlineFactors fs hfs)

/-- The outlines of factors have labels on one line if their tokens are. -/
theorem oneLine_outlineFactors : (fs : List Factor) → (∀ t ∈ tokensOfFactors fs, OneLine t.text) →
    ∀ o ∈ outlineFactors fs, o.OneLine
  | [], _ => by simp [outlineFactors]
  | f :: fs, h => by
    obtain ⟨hf, hfs⟩ := List.forall_mem_append.mp h
    exact List.forall_mem_cons.mpr ⟨f.oneLine_outline hf, oneLine_outlineFactors fs hfs⟩

end

/-- The outline of a production has labels on one line if its tokens are. -/
theorem Production.oneLine_outline (p : Production) (h : ∀ t ∈ p.tokens, OneLine t.text) :
    p.outline.OneLine := by
  simp only [Production.tokens, List.forall_mem_cons, List.forall_mem_append] at h
  obtain ⟨hname, -, -, hbody, -⟩ := h
  have hnode : (leaf "production" p.name.name p.range).OneLine := .ofLeaf hname
  have hchildren : ∀ o ∈ (p.body.map AlternationsOf.outline).toList, o.OneLine := by
    cases hb : p.body with
    | none => simp
    | some b =>
      rw [hb] at hbody
      have hcount := oneLine_count b.alternations.length " alternatives" (by decide)
      have halternations : (AlternationsOf.outline b).OneLine :=
        (Outline.Each.ofLeaf hcount).withChildren
          (oneLine_outlineAlternations b.alternations (forall_mem_tokensOfFactors b.alternations hbody))
      simpa using halternations
  unfold outline
  cases p.leadingPipe with
  | true => exact (hnode.withAttribute _ _).withChildren hchildren
  | false => exact hnode.withChildren hchildren

/-! ### The prolog -/

/-- The text of a switch of scanner states is on one line if its tokens are. -/
theorem StateSwitch.oneLine_display (s : StateSwitch) (h : ∀ t ∈ s.tokens, OneLine t.text) :
    OneLine s.display := by
  obtain ⟨hkeyword, htarget⟩ := List.forall_mem_cons.mp h
  have hblank : OneLine " " := by decide
  refine hkeyword.append (.elim s.target? fun target ht => hblank.append ?_)
  rw [ht] at htarget
  exact htarget target.token List.mem_cons_self

/-- The text of a directive is on one line if its tokens are. -/
theorem Directive.oneLine_display (d : Directive) (h : ∀ t ∈ d.tokens, OneLine t.text) :
    OneLine d.display := by
  obtain ⟨hkeyword, hparts⟩ := List.forall_mem_cons.mp h
  have hblank : OneLine " " := by decide
  unfold Directive.display
  cases hd : d.kind with
  | lineComment l =>
    simp only [hd, List.forall_mem_cons] at hparts
    exact (hkeyword.append hblank).append hparts.1
  | blockComment first last =>
    simp only [hd, List.forall_mem_cons] at hparts
    obtain ⟨hfirst, hlast, -⟩ := hparts
    exact (((hkeyword.append hblank).append hfirst).append hblank).append hlast
  | on terminals switch =>
    simp only [hd, List.forall_mem_append] at hparts
    obtain ⟨hterminals, hswitch⟩ := hparts
    have hnames := (hkeyword.append hblank).append (terminals.oneLine_display hterminals)
    exact (hnames.append hblank).append (switch.oneLine_display hswitch)
  | autoNewlineOff | autoWsOff | allowUnmatched => exact hkeyword

/-- The outline of a directive has labels on one line if its tokens are. -/
theorem Directive.oneLine_outline (d : Directive) (h : ∀ t ∈ d.tokens, OneLine t.text) :
    d.outline.OneLine := by
  have hnode : Outline.OneLine
      ((leaf "scanner_directives" d.display d.range).withAttribute "keyword" d.keyword.text) :=
    (Outline.Each.ofLeaf (d.oneLine_display h)).withAttribute _ _
  obtain ⟨-, hparts⟩ := List.forall_mem_cons.mp h
  obtain ⟨kind, range⟩ := d
  cases kind with
  | lineComment l =>
    simp only [List.forall_mem_cons] at hparts
    exact hnode.withChildren (by simpa [literals] using l.oneLine_outline hparts.1)
  | blockComment first last =>
    simp only [List.forall_mem_cons] at hparts
    obtain ⟨hfirst, hlast, -⟩ := hparts
    exact hnode.withChildren
      (by simpa [literals] using ⟨first.oneLine_outline hfirst, last.oneLine_outline hlast⟩)
  | on terminals switch =>
    simp only [List.forall_mem_append] at hparts
    obtain ⟨hterminals, hswitch⟩ := hparts
    have hswitched : switch.outline.OneLine :=
      (Outline.Each.ofLeaf (switch.oneLine_display hswitch)).withAttribute _ _
    exact hnode.withChildren (by simp [terminals.oneLine_outline hterminals, hswitched])
  | autoNewlineOff | autoWsOff | allowUnmatched => exact hnode.withChildren (by simp [literals])

/-- The text of a declaration is on one line if its tokens are. -/
theorem Declaration.oneLine_display (d : Declaration) (h : ∀ t ∈ d.tokens, OneLine t.text) :
    OneLine d.display := by
  have hkeyword : OneLine d.keyword.text := d.keyword.oneLine_text
  have hblank : OneLine " " := by decide
  unfold Declaration.display
  unfold Declaration.tokens at h
  cases hd : d.kind with
  | title l | comment l | grammarType l =>
    simp only [hd, List.forall_mem_cons] at h
    exact (hkeyword.append hblank).append h.2.1
  | userType name type | ntType name type =>
    simp only [hd, List.forall_mem_cons] at h
    obtain ⟨-, hname, -, htype⟩ := h
    have hequals : OneLine " = " := by decide
    exact (((hkeyword.append hblank).append hname).append hequals).append (type.oneLine_display htype)
  | tType type =>
    simp only [hd, List.forall_mem_cons] at h
    exact (hkeyword.append hblank).append (type.oneLine_display h.2)
  | scanner directive =>
    simp only [hd] at h
    exact directive.oneLine_display h

/-- The outline of a declaration has labels on one line if its tokens are. -/
theorem Declaration.oneLine_outline (d : Declaration) (h : ∀ t ∈ d.tokens, OneLine t.text) :
    d.outline.OneLine := by
  have hnode : Outline.OneLine
      ((leaf "declaration" d.display d.range).withAttribute "keyword" d.keyword.text) :=
    (Outline.Each.ofLeaf (d.oneLine_display h)).withAttribute _ _
  obtain ⟨kind, range⟩ := d
  cases kind with
  | scanner directive => exact hnode.withChildren (by simpa using directive.oneLine_outline h)
  | _ => exact hnode

/-- The outline of a scanner state has labels on one line if its tokens are. -/
theorem ScannerState.oneLine_outline (s : ScannerState) (h : ∀ t ∈ s.tokens, OneLine t.text) :
    s.outline.OneLine := by
  simp only [ScannerState.tokens, List.forall_mem_cons, List.forall_mem_append] at h
  obtain ⟨-, hname, -, hdirectives, -⟩ := h
  refine ((Outline.Each.ofLeaf hname).withAttribute _ _).withChildren (List.forall_mem_map.mpr ?_)
  exact fun d hd => d.oneLine_outline (forall_mem_flatMap hdirectives hd)

/-- The outline of the prolog has labels on one line if its tokens are. -/
theorem Prolog.oneLine_outline (p : Prolog) (h : ∀ t ∈ p.tokens, OneLine t.text) : p.outline.OneLine := by
  simp only [Prolog.tokens, StartDeclaration.tokens, List.forall_mem_append, List.forall_mem_cons] at h
  obtain ⟨⟨-, hname, -⟩, hdeclarations, hstates⟩ := h
  have hstart : OneLine "%start " := by decide
  have hnode : p.start.outline.OneLine := .ofLeaf hname
  refine (Outline.Each.ofLeaf (hstart.append hname)).withChildren (List.forall_mem_cons.mpr ⟨hnode, ?_⟩)
  simp only [List.forall_mem_append, List.forall_mem_map]
  exact ⟨fun d hd => d.oneLine_outline (forall_mem_flatMap hdeclarations hd),
    fun s hs => s.oneLine_outline (forall_mem_flatMap hstates hs)⟩

/-- The outline of the productions has labels on one line if their tokens are. -/
theorem Definition.oneLine_outline (d : Definition) (h : ∀ t ∈ d.tokens, OneLine t.text) :
    d.outline.OneLine := by
  obtain ⟨-, hproductions⟩ := List.forall_mem_cons.mp h
  have hcount := oneLine_count d.productions.length " productions" (by decide)
  refine (Outline.Each.ofLeaf hcount).withChildren (List.forall_mem_map.mpr ?_)
  exact fun p hp => p.oneLine_outline (forall_mem_flatMap hproductions hp)

/-! ### Whole files -/

/-- **Where each token is one line, so is each label.** -/
theorem Grammar.oneLine_outline (g : Grammar) (h : ∀ t ∈ g.tokens, OneLine t.text) :
    g.outline.OneLine := by
  obtain ⟨hprolog, hdefinition⟩ := List.forall_mem_append.mp h
  have hstart : OneLine g.startSymbol := hprolog g.prolog.start.identifier.token
    (List.mem_append_left _ (by simp [StartDeclaration.tokens]))
  have hcount := oneLine_count g.productions.length " productions, start " (by decide)
  refine ((Outline.Each.ofLeaf (hcount.append hstart)).withAttribute _ _).withChildren ?_
  simp [g.prolog.oneLine_outline hprolog, g.definition.oneLine_outline hdefinition]

/-- Whether there is no line feed in the literals of a file. -/
def Grammar.LiteralsWithoutFeed (g : Grammar) : Prop :=
  ∀ kind text, .literal kind text ∈ g.tokens → '\n' ∉ text.toList

/-- A name has neither line feeds nor carriage returns. -/
theorem oneLine_of_isName {name : String} (h : IsName name.toList) : OneLine name := by
  have hrest : ∀ c ∈ name.toList, isIdentifierStart c ∨ isIdentifierRest c := by
    generalize name.toList = cs at h
    cases cs with
    | nil => exact h.elim
    | cons c cs =>
      obtain ⟨hc, hcs⟩ := h
      exact List.forall_mem_cons.mpr ⟨.inl hc, fun d hd => .inr (hcs d hd)⟩
  exact .ofAll hrest (by decide) (by decide)

/-- A literal ends with its delimiter. -/
theorem oneLine_of_isLiteral {kind : LiteralKind} {text : String} (h : IsLiteral kind text.toList)
    (hfeed : '\n' ∉ text.toList) : OneLine text := by
  obtain ⟨body, -, htext, -⟩ := h
  refine ⟨hfeed, ?_⟩
  rw [htext, ← List.cons_append, List.getLast?_concat]
  cases kind <;> decide

/-- **Only a literal can make a label take more than one line.** -/
theorem oneLine_of_parse {source : String} {options : ParserOptions} {g : Grammar}
    (h : parse source options = .ok g) (hliterals : g.LiteralsWithoutFeed) : g.outline.OneLine := by
  refine g.oneLine_outline fun t ht => ?_
  have hlexeme := isLexeme_of_parse h t ht
  cases t with
  | trivia kind text =>
    -- the parser reads no trivia
    obtain ⟨lexemes, hlex, htokens⟩ := tokens_eq_of_parse h
    obtain ⟨all, -, hkept⟩ := lexes_of_lex hlex
    rw [htokens, ← hkept] at ht
    exact absurd (List.mem_filter.mp ht).2 Bool.false_ne_true
  | identifier name => exact oneLine_of_isName hlexeme
  | literal kind text => exact oneLine_of_isLiteral hlexeme (hliterals kind text ht)
  | mark m => exact m.oneLine_text

end GrammarFile
