import GrammarFile.Outline.OfGrammar
import Mathlib.Data.List.Forall2

/-!
# The types of nodes

The nodes of an outline are named after the rules of grammar files. There are not many of those
names (`Outline.nodeTypes`), and all nodes in the outline of a file have one of them
(`Grammar.typed_outline`). What formats make of a node by its type, a tag or an icon, can go by
that.

A format that shows types, labels and children may still leave something out. `Outline.AgreesOn` is
what two outlines have in common if they are the same in all that is shown.
-/

namespace GrammarFile

open Outline (leaf)

namespace Outline

/-- The names of the types of nodes. -/
def nodeTypes : List String :=
  ["parol", "prolog", "start_declaration", "declaration", "scanner_directives",
    "scanner_state_directives", "scanner_state", "identifier_list", "grammar_definition",
    "production", "alternations", "alternation", "group", "optional", "repeat", "non_terminal",
    "simple_token", "token_with_states", "look_ahead", "string", "raw_string", "regex",
    "ast_control"]

/-- Whether all nodes of an outline are of the types of grammar files. -/
inductive Typed : Outline → Prop where
  | mk {o : Outline} (nodeType : o.nodeType ∈ nodeTypes) (children : ∀ c ∈ o.children, c.Typed) : Typed o

/-- Whether two outlines agree node by node: in the type, in what is shown of the label, and in the
number of children. Attributes and ranges may differ. -/
inductive AgreesOn {α : Type} (shown : String → α) : Outline → Outline → Prop where
  | mk {o o' : Outline} (nodeType : o.nodeType = o'.nodeType) (label : shown o.label = shown o'.label)
      (children : List.Forall₂ (AgreesOn shown) o.children o'.children) : AgreesOn shown o o'

namespace Typed

variable {o : Outline}

/-- The root of an outline is of one of the listed types. -/
theorem nodeType_mem (h : o.Typed) : o.nodeType ∈ nodeTypes := by
  obtain ⟨hnodeType, -⟩ := h
  exact hnodeType

/-- The children of an outline are of listed types too. -/
theorem of_mem_children (h : o.Typed) : ∀ c ∈ o.children, c.Typed := by
  obtain ⟨-, hchildren⟩ := h
  exact hchildren

/-- A leaf has to be of a listed type only itself. -/
theorem ofLeaf {nodeType label : String} {range : Range} (h : nodeType ∈ nodeTypes) :
    (leaf nodeType label range).Typed :=
  ⟨h, fun _ hc => absurd hc List.not_mem_nil⟩

/-- An attribute more changes no type. -/
theorem withAttribute (h : o.Typed) (name text : String) : (o.withAttribute name text).Typed :=
  ⟨h.nodeType_mem, h.of_mem_children⟩

/-- Children of listed types may be put below a node of a listed type. -/
theorem withChildren (h : o.Typed) {children : List Outline} (hchildren : ∀ c ∈ children, c.Typed) :
    (o.withChildren children).Typed :=
  ⟨h.nodeType_mem, List.forall_mem_append.mpr ⟨h.of_mem_children, hchildren⟩⟩

end Typed

end Outline

open Outline (Typed)

/-! ### Symbols -/

/-- A literal has an outline of listed types. -/
theorem Literal.typed_outline (l : Literal) : l.outline.Typed := by
  refine .ofLeaf ?_
  cases l.kind <;> decide

/-- A list of identifiers has an outline of listed types. -/
theorem IdentifierList.typed_outline (l : IdentifierList) : l.outline.Typed :=
  .ofLeaf (by decide)

/-- A look-ahead has an outline of listed types. -/
theorem LookAhead.typed_outline (a : LookAhead) : a.outline.Typed :=
  (Typed.ofLeaf (by decide)).withChildren (by simp [a.literal.typed_outline])

/-- A terminal has outlines of listed types. -/
theorem Terminal.typed_outlines (t : Terminal) : ∀ o ∈ t.outlines, o.Typed := by
  obtain ⟨literal, lookAhead, range⟩ := t
  cases lookAhead with
  | none => simp [outlines, literal.typed_outline]
  | some a => simp [outlines, literal.typed_outline, a.typed_outline]

/-- What is written after a symbol has an outline of listed types. -/
theorem TreeControl.typed_outline (c : TreeControl) : c.outline.Typed := by
  have hnode : Typed ((leaf "ast_control" c.display c.range).withAttribute "kind" c.kind.name) :=
    (Typed.ofLeaf (by decide)).withAttribute _ _
  unfold outline
  cases c.memberName? <;> cases c.typeName? <;> simp [hnode, Typed.withAttribute]

/-- A symbol has an outline of listed types. -/
theorem Symbol.typed_outline (s : Symbol) : s.outline.Typed := by
  have hnode : (leaf s.kind.name s.display s.range).Typed := by
    refine .ofLeaf ?_
    cases s.kind <;> simp [SymbolKind.name, Outline.nodeTypes]
  have hcontrol : ∀ o ∈ (s.control.map (·.outline)).toList, o.Typed := by
    cases s.control with
    | none => simp
    | some c => simp [c.typed_outline]
  obtain ⟨kind, control, range⟩ := s
  cases kind with
  | nonTerminal i => exact (hnode.withAttribute _ _).withChildren hcontrol
  | terminal t => exact (hnode.withChildren t.typed_outlines).withChildren hcontrol
  | terminalIn states t =>
    exact (hnode.withChildren
      (List.forall_mem_cons.mpr ⟨states.typed_outline, t.typed_outlines⟩)).withChildren
      hcontrol

/-! ### Bodies -/

mutual

/-- A factor has an outline of listed types. -/
theorem Factor.typed_outline : (f : Factor) → f.outline.Typed
  | .symbol s => s.typed_outline
  | .bracketed kind none r => .ofLeaf (by cases kind <;> decide)
  | .bracketed kind (some ⟨as, inner⟩) r => by
    have hbody : ((leaf "alternations" (toString as.length ++ " alternatives") inner).withChildren
        (outlineAlternations as)).Typed :=
          (Typed.ofLeaf (by decide)).withChildren (typed_outlineAlternations as)
    refine Typed.withChildren (.ofLeaf ?_) (by simpa using hbody)
    cases kind <;> decide

/-- Alternations have outlines of listed types. -/
theorem typed_outlineAlternations :
    (as : List (AlternationOf Factor)) → ∀ o ∈ outlineAlternations as, o.Typed
  | [] => by simp [outlineAlternations]
  | ⟨fs, r⟩ :: as =>
    List.forall_mem_cons.mpr
      ⟨(Typed.ofLeaf (by decide)).withChildren (typed_outlineFactors fs), typed_outlineAlternations as⟩

/-- Factors have outlines of listed types. -/
theorem typed_outlineFactors : (fs : List Factor) → ∀ o ∈ outlineFactors fs, o.Typed
  | [] => by simp [outlineFactors]
  | f :: fs => List.forall_mem_cons.mpr ⟨f.typed_outline, typed_outlineFactors fs⟩

end

/-- A production has an outline of listed types. -/
theorem Production.typed_outline (p : Production) : p.outline.Typed := by
  have hnode : (leaf "production" p.name.name p.range).Typed := .ofLeaf (by decide)
  have hbody : ∀ o ∈ (p.body.map AlternationsOf.outline).toList, o.Typed := by
    cases p.body with
    | none => simp
    | some b =>
      have hb : (AlternationsOf.outline b).Typed :=
        (Typed.ofLeaf (by decide)).withChildren (typed_outlineAlternations b.alternations)
      simpa using hb
  unfold outline
  cases p.leadingPipe with
  | true => exact (hnode.withAttribute _ _).withChildren hbody
  | false => exact hnode.withChildren hbody

/-! ### Whole files -/

/-- A directive has an outline of listed types. -/
theorem Directive.typed_outline (d : Directive) : d.outline.Typed := by
  have hnode :
      Typed
        ((leaf "scanner_directives" d.display d.range).withAttribute "keyword" d.keyword.text) :=
    (Typed.ofLeaf (by decide)).withAttribute _ _
  have hliterals : ∀ o ∈ d.literals.map (·.outline), o.Typed := by
    simp [Literal.typed_outline]
  obtain ⟨kind, range⟩ := d
  cases kind with
  | on terminals switch =>
    have hswitch : switch.outline.Typed := (Typed.ofLeaf (by decide)).withAttribute _ _
    exact hnode.withChildren (by simp [terminals.typed_outline, hswitch])
  | _ => exact hnode.withChildren hliterals

/-- A declaration has an outline of listed types. -/
theorem Declaration.typed_outline (d : Declaration) : d.outline.Typed := by
  have hnode : Typed ((leaf "declaration" d.display d.range).withAttribute "keyword" d.keyword.text) :=
    (Typed.ofLeaf (by decide)).withAttribute _ _
  obtain ⟨kind, range⟩ := d
  cases kind with
  | scanner directive => exact hnode.withChildren (by simp [directive.typed_outline])
  | _ => exact hnode

/-- A scanner state has an outline of listed types. -/
theorem ScannerState.typed_outline (s : ScannerState) : s.outline.Typed :=
  ((Typed.ofLeaf (by decide)).withAttribute _ _).withChildren (by simp [Directive.typed_outline])

/-- The prolog has an outline of listed types. -/
theorem Prolog.typed_outline (p : Prolog) : p.outline.Typed := by
  have hstart : p.start.outline.Typed := .ofLeaf (by decide)
  refine (Typed.ofLeaf (by decide)).withChildren (List.forall_mem_cons.mpr ⟨hstart, ?_⟩)
  simp only [List.forall_mem_append, List.forall_mem_map]
  exact ⟨fun d _ => d.typed_outline, fun s _ => s.typed_outline⟩

/-- The productions have an outline of listed types. -/
theorem Definition.typed_outline (d : Definition) : d.outline.Typed :=
  (Typed.ofLeaf (by decide)).withChildren (by simp [Production.typed_outline])

/-- **All nodes in the outline of a file are of the types of grammar files.** -/
theorem Grammar.typed_outline (g : Grammar) : g.outline.Typed :=
  ((Typed.ofLeaf (by decide)).withAttribute _ _).withChildren
    (by simp [g.prolog.typed_outline, g.definition.typed_outline])

end GrammarFile
