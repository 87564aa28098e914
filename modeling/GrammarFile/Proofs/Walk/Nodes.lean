import GrammarFile.Outline.OfGrammar
import GrammarFile.Proofs.Locations.Nesting
import GrammarFile.Tree.Walk

/-!
# A walk goes around the outline

To go around an outline is to enter each node in front of the nodes below it, and to leave it behind
them (`Outline.tour`). The outline of a file has every node of the tree. A walk goes around it too,
so it is the tour of the outline without the steps that a visitor has no call for
(`Grammar.map_step_walk`): no node is visited twice, and none is left out.

The calls that enter and leave nodes are nested (`Grammar.nested_walk`). And since the outline of a
parsed file is nested like the text, each node that is entered lies inside of those entered before,
or behind them (`Outline.Placed.pairwise_tour`).
-/

namespace GrammarFile

/-! ### Tours -/

/-- A step on the way around an outline: a node, of a type and a range, is entered or left. -/
inductive TourStep where
  | enter (nodeType : String) (range : Range)
  | leave (nodeType : String) (range : Range)
  deriving DecidableEq

namespace Outline

mutual

/-- The way around an outline. -/
def tour : Outline → List TourStep
  | ⟨nodeType, _, _, range, children⟩ =>
    .enter nodeType range :: (tourAll children ++ [.leave nodeType range])

/-- The way around some outlines, one after the other. -/
def tourAll : List Outline → List TourStep
  | [] => []
  | o :: rest => o.tour ++ tourAll rest

end

/-- The way around some outlines goes around each of them. -/
theorem tourAll_eq_flatMap (os : List Outline) : tourAll os = os.flatMap (·.tour) := by
  induction os with
  | nil => rfl
  | cons o os ih => rw [tourAll, ih, List.flatMap_cons]

/-- The way around an outline enters it, goes around its children and leaves it. -/
theorem tour_eq (o : Outline) :
    o.tour =
      .enter o.nodeType o.range ::
        (o.children.flatMap (·.tour) ++ [.leave o.nodeType o.range]) := by
  obtain ⟨nodeType, label, attributes, range, children⟩ := o
  rw [tour, tourAll_eq_flatMap]

/-- A leaf is entered and left. -/
@[simp]
theorem tour_leaf (nodeType label : String) (range : Range) :
    (leaf nodeType label range).tour = [.enter nodeType range, .leave nodeType range] :=
  rfl

/-- Children below a leaf are gone around between entering and leaving it. -/
@[simp]
theorem tour_leaf_withChildren (nodeType label : String) (range : Range) (children : List Outline) :
    ((leaf nodeType label range).withChildren children).tour =
      .enter nodeType range :: (children.flatMap (·.tour) ++ [.leave nodeType range]) :=
  tour_eq _

/-- An attribute does not matter for the way around an outline. -/
@[simp]
theorem tour_leaf_withAttribute_withChildren (nodeType label name text : String) (range : Range)
    (children : List Outline) :
    (((leaf nodeType label range).withAttribute name text).withChildren children).tour =
      .enter nodeType range :: (children.flatMap (·.tour) ++ [.leave nodeType range]) :=
  tour_eq _

end Outline

/-! ### What a visitor is told -/

/-- The types of the nodes in a prolog that a visitor is told of. -/
def prologNodeTypes : List String :=
  ["declaration", "scanner_directives", "scanner_state"]

/-- The types of the nodes behind `%%` that a visitor is told of. -/
def bodyNodeTypes : List String :=
  ["production", "alternation", "group", "optional", "repeat", "non_terminal", "simple_token",
    "token_with_states", "string", "raw_string", "regex"]

/-- The types of the nodes that a visitor is told of again when they are left. -/
def leftNodeTypes : List String :=
  ["parol", "scanner_state", "production", "alternation", "group", "optional", "repeat"]

/-- Whether a visitor is told of a step, where it is told of nodes of some types. -/
def TourStep.isTold (types : List String) : TourStep → Bool
  | enter nodeType _ => types.contains nodeType
  | leave nodeType _ => types.contains nodeType && leftNodeTypes.contains nodeType

/-- A visitor is told when a node of a listed type is entered. -/
@[simp]
theorem TourStep.isTold_enter (types : List String) (nodeType : String) (range : Range) :
    (enter nodeType range).isTold types = types.contains nodeType :=
  rfl

/-- A visitor is told when a node is left if its type is listed for that too. -/
@[simp]
theorem TourStep.isTold_leave (types : List String) (nodeType : String) (range : Range) :
    (leave nodeType range).isTold types = (types.contains nodeType && leftNodeTypes.contains nodeType) :=
  rfl

/-- The range of a node that is entered. -/
def TourStep.entered? : TourStep → Option Range
  | enter _ range => some range
  | leave _ _ => none

/-- What a visit tells: the node that is entered or left, by its type and range. -/
def Visit.step : Visit → TourStep
  | enterGrammar g => .enter "parol" g.range
  | leaveGrammar g => .leave "parol" g.range
  | declaration d => .enter "declaration" d.range
  | directive d => .enter "scanner_directives" d.range
  | enterState s => .enter "scanner_state" s.range
  | leaveState s => .leave "scanner_state" s.range
  | enterProduction p => .enter "production" p.range
  | leaveProduction p => .leave "production" p.range
  | enterAlternation a => .enter "alternation" a.range
  | leaveAlternation a => .leave "alternation" a.range
  | enterBrackets kind _ range => .enter kind.name range
  | leaveBrackets kind _ range => .leave kind.name range
  | symbol s => .enter s.kind.name s.range
  | literal l => .enter l.kind.name l.range

/-! ### Symbols -/

/-- What is written after a symbol is entered and left. -/
theorem TreeControl.tour_outline (c : TreeControl) :
    c.outline.tour = [.enter "ast_control" c.range, .leave "ast_control" c.range] := by
  obtain ⟨kind, range⟩ := c
  cases kind with
  | cut => rfl
  | member name type => cases type <;> rfl
  | typed type => rfl

/-- A visitor is told of a literal. -/
theorem Literal.told_tour (l : Literal) :
    l.outline.tour.filter (TourStep.isTold bodyNodeTypes) = [(Visit.literal l).step] := by
  obtain ⟨kind, text, range⟩ := l
  cases kind <;> rfl

/-- Of a look-ahead a visitor is told the literal. -/
theorem LookAhead.told_tour (a : LookAhead) :
    a.outline.tour.filter (TourStep.isTold bodyNodeTypes) = [(Visit.literal a.literal).step] := by
  have hliteral := a.literal.told_tour
  simp +decide [outline, Outline.withChild, hliteral]

/-- Of a terminal a visitor is told its literals. -/
theorem Terminal.told_tours (t : Terminal) :
    (t.outlines.flatMap (·.tour)).filter (TourStep.isTold bodyNodeTypes) =
      (t.literals.map .literal).map Visit.step := by
  obtain ⟨literal, lookAhead, range⟩ := t
  cases lookAhead with
  | none => simp [outlines, literals, literal.told_tour]
  | some a => simp [outlines, literals, literal.told_tour, a.told_tour]

/-- The way around a symbol goes around its parts and what is written after it. -/
theorem Symbol.tour_outline (s : Symbol) :
    s.outline.tour = .enter s.kind.name s.range ::
      ((s.kind.outlines ++ (s.control.map (·.outline)).toList).flatMap (·.tour) ++
        [.leave s.kind.name s.range]) := by
  obtain ⟨kind, control, range⟩ := s
  rw [Outline.tour_eq]
  cases kind <;> rfl

/-- **A visitor is told of a symbol and of its literals**, and not of what is written after it. -/
theorem Symbol.told_tour (s : Symbol) :
    s.outline.tour.filter (TourStep.isTold bodyNodeTypes) = s.walk.map Visit.step := by
  have hkind : (s.kind.outlines.flatMap (·.tour)).filter (TourStep.isTold bodyNodeTypes) =
      (s.literals.map .literal).map Visit.step := by
    obtain ⟨kind, control, range⟩ := s
    cases kind with
    | nonTerminal i => rfl
    | terminal t => exact t.told_tours
    | terminalIn states t =>
      rw [SymbolKind.outlines, List.flatMap_cons, List.filter_append]
      exact t.told_tours
  have hcontrol : ((s.control.map (·.outline)).toList.flatMap (·.tour)).filter
      (TourStep.isTold bodyNodeTypes) = [] := by
    cases s.control with
    | none => rfl
    | some c => simp +decide [c.tour_outline]
  have htold : s.kind.name ∈ bodyNodeTypes ∧ s.kind.name ∉ leftNodeTypes := by
    cases s.kind <;> simp [SymbolKind.name, bodyNodeTypes, leftNodeTypes]
  rw [s.tour_outline, List.flatMap_append, List.filter_cons, List.filter_append,
    List.filter_append, hkind, hcontrol]
  simp [htold, walk, Visit.step]

/-! ### Bodies -/

/-- A visitor is told when brackets are entered and when they are left. -/
theorem BracketKind.told_name (kind : BracketKind) :
    kind.name ∈ bodyNodeTypes ∧ kind.name ∈ leftNodeTypes := by
  cases kind <;> decide

mutual

/-- **A visitor is told of the brackets in a factor, when they open and when they close.** -/
theorem Factor.told_tour : (f : Factor) →
    f.outline.tour.filter (TourStep.isTold bodyNodeTypes) = f.walk.map Visit.step
  | .symbol s => s.told_tour
  | .bracketed kind none r => by
    simp [Factor.outline, Factor.walk, kind.told_name, Visit.step]
  | .bracketed kind (some ⟨as, inner⟩) r => by
    simp +decide [Factor.outline, Factor.walk, kind.told_name, Visit.step, Outline.withChild,
      told_tourOfBody as]

/-- On the way around a body a visitor is told what a walk through it visits. -/
theorem told_tourOfBody : (as : List (AlternationOf Factor)) →
    ((outlineAlternations as).flatMap (·.tour)).filter (TourStep.isTold bodyNodeTypes) =
      (walkBody as).map Visit.step
  | [] => rfl
  | ⟨fs, r⟩ :: as => by
    simp +decide [outlineAlternations, walkBody, Visit.step, told_tourOfFactors fs, told_tourOfBody as]

/-- On the way around factors a visitor is told what a walk through them visits. -/
theorem told_tourOfFactors : (fs : List Factor) →
    ((outlineFactors fs).flatMap (·.tour)).filter (TourStep.isTold bodyNodeTypes) =
      (walkFactors fs).map Visit.step
  | [] => rfl
  | f :: fs => by
    simp [outlineFactors, walkFactors, f.told_tour, told_tourOfFactors fs]

end

/-- On the way around a production a visitor is told what a walk through it visits. -/
theorem Production.told_tour (p : Production) :
    p.outline.tour.filter (TourStep.isTold bodyNodeTypes) = p.walk.map Visit.step := by
  obtain ⟨name, leadingPipe, body, range⟩ := p
  have hbody : ((body.map AlternationsOf.outline).toList.flatMap (·.tour)).filter
      (TourStep.isTold bodyNodeTypes) = (walkBody (body.elim [] (·.alternations))).map Visit.step := by
    cases body with
    | none => rfl
    | some b => simp +decide [AlternationsOf.outline, told_tourOfBody]
  have htour : (Production.outline ⟨name, leadingPipe, body, range⟩).tour = .enter "production" range ::
      ((body.map AlternationsOf.outline).toList.flatMap (·.tour) ++ [.leave "production" range]) := by
    rw [Outline.tour_eq]
    cases leadingPipe <;> rfl
  rw [htour]
  simp +decide [hbody, walk, alternations, Visit.step]

/-! ### The prolog -/

/-- What a visitor is told of the nodes in a list is what it is told of each, one after the other. -/
theorem told_tours_map {α : Type} {types : List String} {outline : α → Outline} {walk : α → List Visit}
    (h : ∀ x, (outline x).tour.filter (TourStep.isTold types) = (walk x).map Visit.step) (xs : List α) :
    ((xs.map outline).flatMap (·.tour)).filter (TourStep.isTold types) =
      (xs.flatMap walk).map Visit.step := by
  rw [List.flatMap_map, List.filter_flatMap, List.map_flatMap]
  exact List.flatMap_congr fun x _ => h x

/-- The way around a directive goes around its parts. -/
theorem Directive.tour_outline (d : Directive) :
    d.outline.tour = .enter "scanner_directives" d.range ::
      (d.kind.outlines.flatMap (·.tour) ++ [.leave "scanner_directives" d.range]) := by
  obtain ⟨kind, range⟩ := d
  rw [Outline.tour_eq]
  cases kind <;> rfl

/-- A visitor is told of a directive, and not of its literals. -/
theorem Directive.told_tour (d : Directive) :
    d.outline.tour.filter (TourStep.isTold prologNodeTypes) = [(Visit.directive d).step] := by
  have hliteral : ∀ l : Literal, l.outline.tour.filter (TourStep.isTold prologNodeTypes) = [] := by
    rintro ⟨kind, text, range⟩
    cases kind <;> rfl
  have hkind : (d.kind.outlines.flatMap (·.tour)).filter (TourStep.isTold prologNodeTypes) = [] := by
    cases d.kind with
    | lineComment l => simp [DirectiveKind.outlines, hliteral]
    | blockComment first last => simp [DirectiveKind.outlines, hliteral]
    | _ => rfl
  rw [d.tour_outline]
  simp +decide [hkind, Visit.step]

/-- On the way around a declaration a visitor is told what a walk through it visits. -/
theorem Declaration.told_tour (d : Declaration) :
    d.outline.tour.filter (TourStep.isTold prologNodeTypes) = d.walk.map Visit.step := by
  obtain ⟨kind, range⟩ := d
  cases kind with
  | scanner directive =>
    simp +decide [outline, walk, Visit.step, directive.told_tour, Outline.withChild]
  | _ => rfl

/-- On the way around a scanner state a visitor is told what a walk through it visits. -/
theorem ScannerState.told_tour (s : ScannerState) :
    s.outline.tour.filter (TourStep.isTold prologNodeTypes) = s.walk.map Visit.step := by
  have hdirectives : ((s.directives.map (·.outline)).flatMap (·.tour)).filter
      (TourStep.isTold prologNodeTypes) = (s.directives.flatMap fun d => [.directive d]).map Visit.step :=
    told_tours_map Directive.told_tour s.directives
  rw [← List.map_eq_flatMap] at hdirectives
  simp +decide [outline, walk, Visit.step, hdirectives]

/-! ### Whole files -/

namespace Grammar

variable (g : Grammar)

/-- **A walk is the way around the outline of a file**, without the steps that a visitor is not told
of. -/
theorem map_step_walk :
    g.walk.map Visit.step = .enter "parol" g.range ::
      (g.prolog.outline.tour.filter (TourStep.isTold prologNodeTypes) ++
        g.definition.outline.tour.filter (TourStep.isTold bodyNodeTypes) ++
          [.leave "parol" g.range]) := by
  have hdeclarations := told_tours_map Declaration.told_tour g.prolog.declarations
  have hstates := told_tours_map ScannerState.told_tour g.prolog.states
  have hproductions := told_tours_map Production.told_tour g.definition.productions
  simp +decide [Prolog.outline, StartDeclaration.outline, Definition.outline, hdeclarations, hstates,
    hproductions, walk, productions, Visit.step]

/-- What a visitor is told of are steps on the way around the outline, in their order. -/
theorem map_step_walk_sublist : (g.walk.map Visit.step).Sublist g.outline.tour := by
  have htour : g.outline.tour = .enter "parol" g.range ::
      (g.prolog.outline.tour ++ g.definition.outline.tour ++ [.leave "parol" g.range]) := by
    simp [outline]
  rw [map_step_walk, htour]
  exact ((List.filter_sublist.append List.filter_sublist).append_right _).cons_cons _

end Grammar

/-! ### Calls in pairs -/

namespace Visit

/-- The visit that leaves what a visit enters. -/
def leave? : Visit → Option Visit
  | enterGrammar g => some (leaveGrammar g)
  | enterState s => some (leaveState s)
  | enterProduction p => some (leaveProduction p)
  | enterAlternation a => some (leaveAlternation a)
  | enterBrackets kind body range => some (leaveBrackets kind body range)
  | _ => none

/-- Whether a visit leaves what was entered before. -/
def isLeave : Visit → Bool
  | leaveGrammar _ | leaveState _ | leaveProduction _ | leaveAlternation _ | leaveBrackets _ _ _ => true
  | _ => false

/-- Whether visits are nested: whatever is entered is left, and all that is entered in between is left
before. -/
inductive Nested : List Visit → Prop where
  | nil : Nested []
  | single {v : Visit} {vs : List Visit} : v.leave? = none → v.isLeave = false → Nested vs →
    Nested (v :: vs)
  | around {v w : Visit} {inside rest : List Visit} :
      v.leave? = some w → Nested inside → Nested rest → Nested (v :: (inside ++ w :: rest))

namespace Nested

variable {α : Type} {vs ws : List Visit}

/-- Nested visits may follow nested visits. -/
theorem append (h : Nested vs) (h' : Nested ws) : Nested (vs ++ ws) := by
  induction h with
  | nil => exact h'
  | single hleave hnot _ ih => exact .single hleave hnot ih
  | around hleave hinside _ _ ih =>
    rw [List.cons_append, List.append_assoc, List.cons_append]
    exact .around hleave hinside ih

/-- Nested visits for each of some things are nested one behind the other. -/
theorem flatMap {f : α → List Visit} {xs : List α} (h : ∀ x ∈ xs, Nested (f x)) :
    Nested (xs.flatMap f) := by
  induction xs with
  | nil => exact .nil
  | cons x xs ih =>
    obtain ⟨hx, hxs⟩ := List.forall_mem_cons.mp h
    exact hx.append (ih hxs)

/-- Nested visits may be put between entering and leaving something. -/
theorem enclose {v w : Visit} (h : Nested vs) (hleave : v.leave? = some w) : Nested (v :: (vs ++ [w])) :=
  .around hleave h .nil

/-- Visits that neither enter nor leave are nested. -/
theorem singles {f : α → Visit} (hleave : ∀ x, (f x).leave? = none) (hnot : ∀ x, (f x).isLeave = false)
    (xs : List α) : Nested (xs.map f) := by
  induction xs with
  | nil => exact .nil
  | cons x xs ih => exact .single (hleave x) (hnot x) ih

end Nested

end Visit

open Visit (Nested)

/-- A walk through a symbol is nested. -/
theorem Symbol.nested_walk (s : Symbol) : Nested s.walk :=
  .single rfl rfl (.singles (fun _ => rfl) (fun _ => rfl) s.literals)

mutual

/-- The visits in a factor are nested. -/
theorem Factor.nested_walk : (f : Factor) → Nested f.walk
  | .symbol s => s.nested_walk
  | .bracketed _ none _ => Nested.enclose .nil rfl
  | .bracketed _ (some ⟨as, _⟩) _ => (nested_walkBody as).enclose rfl

/-- A walk through a body is nested. -/
theorem nested_walkBody : (as : List (AlternationOf Factor)) → Nested (walkBody as)
  | [] => .nil
  | ⟨fs, _⟩ :: as => .around rfl (nested_walkFactors fs) (nested_walkBody as)

/-- A walk through factors is nested. -/
theorem nested_walkFactors : (fs : List Factor) → Nested (walkFactors fs)
  | [] => .nil
  | f :: fs => f.nested_walk.append (nested_walkFactors fs)

end

/-- A walk through a production is nested. -/
theorem Production.nested_walk (p : Production) : Nested p.walk :=
  (nested_walkBody p.alternations).enclose rfl

/-- A walk through a declaration is nested. -/
theorem Declaration.nested_walk (d : Declaration) : Nested d.walk := by
  obtain ⟨kind, range⟩ := d
  cases kind with
  | scanner directive => exact .single rfl rfl (.single rfl rfl .nil)
  | _ => exact .single rfl rfl .nil

/-- A walk through a scanner state is nested. -/
theorem ScannerState.nested_walk (s : ScannerState) : Nested s.walk :=
  (Nested.singles (fun _ => rfl) (fun _ => rfl) s.directives).enclose rfl

/-- **The visits of a walk are nested.** -/
theorem Grammar.nested_walk (g : Grammar) : Nested g.walk := by
  have hdeclarations := Nested.flatMap fun d (_ : d ∈ g.prolog.declarations) => d.nested_walk
  have hstates := Nested.flatMap fun s (_ : s ∈ g.prolog.states) => s.nested_walk
  have hproductions := Nested.flatMap fun p (_ : p ∈ g.productions) => p.nested_walk
  exact ((hdeclarations.append hstates).append hproductions).enclose rfl

/-! ### The order of a tour -/

/-- Whether a range lies inside of another one, or behind it. -/
def Range.Precedes (a b : Range) : Prop :=
  (a.span.start ≤ b.span.start ∧ b.span.stop ≤ a.span.stop) ∨ a.span.stop ≤ b.span.start

namespace Outline

variable {source : String} {o : Outline}

/-- On the way around an outline its range is entered first, and then those of its children. -/
theorem entered_tour (o : Outline) :
    o.tour.filterMap TourStep.entered? =
      o.range :: o.children.flatMap fun c => c.tour.filterMap TourStep.entered? := by
  rw [tour_eq]
  simp [List.filterMap_cons, TourStep.entered?, List.filterMap_flatMap]

/-- The nodes on the way around an outline lie inside of it. -/
theorem Placed.inside_of_entered (h : o.Placed source) : ∀ r ∈ o.tour.filterMap TourStep.entered?,
    o.range.span.start ≤ r.span.start ∧ r.span.stop ≤ o.range.span.stop := by
  induction h with
  | @mk o inside _ _ _ ih =>
    intro r hr
    rw [entered_tour] at hr
    rcases List.mem_cons.mp hr with rfl | hr
    · exact ⟨Nat.le_refl _, Nat.le_refl _⟩
    · obtain ⟨c, hc, hr⟩ := List.mem_flatMap.mp hr
      have hinside := inside c hc
      have hinner := ih c hc r hr
      omega

/-- **On the way around an outline, each node that is entered lies inside of those entered before,
or behind them.** -/
theorem Placed.pairwise_entered (h : o.Placed source) :
    (o.tour.filterMap TourStep.entered?).Pairwise Range.Precedes := by
  induction h with
  | @mk o inside ordered literal children ih =>
    have hplaced : o.Placed source := ⟨inside, ordered, literal, children⟩
    have hinside := hplaced.inside_of_entered
    rw [entered_tour] at hinside ⊢
    refine List.pairwise_cons.mpr ⟨fun r hr => .inl (hinside r (List.mem_cons_of_mem _ hr)), ?_⟩
    refine List.pairwise_flatMap.mpr ⟨ih, ?_⟩
    -- what is entered in a child is over where the next one begins
    refine ordered.imp_of_mem fun {a b} ha hb hab r hr r' hr' => .inr ?_
    have hbefore := (children a ha).inside_of_entered r hr
    have hbehind := (children b hb).inside_of_entered r' hr'
    omega

end Outline

end GrammarFile
