import GrammarFile.Tree.Symbols

/-!
# What stands in a file

`Factor.Holds` says that a symbol stands in a factor, at whatever depth of brackets. It follows the shape
of the tree, one bracket at a time, and makes no list. The lists of the symbols and of the non-terminals
of a production, which the lints go by, are just what stands in its body (`Production.mem_symbols_iff`,
`Production.mem_references_iff`).

Directives stand in the prolog, between the other declarations or in a scanner state
(`Prolog.Holds`). With them the lists for a whole file are told the same way: the uses of scanner
states and the literals (`Grammar.mem_stateUses_iff`, `Grammar.mem_literals_iff`).
-/

namespace GrammarFile

/-- Whether a symbol stands in a factor, between any number of brackets. -/
inductive Factor.Holds (s : Symbol) : Factor → Prop where
  /-- A factor that is the symbol. -/
  | symbol : Factor.Holds s (.symbol s)
  /-- Brackets around a body in which it stands. -/
  | bracketed {kind : BracketKind} {body : Alternations} {range : Range} {a : Alternation} {f : Factor}
      (alternation : a ∈ body.alternations) (factor : f ∈ a.factors) (inside : Factor.Holds s f) :
      Factor.Holds s (.bracketed kind (some body) range)

namespace Production

/-- Whether a symbol stands in the body of a production. -/
def Holds (p : Production) (s : Symbol) : Prop :=
  ∃ a ∈ p.alternations, ∃ f ∈ a.factors, f.Holds s

/-- Whether a non-terminal stands in the body of a production, with its place. -/
def Mentions (p : Production) (i : Identifier) : Prop :=
  ∃ s, p.Holds s ∧ s.kind = .nonTerminal i

end Production

/-- Whether a directive stands in a prolog, as a declaration or in a scanner state. -/
def Prolog.Holds (p : Prolog) (d : Directive) : Prop :=
  (∃ c ∈ p.declarations, c.kind = .scanner d) ∨ ∃ s ∈ p.states, d ∈ s.directives

/-- Whether a directive switches to a scanner state, which is named behind `%enter` or `%push`. -/
def Directive.SwitchesTo (d : Directive) (i : Identifier) : Prop :=
  ∃ terminals switch, d.kind = .on terminals switch ∧ (switch.kind = .enter i ∨ switch.kind = .push i)

/-- Whether a symbol stands in a body that `%%` is followed by. -/
def Grammar.HasSymbol (g : Grammar) (s : Symbol) : Prop :=
  ∃ p ∈ g.productions, p.Holds s

/-- Whether a scanner state is used in a file, with the place of the use: a directive switches to it, or a
terminal names it between angle brackets. -/
def Grammar.UsesState (g : Grammar) (i : Identifier) : Prop :=
  (∃ d, g.prolog.Holds d ∧ d.SwitchesTo i) ∨
    ∃ s, g.HasSymbol s ∧ ∃ states terminal, s.kind = .terminalIn states terminal ∧ i ∈ states.identifiers

/-- The symbols of factors are those of each, one factor behind the other. -/
theorem factorSymbols_eq_flatMap (fs : List Factor) : factorSymbols fs = fs.flatMap (·.symbols) := by
  induction fs with
  | nil => rfl
  | cons f fs ih => rw [factorSymbols, ih, List.flatMap_cons]

/-- The symbols of a body are those of the factors of its alternations. -/
theorem bodySymbols_eq_flatMap (as : List Alternation) :
    bodySymbols as = as.flatMap fun a => a.factors.flatMap (·.symbols) := by
  induction as with
  | nil => rfl
  | cons a as ih => rw [bodySymbols, ih, factorSymbols_eq_flatMap, List.flatMap_cons]

/-- A symbol of a body is a symbol of a factor of one of its alternations. -/
theorem mem_bodySymbols_iff {as : List Alternation} {s : Symbol} :
    s ∈ bodySymbols as ↔ ∃ a ∈ as, ∃ f ∈ a.factors, s ∈ f.symbols := by
  simp only [bodySymbols_eq_flatMap, List.mem_flatMap]

/-- A symbol that a factor holds at any depth is one of its symbols. -/
theorem Factor.Holds.mem_symbols {f : Factor} {s : Symbol} (h : f.Holds s) : s ∈ f.symbols := by
  induction h with
  | symbol => exact List.mem_singleton_self s
  | bracketed halternation hfactor _ ih => exact mem_bodySymbols_iff.mpr ⟨_, halternation, _, hfactor, ih⟩

mutual

/-- The symbols of a factor are held by it, at some depth. -/
theorem Factor.holds_of_mem_symbols {s : Symbol} : (f : Factor) → s ∈ f.symbols → f.Holds s
  | .symbol s', h => by
    obtain rfl := List.mem_singleton.mp h
    exact .symbol
  | .bracketed _ none _, h => absurd h List.not_mem_nil
  | .bracketed _ (some ⟨as, _⟩) _, h => by
    obtain ⟨a, ha, f, hf, hholds⟩ := holds_of_mem_bodySymbols as h
    exact .bracketed ha hf hholds

/-- The symbols of a body are held by its factors, at some depth. -/
theorem holds_of_mem_bodySymbols {s : Symbol} : (as : List (AlternationOf Factor)) → s ∈ bodySymbols as →
    ∃ a ∈ as, ∃ f ∈ a.factors, f.Holds s
  | [], h => absurd h List.not_mem_nil
  | ⟨fs, r⟩ :: as, h => by
    rcases List.mem_append.mp h with h | h
    · obtain ⟨f, hf, hholds⟩ := holds_of_mem_factorSymbols fs h
      exact ⟨⟨fs, r⟩, List.mem_cons_self, f, hf, hholds⟩
    · obtain ⟨a, ha, hholds⟩ := holds_of_mem_bodySymbols as h
      exact ⟨a, List.mem_cons_of_mem _ ha, hholds⟩

/-- The symbols of factors are held by them, at some depth. -/
theorem holds_of_mem_factorSymbols {s : Symbol} : (fs : List Factor) → s ∈ factorSymbols fs →
    ∃ f ∈ fs, f.Holds s
  | [], h => absurd h List.not_mem_nil
  | f :: fs, h => by
    rcases List.mem_append.mp h with h | h
    · exact ⟨f, List.mem_cons_self, f.holds_of_mem_symbols h⟩
    · obtain ⟨f', hf', hholds⟩ := holds_of_mem_factorSymbols fs h
      exact ⟨f', List.mem_cons_of_mem _ hf', hholds⟩

end

/-! ### The symbols of a production -/

namespace Production

variable {p : Production}

/-- **The symbols of a production are those that stand in its body.** -/
theorem mem_symbols_iff {s : Symbol} : s ∈ p.symbols ↔ p.Holds s := by
  constructor
  · exact holds_of_mem_bodySymbols p.alternations
  · rintro ⟨a, ha, f, hf, hholds⟩
    exact mem_bodySymbols_iff.mpr ⟨a, ha, f, hf, hholds.mem_symbols⟩

/-- **The non-terminals of a production are those that stand in its body.** -/
theorem mem_references_iff {i : Identifier} : i ∈ p.references ↔ p.Mentions i := by
  have hkind : ∀ s : Symbol, s.nonTerminal? = some i ↔ s.kind = .nonTerminal i := by
    rintro ⟨kind, control, range⟩
    cases kind <;> simp [Symbol.nonTerminal?]
  simp only [references, List.mem_filterMap, mem_symbols_iff, hkind, Mentions]

end Production

/-- The references of a file are the non-terminals that its productions mention. -/
theorem Grammar.mem_references_iff {g : Grammar} {i : Identifier} :
    i ∈ g.references ↔ ∃ p ∈ g.productions, p.Mentions i := by
  simp only [Grammar.references, List.mem_flatMap, Production.mem_references_iff]

/-! ### Directives -/

/-- The target of a directive is the scanner state that it switches to. -/
theorem Directive.target?_eq_some_iff {d : Directive} {i : Identifier} :
    d.target? = some i ↔ d.SwitchesTo i := by
  obtain ⟨kind, range⟩ := d
  cases kind with
  | on terminals switch =>
    have hswitch : switch.target? = some i ↔ switch.kind = .enter i ∨ switch.kind = .push i := by
      obtain ⟨kind, range'⟩ := switch
      cases kind <;> simp [StateSwitch.target?]
    constructor
    · exact fun h => ⟨terminals, switch, rfl, hswitch.mp h⟩
    · rintro ⟨_, _, heq, h⟩
      cases heq
      exact hswitch.mpr h
  | _ => simp [target?, SwitchesTo]

/-- Only a declaration for the scanner has a directive. -/
theorem Declaration.directive?_eq_some_iff {c : Declaration} {d : Directive} :
    c.directive? = some d ↔ c.kind = .scanner d := by
  obtain ⟨kind, range⟩ := c
  cases kind <;> simp [directive?]

/-! ### Whole files -/

namespace Grammar

variable {g : Grammar}

/-- **The directives of a file are those that stand in its prolog.** -/
theorem mem_directives_iff {d : Directive} : d ∈ g.directives ↔ g.prolog.Holds d := by
  simp only [directives, List.mem_append, List.mem_filterMap, List.mem_flatMap,
    Declaration.directive?_eq_some_iff, Prolog.Holds]

/-- The symbols of a file are those that its productions hold. -/
theorem mem_symbols_iff {s : Symbol} : s ∈ g.symbols ↔ g.HasSymbol s := by
  simp only [symbols, List.mem_flatMap, Production.mem_symbols_iff, HasSymbol]

/-- **The uses of scanner states in a file are the targets of its directives and the names between angle
brackets in its bodies.** -/
theorem mem_stateUses_iff {i : Identifier} : i ∈ g.stateUses ↔ g.UsesState i := by
  have hstates : ∀ s : Symbol, i ∈ s.states ↔
      ∃ states terminal, s.kind = .terminalIn states terminal ∧ i ∈ states.identifiers := by
    rintro ⟨kind, control, range⟩
    cases kind <;> simp [Symbol.states]
  simp only [stateUses, List.mem_append, List.mem_filterMap, List.mem_flatMap, mem_directives_iff,
    mem_symbols_iff, Directive.target?_eq_some_iff, hstates, UsesState]

end Grammar

end GrammarFile
