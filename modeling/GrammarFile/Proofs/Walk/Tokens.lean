import GrammarFile.Proofs.Walk.Pick
import GrammarFile.Proofs.Yield

/-!
# A walk and the tokens of a tree

A walk enters and leaves brackets where the tree has its brackets, and visits the literals of a
terminal right behind it. Read as tokens, these visits are the brackets and literals among the
tokens of the productions, in their order (`Grammar.filterMap_walk`). The prolog has no such visits:
its literals are parts of directives and declarations, which a walk does not go into.
-/

namespace GrammarFile

/-! ### Brackets and literals -/

/-- The three pairs of brackets. -/
def Mark.isBracket : Mark → Bool
  | leftParen | rightParen | leftBracket | rightBracket | leftBrace | rightBrace => true
  | _ => false

/-- Whether a token is a bracket or a literal. -/
def Token.isBracketOrLiteral : Token → Bool
  | literal _ _ => true
  | mark m => m.isBracket
  | _ => false

namespace Visit

/-- The token that a visit stands for: brackets are entered where they open and left where they
close, and a literal is itself. -/
def token? : Visit → Option Token
  | enterBrackets kind _ _ => some (.mark kind.left)
  | leaveBrackets kind _ _ => some (.mark kind.right)
  | literal l => some l.token
  | _ => none

end Visit

/-- A mark counts if it is a bracket. -/
@[simp]
theorem Token.isBracketOrLiteral_mark (m : Mark) : (mark m).isBracketOrLiteral = m.isBracket :=
  rfl

/-- A literal counts. -/
@[simp]
theorem Literal.isBracketOrLiteral_token (l : Literal) : l.token.isBracketOrLiteral = true :=
  rfl

/-- A name does not count. -/
@[simp]
theorem Identifier.isBracketOrLiteral_token (i : Identifier) : i.token.isBracketOrLiteral = false :=
  rfl

/-- The operator of a look-ahead is no bracket. -/
@[simp]
theorem LookAheadKind.isBracket_operator (kind : LookAheadKind) : kind.operator.isBracket = false := by
  cases kind <;> rfl

/-- A left bracket is one. -/
@[simp]
theorem BracketKind.isBracket_left (kind : BracketKind) : kind.left.isBracket = true := by
  cases kind <;> rfl

/-- A right bracket is one. -/
@[simp]
theorem BracketKind.isBracket_right (kind : BracketKind) : kind.right.isBracket = true := by
  cases kind <;> rfl

/-! ### Symbols -/

/-- Between names there are no tokens but the marks that separate them. -/
theorem forall_mem_tokensBetween {P : Token → Prop} {separator : Mark} (hmark : P (.mark separator))
    (hname : ∀ i : Identifier, P i.token) (is : List Identifier) :
    ∀ t ∈ tokensBetween separator is, P t := by
  cases is with
  | nil => simp [tokensBetween]
  | cons i is =>
    refine List.forall_mem_cons.mpr ⟨hname i, fun t ht => ?_⟩
    obtain ⟨j, -, hj⟩ := List.mem_flatMap.mp ht
    simp only [List.mem_cons, List.not_mem_nil, or_false] at hj
    rcases hj with rfl | rfl
    · exact hmark
    · exact hname j

/-- Among names and separators there is no bracket and no literal. -/
theorem filter_tokensBetween {separator : Mark} (h : separator.isBracket = false) (is : List Identifier) :
    (tokensBetween separator is).filter Token.isBracketOrLiteral = [] :=
  List.filter_eq_nil_iff.mpr (forall_mem_tokensBetween (by simp [h]) (by simp) is)

/-- There is no bracket and no literal in a type name. -/
@[simp]
theorem TypeName.filter_tokens (t : TypeName) : t.tokens.filter Token.isBracketOrLiteral = [] :=
  filter_tokensBetween rfl _

/-- There is no bracket and no literal in a list of identifiers. -/
@[simp]
theorem IdentifierList.filter_tokens (l : IdentifierList) :
    l.tokens.filter Token.isBracketOrLiteral = [] :=
  filter_tokensBetween rfl _

/-- Of the tokens of a terminal its literals count. -/
@[simp]
theorem Terminal.filter_tokens (t : Terminal) :
    t.tokens.filter Token.isBracketOrLiteral = t.literals.map (·.token) := by
  obtain ⟨literal, lookAhead, range⟩ := t
  cases lookAhead <;> simp [tokens, literals, LookAhead.tokens, List.filter_cons]

/-- There is no bracket and no literal in a type annotation. -/
@[simp]
theorem TypeAnnotation.filter_tokens (a : TypeAnnotation) :
    a.tokens.filter Token.isBracketOrLiteral = [] := by
  simp [tokens, Mark.isBracket]

/-- There is no bracket and no literal in what is written after a symbol. -/
@[simp]
theorem TreeControl.filter_tokens (c : TreeControl) : c.tokens.filter Token.isBracketOrLiteral = [] := by
  obtain ⟨kind, range⟩ := c
  cases kind with
  | cut => rfl
  | member name type => cases type <;> simp [tokens, Mark.isBracket]
  | typed type => exact type.filter_tokens

namespace Symbol

variable (s : Symbol)

/-- Of the tokens of a symbol its literals count. -/
theorem filter_tokens : s.tokens.filter Token.isBracketOrLiteral = s.literals.map (·.token) := by
  obtain ⟨kind, control, range⟩ := s
  have hcontrol : (control.elim [] (·.tokens)).filter Token.isBracketOrLiteral = [] := by
    cases control with
    | none => rfl
    | some c => exact c.filter_tokens
  rw [tokens, List.filter_append, hcontrol, List.append_nil]
  cases kind <;> simp [SymbolKind.tokens, literals, terminal?, Mark.isBracket]

/-- A walk through a symbol shows the tokens of it that count. -/
theorem filterMap_walk : s.walk.filterMap Visit.token? = s.tokens.filter Token.isBracketOrLiteral := by
  have hliterals : (s.literals.map .literal).filterMap Visit.token? = s.literals.map (·.token) := by
    rw [List.filterMap_map]
    exact congrFun List.filterMap_eq_map s.literals
  rw [filter_tokens, walk, List.filterMap_cons_none rfl, hliterals]

end Symbol

/-! ### Bodies -/

/-- The pipes of a body are no brackets. -/
theorem filter_tokensAfterPipe (as : List Alternation) :
    (tokensAfterPipe as).filter Token.isBracketOrLiteral =
      (tokensOfBody as).filter Token.isBracketOrLiteral := by
  cases as with
  | nil => rfl
  | cons a as =>
    obtain ⟨fs, r⟩ := a
    simp [tokensAfterPipe, tokensOfBody, Mark.isBracket]

mutual

/-- **The walk of a factor shows its brackets and literals.** -/
theorem Factor.filterMap_walk : (f : Factor) →
    f.walk.filterMap Visit.token? = f.tokens.filter Token.isBracketOrLiteral
  | .symbol s => s.filterMap_walk
  | .bracketed kind none r => by
    simp [Factor.walk, Factor.tokens, Visit.token?]
  | .bracketed kind (some ⟨as, inner⟩) r => by
    simp [Factor.walk, Factor.tokens, Visit.token?, filterMap_walkBody as]

/-- A walk through a body shows its brackets and literals in order. -/
theorem filterMap_walkBody : (as : List (AlternationOf Factor)) →
    (walkBody as).filterMap Visit.token? = (tokensOfBody as).filter Token.isBracketOrLiteral
  | [] => rfl
  | ⟨fs, r⟩ :: as => by
    simp [walkBody, tokensOfBody, List.filterMap_cons, Visit.token?, filterMap_walkFactors fs,
      filterMap_walkBody as, filter_tokensAfterPipe]

/-- A walk through factors shows their brackets and literals in order. -/
theorem filterMap_walkFactors : (fs : List Factor) →
    (walkFactors fs).filterMap Visit.token? = (tokensOfFactors fs).filter Token.isBracketOrLiteral
  | [] => rfl
  | f :: fs => by
    simp [walkFactors, tokensOfFactors, f.filterMap_walk, filterMap_walkFactors fs]

end

/-- **The walk of a production shows its brackets and literals.** Its pipes are none. -/
theorem Production.filterMap_walk (p : Production) :
    p.walk.filterMap Visit.token? = p.tokens.filter Token.isBracketOrLiteral := by
  obtain ⟨name, leadingPipe, body, range⟩ := p
  cases leadingPipe <;> cases body <;>
    simp [walk, tokens, alternations, AlternationsOf.tokens, filterMap_walkBody, tokensOfBody,
      List.filterMap_cons, Visit.token?, Mark.isBracket]

/-! ### Whole files -/

/-- **The walk of a file shows the brackets and literals behind `%%`.** -/
theorem Grammar.filterMap_walk (g : Grammar) :
    g.walk.filterMap Visit.token? =
      (g.productions.flatMap (·.tokens)).filter Token.isBracketOrLiteral := by
  have houtside : ∀ v : Visit, v.isOutside → v.token?.toList = [] := by
    intro v hv
    cases v <;> simp_all [Visit.isOutside, Visit.token?]
  have hdirectives : (g.directives.flatMap fun d => (Visit.directive d).token?.toList) = [] :=
    List.flatMap_eq_nil_iff.mpr fun _ _ => rfl
  rw [List.filterMap_eq_flatMap_toList, g.pick_walk houtside, hdirectives, List.nil_append,
    List.filter_flatMap]
  simp only [← List.filterMap_eq_flatMap_toList, Production.filterMap_walk]

end GrammarFile
