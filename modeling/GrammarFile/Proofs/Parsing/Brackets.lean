import GrammarFile.Proofs.Parsing.Levels

/-!
# A bracket is refused inside as many as there may be

`openBrackets` keeps the brackets that are open after some tokens. What a rule reads leaves them as they
were, and where a bracket is refused there are as many open as there are levels, and that one
(`Nests`). So it is for a whole file (`Nests.file`): a bracket is refused where it is one too many.
-/

namespace GrammarFile

open Rule

/-- The brackets that are open after a token, innermost first, if the given ones were open before it. -/
def bracketsAfter (brackets : List BracketKind) : Token → List BracketKind
  | .mark .leftParen => .group :: brackets
  | .mark .leftBracket => .optional :: brackets
  | .mark .leftBrace => .repetition :: brackets
  | .mark .rightParen | .mark .rightBracket | .mark .rightBrace => brackets.tail
  | _ => brackets

/-- The brackets that are open after some tokens, innermost first. -/
def openBrackets (tokens : List Token) : List BracketKind :=
  tokens.foldl bracketsAfter []

/-- The kinds of opening and closing brackets. -/
def bracketMarks : List TokenKind :=
  [BracketKind.group, .optional, .repetition].flatMap fun kind => [.mark kind.left, .mark kind.right]

section Token

variable {t : Token} (brackets : List BracketKind)

/-- A left bracket is the innermost one behind it. -/
theorem bracketsAfter_left {kind : BracketKind} (h : t.kind = .mark kind.left) :
    bracketsAfter brackets t = kind :: brackets := by
  cases t with
  | mark m =>
    obtain rfl := TokenKind.mark.inj h
    cases kind <;> rfl
  | trivia | identifier | literal => cases h

/-- A right bracket closes the innermost one. -/
theorem bracketsAfter_right {kind : BracketKind} (h : t.kind = .mark kind.right) :
    bracketsAfter brackets t = brackets.tail := by
  cases t with
  | mark m =>
    obtain rfl := TokenKind.mark.inj h
    cases kind <;> rfl
  | trivia | identifier | literal => cases h

/-- A token that is no bracket leaves the brackets open. -/
theorem bracketsAfter_of_not_mem (h : t.kind ∉ bracketMarks) : bracketsAfter brackets t = brackets := by
  cases t with
  | mark m => cases m <;> first | rfl | exact absurd (by decide) h
  | trivia | identifier | literal => rfl

end Token

/-- The brackets that are open after some tokens with ranges. -/
def bracketsAfterAll (brackets : List BracketKind) (ts : List LocatedToken) : List BracketKind :=
  (ts.map (·.token)).foldl bracketsAfter brackets

/-- Tokens are gone through from the front. -/
theorem bracketsAfterAll_cons (brackets : List BracketKind) (t : LocatedToken) (ts : List LocatedToken) :
    bracketsAfterAll brackets (t :: ts) = bracketsAfterAll (bracketsAfter brackets t.token) ts :=
  rfl

/-- Tokens behind tokens start with the brackets that those leave open. -/
theorem bracketsAfterAll_append (brackets : List BracketKind) (ts us : List LocatedToken) :
    bracketsAfterAll brackets (ts ++ us) = bracketsAfterAll (bracketsAfterAll brackets ts) us := by
  unfold bracketsAfterAll
  rw [List.map_append, List.foldl_append]

/-- Whether every bracket that some tokens open is closed by them. -/
def Balanced (ts : List LocatedToken) : Prop :=
  ∀ brackets, bracketsAfterAll brackets ts = brackets

/-- Whether a bracket is refused in front of `rest` after the tokens `us`, and makes one more than the
given number of levels. -/
def RefusedAt (levels : Nat) (us rest : List LocatedToken) : Prop :=
  ∃ t, rest.head? = some t ∧
    ∀ brackets, (bracketsAfterAll brackets (us ++ [t])).length = brackets.length + levels + 1

/-- Balanced tokens in front have no part in a refusal. -/
theorem RefusedAt.append {levels : Nat} {ts us rest : List LocatedToken} (h : RefusedAt levels us rest)
    (hts : Balanced ts) : RefusedAt levels (ts ++ us) rest := by
  obtain ⟨t, ht, hlength⟩ := h
  refine ⟨t, ht, fun brackets => ?_⟩
  rw [List.append_assoc, bracketsAfterAll_append, hts, hlength]

/-- Whether a rule reads balanced tokens only, and refuses a bracket inside just the given number of
levels. -/
structure Nests {s : Bool} {α : Type} (levels : Nat) (r : Rule s α) : Prop where
  balanced : ∀ {ts x}, r.Reads ts x → Balanced ts
  refused : ∀ {c limit c'}, r.run c = .failed (.tooDeep limit) c' →
    limit = maxNesting ∧ ∃ us, c.rest = us ++ c'.rest ∧ RefusedAt levels us c'.rest

namespace Outcome

variable {α β : Type}

/-- What is made of a value does not make a run fail. -/
theorem failed_of_map {f : α → β} {o : Outcome α} {fault : Fault} {c : Cursor}
    (h : o.map f = .failed fault c) : o = .failed fault c := by
  cases o <;> cases h
  rfl

/-- Where a run goes on after another and fails, one of the two has failed. -/
theorem failed_of_bind {f : α → Cursor → Outcome β} {o : Outcome α} {fault : Fault} {c : Cursor}
    (h : o.bind f = .failed fault c) :
    o = .failed fault c ∨ ∃ x d, o = .ok x d ∧ f x d = .failed fault c := by
  cases o with
  | ok x d => exact .inr ⟨x, d, rfl, h⟩
  | failed => exact .inl (by cases h; rfl)

end Outcome

namespace Nests

variable {s t : Bool} {α β : Type} {levels : Nat}

/-- Reading nothing opens no bracket. -/
theorem nothing (value : α) : Nests levels (.nothing value) := by
  constructor
  · rintro ts x ⟨rfl, -⟩ brackets
    rfl
  · intro c limit c' h
    cases h

/-- A token that is missing is no refused bracket. -/
theorem token_not_refused {kind : TokenKind} {c c' : Cursor} {limit : Nat}
    (h : (Rule.token kind).run c = .failed (.tooDeep limit) c') : False := by
  unfold run at h
  split at h
  · split at h <;> cases h
  · cases h

/-- A token that is no bracket opens none. -/
theorem token {kind : TokenKind} (h : kind ∉ bracketMarks) : Nests levels (.token kind) := by
  constructor
  · rintro ts t ⟨rfl, hkind⟩ brackets
    rw [← hkind] at h
    exact bracketsAfter_of_not_mem brackets h
  · intro c limit c' hrun
    exact (token_not_refused hrun).elim

/-- Two rules in a row nest as deep as each of them may. -/
theorem seq {a : Rule s α} {b : Rule t β} (ha : Nests levels a) (hb : Nests levels b) :
    Nests levels (.seq a b) := by
  constructor
  · rintro ts x ⟨us, vs, rfl, hus, hvs⟩ brackets
    rw [bracketsAfterAll_append, ha.balanced hus, hb.balanced hvs]
  · intro c limit c' hrun
    rcases Outcome.failed_of_bind hrun with hrun | ⟨x, d, hx, hrun⟩
    · exact ha.refused hrun
    · obtain ⟨ts, hpasses, hts⟩ := reads_of_run hx
      obtain ⟨hlimit, us, hrest, hus⟩ := hb.refused (Outcome.failed_of_map hrun)
      refine ⟨hlimit, ts ++ us, ?_, hus.append (ha.balanced hts)⟩
      rw [hpasses.rest, hrest, List.append_assoc]

/-- A choice nests as deep as each of the two rules may. -/
theorem choice {a : Rule true α} {b : Rule t α} (ha : Nests levels a) (hb : Nests levels b) :
    Nests levels (.choice a b) := by
  constructor
  · rintro ts x (hx | hx)
    · exact ha.balanced hx
    · exact hb.balanced hx
  · intro c limit c' hrun
    unfold run at hrun
    split at hrun
    · exact ha.refused hrun
    · exact hb.refused (c := c.miss a.first) hrun

/-- Rounds of balanced tokens are balanced. -/
theorem balanced_of_rounds {reads : List LocatedToken → Step α → Prop} {ts : List LocatedToken}
    {xs : List α}
    (hreads : ∀ ts x, reads ts x → Balanced ts) (h : Rounds reads ts xs) : Balanced ts := by
  induction h with
  | done => exact fun _ => rfl
  | last h => exact hreads _ _ h
  | more h _ ih =>
    intro brackets
    rw [bracketsAfterAll_append, hreads _ _ h, ih]

/-- A repetition nests as deep as its rounds may. -/
theorem iterate {body : Rule true (Step α)} (h : Nests levels body) : Nests levels (.iterate body) := by
  constructor
  · exact fun hx => balanced_of_rounds (fun _ _ => h.balanced) hx
  · intro c
    induction c using @iterate_induction _ body with
    | stop => intro _ _ hrun; cases hrun
    | last => intro _ _ hrun; cases hrun
    | failed c fault c' _ hrun =>
      rintro limit c'' ⟨⟩
      exact h.refused hrun
    | more c a d _ hrun ih =>
      intro limit c' hmore
      obtain ⟨ts, hpasses, hts⟩ := reads_of_run hrun
      obtain ⟨hlimit, us, hrest, hus⟩ := ih (Outcome.failed_of_map hmore)
      refine ⟨hlimit, ts ++ us, ?_, hus.append (h.balanced hts)⟩
      rw [hpasses.rest, hrest, List.append_assoc]

/-- What is made of a value has no part in the nesting. -/
theorem map {f : α → β} {r : Rule s α} (h : Nests levels r) : Nests levels (.map f r) := by
  constructor
  · rintro ts y ⟨x, hx, -⟩
    exact h.balanced hx
  · intro c limit c' hrun
    exact h.refused (Outcome.failed_of_map hrun)

/-- A range has no part in the nesting. -/
theorem ranged {f : α → Range → β} {r : Rule true α} (h : Nests levels r) :
    Nests levels (.ranged f r) := by
  constructor
  · rintro ts y ⟨x, hx, -⟩
    exact h.balanced hx
  · intro c limit c' hrun
    rcases Outcome.failed_of_bind hrun with hrun | ⟨x, d, -, hrun⟩
    · exact h.refused hrun
    · cases hrun

/-- What is optional nests as deep as it may. -/
theorem optional {r : Rule true α} (h : Nests levels r) : Nests levels r.optional :=
  h.map.choice (.nothing none)

/-- Any number of times nests as deep as once. -/
theorem many {r : Rule true α} (h : Nests levels r) : Nests levels r.many :=
  h.map.iterate

/-- One or more times nests as deep as once. -/
theorem oneOrMore {r : Rule true α} (h : Nests levels r) : Nests levels r.oneOrMore :=
  (h.seq h.many).map

/-- Brackets are one level more than what stands between them. -/
theorem between (kind : BracketKind) {r : Rule s α} (h : Nests levels r) :
    Nests (levels + 1) (skipThen (Rules.mark kind.left) (thenSkip r (Rules.mark kind.right))) := by
  constructor
  · rintro ts x ⟨_, ⟨us, vs, rfl, ⟨rfl, hleft⟩, _, ⟨ws, xs, rfl, hws, rfl, hright⟩, -⟩, -⟩ brackets
    rw [List.singleton_append, bracketsAfterAll_cons, bracketsAfter_left _ hleft, bracketsAfterAll_append,
      h.balanced hws]
    exact bracketsAfter_right _ hright
  · intro c limit c' hrun
    rcases Outcome.failed_of_bind (Outcome.failed_of_map hrun) with hrun | ⟨t, d, ht, hrun⟩
    · exact (token_not_refused hrun).elim
    obtain ⟨_, hpasses, rfl, hleft⟩ := reads_of_run ht
    rcases Outcome.failed_of_bind (Outcome.failed_of_map (Outcome.failed_of_map hrun)) with
      hrun | ⟨x, e, -, hrun⟩
    · obtain ⟨hlimit, us, hrest, u, hu, hlength⟩ := h.refused hrun
      refine ⟨hlimit, t :: us, ?_, u, hu, fun brackets => ?_⟩
      · rw [hpasses.rest, hrest, List.singleton_append, List.cons_append]
      · rw [List.cons_append, bracketsAfterAll_cons, bracketsAfter_left _ hleft, hlength,
          List.length_cons]
        omega
    · exact (token_not_refused (Outcome.failed_of_map hrun)).elim

end Nests

/-! ### The rules of grammar files -/

/-- Whether a rule has no brackets, neither ones to read nor ones to refuse. -/
def Rule.unbracketed : {s : Bool} → {α : Type} → Rule s α → Bool
  | _, _, nothing _ => true
  | _, _, token kind => !bracketMarks.contains kind
  | _, _, seq a b => a.unbracketed && b.unbracketed
  | _, _, choice a b => a.unbracketed && b.unbracketed
  | _, _, iterate body => body.unbracketed
  | _, _, map _ rule => rule.unbracketed
  | _, _, ranged _ rule => rule.unbracketed
  | _, _, tooDeep _ _ => false

namespace Nests

/-- A rule without brackets nests to any level. -/
theorem of_unbracketed {s : Bool} {α : Type} {levels : Nat} {r : Rule s α} (hr : r.unbracketed) :
    Nests levels r := by
  induction r with
  | nothing value => exact .nothing value
  | token kind => exact .token (by simpa [unbracketed] using hr)
  | seq a b iha ihb =>
    rw [unbracketed, Bool.and_eq_true] at hr
    exact (iha hr.1).seq (ihb hr.2)
  | choice a b iha ihb =>
    rw [unbracketed, Bool.and_eq_true] at hr
    exact (iha hr.1).choice (ihb hr.2)
  | iterate body ih => exact (ih hr).iterate
  | map f rule ih => exact (ih hr).map
  | ranged f rule ih => exact (ih hr).ranged
  | tooDeep => cases hr

/-- An opening bracket that is refused is the only one. -/
theorem noBrackets {symbol : Rule true Factor} (h : Nests 0 symbol) :
    Nests 0 (Rules.noBrackets symbol) := by
  refine .choice ⟨fun hx => hx.elim, fun {c limit c'} hrun => ?_⟩ h
  unfold run at hrun
  split at hrun
  · rename_i hsees
    obtain ⟨t, rest, hrest, hkind⟩ := Cursor.exists_of_sees hsees
    cases hrun
    refine ⟨rfl, [], rfl, t, hrest ▸ rfl, fun brackets => ?_⟩
    obtain ⟨kind, -, hkind⟩ := List.mem_map.mp hkind
    rw [List.nil_append, bracketsAfterAll_cons, bracketsAfter_left brackets hkind.symm]
    rfl
  · cases hrun

variable {levels : Nat}

/-- A body nests as deep as its factors may. -/
theorem alternations {factor : Rule true Factor} (h : Nests levels factor) :
    Nests levels (Rules.alternations factor) := by
  have hone : Nests levels (Rules.alternation factor) := h.oneOrMore.ranged
  exact (hone.seq ((Nests.of_unbracketed rfl).seq hone.optional).map.iterate).ranged

/-- Brackets are one level more than the body between them. -/
theorem bracketed (kind : BracketKind) {body : Rule true Alternations} (h : Nests levels body) :
    Nests (levels + 1) (Rules.bracketed kind body) :=
  (h.optional.between kind).ranged

/-- A factor nests to the levels that it is made with. -/
theorem factor (levels : Nat) : Nests levels (Rules.factor levels) := by
  induction levels with
  | zero => exact .noBrackets (.of_unbracketed rfl)
  | succ levels ih =>
    have hbody := ih.alternations
    exact (hbody.bracketed .group).choice
      ((hbody.bracketed .optional).choice ((hbody.bracketed .repetition).choice (.of_unbracketed rfl)))

/-- A production nests to the levels that it is made with. -/
theorem production (levels : Nat) : Nests levels (Rules.production levels) := by
  have hbody := (factor levels).alternations
  have hbodies : Nests levels (Rules.productionBody levels) :=
    ((Nests.of_unbracketed rfl).seq hbody).map.map.choice (hbody.map.choice (.nothing _))
  exact ((Nests.of_unbracketed rfl).seq
    ((Nests.of_unbracketed rfl).seq (hbodies.seq (.of_unbracketed rfl)).map).map).ranged

/-- A scanner state has braces, but no levels. -/
theorem scannerState (levels : Nat) : Nests (levels + 1) Rules.scannerState := by
  have hdirectives : Nests levels Rules.directive.many := .of_unbracketed rfl
  have hbraces := hdirectives.between .repetition
  exact ((Nests.of_unbracketed rfl).seq ((Nests.of_unbracketed rfl).seq hbraces)).map.ranged

/-- A prolog nests to one level or more, for the braces of scanner states. -/
theorem prolog (levels : Nat) : Nests (levels + 1) Rules.prolog :=
  ((Nests.of_unbracketed rfl).seq
    ((Nests.of_unbracketed rfl : Nests _ Rules.declaration.many).seq (scannerState levels).many)).ranged

/-- **A bracket is refused inside as many as there may be.** -/
theorem file (levels : Nat) : Nests (levels + 1) (Rules.file (levels + 1)) :=
  ((prolog levels).seq
    ((Nests.of_unbracketed rfl).seq (production (levels + 1)).oneOrMore).map.ranged).map

end Nests

end GrammarFile
