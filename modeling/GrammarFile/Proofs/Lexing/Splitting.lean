import GrammarFile.Proofs.Lexing.Lexeme

/-!
# The tokens a text falls into

`Splits text tokens` says that scanning again and again takes `text` apart into `tokens`, without
offsets. `tokenizeFrom` is that relation with the tokens laid side by side (`tokenizeFrom_eq_ok_iff`),
so facts about the lexer are shown of the relation, by induction on its two cases.

`Lexes text tokens` leaves the trivia out. It can be built from the front of a text: a blank character
adds nothing (`Lexes.blank`), and a name, a literal or a mark adds itself where it ends before what
follows (`Lexes.name`, `Lexes.literal`, `Lexes.mark`). So `Token.IsLexeme`, which speaks of the shape of a
text, says that the lexer reads the text as that token (`Token.isLexeme_iff`).
-/

namespace GrammarFile

/-- A text and the tokens, trivia included, that scanning takes it apart into. -/
inductive Splits : List Char → List Token → Prop where
  | nil : Splits [] []
  | cons {c : Char} {cs rest : List Char} {t : Token} {ts : List Token} :
      scan c cs = .ok (t, rest) → Splits rest ts → Splits (c :: cs) (t :: ts)

/-- Tokens laid side by side from a byte offset on. -/
def placeFrom (offset : Nat) : List Token → List Lexeme
  | [] => []
  | t :: ts =>
    ⟨t, ⟨offset, offset + t.text.utf8ByteSize⟩⟩ :: placeFrom (offset + t.text.utf8ByteSize) ts

/-- Placing tokens keeps them. -/
theorem map_token_placeFrom (offset : Nat) (ts : List Token) :
    (placeFrom offset ts).map (·.token) = ts := by
  induction ts generalizing offset with
  | nil => rfl
  | cons t ts ih => rw [placeFrom, List.map_cons, ih]

/-! ### The lexer as splitting -/

/-- What the lexer reads is a splitting of the text, laid side by side. -/
theorem splits_of_tokenizeFrom {offset : Nat} {text : List Char} {lexemes : List Lexeme}
    (h : tokenizeFrom offset text = .ok lexemes) :
    ∃ ts, Splits text ts ∧ lexemes = placeFrom offset ts := by
  fun_induction tokenizeFrom offset text generalizing lexemes with
  | case1 =>
    cases h
    exact ⟨[], .nil, rfl⟩
  | case2 => cases h
  | case3 offset c cs t rest hscan stop =>
    rename_i ih
    cases hmore : tokenizeFrom stop rest with
    | error e => simp [hmore, Except.map] at h
    | ok more =>
      obtain ⟨ts, hts, rfl⟩ := ih hmore
      rw [hmore, Except.map, Except.ok.injEq] at h
      exact ⟨t :: ts, .cons hscan hts, h.symm⟩

/-- A text that splits is read by the lexer. -/
theorem tokenizeFrom_of_splits {text : List Char} {ts : List Token} (h : Splits text ts) (offset : Nat) :
    tokenizeFrom offset text = .ok (placeFrom offset ts) := by
  induction h generalizing offset with
  | nil => rw [tokenizeFrom, placeFrom]
  | cons hscan _ ih =>
    rw [tokenizeFrom]
    split
    · rename_i he
      rw [hscan] at he
      cases he
    · rename_i he
      rw [hscan] at he
      cases he
      simp only [ih, placeFrom, Except.map]

/-- The lexer reads a text just where it splits, and gives the parts laid side by side. -/
theorem tokenizeFrom_eq_ok_iff {offset : Nat} {text : List Char} {lexemes : List Lexeme} :
    tokenizeFrom offset text = .ok lexemes ↔ ∃ ts, Splits text ts ∧ lexemes = placeFrom offset ts := by
  constructor
  · exact splits_of_tokenizeFrom
  · rintro ⟨ts, hts, rfl⟩
    exact tokenizeFrom_of_splits hts offset

/-- The lexer reads a source just where it splits. -/
theorem tokenize_eq_ok_iff {source : String} {lexemes : List Lexeme} :
    tokenize source = .ok lexemes ↔ ∃ ts, Splits source.toList ts ∧ lexemes = placeFrom 0 ts := by
  rw [← tokenizeFrom_eq_ok_iff, tokenize]
  cases tokenizeFrom 0 source.toList <;> simp [Except.mapError]

/-- A blank in front of a text joins the run of blanks that the text starts with, or is a run of its
own. -/
theorem Splits.blank {c : Char} {rest : List Char} {ts : List Token} (hc : Text.isBlank c)
    (h : Splits rest ts) :
    (∃ run us, ts = .trivia .whitespace run :: us ∧
      Splits (c :: rest) (.trivia .whitespace (String.ofList (c :: run.toList)) :: us)) ∨
    Splits (c :: rest) (.trivia .whitespace (String.ofList [c]) :: ts) := by
  have hscan : ∀ cs, scan c cs = .ok (.trivia .whitespace
      (String.ofList (c :: cs.takeWhile Text.isBlank)), cs.dropWhile Text.isBlank) := by
    intro cs
    unfold scan
    rw [if_pos hc]
  cases h with
  | nil => exact .inr (.cons (hscan []) .nil)
  | @cons d ds rest t us hd hus =>
    by_cases hblank : Text.isBlank d
    · -- the first token of the text is its whole run of blanks
      left
      unfold scan at hd
      rw [if_pos hblank] at hd
      cases hd
      refine ⟨_, us, rfl, ?_⟩
      have hrun := hscan (d :: ds)
      rw [List.takeWhile_cons_of_pos hblank, List.dropWhile_cons_of_pos hblank] at hrun
      rw [String.toList_ofList]
      exact .cons hrun hus
    · right
      have hrun := hscan (d :: ds)
      rw [List.takeWhile_cons_of_neg hblank, List.dropWhile_cons_of_neg hblank] at hrun
      exact .cons hrun (.cons hd hus)

/-! ### The tokens that the parser reads -/

/-- A text and its tokens without the trivia. -/
def Lexes (text : List Char) (ts : List Token) : Prop :=
  ∃ all, Splits text all ∧ all.filter (fun t => !t.kind.isTrivia) = ts

/-- The tokens that the parser reads, where all tokens are laid side by side from a byte offset on. -/
def readFrom (offset : Nat) (ts : List Token) : List Lexeme :=
  (placeFrom offset ts).filter fun l => !l.token.kind.isTrivia

/-- The parser reads the tokens of a source without the trivia. -/
theorem lex_eq_ok_iff {source : String} {ls : List Lexeme} :
    lex source = .ok ls ↔ ∃ ts, Splits source.toList ts ∧ ls = readFrom 0 ts := by
  constructor
  · intro h
    unfold lex at h
    cases hall : tokenize source with
    | error e => simp [hall, Except.map] at h
    | ok all =>
      rw [hall, Except.map, Except.ok.injEq] at h
      obtain ⟨ts, hts, rfl⟩ := tokenize_eq_ok_iff.mp hall
      exact ⟨ts, hts, h.symm⟩
  · rintro ⟨ts, hts, rfl⟩
    rw [lex, tokenize_eq_ok_iff.mpr ⟨ts, hts, rfl⟩]
    rfl

/-- Trivia are left out of the tokens only once all are found, so they do not matter for a failure. -/
theorem lex_eq_error_iff {source : String} {e : LexError} :
    lex source = .error e ↔ tokenize source = .error e := by
  rw [lex]
  cases tokenize source <;> simp [Except.map]

/-- The parser reads what the text lexes to. -/
theorem lexes_of_lex {source : String} {lexemes : List Lexeme} (h : lex source = .ok lexemes) :
    Lexes source.toList (lexemes.map (·.token)) := by
  obtain ⟨ts, hts, rfl⟩ := lex_eq_ok_iff.mp h
  refine ⟨ts, hts, ?_⟩
  rw [readFrom, ← map_token_placeFrom 0 ts, List.filter_map, map_token_placeFrom]
  rfl

/-- A text that lexes to some tokens is read as them. -/
theorem lex_of_lexes {source : String} {ts : List Token} (h : Lexes source.toList ts) :
    ∃ lexemes, lex source = .ok lexemes ∧ lexemes.map (·.token) = ts := by
  obtain ⟨all, hall, rfl⟩ := h
  refine ⟨_, lex_eq_ok_iff.mpr ⟨all, hall, rfl⟩, ?_⟩
  rw [readFrom, ← map_token_placeFrom 0 all, List.filter_map, map_token_placeFrom]
  rfl

/-- The names and literals that a text is taken apart into have the shapes of their kinds. -/
theorem isLexeme_of_splits {text : List Char} {ts : List Token} (h : Splits text ts) :
    ∀ t ∈ ts, t.IsLexeme := by
  induction h with
  | nil => exact fun _ ht => absurd ht List.not_mem_nil
  | cons hscan _ ih =>
    intro t ht
    rcases List.mem_cons.mp ht with rfl | ht
    · exact isLexeme_of_scan hscan
    · exact ih t ht

namespace Lexes

/-- The empty text lexes to no tokens. -/
theorem nil : Lexes [] [] :=
  ⟨[], .nil, rfl⟩

variable {c : Char} {cs rest : List Char} {ts : List Token}

/-- What a text lexes to are lexemes. -/
theorem isLexeme (h : Lexes rest ts) : ∀ t ∈ ts, t.IsLexeme := by
  obtain ⟨all, hall, rfl⟩ := h
  exact fun t ht => isLexeme_of_splits hall t (List.mem_filter.mp ht).1

/-- A blank character in front adds nothing. -/
theorem blank (hc : Text.isBlank c) (h : Lexes rest ts) : Lexes (c :: rest) ts := by
  obtain ⟨all, hall, rfl⟩ := h
  rcases hall.blank hc with ⟨run, us, rfl, hus⟩ | hall
  · exact ⟨_, hus, rfl⟩
  · exact ⟨_, hall, rfl⟩

/-- A token that is scanned whole and is no trivia adds itself. -/
theorem token {t : Token} (ht : t.kind.isTrivia = false) (hscan : scan c cs = .ok (t, rest))
    (h : Lexes rest ts) : Lexes (c :: cs) (t :: ts) := by
  obtain ⟨all, hall, rfl⟩ := h
  refine ⟨t :: all, .cons hscan hall, ?_⟩
  rw [List.filter_cons_of_pos (by simp [ht])]

/-- A name in front adds itself, where no identifier character follows. -/
theorem name {s : String} (hs : IsName s.toList) (hr : EndsName rest) (h : Lexes rest ts) :
    Lexes (s.toList ++ rest) (.identifier s :: ts) := by
  cases hcs : s.toList with
  | nil => simp [hcs, IsName] at hs
  | cons c cs =>
    have hscan := scan_name (hcs ▸ hs) hr
    rw [← hcs, String.ofList_toList] at hscan
    exact token rfl hscan h

/-- A literal in front adds itself. -/
theorem literal {kind : LiteralKind} {s : String} (hs : IsLiteral kind s.toList) (h : Lexes rest ts) :
    Lexes (s.toList ++ rest) (.literal kind s :: ts) := by
  cases hcs : s.toList with
  | nil =>
    obtain ⟨body, -, htext, -⟩ := hs
    rw [hcs] at htext
    cases htext
  | cons c cs =>
    have hscan := scan_literal (hcs ▸ hs) rest
    rw [← hcs, String.ofList_toList] at hscan
    exact token rfl hscan h

/-- A mark in front adds itself, where no colon follows a colon. -/
theorem mark (m : Mark) (hr : m = .colon → rest.head? ≠ some ':') (h : Lexes rest ts) :
    Lexes (m.text.toList ++ rest) (.mark m :: ts) := by
  cases hcs : m.text.toList with
  | nil => cases m <;> cases hcs
  | cons c cs => exact token rfl (scan_mark m hcs hr) h

end Lexes

/-- A token that is no trivia has the shape of its kind just where its text lexes to it alone. -/
theorem Token.isLexeme_iff {t : Token} (ht : t.kind.isTrivia = false) :
    t.IsLexeme ↔ Lexes t.text.toList [t] := by
  constructor
  · intro h
    rw [← List.append_nil t.text.toList]
    cases t with
    | identifier name => exact .name h (fun _ hd => nomatch hd) .nil
    | literal kind text => exact .literal h .nil
    | mark m => exact .mark m (fun _ => nofun) .nil
    | trivia kind text => cases kind <;> cases ht
  · exact fun h => h.isLexeme t List.mem_cons_self

end GrammarFile
