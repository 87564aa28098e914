import GrammarFile.Proofs.Lexing.Partition
import GrammarFile.Proofs.Lexing.TokenClass

/-!
# Texts joined by a line feed

A line feed ends every token that could go on: a name, a line comment and a colon end before it, and a
run of blanks takes it along, which adds no token for the parser. So two texts with a line feed between
them are read one after the other, the second as if it stood alone, only later (`Lexeme.shift`).
`lex_lineFeed` says so, and what follows from it: a line feed between two tokens of a source, or
comments and blanks between two line feeds, change no token that the parser reads.
-/

namespace GrammarFile

/-- A lexeme `n` bytes later. -/
def Lexeme.shift (n : Nat) (l : Lexeme) : Lexeme :=
  ⟨l.token, ⟨l.span.start + n, l.span.stop + n⟩⟩

/-- Whether the first tokens of the text `before ++ after` are just those that spell `before`. -/
def TokenBoundary (before after : String) : Prop :=
  ∃ ls ms, tokenize (before ++ after) = .ok (ls ++ ms) ∧ Token.spell (ls.map (·.token)) = before

/-! ### Tokens and where they stand -/

/-- Without tokens there is nothing to read. -/
theorem readFrom_nil (offset : Nat) : readFrom offset [] = [] :=
  rfl

/-- The first token is read in front of those that start where it ends. -/
theorem readFrom_cons (offset : Nat) (t : Token) (ts : List Token) :
    readFrom offset (t :: ts) =
      readFrom offset [t] ++ readFrom (offset + t.text.utf8ByteSize) ts := by
  simp only [readFrom, placeFrom]
  rw [← List.singleton_append, List.filter_append]

/-- Trivia is not read. -/
theorem readFrom_trivia (offset : Nat) (kind : TriviaKind) (text : String) :
    readFrom offset [.trivia kind text] = [] :=
  rfl

/-- Tokens behind tokens are read from where those end. -/
theorem readFrom_append (offset : Nat) (ts us : List Token) :
    readFrom offset (ts ++ us) =
      readFrom offset ts ++ readFrom (offset + byteCount (ts.flatMap (·.text.toList))) us := by
  induction ts generalizing offset with
  | nil => simp [readFrom_nil]
  | cons t ts ih =>
    rw [List.cons_append, readFrom_cons, ih, readFrom_cons offset t ts, List.append_assoc,
      List.flatMap_cons, byteCount_append, byteCount_toList, Nat.add_assoc]

/-- Tokens laid from a later offset on stand that much later. -/
theorem readFrom_add (offset n : Nat) (ts : List Token) :
    readFrom (offset + n) ts = (readFrom offset ts).map (Lexeme.shift n) := by
  have hplaced : placeFrom (offset + n) ts = (placeFrom offset ts).map (Lexeme.shift n) := by
    induction ts generalizing offset with
    | nil => rfl
    | cons t ts ih =>
      rw [placeFrom, placeFrom, List.map_cons, ← ih, Lexeme.shift, Nat.add_right_comm]
  rw [readFrom, hplaced, List.filter_map]
  rfl

/-! ### Texts one after the other -/

/-- Whether the parser reads a text that starts at a byte offset as these lexemes. -/
def LexesFrom (offset : Nat) (text : List Char) (ls : List Lexeme) : Prop :=
  ∃ ts, Splits text ts ∧ ls = readFrom offset ts

/-- A blank in front of a text adds no token. -/
theorem LexesFrom.blank {offset : Nat} {c : Char} {text : List Char} {ls : List Lexeme}
    (hc : Text.isBlank c) (h : LexesFrom (offset + c.utf8Size) text ls) :
    LexesFrom offset (c :: text) ls := by
  obtain ⟨ts, hts, rfl⟩ := h
  rcases hts.blank hc with ⟨run, us, rfl, hus⟩ | hus
  · refine ⟨_, hus, ?_⟩
    have hsize : (String.ofList (c :: run.toList)).utf8ByteSize = c.utf8Size + run.utf8ByteSize := by
      rw [← byteCount_toList run, ← byteCount_cons]
      rfl
    rw [readFrom_cons, readFrom_cons offset, readFrom_trivia, readFrom_trivia, List.nil_append,
      List.nil_append, Token.text, Token.text, hsize, Nat.add_assoc]
  · refine ⟨_, hus, ?_⟩
    have hsize : (String.ofList [c]).utf8ByteSize = c.utf8Size := by
      have h := byteCount_cons c []
      rwa [byteCount_nil, Nat.add_zero] at h
    rw [readFrom_cons offset, readFrom_trivia, List.nil_append, Token.text, hsize]

/-- Blanks in front of a text add no token. -/
theorem LexesFrom.blanks {offset : Nat} {run text : List Char} {ls : List Lexeme}
    (hrun : ∀ c ∈ run, Text.isBlank c) (h : LexesFrom (offset + byteCount run) text ls) :
    LexesFrom offset (run ++ text) ls := by
  induction run generalizing offset with
  | nil => simpa using h
  | cons c run ih =>
    rw [List.cons_append]
    apply LexesFrom.blank (hrun c List.mem_cons_self)
    apply ih fun d hd => hrun d (List.mem_cons_of_mem c hd)
    rwa [Nat.add_assoc, ← byteCount_cons]

/-- A line feed ends every token but a run of blanks. -/
theorem Token.endsBefore_lineFeed (t : Token) (text : List Char) :
    t.EndsBefore ('\n' :: text) ∨ t.kind = .trivia .whitespace := by
  have hstart : isIdentifierRest '\n' = false := by decide
  cases t with
  | trivia kind =>
    cases kind with
    | whitespace => exact .inr rfl
    | lineComment => exact .inl (by simp [EndsBefore, isLineEnd])
    | blockComment => exact .inl trivial
  | identifier => exact .inl (by simp [EndsBefore, EndsName, hstart])
  | literal => exact .inl trivial
  | mark m => exact .inl (endsBefore_mark.mpr fun _ => by simp)

/-- A scanned token is scanned again where another text starts with the same character as what followed
it. -/
theorem scan_append_of_endsBefore {c : Char} {cs rest more : List Char} {t : Token}
    (h : scan c cs = .ok (t, rest)) (hends : t.EndsBefore (rest ++ more)) :
    scan c (cs ++ more) = .ok (t, rest ++ more) := by
  obtain ⟨hmatches, -, htext⟩ := scan_eq_ok_iff.mp h
  refine scan_eq_ok_iff.mpr ⟨hmatches, hends, ?_⟩
  rw [← List.append_assoc, htext]
  rfl

/-- **A text, a line feed and a text are read one after the other.** The induction is on the tokens of
the first text: only its last token comes to stand before the line feed. -/
theorem lexesFrom_lineFeed {offset : Nat} {first second : List Char} {ts : List Token}
    {ms : List Lexeme} (hts : Splits first ts)
    (h : LexesFrom (offset + byteCount first + 1) second ms) :
    LexesFrom offset (first ++ '\n' :: second) (readFrom offset ts ++ ms) := by
  induction hts generalizing offset with
  | nil =>
    rw [byteCount_nil] at h
    exact LexesFrom.blank (by decide) h
  | @cons c cs rest t ts hscan hts ih =>
    have htext := text_append_of_scan hscan
    have hoffset : offset + byteCount (c :: cs) + 1 =
        offset + t.text.utf8ByteSize + byteCount rest + 1 := by
      rw [← htext, byteCount_append, byteCount_toList]
      omega
    rw [hoffset] at h
    have hmore := ih h
    by_cases hends : t.EndsBefore (rest ++ '\n' :: second)
    · obtain ⟨us, hus, hread⟩ := hmore
      refine ⟨t :: us, .cons (scan_append_of_endsBefore hscan hends) hus, ?_⟩
      rw [readFrom_cons, List.append_assoc, hread, readFrom_cons offset t us]
    · -- the token is followed by nothing but the line feed, so it is a run of blanks
      obtain ⟨hmatches, hbefore, -⟩ := scan_eq_ok_iff.mp hscan
      obtain rfl : rest = [] := by
        by_contra hne
        obtain ⟨d, ds, rfl⟩ := List.exists_cons_of_ne_nil hne
        exact hends ((Token.endsBefore_congr rfl t).mp hbefore)
      have hkind := (t.endsBefore_lineFeed second).resolve_left hends
      obtain ⟨text, rfl⟩ : ∃ text, t = .trivia .whitespace text := by
        cases t <;> cases hkind
        exact ⟨_, rfl⟩
      rw [List.append_nil] at htext
      rw [readFrom_cons, readFrom_trivia, List.nil_append, ← htext]
      apply LexesFrom.blanks hmatches.2
      rwa [byteCount_toList]

/-- The first tokens of a text are those of the text they spell: the last of them ends there. -/
theorem splits_of_splits_append {text : List Char} {ts us : List Token} (h : Splits text (ts ++ us)) :
    ∃ rest, Splits (ts.flatMap (·.text.toList)) ts ∧ Splits rest us ∧
      text = ts.flatMap (·.text.toList) ++ rest := by
  induction ts generalizing text with
  | nil => exact ⟨text, .nil, h, rfl⟩
  | cons t ts ih =>
    cases h with
    | @cons c cs rest _ _ hscan hrest =>
      obtain ⟨after, hts, hus, rfl⟩ := ih hrest
      refine ⟨after, .cons_of_append hscan hts, hus, ?_⟩
      rw [← text_append_of_scan hscan, List.flatMap_cons, List.append_assoc]

/-! ### Sources -/

/-- Two sources that are read are read one after the other with a line feed between them. -/
theorem lex_append_lineFeed {first second : String} {ls ms : List Lexeme} (hfirst : lex first = .ok ls)
    (hsecond : lex second = .ok ms) :
    lex (first ++ "\n" ++ second) =
      .ok (ls ++ ms.map (Lexeme.shift (first.utf8ByteSize + 1))) := by
  obtain ⟨ts, hts, rfl⟩ := lex_eq_ok_iff.mp hfirst
  obtain ⟨us, hus, rfl⟩ := lex_eq_ok_iff.mp hsecond
  rw [lex_eq_ok_iff]
  have hmore : LexesFrom (0 + byteCount first.toList + 1) second.toList
      ((readFrom 0 us).map (Lexeme.shift (first.utf8ByteSize + 1))) := by
    refine ⟨us, hus, ?_⟩
    rw [byteCount_toList, Nat.add_assoc, readFrom_add]
  have hjoined : (first ++ "\n" ++ second).toList = first.toList ++ '\n' :: second.toList := by
    simp [String.toList_append]
  rw [hjoined]
  exact lexesFrom_lineFeed hts hmore

/-- The two parts of a source on both sides of a token boundary are read one after the other. -/
theorem exists_lex_of_tokenBoundary {before after : String} (h : TokenBoundary before after) :
    ∃ ls ms, lex before = .ok ls ∧ lex after = .ok ms ∧
      lex (before ++ after) = .ok (ls ++ ms.map (Lexeme.shift before.utf8ByteSize)) := by
  obtain ⟨ls, ms, htokens, hspell⟩ := h
  obtain ⟨all, hall, hplaced⟩ := tokenize_eq_ok_iff.mp htokens
  have hsplit : all = ls.map (·.token) ++ ms.map (·.token) := by
    rw [← List.map_append, hplaced, map_token_placeFrom]
  rw [hsplit] at hall
  obtain ⟨rest, hts, hus, htext⟩ := splits_of_splits_append hall
  have hbefore : (ls.map (·.token)).flatMap (·.text.toList) = before.toList := by
    simp only [← hspell, Token.spell, String.toList_join, List.flatMap_map]
  rw [hbefore] at hts htext
  obtain rfl : rest = after.toList := by
    rw [String.toList_append] at htext
    exact (List.append_cancel_left htext).symm
  refine ⟨_, _, lex_eq_ok_iff.mpr ⟨_, hts, rfl⟩, lex_eq_ok_iff.mpr ⟨_, hus, rfl⟩, ?_⟩
  refine lex_eq_ok_iff.mpr ⟨_, hall, ?_⟩
  rw [readFrom_append, hbefore, byteCount_toList, readFrom_add]

/-- A lexeme that is moved twice is moved by the sum. -/
theorem Lexeme.shift_shift (m n : Nat) (l : Lexeme) : (l.shift m).shift n = l.shift (m + n) := by
  simp only [Lexeme.shift, Nat.add_assoc]

/-- **A line feed separates.** Two sources that are read are read one after the other with a line feed
between them, the second that much later. And at a boundary between two tokens of a source a line feed,
or anything that the parser does not read between two line feeds, changes no token that the parser
reads: the tokens before stay, and those behind come as much later as was put in. -/
theorem lex_lineFeed :
    (∀ (first second : String) (ls ms : List Lexeme), lex first = .ok ls → lex second = .ok ms →
      lex (first ++ "\n" ++ second) =
        .ok (ls ++ ms.map (Lexeme.shift (first.utf8ByteSize + 1)))) ∧
    (∀ before after gap : String, TokenBoundary before after →
      (gap = "\n" ∨ ∃ trivia, lex trivia = .ok [] ∧ gap = "\n" ++ trivia ++ "\n") →
      ∃ ls ms, lex before = .ok ls ∧ lex after = .ok ms ∧
        lex (before ++ after) = .ok (ls ++ ms.map (Lexeme.shift before.utf8ByteSize)) ∧
        lex (before ++ gap ++ after) =
          .ok (ls ++ ms.map (Lexeme.shift (before.utf8ByteSize + gap.utf8ByteSize)))) := by
  refine ⟨fun _ _ _ _ hfirst hsecond => lex_append_lineFeed hfirst hsecond, ?_⟩
  intro before after gap hboundary hgap
  obtain ⟨ls, ms, hbefore, hafter, hwhole⟩ := exists_lex_of_tokenBoundary hboundary
  refine ⟨ls, ms, hbefore, hafter, hwhole, ?_⟩
  rcases hgap with rfl | ⟨trivia, htrivia, rfl⟩
  · exact lex_append_lineFeed hbefore hafter
  · have hinner := lex_append_lineFeed hbefore (lex_append_lineFeed htrivia hafter)
    have htext : before ++ "\n" ++ (trivia ++ "\n" ++ after) =
        before ++ ("\n" ++ trivia ++ "\n") ++ after := by
      simp only [String.append_assoc]
    have hsize : trivia.utf8ByteSize + 1 + (before.utf8ByteSize + 1) =
        before.utf8ByteSize + ("\n" ++ trivia ++ "\n").utf8ByteSize := by
      have hone : "\n".utf8ByteSize = 1 := by decide
      simp only [String.utf8ByteSize_append, hone]
      omega
    rw [htext, List.nil_append, List.map_map] at hinner
    rw [hinner, ← hsize]
    congr 3
    exact funext fun l => l.shift_shift _ _

/-- A colon is put behind a line comment and another colon, and a block comment between a name and the
colon behind it. -/
theorem lex_lineFeed_colons :
    lex ("a: // x" ++ "\n" ++ ": 'é'") =
      .ok ([⟨.identifier "a", ⟨0, 1⟩⟩, ⟨.mark .colon, ⟨1, 2⟩⟩] ++
        [⟨.mark .colon, ⟨0, 1⟩⟩, ⟨.literal .rawString "'é'", ⟨2, 6⟩⟩].map (Lexeme.shift 8)) ∧
    ∃ ls ms, lex "a" = .ok ls ∧ lex "::" = .ok ms ∧
      lex ("a" ++ "::") = .ok (ls ++ ms.map (Lexeme.shift 1)) ∧
      lex ("a" ++ "\n/**/\n" ++ "::") = .ok (ls ++ ms.map (Lexeme.shift 7)) := by
  obtain ⟨hjoin, hgap⟩ := lex_lineFeed
  constructor
  · exact hjoin _ _ _ _ (by decide +kernel) (by decide +kernel)
  · refine hgap "a" "::" "\n/**/\n" ⟨[⟨.identifier "a", ⟨0, 1⟩⟩], [⟨.mark .doubleColon, ⟨1, 3⟩⟩], ?_, ?_⟩
      (.inr ⟨"/**/", ?_, ?_⟩)
    · decide +kernel
    · decide
    · decide +kernel
    · decide

end GrammarFile
