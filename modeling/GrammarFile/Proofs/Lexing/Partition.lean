import GrammarFile.Proofs.Lexing.Splitting

/-!
# Tokens cover the source

The tokens of a source text lie side by side and fill it (`Tiles`), each stands for the slice of the
source at its span, and spelling them one after the other gives the source back. This is
`tokenize_tiles_source`, which also says that the parser reads just those of them that are no trivia.

A span counts bytes while the lexer goes through characters, so the two are related first: taking and
dropping the bytes of a text takes and drops the text (`takeBytes_append`, `dropBytes_append`).
-/

namespace GrammarFile

/-! ### Bytes and characters -/

/-- The number of bytes of a text. -/
def byteCount (cs : List Char) : Nat :=
  (String.ofList cs).utf8ByteSize

/-- No characters have no bytes. -/
@[simp] theorem byteCount_nil : byteCount [] = 0 := by
  simp [byteCount]

/-- The bytes of a text are those of its parts. -/
theorem byteCount_append (as bs : List Char) : byteCount (as ++ bs) = byteCount as + byteCount bs := by
  simp only [byteCount, String.ofList_append, String.utf8ByteSize_append]

/-- The bytes of a text are those of its first character and of the others. -/
theorem byteCount_cons (c : Char) (cs : List Char) : byteCount (c :: cs) = c.utf8Size + byteCount cs := by
  rw [← List.singleton_append, byteCount_append]
  congr 1
  exact String.utf8ByteSize_singleton

/-- The bytes of a string are those of its characters. -/
theorem byteCount_toList (s : String) : byteCount s.toList = s.utf8ByteSize := by
  rw [byteCount, String.ofList_toList]

/-- Dropping the bytes of a character drops the character. -/
theorem dropBytes_cons (c : Char) (n : Nat) (cs : List Char) :
    dropBytes (c.utf8Size + n) (c :: cs) = dropBytes n cs := by
  obtain ⟨k, hk⟩ := Nat.exists_eq_add_one_of_ne_zero (Nat.pos_iff_ne_zero.mp c.utf8Size_pos)
  have hsum : c.utf8Size + n = (k + n) + 1 := by omega
  rw [hsum, dropBytes, if_neg (by omega)]
  congr 1
  omega

/-- Taking the bytes of a character takes the character. -/
theorem takeBytes_cons (c : Char) (n : Nat) (cs : List Char) :
    takeBytes (c.utf8Size + n) (c :: cs) = (takeBytes n cs).map (c :: ·) := by
  obtain ⟨k, hk⟩ := Nat.exists_eq_add_one_of_ne_zero (Nat.pos_iff_ne_zero.mp c.utf8Size_pos)
  have hsum : c.utf8Size + n = (k + n) + 1 := by omega
  rw [hsum, takeBytes, if_neg (by omega)]
  congr 2
  omega

/-- Dropping the bytes of a text drops the text. -/
theorem dropBytes_append (as bs : List Char) : dropBytes (byteCount as) (as ++ bs) = some bs := by
  induction as with
  | nil => rw [byteCount_nil, List.nil_append, dropBytes]
  | cons a as ih => rw [byteCount_cons, List.cons_append, dropBytes_cons, ih]

/-- Taking the bytes of a text takes the text. -/
theorem takeBytes_append (as bs : List Char) : takeBytes (byteCount as) (as ++ bs) = some as := by
  induction as with
  | nil => rw [byteCount_nil, List.nil_append, takeBytes]
  | cons a as ih => rw [byteCount_cons, List.cons_append, takeBytes_cons, ih, Option.map_some]

/-- The slice at the span of a part of the source is that part. -/
theorem slice?_of_append {source text : String} {before after : List Char}
    (h : source.toList = before ++ (text.toList ++ after)) :
    Span.slice? ⟨byteCount before, byteCount before + text.utf8ByteSize⟩ source = some text := by
  rw [Span.slice?, if_pos (Nat.le_add_right _ _), h, dropBytes_append, Nat.add_sub_cancel_left,
    ← byteCount_toList, Option.bind_some, takeBytes_append, Option.map_some, String.ofList_toList]

/-! ### Tiling -/

/-- Whether lexemes lie side by side from one byte offset to another, none of them empty. -/
def Tiles (start : Nat) : List Lexeme → Nat → Prop
  | [], stop => start = stop
  | l :: rest, stop => l.span.start = start ∧ start < l.span.stop ∧ Tiles l.span.stop rest stop

/-- The characters of a text are those of its tokens, one token after the other. -/
theorem flatMap_text_of_splits {text : List Char} {ts : List Token} (h : Splits text ts) :
    ts.flatMap (·.text.toList) = text := by
  induction h with
  | nil => rfl
  | cons hscan _ ih => rw [List.flatMap_cons, ih, text_append_of_scan hscan]

/-- No token of a text is empty. -/
theorem text_ne_empty_of_splits {text : List Char} {ts : List Token} (h : Splits text ts) :
    ∀ t ∈ ts, t.text ≠ "" := by
  induction h with
  | nil => exact fun _ h => absurd h List.not_mem_nil
  | @cons c cs rest t ts hscan _ ih =>
    intro u hu
    rcases List.mem_cons.mp hu with rfl | hu
    · intro hempty
      have happend := text_append_of_scan hscan
      have hlength := length_lt_of_scan hscan
      rw [hempty, String.toList_empty, List.nil_append] at happend
      exact absurd hlength (by rw [happend]; exact Nat.lt_irrefl _)
    · exact ih u hu

/-- Tokens that are not empty tile the text they spell, when laid side by side. -/
theorem tiles_placeFrom (offset : Nat) (ts : List Token) (hne : ∀ t ∈ ts, t.text ≠ "") :
    Tiles offset (placeFrom offset ts) (offset + byteCount (ts.flatMap (·.text.toList))) := by
  induction ts generalizing offset with
  | nil => rw [placeFrom, Tiles, List.flatMap_nil, byteCount_nil, Nat.add_zero]
  | cons t ts ih =>
    rw [placeFrom, Tiles, List.flatMap_cons, byteCount_append, byteCount_toList, ← Nat.add_assoc]
    refine ⟨rfl, ?_, ih _ fun u hu => hne u (List.mem_cons_of_mem _ hu)⟩
    have hpos : t.text.utf8ByteSize ≠ 0 := by
      rw [Ne, String.utf8ByteSize_eq_zero_iff]
      exact hne t List.mem_cons_self
    show offset < offset + t.text.utf8ByteSize
    omega

/-- A token laid side by side with others stands where its text does. -/
theorem exists_append_of_mem_placeFrom {ts : List Token} {l : Lexeme} (before : List Char)
    (h : l ∈ placeFrom (byteCount before) ts) :
    ∃ inner after, ts.flatMap (·.text.toList) = inner ++ (l.token.text.toList ++ after) ∧
      l.span = ⟨byteCount (before ++ inner),
        byteCount (before ++ inner) + l.token.text.utf8ByteSize⟩ := by
  induction ts generalizing before with
  | nil => exact absurd h List.not_mem_nil
  | cons t ts ih =>
    rw [placeFrom] at h
    rcases List.mem_cons.mp h with rfl | h
    · refine ⟨[], ts.flatMap (·.text.toList), ?_, ?_⟩
      · rw [List.nil_append, List.flatMap_cons]
      · rw [List.append_nil]
    · rw [← byteCount_toList, ← byteCount_append] at h
      obtain ⟨inner, after, htext, hspan⟩ := ih _ h
      refine ⟨t.text.toList ++ inner, after, ?_, ?_⟩
      · rw [List.flatMap_cons, htext, List.append_assoc]
      · rw [hspan, ← List.append_assoc]

/-- Lexemes that lie side by side start at increasing byte offsets. -/
theorem Tiles.pairwise_start {start stop : Nat} {lexemes : List Lexeme} (h : Tiles start lexemes stop) :
    lexemes.Pairwise (·.span.start < ·.span.start) ∧ ∀ l ∈ lexemes, start ≤ l.span.start := by
  induction lexemes generalizing start with
  | nil => exact ⟨.nil, nofun⟩
  | cons l rest ih =>
    obtain ⟨rfl, hlt, hrest⟩ := h
    obtain ⟨hpairwise, hle⟩ := ih hrest
    refine ⟨.cons (fun l' hl' => Nat.lt_of_lt_of_le hlt (hle l' hl')) hpairwise, fun l' hl' => ?_⟩
    rcases List.mem_cons.mp hl' with rfl | hl'
    · exact Nat.le_refl _
    · exact Nat.le_trans (Nat.le_of_lt hlt) (hle l' hl')

/-- The tokens that the parser reads start at increasing byte offsets. -/
theorem pairwise_start_of_lex {source : String} {lexemes : List Lexeme} (h : lex source = .ok lexemes) :
    lexemes.Pairwise (·.span.start < ·.span.start) := by
  obtain ⟨ts, hts, rfl⟩ := lex_eq_ok_iff.mp h
  have htiles := tiles_placeFrom 0 ts (text_ne_empty_of_splits hts)
  exact htiles.pairwise_start.1.filter _

/-- A token of a source stands where its text does. -/
theorem exists_append_of_splits {source : String} {ts : List Token} (h : Splits source.toList ts) :
    ∀ l ∈ placeFrom 0 ts, ∃ before after, source.toList = before ++ (l.token.text.toList ++ after) ∧
      l.span = ⟨byteCount before, byteCount before + l.token.text.utf8ByteSize⟩ := by
  intro l hl
  obtain ⟨inner, after, hsource, hspan⟩ := exists_append_of_mem_placeFrom [] hl
  rw [flatMap_text_of_splits h] at hsource
  exact ⟨inner, after, hsource, hspan⟩

/-- The tokens of a source spell it. -/
theorem spell_of_tokenize {source : String} {lexemes : List Lexeme} (h : tokenize source = .ok lexemes) :
    Token.spell (lexemes.map (·.token)) = source := by
  obtain ⟨ts, hts, rfl⟩ := tokenize_eq_ok_iff.mp h
  apply String.toList_injective
  rw [map_token_placeFrom, Token.spell, String.toList_join, List.flatMap_map]
  exact flatMap_text_of_splits hts

/-- **The tokens of a source partition it.** They lie side by side from its first byte to its last, none
of them empty, each spells the slice of the source at its span, and together they spell the source. The
parser reads those of them that are no trivia, in the same order and with the same spans. -/
theorem tokenize_tiles_source (source : String) (lexemes : List Lexeme)
    (h : tokenize source = .ok lexemes) :
    Tiles 0 lexemes source.utf8ByteSize ∧
    (∀ l ∈ lexemes, l.span.slice? source = some l.token.text) ∧
    Token.spell (lexemes.map (·.token)) = source ∧
    lex source = .ok (lexemes.filter fun l => !l.token.kind.isTrivia) := by
  have hspell := spell_of_tokenize h
  obtain ⟨ts, hts, rfl⟩ := tokenize_eq_ok_iff.mp h
  have htext := flatMap_text_of_splits hts
  refine ⟨?_, ?_, hspell, ?_⟩
  · have htiles := tiles_placeFrom 0 ts (text_ne_empty_of_splits hts)
    rwa [htext, byteCount_toList, Nat.zero_add] at htiles
  · intro l hl
    obtain ⟨before, after, hsource, hspan⟩ := exists_append_of_splits hts l hl
    rw [hspan]
    exact slice?_of_append hsource
  · rw [lex, h]
    rfl

/-- A literal with an escaped delimiter and a comment, both with letters of two bytes, partition their
source. -/
theorem tokenize_tiles_escaped_quote :
    ∃ lexemes, tokenize "a: \"\\\"é\" // ü\n" = .ok lexemes ∧ lexemes.length = 7 ∧
      Tiles 0 lexemes "a: \"\\\"é\" // ü\n".utf8ByteSize ∧
      (∀ l ∈ lexemes, l.span.slice? "a: \"\\\"é\" // ü\n" = some l.token.text) ∧
      Token.spell (lexemes.map (·.token)) = "a: \"\\\"é\" // ü\n" ∧
      lex "a: \"\\\"é\" // ü\n" = .ok (lexemes.filter fun l => !l.token.kind.isTrivia) := by
  have h : tokenize "a: \"\\\"é\" // ü\n" =
      .ok [⟨.identifier "a", ⟨0, 1⟩⟩, ⟨.mark .colon, ⟨1, 2⟩⟩, ⟨.trivia .whitespace " ", ⟨2, 3⟩⟩,
        ⟨.literal .string "\"\\\"é\"", ⟨3, 9⟩⟩, ⟨.trivia .whitespace " ", ⟨9, 10⟩⟩,
        ⟨.trivia .lineComment "// ü", ⟨10, 15⟩⟩, ⟨.trivia .whitespace "\n", ⟨15, 16⟩⟩] := by
    decide +kernel
  exact ⟨_, h, rfl, tokenize_tiles_source _ _ h⟩

end GrammarFile
