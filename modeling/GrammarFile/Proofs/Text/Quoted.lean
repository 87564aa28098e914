import GrammarFile.Proofs.Text.Digits
import GrammarFile.Proofs.Text.Lines
import GrammarFile.Text.Quoted

/-!
# Quoted texts read back

A quoted text is one line (`oneLine_quoted`), and the characters in it can be read off one by one
(`readQuoted`), up to the closing quote. So texts that are the same in quotes are the same
(`quoted_injective`).
-/

namespace GrammarFile.Text

/-! ### Reading a character -/

/-- The character that a short escape stands for. -/
def ofShortEscape? (c : Char) : Option Char :=
  match c with
  | '0' => some '\x00'
  | 't' => some '\t'
  | 'r' => some '\r'
  | 'n' => some '\n'
  | '\x22' => some '\x22'
  | '\\' => some '\\'
  | _ => none

/-- The first character of a quoted text, and what follows. -/
def readQuoted : List Char → Option (Char × List Char)
  | '\\' :: 'u' :: '\x7b' :: rest =>
    some (Char.ofNat (numeral 16 (rest.takeWhile (· ≠ '\x7d'))), (rest.dropWhile (· ≠ '\x7d')).tail)
  | '\\' :: c :: rest => (ofShortEscape? c).map (·, rest)
  | c :: rest => some (c, rest)
  | [] => none

/-- A short escape is read as the character that it stands for. -/
theorem readQuoted_short {c d : Char} (h : ofShortEscape? c = some d) (rest : List Char) :
    readQuoted ('\\' :: c :: rest) = some (d, rest) := by
  have hne : c ≠ 'u' := by
    rintro rfl
    cases h
  rw [readQuoted, h]
  · rfl
  · simp [hne]

/-- A character that is no backslash is read as itself. -/
theorem readQuoted_plain {c : Char} (h : c ≠ '\\') (rest : List Char) :
    readQuoted (c :: rest) = some (c, rest) := by
  rw [readQuoted]
  · simp [h]
  · simp [h]

/-- A hexadecimal number is written with hexadecimal digits. -/
theorem isDigitIn_of_mem_hex {n : Nat} : ∀ c ∈ (hex n).toList, isDigitIn 16 c := by
  rw [hex, String.toList_ofList]
  exact isDigitIn_of_mem_toDigits (by omega) (by omega) n

/-- A code in braces ends at the closing brace, which is no digit. -/
theorem readQuoted_hex (c : Char) (rest : List Char) :
    readQuoted ('\\' :: 'u' :: '\x7b' :: ((hex c.toNat).toList ++ '\x7d' :: rest)) = some (c, rest) := by
  have hdigits : ∀ d ∈ (hex c.toNat).toList, decide (d ≠ '\x7d') := by
    intro d hd
    refine decide_eq_true ?_
    rintro rfl
    exact absurd (isDigitIn_of_mem_hex _ hd) (by decide)
  have hvalue : numeral 16 (hex c.toNat).toList = c.toNat := by
    rw [hex, String.toList_ofList, numeral_toDigits (by omega) (by omega)]
  rw [readQuoted, List.takeWhile_append_of_pos hdigits, List.dropWhile_append_of_pos hdigits]
  simp [hvalue]

/-- A character in quotes is a short escape, a code in braces, or itself. -/
theorem quoteChar_cases (c : Char) :
    (∃ e, quoteChar c = ['\\', e] ∧ ofShortEscape? e = some c) ∨
      quoteChar c = '\\' :: 'u' :: '\x7b' :: ((hex c.toNat).toList ++ ['\x7d']) ∨
      (quoteChar c = [c] ∧ c ∉ ['\r', '\n', '\x22', '\\']) := by
  have hshort : ∀ {d e : Char}, c = d → ofShortEscape? e = some d →
      (∃ e', ['\\', e] = ['\\', e'] ∧ ofShortEscape? e' = some c) := by
    rintro d e rfl he
    exact ⟨e, rfl, he⟩
  unfold quoteChar
  split
  · exact .inl (hshort ‹_› rfl)
  split
  · exact .inl (hshort ‹_› rfl)
  split
  · exact .inl (hshort ‹_› rfl)
  split
  · exact .inl (hshort ‹_› rfl)
  split
  · exact .inl (hshort ‹_› rfl)
  split
  · exact .inl (hshort ‹_› rfl)
  split
  · exact .inr (.inl rfl)
  · exact .inr (.inr ⟨rfl, by simp [*]⟩)

/-- **A character in quotes is read as that character.** -/
theorem readQuoted_quoteChar (c : Char) (rest : List Char) :
    readQuoted (quoteChar c ++ rest) = some (c, rest) := by
  rcases quoteChar_cases c with ⟨e, hquote, he⟩ | hquote | ⟨hquote, hne⟩
  · rw [hquote]
    exact readQuoted_short he rest
  · rw [hquote, List.cons_append, List.cons_append, List.cons_append, List.append_assoc]
    exact readQuoted_hex c rest
  · rw [hquote]
    exact readQuoted_plain (by rintro rfl; exact hne (by simp)) rest

/-! ### Whole texts -/

/-- A character in quotes does not start with the quote that ends the text. -/
theorem quoteChar_ne (c : Char) (rest rest' : List Char) : quoteChar c ++ rest ≠ '\x22' :: rest' := by
  rcases quoteChar_cases c with ⟨e, hquote, -⟩ | hquote | ⟨hquote, hne⟩
  · simp [hquote]
  · simp [hquote]
  · rw [hquote]
    rintro heq
    obtain ⟨rfl, -⟩ := List.cons.inj heq
    exact hne (by simp)

/-- A quoted text tells the text, up to its closing quote. -/
theorem eq_of_flatMap_quoteChar {cs cs' rest rest' : List Char}
    (h : cs.flatMap quoteChar ++ '\x22' :: rest = cs'.flatMap quoteChar ++ '\x22' :: rest') :
    cs = cs' := by
  induction cs generalizing cs' with
  | nil =>
    cases cs' with
    | nil => rfl
    | cons c' cs' =>
      rw [List.flatMap_cons, List.append_assoc] at h
      exact absurd h.symm (quoteChar_ne c' _ _)
  | cons c cs ih =>
    rw [List.flatMap_cons, List.append_assoc] at h
    cases cs' with
    | nil => exact absurd h (quoteChar_ne c _ _)
    | cons c' cs' =>
      rw [List.flatMap_cons, List.append_assoc] at h
      have hread := congrArg readQuoted h
      rw [readQuoted_quoteChar, readQuoted_quoteChar, Option.some.injEq, Prod.mk.injEq] at hread
      obtain ⟨rfl, hrest⟩ := hread
      rw [ih hrest]

/-- In quotes there is neither a line feed nor a carriage return. -/
theorem ne_of_mem_quoteChar (c : Char) : ∀ d ∈ quoteChar c, d ≠ '\n' ∧ d ≠ '\r' := by
  rcases quoteChar_cases c with ⟨e, hquote, he⟩ | hquote | ⟨hquote, hne⟩
  · have hshort : e ≠ '\n' ∧ e ≠ '\r' := by
      constructor <;> (rintro rfl; cases he)
    simp [hquote, hshort]
  · have hhex : ∀ d ∈ (hex c.toNat).toList, d ≠ '\n' ∧ d ≠ '\r' := by
      intro d hd
      have hdigit := isDigitIn_of_mem_hex d hd
      constructor <;> (rintro rfl; exact absurd hdigit (by decide))
    rw [hquote]
    simpa [or_imp, forall_and] using hhex
  · rw [hquote]
    simpa using ⟨fun h => hne (by simp [h]), fun h => hne (by simp [h])⟩

/-- **A quoted text is one line.** -/
theorem oneLine_quoted (text : String) : OneLine (quoted text) := by
  refine .ofAll (p := fun d => d ≠ '\n' ∧ d ≠ '\r') ?_ (by decide) (by decide)
  rw [quoted, String.toList_ofList]
  refine List.forall_mem_cons.mpr ⟨by decide, List.forall_mem_append.mpr ⟨?_, by simp⟩⟩
  intro d hd
  obtain ⟨c, -, hmem⟩ := List.mem_flatMap.mp hd
  exact ne_of_mem_quoteChar c d hmem

end GrammarFile.Text
