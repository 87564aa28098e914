import GrammarFile.Json.Reader
import GrammarFile.Json.Writer
import GrammarFile.Proofs.Text.Digits
import Mathlib.Data.List.Basic

/-!
# Strings and numbers of JSON

What is written for a string or a number is read as that string or number, whatever stands behind
it. A string ends at its quote, since every quote inside of it is escaped (`readString_quote`). A
number ends where no character that could belong to a number follows (`Ends`, `readNumber_write`).
-/

namespace GrammarFile.Json

/-! ### Strings -/

/-- A quote ends a string. -/
theorem readCodes_quote (rest : List Char) : readCodes ('\x22' :: rest) = some ([], rest) := by
  rw [readCodes.eq_def]
  rfl

/-- A character that needs no escape gives its code. -/
theorem readCodes_of_plain {c : Char} (hquote : c ≠ '\x22') (hcontrol : ¬ c.toNat < 0x20)
    (hslash : c ≠ '\\') (rest : List Char) :
    readCodes (c :: rest) = (readCodes rest).map fun (codes, after) => (c.toNat :: codes, after) := by
  rw [readCodes.eq_def]
  exact (if_neg hquote).trans ((if_neg hcontrol).trans (if_pos hslash))

/-- A short escape gives the code that it stands for. -/
theorem readCodes_of_escape {e : Char} {code : Nat} (h : escapeCode? e = some code) (rest : List Char) :
    readCodes ('\\' :: e :: rest) =
      (readCodes rest).map fun (codes, after) => (code :: codes, after) := by
  have hne : e ≠ 'u' := by
    rintro rfl
    cases h
  rw [readCodes, if_neg (by decide), if_neg (by decide), if_neg (by decide), h, Option.bind_some]
  simp [hne]

/-- Four hexadecimal digits give the code that they are. -/
theorem readCodes_of_hex {a b c d : Char} (h : [a, b, c, d].all (Text.isDigitIn 16)) (rest : List Char) :
    readCodes ('\\' :: 'u' :: a :: b :: c :: d :: rest) =
      (readCodes rest).map fun (codes, after) => (Text.numeral 16 [a, b, c, d] :: codes, after) := by
  rw [readCodes, if_neg (by decide), if_neg (by decide), if_neg (by decide)]
  exact if_pos h

/-- A control character is written with four digits. -/
theorem exists_hexPadded_of_control : ∀ n < 0x20, ∃ a b c d, (Text.hexPadded 4 n).toList = [a, b, c, d] ∧
    [a, b, c, d].all (Text.isDigitIn 16) ∧ Text.numeral 16 [a, b, c, d] = n := by
  have hdigits : ∀ n < 0x20, (Text.hexPadded 4 n).toList =
      ['0', '0', Nat.digitChar (n / 16), Nat.digitChar (n % 16)] := by
    decide +kernel
  have hall :
      ∀ n < 0x20, ['0', '0', Nat.digitChar (n / 16), Nat.digitChar (n % 16)].all
        (Text.isDigitIn 16) := by
    decide +kernel
  have hvalue : ∀ n < 0x20,
      Text.numeral 16 ['0', '0', Nat.digitChar (n / 16), Nat.digitChar (n % 16)] = n := by
    decide +kernel
  exact fun n hn => ⟨_, _, _, _, hdigits n hn, hall n hn, hvalue n hn⟩

/-- A character of a string is read as its code. -/
theorem readCodes_escapeChar (c : Char) (rest : List Char) :
    readCodes (escapeChar c ++ rest) =
      (readCodes rest).map fun (codes, after) => (c.toNat :: codes, after) := by
  have hshort : ∀ {d e : Char}, c = d → escapeCode? e = some d.toNat → readCodes (['\\', e] ++ rest) =
      (readCodes rest).map fun (codes, after) => (c.toNat :: codes, after) := by
    rintro d e rfl he
    exact readCodes_of_escape he rest
  unfold escapeChar
  split
  · exact hshort ‹_› (by decide)
  split
  · exact hshort ‹_› (by decide)
  split
  · exact hshort ‹_› (by decide)
  split
  · exact hshort ‹_› (by decide)
  split
  · exact hshort ‹_› (by decide)
  split
  · exact hshort ‹_› (by decide)
  split
  · exact hshort ‹_› (by decide)
  split
  · rename_i hcontrol
    obtain ⟨w, x, y, z, hdigits, hall, hvalue⟩ := exists_hexPadded_of_control c.toNat hcontrol
    rw [hdigits]
    exact (readCodes_of_hex hall rest).trans (by rw [hvalue])
  · exact readCodes_of_plain ‹_› ‹_› ‹_› rest

/-- A string is read up to its quote, code by code. -/
theorem readCodes_flatMap_escapeChar (cs rest : List Char) :
    readCodes (cs.flatMap escapeChar ++ '\x22' :: rest) = some (cs.map Char.toNat, rest) := by
  induction cs with
  | nil => exact readCodes_quote rest
  | cons c cs ih => rw [List.flatMap_cons, List.append_assoc, readCodes_escapeChar, ih, Option.map_some,
      List.map_cons]

/-- The code of a character is no half of a surrogate pair. -/
theorem charsOfCodes_map_toNat (cs : List Char) : charsOfCodes (cs.map Char.toNat) = some cs := by
  induction cs with
  | nil => rfl
  | cons c cs ih =>
    have hvalid : c.toNat < 0xD800 ∨ 0xDFFF < c.toNat := by
      rcases c.valid with h | h
      · exact .inl h
      · exact .inr h.1
    have hhigh : isHighSurrogate c.toNat = false := by
      simp only [isHighSurrogate, Bool.and_eq_false_iff, decide_eq_false_iff_not]
      omega
    have hlow : isLowSurrogate c.toNat = false := by
      simp only [isLowSurrogate, Bool.and_eq_false_iff, decide_eq_false_iff_not]
      omega
    rw [List.map_cons, charsOfCodes.eq_def]
    simp [hhigh, hlow, ih]

/-- **A string that is written in quotes is read as that string**, up to its closing quote. -/
theorem readString_quote (text : String) (rest : List Char) :
    ∃ body, (quote text).toList ++ rest = '\x22' :: body ∧ readString body = some (some text, rest) := by
  refine ⟨text.toList.flatMap escapeChar ++ '\x22' :: rest, by simp [quote], ?_⟩
  simp only [readString, readCodes_flatMap_escapeChar, Option.map_some, charsOfCodes_map_toNat,
    String.ofList_toList]

/-- The text of an unreadable value is read as no string. -/
theorem readString_unreadableText (rest : List Char) :
    ∃ body, unreadableText.toList ++ rest = '\x22' :: body ∧ readString body = some (none, rest) := by
  refine ⟨'\\' :: 'u' :: 'd' :: '8' :: '0' :: '0' :: '\x22' :: rest, rfl, ?_⟩
  rw [readString, readCodes_of_hex (by decide), readCodes_quote]
  rfl

/-! ### Numbers -/

/-- Whether a number ends in front of a text: no digit follows, no point and no exponent. -/
def Ends (rest : List Char) : Prop :=
  ∀ c ∈ rest.head?, ¬ c.isDigit ∧ c ≠ '.' ∧ c ≠ 'e' ∧ c ≠ 'E'

/-- A number may end where the text does. -/
theorem ends_nil : Ends [] := by
  simp [Ends]

/-- A run of digits is read up to the first character that is none. -/
theorem readDigits_append {digits rest : List Char} (hne : digits ≠ [])
    (hdigits : ∀ c ∈ digits, c.isDigit)
    (hrest : ∀ c ∈ rest.head?, ¬ c.isDigit) : readDigits (digits ++ rest) = some (digits, rest) := by
  have htake : rest.takeWhile Char.isDigit = [] := by
    cases rest with
    | nil => rfl
    | cons c rest => exact List.takeWhile_cons_of_neg (hrest c rfl)
  have hdrop : rest.dropWhile Char.isDigit = rest := by
    cases rest with
    | nil => rfl
    | cons c rest => exact List.dropWhile_cons_of_neg (hrest c rfl)
  have hempty : digits.isEmpty = false := by simpa using hne
  rw [readDigits, List.takeWhile_append_of_pos hdigits, List.dropWhile_append_of_pos hdigits,
    htake, hdrop, List.append_nil, hempty]
  rfl

/-- The digits of a number are read as they are, up to what is no digit. -/
theorem readDigits_toDigits (n : Nat) {rest : List Char} (hrest : ∀ c ∈ rest.head?, ¬ c.isDigit) :
    readDigits (Nat.toDigits 10 n ++ rest) = some (Nat.toDigits 10 n, rest) :=
  readDigits_append Nat.toDigits_ne_nil
    (fun _ hc => Nat.isDigit_of_mem_toDigits (by omega) (by omega) hc) hrest

/-- Without a point there are no decimal places. -/
theorem readPlaces_of_ne {rest : List Char} (h : ∀ c ∈ rest.head?, c ≠ '.') :
    readPlaces rest = some (none, rest) := by
  unfold readPlaces
  split
  · exact absurd rfl (h '.' rfl)
  · rfl

/-- Where a number may end there is no exponent. -/
theorem readExponent_of_ends {rest : List Char} (h : Ends rest) :
    readExponent rest = some (none, rest) := by
  cases rest with
  | nil => rfl
  | cons c rest =>
    obtain ⟨-, -, hlower, hupper⟩ := h c rfl
    rw [readExponent, if_neg (by simp [hlower, hupper])]

/-- A number starts with a digit. -/
theorem head?_toDigits_append (n : Nat) (rest : List Char) :
    ∀ c ∈ (Nat.toDigits 10 n ++ rest).head?, c.isDigit := by
  obtain ⟨c, cs, htext⟩ := List.exists_cons_of_ne_nil (Nat.toDigits_ne_nil (n := n) (b := 10))
  have hc : c ∈ Nat.toDigits 10 n := by
    rw [htext]
    exact List.mem_cons_self
  rw [htext]
  rintro d ⟨rfl⟩
  exact Nat.isDigit_of_mem_toDigits (by omega) (by omega) hc

/-- A number has no zero in front of other digits. -/
theorem not_leading_zero (n : Nat) :
    ¬ ((Nat.toDigits 10 n).head? = some '0' ∧ (Nat.toDigits 10 n).length > 1) := by
  rintro ⟨hhead, hlength⟩
  by_cases hn : n = 0
  · subst hn
    exact absurd hlength (by decide)
  · exact Text.head?_toDigits_ne_zero hn hhead

/-- A number that is not negative is written as its digits. -/
theorem toList_toString_ofNat (n : Nat) : (toString (Int.ofNat n)).toList = Nat.toDigits 10 n :=
  Text.toList_toString n

/-- A negative number is written as a minus sign and digits. -/
theorem toList_toString_negSucc (n : Nat) :
    (toString (Int.negSucc n)).toList = '-' :: Nat.toDigits 10 (n + 1) := by
  show ("-" ++ toString (n + 1)).toList = _
  rw [String.toList_append, Text.toList_toString]
  rfl

/-- An exponent that starts with a digit has no sign. -/
theorem readExponentSign_of_isDigit {cs : List Char} (h : ∀ c ∈ cs.head?, c.isDigit) :
    readExponentSign cs = (false, cs) := by
  unfold readExponentSign
  split
  · exact absurd (h '-' rfl) (by decide)
  · exact absurd (h '+' rfl) (by decide)
  · rfl

/-- An exponent is read as it is written. -/
theorem readExponent_toString (exponent : Int) {rest : List Char} (h : Ends rest) :
    readExponent ('e' :: ((toString exponent).toList ++ rest)) = some (some exponent, rest) := by
  have hdigit : ∀ c ∈ rest.head?, ¬ c.isDigit := fun c hc => (h c hc).1
  rw [readExponent, if_pos (.inl rfl)]
  cases exponent with
  | ofNat n =>
    rw [toList_toString_ofNat, readExponentSign_of_isDigit (head?_toDigits_append n rest)]
    simp [readDigits_toDigits n hdigit]
  | negSucc n =>
    rw [toList_toString_negSucc, List.cons_append]
    simp [readExponentSign, readDigits_toDigits (n + 1) hdigit, Int.negSucc_eq]

/-- A whole number after its sign. -/
theorem readUnsigned_toDigits (negative : Bool) (n : Nat) {rest : List Char} (h : Ends rest) :
    readUnsigned negative (Nat.toDigits 10 n ++ rest) =
      some (.ofParts negative (Nat.toDigits 10 n) none none, rest) := by
  rw [readUnsigned, readDigits_toDigits n fun c hc => (h c hc).1, Option.bind_eq_bind, Option.bind_some]
  dsimp only
  rw [if_neg (not_leading_zero n), readPlaces_of_ne fun c hc => (h c hc).2.1, Option.bind_eq_bind,
    Option.bind_some]
  dsimp only
  rw [readExponent_of_ends h]
  rfl

/-- A fraction after its sign. -/
theorem readUnsigned_exponent (negative : Bool) (n : Nat) (exponent : Int) {rest : List Char}
    (h : Ends rest) :
    readUnsigned negative (Nat.toDigits 10 n ++ 'e' :: ((toString exponent).toList ++ rest)) =
      some (.fraction negative n exponent, rest) := by
  rw [readUnsigned,
    readDigits_toDigits n (by rintro c ⟨rfl⟩; decide), Option.bind_eq_bind, Option.bind_some]
  dsimp only
  rw [if_neg (not_leading_zero n), readPlaces_of_ne (by rintro c ⟨rfl⟩; decide), Option.bind_eq_bind,
    Option.bind_some]
  dsimp only
  rw [readExponent_toString exponent h]
  simp [Number.ofParts]

/-- A number that is not negative starts with a digit. -/
theorem readNumber_of_isDigit {cs : List Char} (h : ∀ c ∈ cs.head?, c.isDigit) :
    readNumber cs = readUnsigned false cs := by
  unfold readNumber
  split
  · exact absurd (h '-' rfl) (by decide)
  · rfl

/-- A number starts with a digit or a minus sign. -/
theorem Number.exists_write_cons (n : Number) :
    ∃ c cs, n.write.toList = c :: cs ∧ (c.isDigit ∨ c = '-') := by
  have hdigits : ∀ (n : Nat) (rest : List Char), ∃ c cs, Nat.toDigits 10 n ++ rest = c :: cs ∧
      (c.isDigit ∨ c = '-') := by
    intro n rest
    obtain ⟨c, cs, htext⟩ :=
      List.exists_cons_of_ne_nil (List.append_ne_nil_of_left_ne_nil Nat.toDigits_ne_nil rest)
    exact ⟨c, cs, htext, .inl (head?_toDigits_append n rest c (by rw [htext]; rfl))⟩
  cases n with
  | whole value =>
    rw [write]
    cases value with
    | ofNat n =>
      rw [toList_toString_ofNat]
      simpa using hdigits n []
    | negSucc n => exact ⟨'-', _, toList_toString_negSucc n, .inr rfl⟩
  | fraction negative digits exponent =>
    cases negative with
    | true =>
      exact ⟨'-', Nat.toDigits 10 digits ++ 'e' :: (toString exponent).toList, by simp [write],
        .inr rfl⟩
    | false => simpa [write] using hdigits digits ('e' :: (toString exponent).toList)

/-- **A number that is written is read as that number**, if it ends there. -/
theorem readNumber_write (n : Number) {rest : List Char} (h : Ends rest) :
    readNumber (n.write.toList ++ rest) = some (n, rest) := by
  cases n with
  | whole value =>
    rw [Number.write]
    cases value with
    | ofNat n =>
      rw [toList_toString_ofNat, readNumber_of_isDigit (head?_toDigits_append n rest),
        readUnsigned_toDigits false n h]
      simp [Number.ofParts]
    | negSucc n =>
      rw [toList_toString_negSucc, List.cons_append, readNumber, readUnsigned_toDigits true (n + 1) h]
      simp [Number.ofParts, Int.negSucc_eq]
  | fraction negative digits exponent =>
    have htext : (Number.fraction negative digits exponent).write.toList ++ rest =
        (if negative then ['-'] else []) ++
          (Nat.toDigits 10 digits ++ 'e' :: ((toString exponent).toList ++ rest)) := by
      cases negative <;> simp [Number.write]
    rw [htext]
    cases negative with
    | true => exact readUnsigned_exponent true digits exponent h
    | false =>
      exact (readNumber_of_isDigit (head?_toDigits_append digits _)).trans
        (readUnsigned_exponent false digits exponent h)

end GrammarFile.Json
