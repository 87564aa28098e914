import GrammarFile.Token.Lexer
import Mathlib.Data.List.TakeWhile

/-!
# What a scanned token looks like

`scan` cuts a token off a text without losing a character (`text_append_of_scan`), and the text of a
name or a literal is of the shape that its kind asks for (`isLexeme_of_scan`). That shape is said here
without scanning: a name is a run of identifier characters (`IsName`), and a literal is a body between
two delimiters in which every delimiter is escaped (`LiteralBody`, `IsLiteral`).

The converse has a condition on the text that follows: a name ends where no identifier character
follows (`scan_name`), a colon where no colon follows (`scan_mark`), and a literal always
(`scan_literal`).
-/

namespace GrammarFile

/-! ### The shape of names and literals -/

/-- A name: a character that can start an identifier, then characters that can go on with it. -/
def IsName : List Char → Prop
  | [] => False
  | c :: cs => isIdentifierStart c ∧ ∀ d ∈ cs, isIdentifierRest d

/-- The text between two delimiters: pairs of a backslash and any character, and single characters
that are neither a backslash nor the delimiter. -/
inductive LiteralBody (delimiter : Char) : List Char → Prop where
  | nil : LiteralBody delimiter []
  | escape (c : Char) {cs : List Char} :
      LiteralBody delimiter cs → LiteralBody delimiter ('\\' :: c :: cs)
  | plain {c : Char} {cs : List Char} :
      c ≠ '\\' → c ≠ delimiter → LiteralBody delimiter cs → LiteralBody delimiter (c :: cs)

/-- A literal of a kind. Between slashes there is a text that does not start with a star, since `//`
and `/*` open comments. -/
def IsLiteral (kind : LiteralKind) (cs : List Char) : Prop :=
  ∃ body, LiteralBody kind.delimiter body ∧ cs = kind.delimiter :: (body ++ [kind.delimiter]) ∧
    (kind = .regex → body ≠ [] ∧ body.head? ≠ some '*')

/-- Whether the text of a name or a literal is of the shape that its kind asks for. Marks have no text
of their own, and trivia are part of no tree. -/
def Token.IsLexeme : Token → Prop
  | identifier name => IsName name.toList
  | literal kind text => IsLiteral kind text.toList
  | trivia _ _ | mark _ => True

/-! ### Closing a literal -/

/-- A closed literal is a body, the delimiter and what follows it. -/
theorem exists_body_of_closeLiteral {d : Char} {cs closed rest : List Char}
    (h : closeLiteral d cs = some (closed, rest)) :
    ∃ body, LiteralBody d body ∧ closed = body ++ [d] ∧ cs = closed ++ rest := by
  fun_induction closeLiteral d cs generalizing closed rest with
  | case1 | case2 => simp at h
  | case3 next cs ih =>
    obtain ⟨⟨inner, after⟩, hi, he⟩ := Option.map_eq_some_iff.mp h
    obtain ⟨rfl, rfl⟩ := Prod.mk.inj he
    obtain ⟨body, hb, rfl, rfl⟩ := ih hi
    exact ⟨'\\' :: next :: body, .escape next hb, rfl, rfl⟩
  | case4 cs _ =>
    obtain ⟨rfl, rfl⟩ := Prod.mk.inj (Option.some.inj h)
    exact ⟨[], .nil, rfl, rfl⟩
  | case5 c cs hc hd ih =>
    obtain ⟨⟨inner, after⟩, hi, he⟩ := Option.map_eq_some_iff.mp h
    obtain ⟨rfl, rfl⟩ := Prod.mk.inj he
    obtain ⟨body, hb, rfl, rfl⟩ := ih hi
    exact ⟨c :: body, .plain hc hd hb, rfl, rfl⟩

/-- A body closes at the delimiter after it, whatever follows. -/
theorem closeLiteral_of_body {d : Char} (hd : d ≠ '\\') {body : List Char} (hb : LiteralBody d body)
    (rest : List Char) : closeLiteral d (body ++ d :: rest) = some (body ++ [d], rest) := by
  induction hb with
  | nil =>
    rw [List.nil_append, closeLiteral.eq_def]
    simp [hd]
  | escape c _ ih =>
    rw [List.cons_append, List.cons_append, closeLiteral.eq_def]
    simp [ih]
  | plain hc hdc _ ih =>
    rw [List.cons_append, closeLiteral.eq_def]
    simp [hc, hdc, ih]

/-- A closed comment is a part of the text and what follows it. -/
theorem append_of_closeBlockComment {cs closed rest : List Char}
    (h : closeBlockComment cs = some (closed, rest)) : cs = closed ++ rest := by
  fun_induction closeBlockComment cs generalizing closed rest with
  | case1 => simp at h
  | case2 cs =>
    obtain ⟨rfl, rfl⟩ := Prod.mk.inj (Option.some.inj h)
    rfl
  | case3 c cs _ ih =>
    obtain ⟨⟨inner, after⟩, hi, he⟩ := Option.map_eq_some_iff.mp h
    obtain ⟨rfl, rfl⟩ := Prod.mk.inj he
    rw [ih hi]
    rfl

/-! ### A scanned token -/

/-- The delimiter that opens a kind of literal. -/
theorem delimiter_of_ofDelimiter? {c : Char} {kind : LiteralKind}
    (h : LiteralKind.ofDelimiter? c = some kind) : kind.delimiter = c := by
  simpa using List.find?_some h

/-- A mark is written as it is scanned. -/
theorem Mark.scanned_eq_text (m : Mark) : m.scanned = m.text := by
  cases m <;> rfl

/-- Scanning loses no character: the text starts with that of the token, and the rest is left. -/
theorem text_append_of_scan {c : Char} {cs rest : List Char} {t : Token}
    (h : scan c cs = .ok (t, rest)) : t.text.toList ++ rest = c :: cs := by
  unfold scan at h
  split at h
  · cases h
    simp [Token.text, List.takeWhile_append_dropWhile]
  split at h
  · cases h
    simp [Token.text, List.takeWhile_append_dropWhile]
  split at h
  · cases h
    simp [Token.text, List.takeWhile_append_dropWhile]
  split at h
  · rename_i hstar
    obtain ⟨ds, rfl⟩ : ∃ ds, cs = '*' :: ds := by
      cases cs with
      | nil => simp at hstar
      | cons d ds => exact ⟨ds, by simpa using hstar.2⟩
    split at h
    · rename_i body after hb
      cases h
      have happ : ds = body ++ rest := append_of_closeBlockComment hb
      rw [happ]
      simp [Token.text]
    · cases h
  split at h
  · split at h
    · rename_i body after hb
      cases h
      obtain ⟨_, _, _, rfl⟩ := exists_body_of_closeLiteral hb
      simp [Token.text]
    · cases h
  split at h
  · rename_i m hm
    cases h
    have hp : m.scanned.toList <+: c :: cs := by simpa using List.find?_some hm
    obtain ⟨rest, hr⟩ := hp
    rw [← hr, ← String.length_toList, List.drop_left, m.scanned_eq_text]
    rfl
  · cases h

/-- A scanned name or literal has the shape of its kind. -/
theorem isLexeme_of_scan {c : Char} {cs rest : List Char} {t : Token}
    (h : scan c cs = .ok (t, rest)) : t.IsLexeme := by
  unfold scan at h
  split at h
  · cases h; trivial
  split at h
  · rename_i hc
    cases h
    show IsName (String.ofList _).toList
    rw [String.toList_ofList]
    exact ⟨hc, fun d hd => List.mem_takeWhile_imp hd⟩
  split at h
  · cases h; trivial
  split at h
  · split at h
    · cases h; trivial
    · cases h
  split at h
  · rename_i hline hblock _ kind hk
    split at h
    · rename_i closed after hb
      cases h
      obtain ⟨body, hbody, rfl, rfl⟩ := exists_body_of_closeLiteral hb
      obtain rfl := delimiter_of_ofDelimiter? hk
      refine ⟨body, hbody, by simp, ?_⟩
      rintro rfl
      -- a slash directly after the first one would have opened a line comment, a star a block comment
      cases body with
      | nil => exact absurd ⟨rfl, rfl⟩ hline
      | cons d ds => exact ⟨nofun, fun hd => hblock ⟨rfl, hd⟩⟩
    · cases h
  split at h
  · cases h; trivial
  · cases h

/-! ### Scanning a token again -/

/-- Whether a name ends before a text: no identifier character comes next. -/
def EndsName (rest : List Char) : Prop :=
  ∀ c ∈ rest.head?, isIdentifierRest c = false

/-- No character that can start an identifier is blank: they lie between the blanks of ASCII and those
beyond it. -/
theorem isBlank_of_isIdentifierStart {c : Char} (h : isIdentifierStart c) : Text.isBlank c = false := by
  have hc : 0x20 < c.toNat ∧ c.toNat < 0x85 := by
    rcases Bool.or_eq_true_iff.mp h with h | h
    · -- the letters of ASCII, by case
      rcases Bool.or_eq_true_iff.mp h with h | h
      · have hupper : 'A'.val ≤ c.val ∧ c.val ≤ 'Z'.val := of_decide_eq_true h
        exact ⟨Nat.lt_of_lt_of_le (by decide) hupper.1, Nat.lt_of_le_of_lt hupper.2 (by decide)⟩
      · obtain ⟨hleast, hgreatest⟩ := Bool.and_eq_true_iff.mp h
        exact ⟨Nat.lt_of_lt_of_le (by decide) (of_decide_eq_true hleast),
          Nat.lt_of_le_of_lt (of_decide_eq_true hgreatest) (by decide)⟩
    · obtain rfl := of_decide_eq_true h
      decide
  simp only [Text.isBlank, Text.blankIntervals, List.any_cons, List.any_nil, Bool.or_eq_false_iff,
    Bool.and_eq_false_iff, decide_eq_false_iff_not, and_true]
  omega

/-- A run of characters ends where the next one is of another sort. -/
theorem takeWhile_append_of_head {p : Char → Bool} {cs rest : List Char} (hcs : ∀ c ∈ cs, p c)
    (hr : ∀ c ∈ rest.head?, p c = false) :
    (cs ++ rest).takeWhile p = cs ∧ (cs ++ rest).dropWhile p = rest := by
  rw [List.takeWhile_append_of_pos hcs, List.dropWhile_append_of_pos hcs]
  cases rest with
  | nil => simp
  | cons c rest => simp [hr c rfl]

/-- A name is scanned whole where no identifier character follows. -/
theorem scan_name {c : Char} {cs rest : List Char} (hn : IsName (c :: cs)) (hr : EndsName rest) :
    scan c (cs ++ rest) = .ok (.identifier (String.ofList (c :: cs)), rest) := by
  obtain ⟨hc, hcs⟩ := hn
  obtain ⟨htake, hdrop⟩ := takeWhile_append_of_head hcs hr
  unfold scan
  rw [isBlank_of_isIdentifierStart hc, htake, hdrop]
  simp [hc]

/-- A literal is scanned whole, whatever follows. -/
theorem scan_literal {kind : LiteralKind} {c : Char} {cs : List Char} (hl : IsLiteral kind (c :: cs))
    (rest : List Char) :
    scan c (cs ++ rest) = .ok (.literal kind (String.ofList (c :: cs)), rest) := by
  obtain ⟨body, hbody, htext, hregex⟩ := hl
  obtain ⟨rfl, rfl⟩ := List.cons.inj htext
  have hclose := closeLiteral_of_body (by cases kind <;> decide) hbody rest
  have hblank : Text.isBlank kind.delimiter = false := by cases kind <;> decide
  have hstart : isIdentifierStart kind.delimiter = false := by cases kind <;> decide
  have hkind : LiteralKind.ofDelimiter? kind.delimiter = some kind := by cases kind <;> rfl
  have hcomment : ∀ d, d = '/' ∨ d = '*' →
      ¬ (kind.delimiter = '/' ∧ (body ++ kind.delimiter :: rest).head? = some d) := by
    rintro d hd ⟨hslash, hhead⟩
    obtain rfl : kind = .regex := by cases kind <;> first | rfl | exact absurd hslash (by decide)
    obtain ⟨hne, hstar⟩ := hregex rfl
    cases hbody with
    | nil => exact hne rfl
    | escape e _ =>
      obtain rfl := Option.some.inj hhead
      exact absurd hd (by decide)
    | plain _ he _ =>
      obtain rfl := Option.some.inj hhead
      rcases hd with rfl | rfl
      · exact he rfl
      · exact hstar rfl
  unfold scan
  rw [List.append_assoc, List.singleton_append, hblank, hstart, if_neg (by simp), if_neg (by simp),
    if_neg (hcomment '/' (.inl rfl)), if_neg (hcomment '*' (.inr rfl)), hkind]
  simp [hclose]

/-- Of the marks that are tried before the colon, only the double colon starts as it does. -/
theorem find?_colon {rest : List Char} (hr : rest.head? ≠ some ':') :
    (Mark.all.find? fun m => m.scanned.toList.isPrefixOf (':' :: rest)) = some .colon := by
  have hall : Mark.all = Mark.all.take 18 ++
      [.doubleColon, .positiveLookahead, .negativeLookahead, .colon] ++ Mark.all.drop 22 := by decide
  have htake : (Mark.all.take 18).find? (fun m => m.scanned.toList.isPrefixOf (':' :: rest)) = none := rfl
  have hdouble : Mark.doubleColon.scanned.toList.isPrefixOf (':' :: rest) = false := by
    cases rest with
    | nil => rfl
    | cons d rest =>
      have hd : (':' == d) = false := beq_false_of_ne fun h => hr (congrArg some h.symm)
      show ((':' == ':') && ((':' == d) && true)) = false
      rw [hd]
      rfl
  rw [hall, List.find?_append, List.find?_append, htake, Option.none_or, List.find?_cons, hdouble]
  rfl

/-- A colon is scanned as such where no colon follows. -/
theorem scan_colon {rest : List Char} (hr : rest.head? ≠ some ':') :
    scan ':' rest = .ok (.mark .colon, rest) := by
  unfold scan
  rw [find?_colon hr]
  rfl

/-- A mark is scanned whole, whatever follows, except that a colon must not follow a colon. -/
theorem scan_mark (m : Mark) {c : Char} {cs rest : List Char} (hm : m.text.toList = c :: cs)
    (hr : m = .colon → rest.head? ≠ some ':') : scan c (cs ++ rest) = .ok (.mark m, rest) := by
  by_cases hcolon : m = .colon
  · obtain rfl := hcolon
    cases hm
    exact scan_colon (hr rfl)
  · cases m <;> first | exact absurd rfl hcolon | (cases hm; rfl)

end GrammarFile
