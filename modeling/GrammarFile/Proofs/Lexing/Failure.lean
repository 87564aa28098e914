import GrammarFile.Proofs.Lexing.LongestMatch

/-!
# Why a text has no further token

The lexer fails at the first place where `scan` does, and everything in front of that place is read
as it would be if the text ended there. What stands at the place is said apart from scanning
(`LexErrorKind.Explains`): a character at which no rule matches, or the opener of a literal or of a
comment without anything behind it that would close it. A delimiter closes a literal unless it is
escaped, which is to say that an odd number of backslashes stands in front of it (`Escaped`).

`tokenize_failure` puts this together with the span that is to blame and the text that is shown of it.
-/

namespace GrammarFile

/-! ### Escapes -/

/-- Whether a character behind some text is escaped: the backslashes right in front of it are odd in
number. -/
def Escaped (before : List Char) : Prop :=
  (before.reverse.takeWhile (· = '\\')).length % 2 = 1
  deriving Decidable

/-- Nothing is escaped at the start of a text. -/
theorem not_escaped_nil : ¬ Escaped [] := by
  decide

/-- What stands in front of another character than a backslash does not matter. -/
theorem escaped_cons_of_ne {c : Char} (hc : c ≠ '\\') (cs : List Char) :
    Escaped (c :: cs) ↔ Escaped cs := by
  rw [Escaped, Escaped, List.reverse_cons, List.takeWhile_append]
  split
  · rename_i hall
    rw [List.takeWhile_cons_of_neg (by simpa using hc), List.append_nil, hall]
  · rfl

/-- A backslash and the character that it takes along do not matter for those behind them. -/
theorem escaped_pair (c : Char) (cs : List Char) : Escaped ('\\' :: c :: cs) ↔ Escaped cs := by
  rw [Escaped, Escaped, List.reverse_cons, List.reverse_cons, List.append_assoc, List.takeWhile_append]
  split
  · rename_i hall
    by_cases hc : c = '\\'
    · rw [hc, hall, List.length_append]
      simp
    · simp [hall, hc]
  · rfl

/-- The body of a literal does not escape what stands behind it. -/
theorem LiteralBody.not_escaped {d : Char} {body : List Char} (h : LiteralBody d body) :
    ¬ Escaped body := by
  induction h with
  | nil => exact not_escaped_nil
  | escape c _ ih => rwa [escaped_pair]
  | plain hc _ _ ih => rwa [escaped_cons_of_ne hc]

/-- **A literal is not closed just where every delimiter behind its opener is escaped.** -/
theorem closeLiteral_eq_none_iff {d : Char} (hd : d ≠ '\\') {cs : List Char} :
    closeLiteral d cs = none ↔ ∀ before rest, cs = before ++ d :: rest → Escaped before := by
  constructor
  · intro h
    fun_induction closeLiteral d cs with
    | case1 =>
      intro before rest hcs
      exact absurd hcs.symm (List.append_ne_nil_of_right_ne_nil _ (List.cons_ne_nil _ _))
    | case2 =>
      intro before rest hcs
      cases before with
      | nil => exact absurd (List.cons.inj hcs).1.symm hd
      | cons b before =>
        have hnil := (List.cons.inj hcs).2
        exact absurd hnil.symm (List.append_ne_nil_of_right_ne_nil _ (List.cons_ne_nil _ _))
    | case3 next cs ih =>
      intro before rest hcs
      have hmore := ih (Option.map_eq_none_iff.mp h)
      rcases before with _ | ⟨b, _ | ⟨b', before⟩⟩
      · exact absurd (List.cons.inj hcs).1.symm hd
      · obtain ⟨rfl, -⟩ := List.cons.inj hcs
        decide
      · rw [List.cons_append, List.cons_append, List.cons.injEq, List.cons.injEq] at hcs
        obtain ⟨rfl, rfl, htail⟩ := hcs
        rw [escaped_pair]
        exact hmore before rest htail
    | case4 cs _ => cases h
    | case5 c cs hc hdc ih =>
      intro before rest hcs
      have hmore := ih (Option.map_eq_none_iff.mp h)
      cases before with
      | nil => exact absurd (List.cons.inj hcs).1 hdc
      | cons b before =>
        obtain ⟨rfl, htail⟩ := List.cons.inj hcs
        rw [escaped_cons_of_ne hc]
        exact hmore before rest htail
  · intro h
    cases hclose : closeLiteral d cs with
    | none => rfl
    | some found =>
      obtain ⟨closed, rest⟩ := found
      obtain ⟨body, hbody, hclosed, hcs⟩ := exists_body_of_closeLiteral hclose
      refine absurd (h body rest ?_) hbody.not_escaped
      rw [hcs, hclosed, List.append_assoc, List.singleton_append]

/-- **A comment is not closed just where no `*/` stands behind its opener.** -/
theorem closeBlockComment_eq_none_iff {cs : List Char} :
    closeBlockComment cs = none ↔ ¬ ['*', '/'] <:+: cs := by
  constructor
  · intro h
    fun_induction closeBlockComment cs with
    | case1 => decide
    | case2 => cases h
    | case3 c cs hopen ih =>
      rw [List.infix_cons_iff, not_or]
      refine ⟨?_, ih (Option.map_eq_none_iff.mp h)⟩
      rintro ⟨more, hmore⟩
      obtain ⟨hc, hcs⟩ := List.cons.inj hmore
      exact hopen more hc.symm hcs.symm
  · intro h
    cases hclose : closeBlockComment cs with
    | none => rfl
    | some found =>
      obtain ⟨closed, rest⟩ := found
      obtain ⟨body, -, hclosed⟩ := exists_body_of_closeBlockComment hclose
      have hcs : cs = closed ++ rest := append_of_closeBlockComment hclose
      refine absurd ⟨body, rest, ?_⟩ h
      rw [hcs, hclosed]

/-! ### Reasons -/

namespace LexErrorKind

/-- Whether a reason is why no token can be cut off a text: no rule matches at the front of it, and
nothing is opened there, or what is opened there is not closed. -/
def Explains : LexErrorKind → List Char → Prop
  | unexpectedCharacter, text =>
    (∀ t : Token, t.Matches → ¬ t.text.toList <+: text) ∧
      ∀ kind : LiteralKind, text.head? ≠ some kind.delimiter
  | unterminatedLiteral kind, text =>
    ∃ cs, text = kind.delimiter :: cs ∧ (kind = .regex → cs.head? ≠ some '/' ∧ cs.head? ≠ some '*') ∧
      ∀ before rest, cs = before ++ kind.delimiter :: rest → Escaped before
  | unterminatedBlockComment, text => ∃ cs, text = '/' :: '*' :: cs ∧ ¬ ['*', '/'] <:+: cs

end LexErrorKind

/-- Where scanning fails no rule matches. -/
theorem not_isPrefix_of_scan_error {c : Char} {cs : List Char} {reason : LexErrorKind}
    (h : scan c cs = .error reason) {t : Token} (ht : t.Matches) : ¬ t.text.toList <+: c :: cs := by
  rintro ⟨rest, hrest⟩
  obtain ⟨u, more, rest', rfl, hu, hends, htext, -⟩ := ht.extend rest
  have hscan : scan c cs = .ok (u, rest') := by
    refine scan_eq_ok_iff.mpr ⟨hu, hends, ?_⟩
    rw [htext, List.append_assoc, hrest]
  rw [h] at hscan
  cases hscan

/-- A character that delimits no literal is not the delimiter of any kind. -/
theorem LiteralKind.delimiter_ne_of_ofDelimiter? {c : Char} (h : LiteralKind.ofDelimiter? c = none)
    (kind : LiteralKind) : kind.delimiter ≠ c := by
  have hnone := List.find?_eq_none.mp h kind (by cases kind <;> simp)
  simpa using hnone

/-- **Scanning fails for a reason.** -/
theorem explains_of_scan_error {c : Char} {cs : List Char} {reason : LexErrorKind}
    (h : scan c cs = .error reason) : reason.Explains (c :: cs) := by
  have hmatches := fun t ht => @not_isPrefix_of_scan_error c cs reason h t ht
  unfold scan at h
  split at h
  · cases h
  split at h
  · cases h
  split at h
  · cases h
  rename_i hline
  split at h
  · rename_i hstar
    obtain ⟨rfl, hhead⟩ := hstar
    obtain ⟨ds, rfl⟩ := List.head?_eq_some_iff.mp hhead
    split at h
    · cases h
    · rename_i hclose
      cases h
      exact ⟨ds, rfl, closeBlockComment_eq_none_iff.mp hclose⟩
  rename_i hstar
  split at h
  · rename_i kind hkind
    obtain rfl := delimiter_of_ofDelimiter? hkind
    split at h
    · cases h
    · rename_i hclose
      cases h
      have hd : kind.delimiter ≠ '\\' := by cases kind <;> decide
      refine ⟨cs, rfl, ?_, (closeLiteral_eq_none_iff hd).mp hclose⟩
      rintro rfl
      exact ⟨fun hhead => hline ⟨rfl, hhead⟩, fun hhead => hstar ⟨rfl, hhead⟩⟩
  rename_i hkind
  split at h
  · cases h
  · cases h
    refine ⟨hmatches, fun kind hhead => ?_⟩
    exact LiteralKind.delimiter_ne_of_ofDelimiter? hkind kind (Option.some.inj hhead).symm

/-! ### The first failure -/

/-- The lexer counts bytes as the specification does. -/
theorem byteLength_eq_byteCount (cs : List Char) : byteLength cs = byteCount cs := by
  have hfold : ∀ n, cs.foldl (fun n c => n + c.utf8Size) n = n + byteCount cs := by
    induction cs with
    | nil => simp
    | cons c cs ih =>
      intro n
      rw [List.foldl_cons, ih, byteCount_cons, Nat.add_assoc]
  rw [byteLength, hfold, Nat.zero_add]

/-- A lexer that fails has taken tokens off the text that are those of the text in front of the
failure. -/
theorem exists_splits_of_tokenizeFrom_error {offset : Nat} {text : List Char} {reason : LexErrorKind}
    {span : Span} (h : tokenizeFrom offset text = .error (reason, span)) :
    ∃ before ts c cs, text = before ++ c :: cs ∧ Splits before ts ∧ scan c cs = .error reason ∧
      span = reason.blame (offset + byteCount before) (c :: cs) := by
  fun_induction tokenizeFrom offset text with
  | case1 => cases h
  | case2 offset c cs reason' hscan =>
    cases h
    exact ⟨[], [], c, cs, rfl, .nil, hscan, by rw [byteCount_nil, Nat.add_zero]⟩
  | case3 offset c cs t rest hscan stop =>
    rename_i ih
    cases hmore : tokenizeFrom stop rest with
    | ok more => simp [hmore, Except.map] at h
    | error e =>
      rw [hmore, Except.map, Except.error.injEq] at h
      subst h
      obtain ⟨before, ts, d, ds, rfl, hsplits, hfails, hspan⟩ := ih hmore
      refine ⟨t.text.toList ++ before, t :: ts, d, ds, ?_, .cons_of_append hscan hsplits, hfails, ?_⟩
      · rw [List.append_assoc, text_append_of_scan hscan]
      · rw [hspan, byteCount_append, byteCount_toList, ← Nat.add_assoc]

/-- What is to blame is a part of the text from the failure on: one character that is not expected,
or else all of the text. -/
theorem LexErrorKind.exists_blamed (reason : LexErrorKind) (offset : Nat) (c : Char) (cs : List Char) :
    ∃ blamed after, c :: cs = blamed ++ after ∧
      reason.blame offset (c :: cs) = ⟨offset, offset + byteCount blamed⟩ ∧
      if reason = .unexpectedCharacter then blamed.length = 1 else after = [] := by
  cases reason with
  | unexpectedCharacter =>
    refine ⟨[c], cs, rfl, ?_, rfl⟩
    rw [blame, byteLength_eq_byteCount]
    rfl
  | unterminatedLiteral | unterminatedBlockComment =>
    refine ⟨c :: cs, [], (List.append_nil _).symm, ?_, rfl⟩
    rw [blame, byteLength_eq_byteCount]
    exact nofun

/-! ### From the source text -/

/-- A lexical error is one that was found on the way through the characters. -/
theorem exists_of_tokenize_eq_error {source : String} {e : LexError} (h : tokenize source = .error e) :
    ∃ reason span, tokenizeFrom 0 source.toList = .error (reason, span) ∧
      e = .ofSpan reason span source := by
  unfold tokenize at h
  cases hrun : tokenizeFrom 0 source.toList with
  | ok lexemes => simp [hrun, Except.mapError] at h
  | error failure =>
    rw [hrun, Except.mapError, Except.error.injEq] at h
    exact ⟨failure.1, failure.2, rfl, h.symm⟩

/-- **The lexer fails where the source goes wrong.** What stands in front of the failure is read as
tokens. Behind it stands what the reason says: a character at which no rule matches is to blame
alone, and an opener that nothing closes with all that follows it. The text of the span is shown,
but where it is longer than 24 characters it is cut there, with an ellipsis. -/
theorem tokenize_failure (source : String) (e : LexError) (h : tokenize source = .error e) :
    ∃ before blamed after : String, source = before ++ blamed ++ after ∧
      e.span = ⟨before.utf8ByteSize, (before ++ blamed).utf8ByteSize⟩ ∧
      e.span.slice? source = some blamed ∧
      (∃ lexemes, tokenize before = .ok lexemes) ∧
      e.reason.Explains (blamed ++ after).toList ∧
      (if e.reason = .unexpectedCharacter then blamed.length = 1 else after = "") ∧
      (blamed.length ≤ 24 → e.lexeme = blamed) ∧
      (24 < blamed.length → e.lexeme = String.ofList (blamed.toList.take 24) ++ "...") := by
  obtain ⟨reason, span, hrun, rfl⟩ := exists_of_tokenize_eq_error h
  obtain ⟨before, ts, c, cs, htext, hsplits, hscan, hspan⟩ := exists_splits_of_tokenizeFrom_error hrun
  obtain ⟨blamed, after, hrest, hblame, hwhole⟩ := reason.exists_blamed (0 + byteCount before) c cs
  rw [hblame, Nat.zero_add] at hspan
  subst hspan
  have hslice : Span.slice? ⟨byteCount before, byteCount before + byteCount blamed⟩ source =
      some (String.ofList blamed) := by
    have hsource : source.toList = before ++ ((String.ofList blamed).toList ++ after) := by
      rw [htext, hrest, String.toList_ofList]
    exact slice?_of_append hsource
  have hlexeme : (LexError.ofSpan reason ⟨byteCount before, byteCount before + byteCount blamed⟩
      source).lexeme = LexError.shorten (String.ofList blamed) := by
    rw [LexError.ofSpan, hslice, Option.getD_some]
  have hshown : LexError.shownLength = 24 := rfl
  refine ⟨.ofList before, .ofList blamed, .ofList after, ?_, ?_, hslice, ?_, ?_, ?_, ?_, ?_⟩
  · apply String.toList_injective
    simp only [String.toList_append, String.toList_ofList, htext, hrest, List.append_assoc]
  · rw [LexError.ofSpan, ← String.ofList_append]
    exact congrArg _ (byteCount_append before blamed).symm
  · refine ⟨placeFrom 0 ts, tokenize_eq_ok_iff.mpr ⟨ts, ?_, rfl⟩⟩
    rwa [String.toList_ofList]
  · rw [← String.ofList_append, ← hrest, String.toList_ofList]
    exact explains_of_scan_error hscan
  · rw [String.length_ofList]
    split
    · rename_i hreason
      exact (if_pos hreason).mp hwhole
    · rename_i hreason
      rw [(if_neg hreason).mp hwhole, String.ofList_nil]
  · intro hlength
    rw [hlexeme, LexError.shorten, hshown, if_pos hlength]
  · intro hlength
    rw [hlexeme, LexError.shorten, hshown, if_neg (Nat.not_le.mpr hlength)]

/-- A literal with an escaped quote in it and a backslash at its end. -/
def unclosedLiteral : String :=
  "a: 'é\\'s \\\\ too long to be shown \\"

/-- Neither the quote nor the backslash closes the literal, and it is cut where it is shown. -/
theorem tokenize_failure_escaped_quote :
    ∃ e, tokenize unclosedLiteral = .error e ∧
      ∃ before blamed after : String,
        unclosedLiteral = before ++ blamed ++ after ∧
        e.span = ⟨before.utf8ByteSize, (before ++ blamed).utf8ByteSize⟩ ∧
        e.span.slice? unclosedLiteral = some blamed ∧
        (∃ lexemes, tokenize before = .ok lexemes) ∧
        e.reason.Explains (blamed ++ after).toList ∧
        (if e.reason = .unexpectedCharacter then blamed.length = 1 else after = "") ∧
        (blamed.length ≤ 24 → e.lexeme = blamed) ∧
        (24 < blamed.length → e.lexeme = String.ofList (blamed.toList.take 24) ++ "...") := by
  have h : tokenize unclosedLiteral =
      .error ⟨.unterminatedLiteral .rawString, ⟨3, 35⟩, "'é\\'s \\\\ too long to be ..."⟩ := by
    decide +kernel
  exact ⟨_, h, tokenize_failure _ _ h⟩

end GrammarFile
