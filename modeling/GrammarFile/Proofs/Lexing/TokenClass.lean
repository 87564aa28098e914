import GrammarFile.Proofs.Lexing.Splitting

/-!
# The token rules

Each token rule is a class of texts (`Token.Matches`), said without scanning: white space is a run of
blanks, a line comment two slashes and a text without a line end, a block comment reaches to the first
`*/` after its opener, a literal to the first delimiter that is not escaped, a mark is its spelling.
Two slashes, or a slash and a star, open no regex.

Some tokens could go on with what follows them: a run with another character of its sort, a colon with
a colon. `Token.EndsBefore` says that a token does not. Scanning a text gives just the token that
matches a rule at the front of it and ends before the rest (`scan_eq_ok_iff`), so there is at most one.
-/

namespace GrammarFile

/-! ### Classes of texts -/

/-- A run of blanks. -/
def IsBlankRun (cs : List Char) : Prop :=
  cs ≠ [] ∧ ∀ c ∈ cs, Text.isBlank c

/-- Two slashes, then no character that ends the line. -/
def IsLineComment (cs : List Char) : Prop :=
  ∃ body, (∀ c ∈ body, isLineEnd c = false) ∧ cs = '/' :: '/' :: body

/-- A slash and a star, then a text in which `*/` stands at the very end and nowhere before. -/
def IsBlockComment (cs : List Char) : Prop :=
  ∃ body, ¬ ['*', '/'] <:+: body ++ ['*'] ∧ cs = '/' :: '*' :: (body ++ ['*', '/'])

namespace Token

/-- Whether the text of a token is one that the rule for its kind matches. -/
def Matches : Token → Prop
  | trivia .whitespace text => IsBlankRun text.toList
  | trivia .lineComment text => IsLineComment text.toList
  | trivia .blockComment text => IsBlockComment text.toList
  | identifier name => IsName name.toList
  | literal kind text => IsLiteral kind text.toList
  | mark _ => True

/-- Whether a token ends where `rest` follows it: a run is followed by a character of another sort, a
line comment by the end of the line, a colon by no colon. The other tokens close themselves. -/
def EndsBefore (rest : List Char) : Token → Prop
  | trivia .whitespace _ => ∀ c ∈ rest.head?, Text.isBlank c = false
  | trivia .lineComment _ => ∀ c ∈ rest.head?, isLineEnd c
  | identifier _ => EndsName rest
  | mark .colon => rest.head? ≠ some ':'
  | trivia .blockComment _ | literal _ _ | mark _ => True

/-- A mark may end anywhere, but a single colon not in front of another one. -/
theorem endsBefore_mark {m : Mark} {rest : List Char} :
    EndsBefore rest (.mark m) ↔ (m = .colon → rest.head? ≠ some ':') := by
  cases m <;> simp [EndsBefore]

/-- Every token ends where the text does. -/
theorem endsBefore_nil (t : Token) : t.EndsBefore [] := by
  cases t with
  | trivia kind => cases kind <;> simp [EndsBefore]
  | identifier => simp [EndsBefore, EndsName]
  | literal => trivial
  | mark m => simp [endsBefore_mark]

/-- Whether a token ends before a text depends on the first character of the text only. -/
theorem endsBefore_congr {rest rest' : List Char} (h : rest.head? = rest'.head?) (t : Token) :
    t.EndsBefore rest ↔ t.EndsBefore rest' := by
  cases t with
  | trivia kind => cases kind <;> simp only [EndsBefore, h]
  | identifier => simp only [EndsBefore, EndsName, h]
  | literal => rfl
  | mark m => simp only [endsBefore_mark, h]

/-- No rule matches the empty text. -/
theorem Matches.text_ne_nil {t : Token} (h : t.Matches) : t.text.toList ≠ [] := by
  intro hnil
  cases t with
  | trivia kind text =>
    have htext : text.toList = [] := hnil
    cases kind with
    | whitespace => exact h.1 htext
    | lineComment =>
      obtain ⟨body, -, hbody⟩ := h
      rw [htext] at hbody
      cases hbody
    | blockComment =>
      obtain ⟨body, -, hbody⟩ := h
      rw [htext] at hbody
      cases hbody
  | identifier name =>
    have htext : name.toList = [] := hnil
    exact absurd h (by simp [Matches, htext, IsName])
  | literal kind text =>
    obtain ⟨body, -, hbody, -⟩ := h
    have htext : text.toList = [] := hnil
    rw [htext] at hbody
    cases hbody
  | mark m => cases m <;> cases hnil

end Token

/-! ### Runs and comments -/

/-- The text behind a run of characters does not start with one of them. -/
theorem head?_dropWhile_eq_false {p : Char → Bool} {cs : List Char} :
    ∀ c ∈ (cs.dropWhile p).head?, p c = false := by
  intro c hc
  have h := List.head?_dropWhile_not p cs
  rw [Option.mem_def.mp hc] at h
  exact Bool.eq_false_iff.mpr fun hp => by simp [hp] at h

/-- A text without `*/` closes at the `*/` behind it, whatever follows. -/
theorem closeBlockComment_of_body {body : List Char} (h : ¬ ['*', '/'] <:+: body ++ ['*'])
    (rest : List Char) :
    closeBlockComment (body ++ '*' :: '/' :: rest) = some (body ++ ['*', '/'], rest) := by
  induction body with
  | nil => rfl
  | cons c body ih =>
    rw [List.cons_append, List.infix_cons_iff, not_or] at h
    obtain ⟨hfront, hbody⟩ := h
    have hopen : ∀ ds, c = '*' → body ++ '*' :: '/' :: rest = '/' :: ds → False := by
      rintro ds rfl hds
      cases body with
      | nil => cases hds
      | cons d body =>
        obtain ⟨rfl, -⟩ := List.cons.inj hds
        exact hfront ⟨body ++ ['*'], rfl⟩
    rw [List.cons_append, closeBlockComment.eq_3 _ _ hopen, ih hbody]
    rfl

/-- A closed comment is a text without `*/`, then `*/`. -/
theorem exists_body_of_closeBlockComment {cs closed rest : List Char}
    (h : closeBlockComment cs = some (closed, rest)) :
    ∃ body, ¬ ['*', '/'] <:+: body ++ ['*'] ∧ closed = body ++ ['*', '/'] := by
  fun_induction closeBlockComment cs generalizing closed rest with
  | case1 => simp at h
  | case2 cs =>
    obtain ⟨rfl, rfl⟩ := Prod.mk.inj (Option.some.inj h)
    exact ⟨[], by decide, rfl⟩
  | case3 c cs hopen ih =>
    obtain ⟨⟨inner, after⟩, hi, he⟩ := Option.map_eq_some_iff.mp h
    obtain ⟨rfl, rfl⟩ := Prod.mk.inj he
    obtain ⟨body, hbody, rfl⟩ := ih hi
    refine ⟨c :: body, ?_, rfl⟩
    rw [List.cons_append, List.infix_cons_iff, not_or]
    refine ⟨?_, hbody⟩
    rintro ⟨more, hmore⟩
    -- `*/` at the front would have closed the comment there
    have happ : cs = body ++ ['*', '/'] ++ after := append_of_closeBlockComment hi
    cases body with
    | nil => cases hmore
    | cons d body =>
      obtain ⟨hc, hd⟩ := List.cons.inj hmore
      obtain ⟨hd, -⟩ := List.cons.inj hd
      exact hopen (body ++ ['*', '/'] ++ after) hc.symm (by rw [happ, ← hd]; rfl)

/-- A run of blanks is scanned whole where no blank follows. -/
theorem scan_whitespace {c : Char} {cs rest : List Char} (hb : IsBlankRun (c :: cs))
    (hr : ∀ d ∈ rest.head?, Text.isBlank d = false) :
    scan c (cs ++ rest) = .ok (.trivia .whitespace (String.ofList (c :: cs)), rest) := by
  have hc : Text.isBlank c := hb.2 c List.mem_cons_self
  obtain ⟨htake, hdrop⟩ := takeWhile_append_of_head (fun d hd => hb.2 d (List.mem_cons_of_mem c hd)) hr
  unfold scan
  rw [if_pos hc, htake, hdrop]

/-- A line comment is scanned whole where the line ends behind it. -/
theorem scan_lineComment {c : Char} {cs rest : List Char} (hl : IsLineComment (c :: cs))
    (hr : ∀ d ∈ rest.head?, isLineEnd d) :
    scan c (cs ++ rest) = .ok (.trivia .lineComment (String.ofList (c :: cs)), rest) := by
  obtain ⟨body, hbody, htext⟩ := hl
  obtain ⟨rfl, rfl⟩ := List.cons.inj htext
  have hline : ∀ d ∈ '/' :: body, !isLineEnd d := by
    intro d hd
    rcases List.mem_cons.mp hd with rfl | hd
    · decide
    · rw [hbody d hd]
      rfl
  obtain ⟨htake, hdrop⟩ := takeWhile_append_of_head (p := (!isLineEnd ·)) hline
    (fun d hd => by rw [hr d hd]; rfl)
  have hblank : Text.isBlank '/' = false := by decide
  have hstart : isIdentifierStart '/' = false := by decide
  unfold scan
  rw [hblank, hstart, htake, hdrop, if_neg (by simp), if_neg (by simp), if_pos ⟨rfl, rfl⟩]

/-- A block comment is scanned whole, whatever follows. -/
theorem scan_blockComment {c : Char} {cs : List Char} (hb : IsBlockComment (c :: cs))
    (rest : List Char) :
    scan c (cs ++ rest) = .ok (.trivia .blockComment (String.ofList (c :: cs)), rest) := by
  obtain ⟨body, hbody, htext⟩ := hb
  obtain ⟨rfl, rfl⟩ := List.cons.inj htext
  have hclose := closeBlockComment_of_body hbody rest
  have hblank : Text.isBlank '/' = false := by decide
  have hstart : isIdentifierStart '/' = false := by decide
  have htail : ('*' :: (body ++ ['*', '/']) ++ rest).tail = body ++ '*' :: '/' :: rest := by simp
  unfold scan
  rw [hblank, hstart, htail, hclose, if_neg (by simp), if_neg (by simp), if_neg (by simp),
    if_pos ⟨rfl, rfl⟩]

/-! ### Scanning is matching -/

/-- A scanned token matches the rule for its kind. -/
theorem matches_of_scan {c : Char} {cs rest : List Char} {t : Token}
    (h : scan c cs = .ok (t, rest)) : t.Matches := by
  have hlexeme := isLexeme_of_scan h
  cases t with
  | identifier name => exact hlexeme
  | literal kind text => exact hlexeme
  | mark m => trivial
  | trivia kind text =>
    unfold scan at h
    split at h
    · rename_i hc
      cases h
      show IsBlankRun (String.ofList _).toList
      rw [String.toList_ofList]
      refine ⟨List.cons_ne_nil _ _, fun d hd => ?_⟩
      rcases List.mem_cons.mp hd with rfl | hd
      · exact hc
      · exact List.mem_takeWhile_imp hd
    split at h
    · cases h
    split at h
    · rename_i hline
      obtain ⟨rfl, hhead⟩ := hline
      obtain ⟨ds, rfl⟩ : ∃ ds, cs = '/' :: ds := List.head?_eq_some_iff.mp hhead
      cases h
      refine ⟨ds.takeWhile (!isLineEnd ·), fun d hd => ?_, ?_⟩
      · simpa using List.mem_takeWhile_imp hd
      · rw [String.toList_ofList]
        rfl
    split at h
    · rename_i hstar
      obtain ⟨rfl, -⟩ := hstar
      split at h
      · rename_i body after hb
        cases h
        obtain ⟨inner, hinner, rfl⟩ := exists_body_of_closeBlockComment hb
        exact ⟨inner, hinner, by rw [String.toList_ofList]⟩
      · cases h
    split at h
    · split at h <;> cases h
    · split at h <;> cases h

/-- A scanned token ends before what scanning leaves. -/
theorem endsBefore_of_scan {c : Char} {cs rest : List Char} {t : Token}
    (h : scan c cs = .ok (t, rest)) : t.EndsBefore rest := by
  have htext := text_append_of_scan h
  have hscan := h
  unfold scan at h
  split at h
  · cases h
    exact head?_dropWhile_eq_false
  split at h
  · cases h
    exact head?_dropWhile_eq_false
  split at h
  · cases h
    intro d hd
    simpa using head?_dropWhile_eq_false d hd
  split at h
  · split at h
    · cases h; trivial
    · cases h
  split at h
  · split at h
    · cases h; trivial
    · cases h
  split at h
  · rename_i m hm
    cases h
    rw [Token.endsBefore_mark]
    rintro rfl hcolon
    -- two colons would have been scanned together
    obtain ⟨ds, hds⟩ := List.head?_eq_some_iff.mp hcolon
    rw [hds] at htext
    obtain ⟨rfl, rfl⟩ : ':' = c ∧ ':' :: ds = cs := List.cons.inj htext
    have hdouble : scan ':' (':' :: ds) = .ok (.mark .doubleColon, ds) :=
      scan_mark .doubleColon rfl nofun
    rw [hdouble] at hscan
    cases hscan
  · cases h

/-- A text that a rule matches is scanned whole, where the token ends before what follows. -/
theorem scan_of_matches {t : Token} (ht : t.Matches) {rest : List Char} (hr : t.EndsBefore rest)
    {c : Char} {cs : List Char} (htext : t.text.toList = c :: cs) :
    scan c (cs ++ rest) = .ok (t, rest) := by
  have hof : ∀ s : String, s.toList = c :: cs → String.ofList (c :: cs) = s := fun s hs => by
    rw [← hs, String.ofList_toList]
  cases t with
  | trivia kind text =>
    rw [← hof text htext]
    cases kind with
    | whitespace => exact scan_whitespace (htext ▸ ht) hr
    | lineComment => exact scan_lineComment (htext ▸ ht) hr
    | blockComment => exact scan_blockComment (htext ▸ ht) rest
  | identifier name =>
    rw [← hof name htext]
    exact scan_name (htext ▸ ht) hr
  | literal kind text =>
    rw [← hof text htext]
    exact scan_literal (htext ▸ ht) rest
  | mark m => exact scan_mark m htext (Token.endsBefore_mark.mp hr)

/-- **Scanning gives the one token that matches a rule at the front of the text and ends before the
rest.** -/
theorem scan_eq_ok_iff {c : Char} {cs rest : List Char} {t : Token} :
    scan c cs = .ok (t, rest) ↔
      t.Matches ∧ t.EndsBefore rest ∧ t.text.toList ++ rest = c :: cs := by
  constructor
  · exact fun h => ⟨matches_of_scan h, endsBefore_of_scan h, text_append_of_scan h⟩
  · rintro ⟨ht, hr, htext⟩
    obtain ⟨d, ds, hds⟩ := List.exists_cons_of_ne_nil ht.text_ne_nil
    rw [hds] at htext
    obtain ⟨rfl, rfl⟩ := List.cons.inj htext
    exact scan_of_matches ht hr hds

/-- A token is scanned in the same way where the text ends somewhere behind it. -/
theorem Splits.cons_of_append {c : Char} {cs before after : List Char} {t : Token} {ts : List Token}
    (hscan : scan c cs = .ok (t, before ++ after)) (h : Splits before ts) :
    Splits (t.text.toList ++ before) (t :: ts) := by
  obtain ⟨hmatches, hends, -⟩ := scan_eq_ok_iff.mp hscan
  have hshort : t.EndsBefore before := by
    cases before with
    | nil => exact t.endsBefore_nil
    | cons d ds => exact (Token.endsBefore_congr rfl t).mp hends
  obtain ⟨d, ds, hd⟩ := List.exists_cons_of_ne_nil hmatches.text_ne_nil
  rw [hd]
  exact .cons (scan_of_matches hmatches hshort hd) h

end GrammarFile
