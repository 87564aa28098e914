import GrammarFile.Proofs.Lexing.TokenClass
import GrammarFile.Proofs.Locations.SourceLines
import GrammarFile.Proofs.RoundTrip
import GrammarFile.Proofs.Text.Escapes

/-!
# Where a literal ends

A literal may end at a delimiter if nothing is pending in the text from its opener up to there, where a
backslash takes the next character along (`ClosesBehind`). The lexer ends it at the first such place: its
body is the shortest of these texts (`IsShortestBody`). The body is then just a text between delimiters in
the sense of `LiteralBody`, so this holds of each literal that is scanned (`scan_eq_literal_iff`).

In a parsed file the text between the delimiters is the content of the literal, and it can be cut
out by bytes, since both delimiters are single bytes (`Literal.slicedContent?_of_text`). The
delimiter occurs in it only where a backslash takes it along (`literal_reads_shortest_body`).
-/

namespace GrammarFile

open EscapeUnit (unitsOf unitsOf_pair unitsOf_single unitsOf_append exists_append_of_single_mem)

/-! ### Places to close a literal -/

/-- Whether a literal could be closed behind the front of a text: nothing is pending there, and the
delimiter comes next. -/
structure ClosesBehind (d : Char) (text front : List Char) : Prop where
  settled : .pending ∉ unitsOf front
  followed : front ++ [d] <+: text

/-- Whether the front of a text is the shortest one behind which a literal could be closed. -/
structure IsShortestBody (d : Char) (text body : List Char) : Prop where
  closes : ClosesBehind d text body
  shortest : ∀ front, ClosesBehind d text front → body.length ≤ front.length

section

variable {d : Char} {text body rest : List Char}

/-- A text between delimiters, said by its units. -/
theorem literalBody_iff : LiteralBody d body ↔ .pending ∉ unitsOf body ∧ .single d ∉ unitsOf body := by
  constructor
  · intro h
    induction h with
    | nil => simp
    | escape c _ ih => simpa using ih
    | plain hc hd _ ih =>
      rw [unitsOf_single hc]
      simpa [Ne.symm hd] using ih
  · intro h
    fun_induction unitsOf body with
    | case1 => exact .nil
    | case2 => exact absurd List.mem_cons_self h.1
    | case3 next rest ih => exact .escape next (ih (by simpa using h))
    | case4 c rest hc ih =>
      have hsplit : c ≠ d ∧ .pending ∉ unitsOf rest ∧ .single d ∉ unitsOf rest := by
        simpa [and_left_comm, eq_comm] using h
      exact .plain hc hsplit.1 (ih hsplit.2)

/-- A text between delimiters does not start with one. -/
theorem LiteralBody.head?_ne (hd : d ≠ '\\') (h : LiteralBody d body) : body.head? ≠ some d := by
  cases h with
  | nil => simp
  | escape => simpa using Ne.symm hd
  | plain _ hc => simpa using hc

/-- Between the delimiters, the delimiter is taken along by a backslash wherever it occurs. -/
theorem LiteralBody.eq_pair (hd : d ≠ '\\') (h : LiteralBody d body) :
    ∀ u ∈ unitsOf body, d ∈ u.text → u = .pair d := by
  obtain ⟨hpending, hsingle⟩ := literalBody_iff.mp h
  intro u hu hmem
  cases u with
  | single c =>
    obtain rfl := List.mem_singleton.mp hmem
    exact absurd hu hsingle
  | pair c =>
    have hc : d = c := by simpa [EscapeUnit.text, hd] using hmem
    rw [hc]
  | pending => exact absurd hu hpending

/-- **The body of a literal is the shortest front of the text that could be one.** -/
theorem isShortestBody_iff (hd : d ≠ '\\') :
    IsShortestBody d text body ↔ LiteralBody d body ∧ body ++ [d] <+: text := by
  rw [literalBody_iff]
  constructor
  · rintro ⟨⟨hsettled, hfollowed⟩, hshortest⟩
    refine ⟨⟨hsettled, fun hsingle => ?_⟩, hfollowed⟩
    -- a delimiter that is read for itself would close a shorter literal
    obtain ⟨before, after, rfl, hbefore⟩ := exists_append_of_single_mem hsingle
    have hcloses : ClosesBehind d text before := by
      refine ⟨hbefore, List.IsPrefix.trans ⟨after ++ [d], ?_⟩ hfollowed⟩
      simp
    have hle := hshortest before hcloses
    rw [List.length_append, List.length_cons] at hle
    omega
  · rintro ⟨⟨hsettled, hsingle⟩, hfollowed⟩
    refine ⟨⟨hsettled, hfollowed⟩, fun front hfront => ?_⟩
    by_contra hlt
    have hprefix : front ++ [d] <+: body := by
      refine List.prefix_of_prefix_length_le hfront.followed
        ((List.prefix_append body [d]).trans hfollowed) ?_
      rw [List.length_append, List.length_singleton]
      omega
    obtain ⟨after, rfl⟩ := hprefix
    rw [List.append_assoc, unitsOf_append hfront.settled, List.singleton_append,
      unitsOf_single hd] at hsingle
    exact hsingle (List.mem_append_right _ List.mem_cons_self)

/-- A text between delimiters is the shortest one that the second of them can close. -/
theorem LiteralBody.isShortestBody (hd : d ≠ '\\') (h : LiteralBody d body) (rest : List Char) :
    IsShortestBody d (body ++ d :: rest) body :=
  (isShortestBody_iff hd).mpr ⟨h, rest, by simp⟩

/-- A regex between slashes starts neither with a slash nor with a star, whatever stands behind it. -/
theorem LiteralBody.regex_opens_iff (h : LiteralBody '/' body) (rest : List Char) :
    (body ≠ [] ∧ body.head? ≠ some '*') ↔
      (body ++ '/' :: rest).head? ≠ some '/' ∧ (body ++ '/' :: rest).head? ≠ some '*' := by
  have hslash := h.head?_ne (by decide)
  cases body with
  | nil => simp
  | cons c cs => simpa using fun _ => hslash

end

/-! ### Scanning a literal -/

/-- No delimiter is a backslash. -/
theorem LiteralKind.delimiter_ne_backslash (kind : LiteralKind) : kind.delimiter ≠ '\\' := by
  cases kind <;> decide

/-- Only regular expressions are delimited by slashes. -/
theorem LiteralKind.delimiter_eq_slash_iff (kind : LiteralKind) :
    kind.delimiter = '/' ↔ kind = .regex := by
  cases kind <;> decide

/-- **A literal is scanned up to the first place where it can be closed.** Two slashes, and a slash and a
star, open comments. -/
theorem scan_eq_literal_iff {c : Char} {text body rest : List Char} {kind : LiteralKind} :
    scan c text = .ok (.literal kind (String.ofList (c :: (body ++ [c]))), rest) ↔
      kind.delimiter = c ∧ text = body ++ c :: rest ∧ IsShortestBody c text body ∧
        (c = '/' → text.head? ≠ some '/' ∧ text.head? ≠ some '*') := by
  rw [scan_eq_ok_iff]
  constructor
  · rintro ⟨⟨inner, hinner, hlexeme, hregex⟩, -, hspelled⟩
    rw [String.toList_ofList] at hlexeme
    obtain ⟨rfl, hbody⟩ := List.cons.inj hlexeme
    obtain rfl := List.append_cancel_right hbody
    have htext : text = body ++ kind.delimiter :: rest := by
      simpa [Token.text] using hspelled.symm
    refine ⟨rfl, htext, ?_, fun hslash => ?_⟩
    · rw [htext]
      exact hinner.isShortestBody kind.delimiter_ne_backslash rest
    · rw [hslash] at htext hinner
      rw [htext]
      exact (hinner.regex_opens_iff rest).mp (hregex (kind.delimiter_eq_slash_iff.mp hslash))
  · rintro ⟨rfl, htext, hshortest, hslash⟩
    obtain ⟨hbody, -⟩ := (isShortestBody_iff kind.delimiter_ne_backslash).mp hshortest
    refine ⟨⟨body, hbody, by rw [String.toList_ofList], fun hkind => ?_⟩, trivial, ?_⟩
    · have heq := kind.delimiter_eq_slash_iff.mpr hkind
      rw [htext, heq] at hslash
      rw [heq] at hbody
      exact (hbody.regex_opens_iff rest).mpr (hslash rfl)
    · rw [htext]
      simp [Token.text]

/-! ### The content of a literal -/

/-- The content of a literal as a slice of its text by bytes, from the second to the last but one,
or nothing where that would cut a character. -/
def Literal.slicedContent? (l : Literal) : Option String :=
  if 2 ≤ l.text.utf8ByteSize then Span.slice? ⟨1, l.text.utf8ByteSize - 1⟩ l.text else some ""

/-- Every delimiter is a single byte. -/
theorem LiteralKind.byteCount_delimiter (kind : LiteralKind) : byteCount [kind.delimiter] = 1 := by
  cases kind <;> decide

/-- The content of a literal is its body. -/
theorem Literal.content_of_text {l : Literal} {body : List Char} {c d : Char}
    (h : l.text.toList = c :: (body ++ [d])) : l.content = String.ofList body := by
  rw [content, h, List.drop_succ_cons, List.drop_zero, List.dropLast_concat]

/-- **Slicing by bytes gives the content**, and no character is cut. -/
theorem Literal.slicedContent?_of_text {l : Literal} {body : List Char}
    (h : l.text.toList = l.kind.delimiter :: (body ++ [l.kind.delimiter])) :
    l.slicedContent? = some l.content := by
  have hsize : l.text.utf8ByteSize = 1 + (String.ofList body).utf8ByteSize + 1 := by
    rw [← byteCount_toList, h, ← List.singleton_append, byteCount_append, byteCount_append,
      l.kind.byteCount_delimiter]
    rfl
  have happend :
      l.text.toList =
        [l.kind.delimiter] ++ ((String.ofList body).toList ++ [l.kind.delimiter]) := by
    rw [h, String.toList_ofList]
    rfl
  have hslice := slice?_of_append happend
  rw [l.kind.byteCount_delimiter] at hslice
  rw [slicedContent?, if_pos (by omega), hsize, Nat.add_sub_cancel, hslice, content_of_text h]

/-! ### Literals of a parsed file -/

/-- **A literal reaches to the first place where it can be closed.** A delimiter and the front of a
text behind it are scanned as one literal just where its body is the shortest front in which no
backslash is pending and behind which the delimiter comes next, and where it opens no comment. So
each literal of a parsed file stands in the source with such a body between its delimiters. The body
is its content, slicing by bytes cuts it out, and the delimiter occurs in it only as the second
character of a pair that a backslash opens. -/
theorem literal_reads_shortest_body :
    (∀ (c : Char) (text body rest : List Char) (kind : LiteralKind),
      scan c text = .ok (.literal kind (String.ofList (c :: (body ++ [c]))), rest) ↔
        kind.delimiter = c ∧ text = body ++ c :: rest ∧ IsShortestBody c text body ∧
          (c = '/' → text.head? ≠ some '/' ∧ text.head? ≠ some '*')) ∧
    ∀ (source : String) (options : ParserOptions) (g : Grammar), parse source options = .ok g →
      ∀ l : Literal, l.token ∈ g.tokens →
        ∃ before body after : List Char,
          source.toList = before ++ l.kind.delimiter :: (body ++ l.kind.delimiter :: after) ∧
          IsShortestBody l.kind.delimiter (body ++ l.kind.delimiter :: after) body ∧
          l.text = String.ofList (l.kind.delimiter :: (body ++ [l.kind.delimiter])) ∧
          l.content = String.ofList body ∧ l.slicedContent? = some (String.ofList body) ∧
          ∀ u ∈ unitsOf body, l.kind.delimiter ∈ u.text → u = .pair l.kind.delimiter := by
  refine ⟨fun _ _ _ _ _ => scan_eq_literal_iff, fun source options g h l hl => ?_⟩
  obtain ⟨lexemes, hlex, htokens⟩ := tokens_eq_of_parse h
  obtain ⟨body, hbody, htext, -⟩ : IsLiteral l.kind l.text.toList := isLexeme_of_parse h l.token hl
  have hd := l.kind.delimiter_ne_backslash
  rw [htokens] at hl
  obtain ⟨u, hu, hutoken⟩ := List.mem_map.mp hl
  obtain ⟨before, after, hsource, -⟩ := exists_append_of_lex hlex u hu
  have hspelled : u.token.text.toList = l.text.toList := by rw [hutoken]; rfl
  have hcontent := Literal.content_of_text htext
  refine ⟨before, body, after, ?_, hbody.isShortestBody hd after, ?_, hcontent, ?_, hbody.eq_pair hd⟩
  · rw [hsource, hspelled, htext]
    simp
  · rw [← htext, String.ofList_toList]
  · rw [Literal.slicedContent?_of_text htext, hcontent]

/-- A regex with a character of two bytes, an escaped slash and an escaped backslash right before
its end. -/
theorem literal_reads_shortest_body_backslashes :
    ∃ g, parse "%start s %% s: /é\\/\\\\/ 'it\\'s';" .default = .ok g ∧
      ∃ l : Literal, l.token ∈ g.tokens ∧ l.text = "/é\\/\\\\/" ∧
        ∃ before body after : List Char,
          "%start s %% s: /é\\/\\\\/ 'it\\'s';".toList =
            before ++ l.kind.delimiter :: (body ++ l.kind.delimiter :: after) ∧
          IsShortestBody l.kind.delimiter (body ++ l.kind.delimiter :: after) body ∧
          l.text = String.ofList (l.kind.delimiter :: (body ++ [l.kind.delimiter])) ∧
          l.content = String.ofList body ∧ l.slicedContent? = some (String.ofList body) ∧
          ∀ u ∈ unitsOf body, l.kind.delimiter ∈ u.text → u = .pair l.kind.delimiter := by
  have hok : (parse "%start s %% s: /é\\/\\\\/ 'it\\'s';" .default).isOk := by
    decide +kernel
  have hfound : (parse "%start s %% s: /é\\/\\\\/ 'it\\'s';" .default).map
      (fun g => decide (Token.literal .regex "/é\\/\\\\/" ∈ g.tokens)) = .ok true := by
    decide +kernel
  obtain ⟨g, hg⟩ := exists_parse_of_isOk hok
  rw [hg] at hfound
  have hmem : Token.literal .regex "/é\\/\\\\/" ∈ g.tokens := of_decide_eq_true (Except.ok.inj hfound)
  exact ⟨g, hg, ⟨.regex, "/é\\/\\\\/", default⟩, hmem, rfl,
    literal_reads_shortest_body.2 _ _ g hg ⟨.regex, "/é\\/\\\\/", default⟩ hmem⟩

end GrammarFile
