import GrammarFile.Proofs.Lexing.Partition
import GrammarFile.Proofs.Lexing.TokenClass

/-!
# Longest match

A source is read as tokens that spell it one after the other, each the longest that any rule matches at
its start (`MaximalMunch`). `tokenize_eq_ok_iff_maximalMunch` says that the lexer gives this and nothing
else, that a source has at most one such reading, and where a token is the longest match: where it does
not go on with the text behind it (`Token.EndsBefore`).

That a token which ends before the rest is the longest match is the uniqueness of `scan_eq_ok_iff`: a
longer match would itself go on to a token that ends before its rest (`Token.Matches.extend`), and
scanning cannot give both.
-/

namespace GrammarFile

/-- Whether a token matches a rule at the front of a text, and no rule matches more there. -/
structure LongestAt (text : List Char) (t : Token) : Prop where
  rule_matches : t.Matches
  isPrefix : t.text.toList <+: text
  length_le : ∀ u : Token, u.Matches → u.text.toList <+: text → u.text.length ≤ t.text.length

/-- Whether tokens spell a text one after the other, each of them the longest match at its start. -/
structure MaximalMunch (text : List Char) (ts : List Token) : Prop where
  spells : ts.flatMap (·.text.toList) = text
  longest : ∀ us t vs, ts = us ++ t :: vs → LongestAt ((t :: vs).flatMap (·.text.toList)) t

/-! ### Longest matches -/

/-- A matching run goes on to a token that ends before the rest: it takes the further characters of its
sort along, and of the other tokens only a colon grows. Where nothing is taken along, the token stays
the same. -/
theorem Token.Matches.extend {u : Token} (hu : u.Matches) (rest : List Char) :
    ∃ t more rest', rest = more ++ rest' ∧ t.Matches ∧ t.EndsBefore rest' ∧
      t.text.toList = u.text.toList ++ more ∧ (more = [] → t = u) := by
  have hmore : ∀ p : Char → Bool, rest = rest.takeWhile p ++ rest.dropWhile p := fun p =>
    List.takeWhile_append_dropWhile.symm
  have hof : ∀ (s : String) (p : Char → Bool), rest.takeWhile p = [] →
      String.ofList (s.toList ++ rest.takeWhile p) = s := fun s p h => by
    rw [h, List.append_nil, String.ofList_toList]
  cases u with
  | trivia kind s =>
    cases kind with
    | whitespace =>
      refine ⟨.trivia .whitespace (String.ofList (s.toList ++ rest.takeWhile Text.isBlank)), _, _,
        hmore Text.isBlank, ?_, head?_dropWhile_eq_false, String.toList_ofList,
        fun h => by rw [hof s _ h]⟩
      show IsBlankRun (String.ofList _).toList
      rw [String.toList_ofList]
      refine ⟨by simp [hu.1], fun c hc => ?_⟩
      rcases List.mem_append.mp hc with hc | hc
      · exact hu.2 c hc
      · exact List.mem_takeWhile_imp hc
    | lineComment =>
      obtain ⟨body, hbody, hs⟩ := hu
      refine ⟨.trivia .lineComment (String.ofList (s.toList ++ rest.takeWhile (!isLineEnd ·))), _, _,
        hmore (!isLineEnd ·), ⟨body ++ rest.takeWhile (!isLineEnd ·), fun c hc => ?_, ?_⟩,
        fun c hc => by simpa using head?_dropWhile_eq_false c hc, String.toList_ofList,
        fun h => by rw [hof s _ h]⟩
      · rcases List.mem_append.mp hc with hc | hc
        · exact hbody c hc
        · simpa using List.mem_takeWhile_imp hc
      · rw [String.toList_ofList, hs]
        rfl
    | blockComment => exact ⟨_, [], rest, rfl, hu, trivial, (List.append_nil _).symm, fun _ => rfl⟩
  | identifier s =>
    refine ⟨.identifier (String.ofList (s.toList ++ rest.takeWhile isIdentifierRest)), _, _,
      hmore isIdentifierRest, ?_, head?_dropWhile_eq_false, String.toList_ofList,
      fun h => by rw [hof s _ h]⟩
    show IsName (String.ofList _).toList
    rw [String.toList_ofList]
    have hs : IsName s.toList := hu
    cases hcs : s.toList with
    | nil => simp [hcs, IsName] at hs
    | cons c cs =>
      rw [hcs] at hs
      refine ⟨hs.1, fun d hd => ?_⟩
      rcases List.mem_append.mp hd with hd | hd
      · exact hs.2 d hd
      · exact List.mem_takeWhile_imp hd
  | literal kind s => exact ⟨_, [], rest, rfl, hu, trivial, (List.append_nil _).symm, fun _ => rfl⟩
  | mark m =>
    by_cases hends : EndsBefore rest (.mark m)
    · exact ⟨_, [], rest, rfl, hu, hends, (List.append_nil _).symm, fun _ => rfl⟩
    · simp only [endsBefore_mark, Classical.not_imp, ne_eq, not_not] at hends
      obtain ⟨rfl, hcolon⟩ := hends
      obtain ⟨rest', rfl⟩ := List.head?_eq_some_iff.mp hcolon
      refine ⟨.mark .doubleColon, [':'], rest', rfl, trivial, trivial, rfl, ?_⟩
      intro hnil
      exact absurd hnil (List.cons_ne_nil _ _)

/-- **A matching token is the longest match where it ends before the rest.** -/
theorem longestAt_iff (t : Token) (rest : List Char) :
    LongestAt (t.text.toList ++ rest) t ↔ t.Matches ∧ t.EndsBefore rest := by
  constructor
  · intro h
    obtain ⟨u, more, rest', rfl, hu, hends, htext, hsame⟩ := h.rule_matches.extend rest
    have hle : u.text.length ≤ t.text.length :=
      h.length_le u hu ⟨rest', by rw [htext, List.append_assoc]⟩
    have hlength : u.text.length = t.text.length + more.length := by
      rw [← String.length_toList, htext, List.length_append, String.length_toList]
    obtain rfl : more = [] := List.eq_nil_of_length_eq_zero (by omega)
    obtain rfl := hsame rfl
    exact ⟨hu, hends⟩
  · rintro ⟨ht, hends⟩
    refine ⟨ht, List.prefix_append _ _, fun u hu hprefix => Nat.le_of_not_lt fun hlt => ?_⟩
    have hshort : t.text.toList <+: u.text.toList :=
      List.prefix_of_prefix_length_le (List.prefix_append _ rest) hprefix
        (by rw [String.length_toList, String.length_toList]; omega)
    -- the longer match goes on to a token that ends before its rest, so scanning gives two tokens
    obtain ⟨after, hafter⟩ := hprefix
    obtain ⟨v, more, rest', rfl, hv, hvends, hvtext, -⟩ := hu.extend after
    obtain ⟨c, cs, hcs⟩ := List.exists_cons_of_ne_nil ht.text_ne_nil
    have hfirst : scan c (cs ++ rest) = .ok (t, rest) := scan_of_matches ht hends hcs
    have hsecond : scan c (cs ++ rest) = .ok (v, rest') := by
      refine scan_eq_ok_iff.mpr ⟨hv, hvends, ?_⟩
      rw [hvtext, List.append_assoc, hafter, hcs]
      rfl
    obtain ⟨rfl, -⟩ := Prod.mk.inj (Except.ok.inj (hfirst.symm.trans hsecond))
    have hlength : t.text.length = u.text.length + more.length := by
      rw [← String.length_toList, hvtext, List.length_append, String.length_toList]
    omega

/-- Scanning cuts off the longest match. -/
theorem scan_eq_ok_iff_longestAt {c : Char} {cs rest : List Char} {t : Token} :
    scan c cs = .ok (t, rest) ↔ LongestAt (c :: cs) t ∧ t.text.toList ++ rest = c :: cs := by
  rw [scan_eq_ok_iff, ← and_assoc, ← longestAt_iff]
  constructor
  · rintro ⟨h, htext⟩
    exact ⟨htext ▸ h, htext⟩
  · rintro ⟨h, htext⟩
    exact ⟨htext ▸ h, htext⟩

/-! ### Maximal munch -/

namespace MaximalMunch

/-- The empty text has no tokens. -/
theorem nil : MaximalMunch [] [] :=
  ⟨rfl, fun us _ _ h => absurd h (by simp)⟩

/-- A longest match in front of a reading. -/
theorem cons {t : Token} {rest : List Char} {ts : List Token}
    (ht : LongestAt (t.text.toList ++ rest) t) (h : MaximalMunch rest ts) :
    MaximalMunch (t.text.toList ++ rest) (t :: ts) := by
  refine ⟨by rw [List.flatMap_cons, h.spells], fun us u vs hts => ?_⟩
  cases us with
  | nil =>
    obtain ⟨rfl, rfl⟩ := List.cons.inj hts
    rwa [List.flatMap_cons, h.spells]
  | cons v us =>
    obtain ⟨-, hts⟩ := List.cons.inj hts
    exact h.longest us u vs hts

/-- The first token of a reading is the longest match, and the others read what it leaves. -/
theorem head_tail {t : Token} {ts : List Token} {text : List Char} (h : MaximalMunch text (t :: ts)) :
    ∃ rest, text = t.text.toList ++ rest ∧ LongestAt text t ∧ MaximalMunch rest ts := by
  have htext : text = t.text.toList ++ ts.flatMap (·.text.toList) := h.spells.symm
  refine ⟨_, htext, ?_, rfl, fun us u vs hts => ?_⟩
  · have hfirst := h.longest [] t ts rfl
    rwa [h.spells] at hfirst
  · exact h.longest (t :: us) u vs (by rw [hts]; rfl)

end MaximalMunch

/-- Scanning again and again is maximal munch. -/
theorem splits_iff_maximalMunch {text : List Char} {ts : List Token} :
    Splits text ts ↔ MaximalMunch text ts := by
  constructor
  · intro h
    induction h with
    | nil => exact .nil
    | cons hscan _ ih =>
      obtain ⟨hlongest, htext⟩ := scan_eq_ok_iff_longestAt.mp hscan
      rw [← htext] at hlongest ⊢
      exact .cons hlongest ih
  · intro h
    induction ts generalizing text with
    | nil =>
      obtain rfl : [] = text := h.spells
      exact .nil
    | cons t ts ih =>
      obtain ⟨rest, rfl, hlongest, hrest⟩ := h.head_tail
      obtain ⟨c, cs, hcs⟩ := List.exists_cons_of_ne_nil hlongest.rule_matches.text_ne_nil
      rw [hcs] at hlongest ⊢
      exact .cons (scan_eq_ok_iff_longestAt.mpr ⟨hlongest, by rw [hcs]; rfl⟩) (ih hrest)

/-- A text splits in one way only. -/
theorem Splits.unique {text : List Char} {ts us : List Token} (hts : Splits text ts)
    (hus : Splits text us) : ts = us := by
  have hplaced := (tokenizeFrom_of_splits hts 0).symm.trans (tokenizeFrom_of_splits hus 0)
  rw [← map_token_placeFrom 0 ts, Except.ok.inj hplaced, map_token_placeFrom]

/-- **The lexer reads a source by maximal munch.** It gives tokens just where they spell the source one
after the other, each the longest match of any rule at its start, laid side by side; a source has at most
one such reading; and a token is the longest match where it ends before what follows: names and blanks at
a character of another sort, a line comment at the end of its line, a colon where no colon follows, and
keywords, literals and block comments anywhere. -/
theorem tokenize_eq_ok_iff_maximalMunch (source : String) :
    (∀ lexemes, tokenize source = .ok lexemes ↔
      ∃ ts, MaximalMunch source.toList ts ∧ lexemes = placeFrom 0 ts) ∧
    (∀ ts us, MaximalMunch source.toList ts → MaximalMunch source.toList us → ts = us) ∧
    (∀ (t : Token) (rest : List Char),
      LongestAt (t.text.toList ++ rest) t ↔ t.Matches ∧ t.EndsBefore rest) := by
  refine ⟨fun lexemes => ?_, fun ts us hts hus => ?_, longestAt_iff⟩
  · simp only [tokenize_eq_ok_iff, splits_iff_maximalMunch]
  · exact (splits_iff_maximalMunch.mpr hts).unique (splits_iff_maximalMunch.mpr hus)

/-- A keyword with a letter behind it, three colons, and comments and a regex that all open with a slash
are read in one way only. -/
theorem tokenize_eq_ok_iff_maximalMunch_slashes :
    ∃ ts, tokenize "%starts::://x/\n/*/ */ /\\//" = .ok (placeFrom 0 ts) ∧
      ts.map (·.text) = ["%start", "s", "::", ":", "//x/", "\n", "/*/ */", " ", "/\\//"] ∧
      MaximalMunch "%starts::://x/\n/*/ */ /\\//".toList ts ∧
      (∀ us, MaximalMunch "%starts::://x/\n/*/ */ /\\//".toList us → us = ts) := by
  obtain ⟨hiff, hunique, -⟩ := tokenize_eq_ok_iff_maximalMunch "%starts::://x/\n/*/ */ /\\//"
  have h : tokenize "%starts::://x/\n/*/ */ /\\//" =
      .ok [⟨.mark .start, ⟨0, 6⟩⟩, ⟨.identifier "s", ⟨6, 7⟩⟩, ⟨.mark .doubleColon, ⟨7, 9⟩⟩,
        ⟨.mark .colon, ⟨9, 10⟩⟩, ⟨.trivia .lineComment "//x/", ⟨10, 14⟩⟩,
        ⟨.trivia .whitespace "\n", ⟨14, 15⟩⟩, ⟨.trivia .blockComment "/*/ */", ⟨15, 21⟩⟩,
        ⟨.trivia .whitespace " ", ⟨21, 22⟩⟩, ⟨.literal .regex "/\\//", ⟨22, 26⟩⟩] := by
    decide +kernel
  obtain ⟨ts, hts, hplaced⟩ := (hiff _).mp h
  refine ⟨ts, hplaced ▸ h, ?_, hts, fun us hus => hunique us ts hus hts⟩
  rw [← map_token_placeFrom 0 ts, ← hplaced]
  decide

end GrammarFile
