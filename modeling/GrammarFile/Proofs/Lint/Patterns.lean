import GrammarFile.Lint.Check
import GrammarFile.Proofs.Lexing.Literals

/-!
# The pattern of a regular expression

`Literal.pattern` puts a slash in place of each backslash with a slash behind it, wherever the two
stand side by side. That is no way to undo escapes in general: the backslash may itself be the
second character of a pair, as in two backslashes and a slash. Between the delimiters of a regular
expression this cannot be, because a slash that no backslash takes along would end the literal. So
there the pattern is what reading in units gives: a pair of a backslash and a slash stands for the
slash, and every other unit for itself (`unescapeSlashes_of_literalBody`). One character is lost for
each slash (`pattern_of_scan`).
-/

namespace GrammarFile

open EscapeUnit (unitsOf unitsOf_nil unitsOf_pair unitsOf_single)
open Literal.pattern (unescapeSlashes)

/-- What a unit stands for in a pattern: an escaped slash for the slash, and any other unit for itself. -/
def EscapeUnit.unescaped (u : EscapeUnit) : List Char :=
  if u = pair '/' then ['/'] else u.text

/-- A slash that is escaped is taken as a slash. -/
theorem unescapeSlashes_slash (cs : List Char) :
    unescapeSlashes ('\\' :: '/' :: cs) = '/' :: unescapeSlashes cs := by
  rw [unescapeSlashes]

/-- A character that is no backslash in front of a slash is kept. -/
theorem unescapeSlashes_cons {c : Char} {cs : List Char} (h : c = '\\' → cs.head? ≠ some '/') :
    unescapeSlashes (c :: cs) = c :: unescapeSlashes cs := by
  rw [unescapeSlashes]
  rintro rest rfl rfl
  exact h rfl rfl

/-- On a text in which a backslash stands in front of an escape, replacing is not the same as
reading units. -/
example :
    unescapeSlashes ['\\', '\\', '/'] ≠
      (unitsOf ['\\', '\\', '/']).flatMap EscapeUnit.unescaped := by
  decide

/-- **Between the delimiters of a regular expression, replacing undoes the escapes of slashes.** -/
theorem unescapeSlashes_of_literalBody {body : List Char} (h : LiteralBody '/' body) :
    unescapeSlashes body = (unitsOf body).flatMap EscapeUnit.unescaped := by
  induction h with
  | nil => rfl
  | @escape c cs hcs ih =>
    rw [unitsOf_pair, List.flatMap_cons, ← ih, EscapeUnit.unescaped]
    by_cases hc : c = '/'
    · rw [hc, if_pos rfl, unescapeSlashes_slash]
      rfl
    · -- the character behind a backslash may be one as well, but then no slash follows it
      have hhead : cs.head? ≠ some '/' := hcs.head?_ne (by decide)
      rw [if_neg (by simpa using hc), unescapeSlashes_cons (by simpa using hc),
        unescapeSlashes_cons fun _ => hhead]
      rfl
  | plain hc hslash _ ih =>
    rw [unitsOf_single hc, List.flatMap_cons, ← ih, unescapeSlashes_cons fun h => absurd h hc]
    rfl

/-- One character is lost for each slash. -/
theorem length_unescapeSlashes {body : List Char} (h : LiteralBody '/' body) :
    (unescapeSlashes body).length + body.count '/' = body.length := by
  rw [unescapeSlashes_of_literalBody h]
  induction h with
  | nil => rfl
  | @escape c cs _ ih =>
    rw [unitsOf_pair, List.flatMap_cons, List.length_append, EscapeUnit.unescaped]
    by_cases hc : c = '/'
    · rw [hc, if_pos rfl, List.count_cons_of_ne (by decide), List.count_cons_self]
      simp only [List.length_cons, List.length_nil]
      omega
    · rw [if_neg (by simpa using hc), List.count_cons_of_ne (by decide), List.count_cons_of_ne hc]
      simp only [EscapeUnit.text, List.length_cons, List.length_nil]
      omega
  | @plain c cs hc hslash _ ih =>
    rw [unitsOf_single hc, List.flatMap_cons, List.length_append, List.count_cons_of_ne hslash]
    simp only [EscapeUnit.unescaped, reduceCtorEq, if_false, EscapeUnit.text, List.length_cons,
      List.length_nil]
    omega

/-- **The pattern of a regular expression is its content without the escapes of slashes.** Read in
pairs of a backslash and the next character and in single characters, a pair with a slash becomes
the slash, and everything else is kept, pairs of backslashes among it. As many characters are lost
as there are slashes. -/
theorem pattern_of_scan {c : Char} {text rest : List Char} {l : Literal} (hkind : l.kind = .regex)
    (h : scan c text = .ok (l.token, rest)) :
    l.pattern = String.ofList ((unitsOf l.content.toList).flatMap EscapeUnit.unescaped) ∧
      l.pattern.length + l.content.toList.count '/' = l.content.length := by
  obtain ⟨body, hbody, htext, -⟩ : IsLiteral l.kind l.text.toList := isLexeme_of_scan h
  rw [hkind] at hbody
  have hcontent : l.content.toList = body := by
    rw [Literal.content_of_text htext, String.toList_ofList]
  have hpattern : l.pattern = String.ofList (unescapeSlashes body) := by
    rw [Literal.pattern, hcontent]
  refine ⟨?_, ?_⟩
  · rw [hpattern, hcontent, unescapeSlashes_of_literalBody hbody]
  · rw [hpattern, String.length_ofList, hcontent, length_unescapeSlashes hbody, ← String.length_toList,
      hcontent]

/-- Two backslashes in front of an escaped slash are kept, and so are the two at the end of the
content. -/
theorem pattern_of_scan_backslashes :
    scan '/' "a\\\\\\/b\\\\/ ?= 'x'".toList =
        .ok (Literal.token ⟨.regex, "/a\\\\\\/b\\\\/", default⟩, " ?= 'x'".toList) ∧
      Literal.pattern ⟨.regex, "/a\\\\\\/b\\\\/", default⟩ = "a\\\\/b\\\\" ∧
      (Literal.pattern ⟨.regex, "/a\\\\\\/b\\\\/", default⟩).length +
        (Literal.content ⟨.regex, "/a\\\\\\/b\\\\/", default⟩).toList.count '/' =
          (Literal.content ⟨.regex, "/a\\\\\\/b\\\\/", default⟩).length := by
  have hscan : scan '/' "a\\\\\\/b\\\\/ ?= 'x'".toList =
      .ok (Literal.token ⟨.regex, "/a\\\\\\/b\\\\/", default⟩, " ?= 'x'".toList) := by
    decide +kernel
  obtain ⟨hpattern, hlength⟩ := pattern_of_scan rfl hscan
  exact ⟨hscan, hpattern.trans (by decide +kernel), hlength⟩

end GrammarFile
