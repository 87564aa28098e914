import GrammarFile.Format.Render
import GrammarFile.Proofs.Json.Outline
import GrammarFile.Proofs.Lexing.Partition
import GrammarFile.Proofs.Text.Quoted

/-!
# Listings of tokens read back

Each token of a listing takes one line, whatever stands in it (`lines_listTokens`), and its text can
be read off the line, since there is no quote in front of it (`Lexeme.text_eq_of_line_eq`). As JSON,
a token is an object that gives its text under the name of its kind, or the name of a mark, and is
read back from that (`Token.ofJson?_toJson`).

The tokens of a source with white space and comments spell the source, so either listing tells the source
(`render_raw_of_tokenize`).
-/

namespace GrammarFile

open Text (OneLine)

/-! ### Lines -/

/-- Which characters a text does not have can be computed. -/
theorem Text.not_mem_of_all {s : String} {cs : List Char}
    (h : (s.toList.all fun c => !cs.contains c) = true) :
    ∀ c ∈ s.toList, c ∉ cs := by
  simpa using h

/-- The name of a kind has neither line ends nor quotes. -/
theorem TokenKind.not_mem_name (k : TokenKind) : ∀ c ∈ k.name.toList, c ∉ ['\n', '\r', '\x22'] := by
  apply Text.not_mem_of_all
  cases k with
  | trivia k => cases k <;> decide
  | identifier => decide
  | literal k => cases k <;> decide
  | mark m => cases m <;> decide

namespace Lexeme

/-- What stands in a line in front of the text of the token. -/
def lead (l : Lexeme) : String :=
  l.token.kind.name ++ " " ++ toString l.span.start ++ ".." ++ toString l.span.stop ++ " "

/-- The line of a token is its place and kind, and then its text between quotes. -/
theorem line_eq (l : Lexeme) : l.line = l.lead ++ Text.quoted l.token.text :=
  rfl

/-- What stands in front of the text has no line break and no quote. -/
theorem not_mem_lead (l : Lexeme) : ∀ c ∈ l.lead.toList, c ∉ ['\n', '\r', '\x22'] := by
  have hnumber : ∀ n : Nat, ∀ c ∈ (toString n).toList, c ∉ ['\n', '\r', '\x22'] := by
    intro n c hc hmem
    have hdigit := Text.isDigit_of_mem_toString n c hc
    simp only [List.mem_cons, List.not_mem_nil, or_false] at hmem
    rcases hmem with rfl | rfl | rfl <;> exact absurd hdigit (by decide)
  have hblank : ∀ c ∈ " ".toList, c ∉ ['\n', '\r', '\x22'] := Text.not_mem_of_all (by decide)
  have hdots : ∀ c ∈ "..".toList, c ∉ ['\n', '\r', '\x22'] := Text.not_mem_of_all (by decide)
  simp only [lead, String.toList_append, List.forall_mem_append]
  exact ⟨⟨⟨⟨⟨l.token.kind.not_mem_name, hblank⟩, hnumber _⟩, hdots⟩, hnumber _⟩, hblank⟩

/-- A line is one line, whatever stands in the token. -/
theorem oneLine_line (l : Lexeme) : OneLine l.line := by
  have hlead : OneLine l.lead := .ofAll l.not_mem_lead (by decide) (by decide)
  exact hlead.append (Text.oneLine_quoted _)

/-- **A line tells the text of the token.** -/
theorem text_eq_of_line_eq {l l' : Lexeme} (h : l.line = l'.line) : l.token.text = l'.token.text := by
  have hquote : ∀ l : Lexeme, '\x22' ∉ l.lead.toList := fun l hmem => l.not_mem_lead _ hmem (by decide)
  have hchars := congrArg String.toList h
  simp only [line_eq, Text.quoted, String.toList_append, String.toList_ofList] at hchars
  obtain ⟨-, hbody⟩ := Text.append_cons_inj_of_not_mem (hquote l) (hquote l') hchars
  exact String.toList_injective (Text.eq_of_flatMap_quoteChar hbody)

end Lexeme

/-- **A listing has one line for each token.** -/
theorem lines_listTokens (lexemes : List Lexeme) :
    Text.lines (listTokens lexemes) = lexemes.map (·.line) := by
  apply Text.lines_intercalate
  · exact List.forall_mem_map.mpr fun l _ => l.oneLine_line
  · intro hempty
    obtain ⟨l, -, hl⟩ := List.mem_map.mp hempty
    have hchars := congrArg String.toList hl
    simp [Lexeme.line_eq, Text.quoted] at hchars

/-- Listings with the same lines are of tokens that spell the same text. -/
theorem spell_eq_of_listTokens_eq {lexemes lexemes' : List Lexeme}
    (h : listTokens lexemes = listTokens lexemes') :
    Token.spell (lexemes.map (·.token)) = Token.spell (lexemes'.map (·.token)) := by
  have hlines := congrArg Text.lines h
  rw [lines_listTokens, lines_listTokens] at hlines
  have htexts : lexemes.map (·.token.text) = lexemes'.map (·.token.text) :=
    Text.map_eq_of_map_eq (p := fun _ => True) (fun _ _ _ _ hline => Lexeme.text_eq_of_line_eq hline)
      (fun _ _ => trivial) (fun _ _ => trivial) hlines
  rw [Token.spell, Token.spell, List.map_map, List.map_map]
  exact congrArg String.join htexts

/-! ### JSON -/

/-- The name of a kind of tokens stands for that kind. -/
theorem TokenKind.ofName?_name (k : TokenKind) : ofName? k.name = some k := by
  cases k with
  | trivia k => cases k <;> decide
  | identifier => decide
  | literal k => cases k <;> decide
  | mark m => cases m <;> decide

/-- **A token is read back from JSON.** -/
theorem Token.ofJson?_toJson (t : Token) : Token.ofJson? t.toJson = some t := by
  cases t with
  | trivia k text => simp [toJson, ofJson?, TokenKind.ofName?_name, ofKind?, kind, Token.text]
  | identifier name => simp [toJson, ofJson?, TokenKind.ofName?_name, ofKind?, kind, Token.text]
  | literal k text => simp [toJson, ofJson?, TokenKind.ofName?_name, ofKind?, kind, Token.text]
  | mark m =>
    have hname := TokenKind.ofName?_name (.mark m)
    simp only [TokenKind.name] at hname
    simp [toJson, ofJson?, hname, ofKind?]

/-- The token that the first item of an array describes. -/
def Token.ofPair? : Json → Option Token
  | .array [token, _] => Token.ofJson? token
  | _ => none

/-- The token and the span that an array of the two describes. -/
def Lexeme.ofPair? : Json → Option Lexeme
  | .array [token, span] => do
    let token ← Token.ofJson? token
    let span ← Span.ofJson? span
    return ⟨token, span⟩
  | _ => none

/-- **The tokens of a listing are read back from JSON.** -/
theorem mapM_ofPair?_tokens (lexemes : List Lexeme) :
    (Json.read (tokensToJson lexemes).pretty).bind
      (fun value => value.array?.bind (·.mapM Token.ofPair?)) = some (lexemes.map (·.token)) := by
  rw [Json.read_pretty, Option.bind_some]
  exact Json.mapM_map_eq_some fun l _ => Token.ofJson?_toJson l.token

/-- The spans are read back, too, if they have 64 bits. -/
theorem mapM_ofPair?_lexemes {lexemes : List Lexeme}
    (h : ∀ l ∈ lexemes, fitsUnsigned 64 l.span.start ∧ fitsUnsigned 64 l.span.stop) :
    (Json.read (tokensToJson lexemes).pretty).bind
      (fun value => value.array?.bind (·.mapM Lexeme.ofPair?)) = some lexemes := by
  rw [Json.read_pretty, Option.bind_some]
  refine (Json.mapM_map_eq_some (f := id) fun l hl => ?_).trans (by rw [List.map_id])
  obtain ⟨hstart, hstop⟩ := h l hl
  have hspan : Span.ofJson? l.span.toJson = some l.span := Span.ofJson?_object hstart hstop
  simp [Lexeme.ofPair?, Token.ofJson?_toJson, hspan]

/-! ### Sources -/

/-- The spans of a source fit where its length does. -/
theorem fits_of_tokenize {source : String} {lexemes : List Lexeme} (h : tokenize source = .ok lexemes)
    (hfits : fitsUnsigned 64 source.utf8ByteSize) :
    ∀ l ∈ lexemes, fitsUnsigned 64 l.span.start ∧ fitsUnsigned 64 l.span.stop := by
  obtain ⟨ts, hts, rfl⟩ := tokenize_eq_ok_iff.mp h
  intro l hl
  obtain ⟨before, after, hsource, hspan⟩ := exists_append_of_splits hts l hl
  have hsize : byteCount before + l.token.text.utf8ByteSize ≤ source.utf8ByteSize := by
    rw [← byteCount_toList source, hsource, byteCount_append, byteCount_append, byteCount_toList]
    omega
  simp only [fitsUnsigned, decide_eq_true_eq] at hfits ⊢
  rw [hspan]
  constructor
  · show byteCount before < wordCount 64
    omega
  · show byteCount before + l.token.text.utf8ByteSize < wordCount 64
    omega

/-- The plain listing of a source lists all its tokens. -/
theorem render_rawSimple {source : String} {lexemes : List Lexeme} (options : RenderOptions)
    (h : tokenize source = .ok lexemes) :
    render (.tokens .rawSimple) options source = .ok (listTokens lexemes) := by
  simp [render, TokenListing.isRaw, h, TokenListing.write]

/-- The listing of a source as JSON has all its tokens. -/
theorem render_rawJson {source : String} {lexemes : List Lexeme} (options : RenderOptions)
    (h : tokenize source = .ok lexemes) :
    render (.tokens .rawJson) options source = .ok (tokensToJson lexemes).pretty := by
  simp [render, TokenListing.isRaw, h, TokenListing.write]

/-- **A listing with white space and comments has one line for each token, and tells the source.**
So does the listing as JSON: its tokens are read back, and spell the source. -/
theorem render_raw_of_tokenize {source : String} {lexemes : List Lexeme}
    (h : tokenize source = .ok lexemes) (options : RenderOptions) :
    (∃ text, render (.tokens .rawSimple) options source = .ok text ∧
      Text.lines text = lexemes.map (·.line) ∧ (Text.lines text).length = lexemes.length ∧
      (Text.lines text = [] ↔ source = "")) ∧
    (∀ (source' : String) (lexemes' : List Lexeme) (options' : RenderOptions),
      tokenize source' = .ok lexemes' →
      render (.tokens .rawSimple) options source = render (.tokens .rawSimple) options' source' →
      source = source') ∧
    ∃ text, render (.tokens .rawJson) options source = .ok text ∧
      (∃ tokens,
        (Json.read text).bind (fun value => value.array?.bind (·.mapM Token.ofPair?)) = some tokens ∧
        tokens = lexemes.map (·.token) ∧ Token.spell tokens = source) ∧
      (fitsUnsigned 64 source.utf8ByteSize →
        (Json.read text).bind (fun value => value.array?.bind (·.mapM Lexeme.ofPair?)) =
          some lexemes) := by
  have hspell := spell_of_tokenize h
  refine ⟨⟨_, render_rawSimple options h, lines_listTokens lexemes, ?_, ?_⟩, ?_, _,
    render_rawJson options h, ⟨_, mapM_ofPair?_tokens lexemes, rfl, hspell⟩,
    fun hfits => mapM_ofPair?_lexemes (fits_of_tokenize h hfits)⟩
  · rw [lines_listTokens, List.length_map]
  · rw [lines_listTokens, List.map_eq_nil_iff]
    constructor
    · rintro rfl
      exact hspell.symm
    · rintro rfl
      have hempty : tokenize "" = .ok [] := by decide +kernel
      exact Except.ok.inj (h.symm.trans hempty)
  · intro source' lexemes' options' h' heq
    rw [render_rawSimple options h, render_rawSimple options' h', Except.ok.injEq] at heq
    rw [← hspell, ← spell_of_tokenize h', spell_eq_of_listTokens_eq heq]

/-- A literal and a blank that hold line feeds, and a letter of two bytes, take one line each. -/
theorem render_raw_of_tokenize_feeds :
    ∃ lexemes text json, tokenize "\"a\nb\" \n//é" = .ok lexemes ∧
      render (.tokens .rawSimple) ⟨.default, false⟩ "\"a\nb\" \n//é" = .ok text ∧
      (Text.lines text).length = 3 ∧ "\"a\nb\" \n//é" = "\"a\nb\" " ++ "\n//é" ∧
      render (.tokens .rawJson) ⟨.default, false⟩ "\"a\nb\" \n//é" = .ok json ∧
      (Json.read json).bind (fun value => value.array?.bind (·.mapM Lexeme.ofPair?)) = some lexemes := by
  have h : tokenize "\"a\nb\" \n//é" =
      .ok [⟨.literal .string "\"a\nb\"", ⟨0, 5⟩⟩, ⟨.trivia .whitespace " \n", ⟨5, 7⟩⟩,
        ⟨.trivia .lineComment "//é", ⟨7, 11⟩⟩] := by
    decide +kernel
  obtain ⟨⟨text, htext, -, hlength, -⟩, htell, json, hjson, -, hread⟩ :=
    render_raw_of_tokenize h ⟨.default, false⟩
  exact ⟨_, text, json, h, htext, hlength, htell ("\"a\nb\" " ++ "\n//é") _ ⟨.default, true⟩ h rfl, hjson,
    hread (by decide)⟩

end GrammarFile
