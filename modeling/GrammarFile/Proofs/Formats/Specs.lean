import GrammarFile.Format.Render
import GrammarFile.Proofs.Catalog
import GrammarFile.Proofs.Lexing.Splitting

/-!
# Specs are read exactly, and what is read can be rendered

The text of a spec is cut at its first dash (`CutAtDash`): the stage stands before it, and the name
of a format behind it, with all the dashes that are in it. So the texts that are read are those of
the available specs (`RenderSpec.parse_eq_ok_iff`), and for every other text it is known which error
it gives (`RenderSpec.parse_eq_error_iff`).

The formats of a tree are looked up once when a spec is read, and once more when it is rendered,
among formatters that may number their lines. Both registries have the same names, and none of their
formatters fails (`exists_renderTree_of_mem_names`), so only a mistake in the source is left that
can keep a spec from being rendered (`render_eq_error_iff`).
-/

namespace GrammarFile

/-! ### Registries -/

namespace Registry

/-- A registry answers with the formatter that was registered last under a name. -/
theorem get?_register (registry : Registry) (formatter : Formatter) (name : String) :
    (registry.register formatter).get? name =
      if name = formatter.name then some formatter else registry.get? name :=
  Catalog.get?_insert registry formatter.name formatter name

/-- What is found under a name was there before, or was registered. -/
theorem mem_of_get?_foldl_register {formatters : List Formatter} {registry : Registry} {name : String}
    {formatter : Formatter} (h : (formatters.foldl register registry).get? name = some formatter) :
    formatter ∈ formatters ∨ registry.get? name = some formatter := by
  induction formatters generalizing registry with
  | nil => exact .inr h
  | cons first formatters ih =>
    rcases ih h with hmem | hbefore
    · exact .inl (List.mem_cons_of_mem first hmem)
    rw [get?_register] at hbefore
    split at hbefore
    · exact .inl (Option.some.inj hbefore ▸ List.mem_cons_self)
    · exact .inr hbefore

/-- The names of a registry are those that were there, and those of the formatters that were
registered. -/
theorem isSome_get?_foldl_register (formatters : List Formatter) (registry : Registry) (name : String) :
    ((formatters.foldl register registry).get? name).isSome ↔
      name ∈ formatters.map (·.name) ∨ (registry.get? name).isSome := by
  induction formatters generalizing registry with
  | nil => simp
  | cons first formatters ih =>
    rw [List.foldl_cons, ih, get?_register, List.map_cons, List.mem_cons]
    split
    · rename_i hname
      simp [hname]
    · rename_i hname
      simp [hname]

/-- Numbered lines do not change which formats there are. -/
theorem names_standard (numbered : Bool) : (standard numbered).names = (standard false).names := by
  apply Catalog.names_eq_of_isSome_eq
  intro name
  have hname : (Formatter.treeviz numbered).name = (Formatter.treeviz false).name := rfl
  rw [Bool.eq_iff_iff, standard, standard, isSome_get?_foldl_register, isSome_get?_foldl_register]
  simp only [List.map_cons, hname]

/-- No standard formatter fails. -/
theorem exists_write_standard {numbered : Bool} {name : String} (h : name ∈ (standard numbered).names)
    (g : Grammar) : ∃ text, (standard numbered).write name g = .ok text := by
  obtain ⟨formatter, hget⟩ := Option.isSome_iff_exists.mp (Catalog.mem_names_iff.mp h)
  have hmem : formatter ∈ [Formatter.treeviz numbered, .tag, .json, .yaml, .par] := by
    rcases mem_of_get?_foldl_register hget with hmem | hempty
    · exact hmem
    · exact absurd hempty nofun
  rw [write, hget]
  simp only [List.mem_cons, List.not_mem_nil, or_false] at hmem
  rcases hmem with rfl | rfl | rfl | rfl | rfl <;> exact ⟨_, rfl⟩

end Registry

/-- A grammar has a text in every format that a spec can name, whether lines are numbered or not. -/
theorem exists_renderTree_of_mem_names {format : String} (h : format ∈ (Registry.standard false).names)
    (options : RenderOptions) (g : Grammar) : ∃ text, renderTree options format g = .ok text := by
  rw [← Registry.names_standard options.lineNumbers] at h
  obtain ⟨text, hwrite⟩ := Registry.exists_write_standard h g
  exact ⟨text, by rw [renderTree, hwrite]; rfl⟩

/-! ### Texts with a dash -/

/-- What stands before the first dash of a text, and what behind it. -/
structure CutAtDash (text stage format : String) : Prop where
  text_eq : text = stage ++ "-" ++ format
  first : '-' ∉ stage.toList

namespace CutAtDash

variable {text stage format : String}

/-- A text that is cut at a dash is its two parts with the dash between them. -/
theorem toList_eq (h : CutAtDash text stage format) :
    text.toList = stage.toList ++ '-' :: format.toList := by
  rw [h.text_eq, String.toList_append, String.toList_append, List.append_assoc]
  rfl

/-- A text with a dash can be cut at one. -/
theorem exists_of_mem (h : '-' ∈ text.toList) : ∃ stage format, CutAtDash text stage format := by
  obtain ⟨before, behind, htext, hfirst⟩ := List.eq_append_cons_of_mem h
  refine ⟨String.ofList before, String.ofList behind, ?_, by rwa [String.toList_ofList]⟩
  apply String.toList_inj.mp
  simp [htext]

/-- The parts between dashes are the stage, and those of the format, of which there is at least one. -/
theorem splitOn_eq (h : CutAtDash text stage format) :
    text.toList.splitOn '-' = stage.toList :: format.toList.splitOn '-' := by
  rw [h.toList_eq, List.splitOn, List.splitOnP_append_cons_of_forall_mem ?_ _ (by simp)]
  · rfl
  · intro c hc
    rw [beq_eq_false_iff_ne]
    rintro rfl
    exact h.first hc

end CutAtDash

/-! ### Reading specs -/

namespace TokenListing

/-- A listing of tokens is found under its own name only. -/
theorem ofName?_eq_some_iff {name : String} {listing : TokenListing} :
    ofName? name = some listing ↔ name = listing.name := by
  constructor
  · intro h
    rw [ofName?] at h
    have hfound := List.find?_some h
    exact (eq_of_beq hfound).symm
  · rintro rfl
    cases listing <;> rfl

end TokenListing

namespace RenderSpec

variable {text stage format : String} {spec : RenderSpec}

/-- Every listing of tokens is among the available specs. -/
theorem tokens_mem_available (listing : TokenListing) : tokens listing ∈ available := by
  apply List.mem_append_left
  apply List.mem_map_of_mem
  cases listing <;> decide

/-- A spec for trees is available if the standard registry has its format. -/
theorem tree_mem_available_iff : tree format ∈ available ↔ format ∈ (Registry.standard false).names := by
  simp [available]

/-- A text without a dash is refused as a whole. -/
theorem parse_of_not_mem (h : '-' ∉ text.toList) : parse text = .error (.invalidFormat text) := by
  have hsplit : text.toList.splitOn '-' = [text.toList] :=
    List.splitOnP_eq_singleton fun c hc => beq_eq_false_iff_ne.mpr fun heq => h (heq ▸ hc)
  rw [parse, hsplit]

/-- The parts behind the first dash are joined to the format again. -/
theorem parse_of_cutAtDash (h : CutAtDash text stage format) : parse text =
    if stage = "token" then
      match TokenListing.ofName? format with
      | some listing => .ok (tokens listing)
      | none => .error (.invalidFormatType format)
    else if stage = "ast" then
      if format ∈ (Registry.standard false).names then .ok (tree format)
        else .error (.invalidFormatType format)
    else .error (.invalidStage stage) := by
  obtain ⟨part, parts, hparts⟩ :=
    List.exists_cons_of_ne_nil (List.splitOnP_ne_nil (· == '-') format.toList)
  have hformat : ['-'].intercalate (part :: parts) = format.toList := by
    rw [← hparts]
    exact List.intercalate_splitOn '-'
  rw [parse, h.splitOn_eq, List.splitOn, hparts]
  simp only [hformat, String.ofList_toList]
  exact if_congr Iff.rfl rfl (if_congr Iff.rfl (if_congr List.contains_iff_mem rfl rfl) rfl)

/-- **The texts that are read are those of the available specs**, each as its own spec. -/
theorem parse_eq_ok_iff : parse text = .ok spec ↔ spec ∈ available ∧ text = spec.display := by
  constructor
  · intro h
    by_cases hdash : '-' ∈ text.toList
    · obtain ⟨stage, format, hcut⟩ := CutAtDash.exists_of_mem hdash
      rw [parse_of_cutAtDash hcut] at h
      split at h
      · rename_i hstage
        split at h
        · rename_i listing hname
          rw [TokenListing.ofName?_eq_some_iff] at hname
          cases h
          exact ⟨tokens_mem_available listing, by rw [hcut.text_eq, hstage, hname]; rfl⟩
        · cases h
      split at h
      · rename_i hstage
        split at h
        · rename_i hname
          cases h
          exact ⟨tree_mem_available_iff.mpr hname, by rw [hcut.text_eq, hstage]; rfl⟩
        · cases h
      · cases h
    · rw [parse_of_not_mem hdash] at h
      cases h
  · rintro ⟨hmem, rfl⟩
    cases spec with
    | tokens listing =>
      have hcut : CutAtDash (tokens listing).display "token" listing.name := ⟨rfl, by decide⟩
      rw [parse_of_cutAtDash hcut, if_pos rfl, TokenListing.ofName?_eq_some_iff.mpr rfl]
    | tree format =>
      have hcut : CutAtDash (tree format).display "ast" format := ⟨rfl, by decide⟩
      rw [parse_of_cutAtDash hcut,
        if_neg (by decide), if_pos rfl, if_pos (tree_mem_available_iff.mp hmem)]

/-- Why a text is not read. -/
inductive Refuses (text : String) : SpecError → Prop where
  | noDash : '-' ∉ text.toList → Refuses text (.invalidFormat text)
  | stage {stage format : String} : CutAtDash text stage format → stage ≠ "token" ∧ stage ≠ "ast" →
      Refuses text (.invalidStage stage)
  | format {stage format : String} : CutAtDash text stage format → stage = "token" ∨ stage = "ast" →
      (∀ spec ∈ available, text ≠ spec.display) → Refuses text (.invalidFormatType format)

/-- A text is refused for exactly the reasons of `Refuses`. -/
theorem parse_eq_error_iff {e : SpecError} : parse text = .error e ↔ Refuses text e := by
  constructor
  · intro h
    by_cases hdash : '-' ∈ text.toList
    · obtain ⟨stage, format, hcut⟩ := CutAtDash.exists_of_mem hdash
      have hnone : ∀ spec ∈ available, text ≠ spec.display := by
        intro spec hmem htext
        rw [parse_eq_ok_iff.mpr ⟨hmem, htext⟩] at h
        cases h
      rw [parse_of_cutAtDash hcut] at h
      split at h
      · rename_i hstage
        split at h
        · cases h
        · cases h
          exact .format hcut (.inl hstage) hnone
      split at h
      · rename_i hstage
        split at h
        · cases h
        · cases h
          exact .format hcut (.inr hstage) hnone
      · rename_i htoken hast
        cases h
        exact .stage hcut ⟨htoken, hast⟩
    · rw [parse_of_not_mem hdash] at h
      cases h
      exact .noDash hdash
  · intro h
    cases h with
    | noDash hdash => exact parse_of_not_mem hdash
    | stage hcut hstage => rw [parse_of_cutAtDash hcut, if_neg hstage.1, if_neg hstage.2]
    | format hcut hstage hnone =>
      have hno : ∀ spec, parse text ≠ .ok spec := by
        intro spec hspec
        obtain ⟨hmem, htext⟩ := parse_eq_ok_iff.mp hspec
        exact hnone spec hmem htext
      rw [parse_of_cutAtDash hcut] at hno ⊢
      rcases hstage with rfl | rfl
      · rw [if_pos rfl] at hno ⊢
        cases hname : TokenListing.ofName? _ with
        | none => rfl
        | some listing => exact absurd (by rw [hname]) (hno (tokens listing))
      · rw [if_neg (by decide), if_pos rfl] at hno ⊢
        exact if_neg fun hname => hno _ (if_pos hname)

/-- What goes wrong in the stage that a spec names. -/
inductive Fails (parser : ParserOptions) (source : String) : RenderSpec → GrammarError → Prop where
  | tokens {listing : TokenListing} {e : LexError} : lex source = .error e →
      Fails parser source (tokens listing) (.lexical e)
  | tree {format : String} {e : GrammarError} : GrammarFile.parse source parser = .error e →
      Fails parser source (tree format) e

end RenderSpec

/-! ### Rendering -/

/-- **An available spec is rendered unless its stage fails**, and then the error is that of the stage. -/
theorem render_eq_error_iff {spec : RenderSpec} (h : spec ∈ RenderSpec.available)
    (options : RenderOptions)
    (source : String) (error : RenderError) : render spec options source = .error error ↔
      ∃ e, spec.Fails options.parser source e ∧ error = .grammar e := by
  cases spec with
  | tokens listing =>
    have hread : ∀ e, (if listing.isRaw then tokenize source else lex source) = .error e ↔
        lex source = .error e := by
      intro e
      split
      · exact lex_eq_error_iff.symm
      · rfl
    constructor
    · intro hrender
      rw [render] at hrender
      split at hrender
      · rename_i e hlex
        cases hrender
        exact ⟨_, .tokens ((hread e).mp hlex), rfl⟩
      · cases hrender
    · rintro ⟨e, hfails, rfl⟩
      cases hfails with
      | tokens hlex => rw [render, (hread _).mpr hlex]
  | tree format =>
    have hwrites := exists_renderTree_of_mem_names (RenderSpec.tree_mem_available_iff.mp h) options
    constructor
    · intro hrender
      rw [render] at hrender
      split at hrender
      · rename_i e hparse
        cases hrender
        exact ⟨e, .tree hparse, rfl⟩
      · rename_i g hparse
        obtain ⟨text, hwrite⟩ := hwrites g
        rw [hwrite] at hrender
        cases hrender
    · rintro ⟨e, hfails, rfl⟩
      cases hfails with
      | tree hparse => rw [render, hparse]

/-- **Specs are read exactly, and fail to be rendered only where the source is wrong.** A text is
read as a spec if and only if it is the display of an available one. It is refused for having no
dash, else for what stands before its first dash if that is neither of the two stages, else for all
that stands behind that dash. An accepted spec fails with the error that the lexer or the parser
gives, for just the sources where that one fails. -/
theorem specs_read_and_rendered (text : String) :
    (∀ spec, RenderSpec.parse text = .ok spec ↔ spec ∈ RenderSpec.available ∧ text = spec.display) ∧
    (∀ e, RenderSpec.parse text = .error e ↔ RenderSpec.Refuses text e) ∧
    ∀ spec, RenderSpec.parse text = .ok spec → ∀ options source error,
      render spec options source = .error error ↔
        ∃ e, spec.Fails options.parser source e ∧ error = .grammar e := by
  refine ⟨fun _ => RenderSpec.parse_eq_ok_iff, fun _ => RenderSpec.parse_eq_error_iff, ?_⟩
  intro spec h options source error
  exact render_eq_error_iff (RenderSpec.parse_eq_ok_iff.mp h).1 options source error

/-- A spec with two dashes is read, and fails for a quote that is left open. A dash too many goes
with the format. -/
theorem specs_read_and_rendered_two_dashes :
    RenderSpec.parse "token-raw-simple" = .ok (.tokens .rawSimple) ∧
      (∃ e, lex "s: 'a" = .error e ∧
        render (.tokens .rawSimple) ⟨.default, false⟩ "s: 'a" = .error (.grammar (.lexical e))) ∧
      RenderSpec.parse "ast--json" = .error (.invalidFormatType "-json") := by
  obtain ⟨hread, -, hrender⟩ := specs_read_and_rendered "token-raw-simple"
  have hparse := (hread (.tokens .rawSimple)).mpr ⟨RenderSpec.tokens_mem_available _, rfl⟩
  have hlex : (lex "s: 'a").isOk = false := by decide +kernel
  obtain ⟨e, he⟩ : ∃ e, lex "s: 'a" = .error e := by
    cases hresult : lex "s: 'a" with
    | error e => exact ⟨e, rfl⟩
    | ok lexemes => rw [hresult] at hlex; cases hlex
  have hcut : CutAtDash "ast--json" "ast" "-json" := ⟨rfl, by decide⟩
  refine ⟨hparse, ⟨e, he, (hrender _ hparse ⟨.default, false⟩ _ _).mpr ⟨_, .tokens he, rfl⟩⟩, ?_⟩
  refine ((specs_read_and_rendered "ast--json").2.1 _).mpr (.format hcut (.inr rfl) ?_)
  decide +kernel

end GrammarFile
