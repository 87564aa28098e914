import GrammarFile.Proofs.Lexing.Partition

/-!
# The tokens that the parser reads stand apart

Without the trivia the tokens of a source no longer fill it, but they still stand one behind the
other, none of them is empty, and each spells the slice of the source at its span (`spaced_of_lex`).
`Spaced` says so of tokens between two offsets.
-/

namespace GrammarFile

/-- Whether lexemes stand one behind the other between two byte offsets, none of them empty, and spell the
slices of the source at their spans. -/
def Spaced (source : String) (lo : Nat) : List Lexeme → Nat → Prop
  | [], hi => lo ≤ hi
  | u :: us, hi =>
    lo ≤ u.span.start ∧ u.span.start < u.span.stop ∧ u.span.slice? source = some u.token.text ∧
      Spaced source u.span.stop us hi

namespace Spaced

variable {source : String} {lo mid hi : Nat} {us vs : List Lexeme}

/-- The end of a stretch of tokens is not in front of its start. -/
theorem le (h : Spaced source lo us hi) : lo ≤ hi := by
  induction us generalizing lo with
  | nil => exact h
  | cons u us ih =>
    obtain ⟨hlo, hlt, -, hrest⟩ := h
    have hle := ih hrest
    omega

/-- A stretch may be said to start earlier. -/
theorem mono {lo' : Nat} (h : Spaced source lo us hi) (hle : lo' ≤ lo) : Spaced source lo' us hi := by
  cases us with
  | nil => exact Nat.le_trans hle h
  | cons u us =>
    obtain ⟨hlo, hrest⟩ := h
    exact ⟨Nat.le_trans hle hlo, hrest⟩

/-- Lexemes in two rows stand apart at the end of the first row. -/
theorem split (h : Spaced source lo (us ++ vs) hi) :
    ∃ mid, Spaced source lo us mid ∧ Spaced source mid vs hi := by
  induction us generalizing lo with
  | nil => exact ⟨lo, Nat.le_refl lo, h⟩
  | cons u us ih =>
    obtain ⟨hlo, hlt, hslice, hrest⟩ := h
    obtain ⟨mid, hus, hvs⟩ := ih hrest
    exact ⟨mid, ⟨hlo, hlt, hslice, hus⟩, hvs⟩

/-- Some lexemes reach from the start of the first to the end of the last. -/
theorem hull {first last : Lexeme} (h : Spaced source lo us hi) (hfirst : us.head? = some first)
    (hlast : us.getLast? = some last) :
    lo ≤ first.span.start ∧ first.span.start < last.span.stop ∧ last.span.stop ≤ hi ∧
      Spaced source first.span.start us last.span.stop := by
  induction us generalizing lo first with
  | nil => cases hfirst
  | cons u us ih =>
    cases hfirst
    obtain ⟨hlo, hlt, hslice, hrest⟩ := h
    cases us with
    | nil =>
      cases hlast
      exact ⟨hlo, hlt, hrest, Nat.le_refl _, hlt, hslice, Nat.le_refl _⟩
    | cons v us =>
      rw [List.getLast?_cons_cons] at hlast
      obtain ⟨hstart, hspan, hstop, hinner⟩ := ih hrest rfl hlast
      refine ⟨hlo, by omega, hstop, Nat.le_refl _, hlt, hslice, ?_⟩
      exact hinner.mono hstart

end Spaced

/-- Some of the lexemes that lie side by side stand apart. -/
theorem spaced_filter_of_tiles {source : String} {start stop : Nat} {lexemes : List Lexeme}
    (h : Tiles start lexemes stop) (hslice : ∀ l ∈ lexemes, l.span.slice? source = some l.token.text)
    (p : Lexeme → Bool) : Spaced source start (lexemes.filter p) stop := by
  induction lexemes generalizing start with
  | nil => exact Nat.le_of_eq h
  | cons l rest ih =>
    obtain ⟨rfl, hlt, hrest⟩ := h
    have hspaced := ih hrest fun l' hl' => hslice l' (List.mem_cons_of_mem l hl')
    rw [List.filter_cons]
    split
    · exact ⟨Nat.le_refl _, hlt, hslice l List.mem_cons_self, hspaced⟩
    · exact hspaced.mono (Nat.le_of_lt hlt)

/-- **The tokens that the parser reads stand apart**, and spell the slices of the source at their
spans. -/
theorem spaced_of_lex {source : String} {lexemes : List Lexeme} (h : lex source = .ok lexemes) :
    Spaced source 0 lexemes source.utf8ByteSize := by
  obtain ⟨ts, hts, rfl⟩ := lex_eq_ok_iff.mp h
  have htiles := tiles_placeFrom 0 ts (text_ne_empty_of_splits hts)
  rw [flatMap_text_of_splits hts, byteCount_toList, Nat.zero_add] at htiles
  refine spaced_filter_of_tiles htiles (fun l hl => ?_) _
  obtain ⟨before, after, hsource, hspan⟩ := exists_append_of_splits hts l hl
  rw [hspan]
  exact slice?_of_append hsource

end GrammarFile
