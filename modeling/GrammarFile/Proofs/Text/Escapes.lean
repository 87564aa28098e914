import Mathlib.Data.List.Basic

/-!
# Reading escapes

A text in which a backslash takes the next character along, whatever it is, is read from left to
right in units: pairs of a backslash and the character that it takes along, and single characters
(`unitsOf`). A backslash with nothing behind it is still pending where the text ends. Where nothing
is pending, what stands behind is read for itself (`unitsOf_append`).
-/

namespace GrammarFile

/-- A part of a text that is read in one step. -/
inductive EscapeUnit where
  /-- A character that no backslash takes along, and that is none. -/
  | single (c : Char)
  /-- A backslash and the character that it takes along. -/
  | pair (c : Char)
  /-- A backslash with nothing behind it. -/
  | pending
  deriving DecidableEq, Inhabited

namespace EscapeUnit

/-- The characters of a unit. -/
def text : EscapeUnit → List Char
  | single c => [c]
  | pair c => ['\\', c]
  | pending => ['\\']

/-- The units of a text, from left to right. -/
def unitsOf : List Char → List EscapeUnit
  | [] => []
  | c :: rest =>
    if c = '\\' then
      match rest with
      | [] => [pending]
      | next :: rest => pair next :: unitsOf rest
    else single c :: unitsOf rest

/-- The empty text has no units. -/
@[simp]
theorem unitsOf_nil : unitsOf [] = [] := by
  rw [unitsOf]

/-- A backslash takes the next character along. -/
@[simp]
theorem unitsOf_pair (c : Char) (rest : List Char) :
    unitsOf ('\\' :: c :: rest) = pair c :: unitsOf rest := by
  rw [unitsOf, if_pos rfl]

/-- A character that is no backslash is read by itself. -/
theorem unitsOf_single {c : Char} (hc : c ≠ '\\') (rest : List Char) :
    unitsOf (c :: rest) = single c :: unitsOf rest := by
  rw [unitsOf.eq_def]
  exact if_neg hc

/-- A text behind one in which nothing is pending is read for itself. -/
theorem unitsOf_append {cs : List Char} (h : pending ∉ unitsOf cs) (ds : List Char) :
    unitsOf (cs ++ ds) = unitsOf cs ++ unitsOf ds := by
  fun_induction unitsOf cs with
  | case1 => rfl
  | case2 => exact absurd List.mem_cons_self h
  | case3 next rest ih =>
    rw [List.cons_append, List.cons_append, unitsOf_pair, ih (List.not_mem_of_not_mem_cons h),
      List.cons_append]
  | case4 c rest hc ih =>
    rw [List.cons_append, unitsOf_single hc, ih (List.not_mem_of_not_mem_cons h), List.cons_append]

/-- In front of a character that is read for itself there is a text in which nothing is pending. -/
theorem exists_append_of_single_mem {c : Char} {cs : List Char} (h : single c ∈ unitsOf cs) :
    ∃ before after, cs = before ++ c :: after ∧ pending ∉ unitsOf before := by
  fun_induction unitsOf cs with
  | case1 => exact absurd h List.not_mem_nil
  | case2 => exact absurd (List.mem_singleton.mp h) nofun
  | case3 next rest ih =>
    obtain ⟨before, after, rfl, hbefore⟩ := ih ((List.mem_cons.mp h).resolve_left nofun)
    refine ⟨'\\' :: next :: before, after, rfl, ?_⟩
    rw [unitsOf_pair]
    exact List.not_mem_cons_of_ne_of_not_mem nofun hbefore
  | case4 c' rest hc ih =>
    rcases List.mem_cons.mp h with heq | h
    · obtain rfl := single.inj heq
      exact ⟨[], rest, rfl, List.not_mem_nil⟩
    · obtain ⟨before, after, rfl, hbefore⟩ := ih h
      refine ⟨c' :: before, after, rfl, ?_⟩
      rw [unitsOf_single hc]
      exact List.not_mem_cons_of_ne_of_not_mem nofun hbefore

end EscapeUnit

end GrammarFile
