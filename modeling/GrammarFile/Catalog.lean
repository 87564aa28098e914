/-!
# Catalogs

Values by name, in ascending order of the names, each name once. The order is part of the type, so two
catalogs with the same entries are equal. Inserting under a name that is there replaces its value.
-/

namespace GrammarFile

/-- Entries with a new value for a name, which takes its place in the order. -/
def insertEntry {α : Type} (name : String) (value : α) : List (String × α) → List (String × α)
  | [] => [(name, value)]
  | (other, kept) :: rest =>
    if name < other then (name, value) :: (other, kept) :: rest
    else if name = other then (name, value) :: rest
    else (other, kept) :: insertEntry name value rest

/-- An entry after an insertion is the new one or was there before. -/
theorem mem_insertEntry {α : Type} {name : String} {value : α} {entry : String × α}
    {entries : List (String × α)} (h : entry ∈ insertEntry name value entries) :
    entry = (name, value) ∨ entry ∈ entries := by
  induction entries with
  | nil => simpa [insertEntry] using h
  | cons head rest ih =>
    simp only [insertEntry] at h
    split at h
    · simpa using h
    split at h
    · rcases List.mem_cons.mp h with h | h
      · exact .inl h
      · exact .inr (List.mem_cons_of_mem _ h)
    · rcases List.mem_cons.mp h with h | h
      · exact .inr (h ▸ List.mem_cons_self)
      · exact (ih h).imp id (List.mem_cons_of_mem _)

/-- Values in ascending order of their names. -/
structure Catalog (α : Type) where
  entries : List (String × α)
  ascending : entries.Pairwise fun a b => a.1 < b.1
  deriving DecidableEq

namespace Catalog

variable {α : Type}

/-- No values. -/
def empty : Catalog α := ⟨[], .nil⟩

/-- An insertion keeps the names in ascending order. -/
theorem pairwise_insertEntry (name : String) (value : α) {entries : List (String × α)}
    (h : entries.Pairwise fun a b => a.1 < b.1) :
    (insertEntry name value entries).Pairwise fun a b => a.1 < b.1 := by
  induction entries with
  | nil => simp [insertEntry]
  | cons head rest ih =>
    obtain ⟨hh, hr⟩ := List.pairwise_cons.mp h
    simp only [insertEntry]
    split
    · rename_i hlt
      refine List.pairwise_cons.mpr ⟨fun entry he => ?_, h⟩
      rcases List.mem_cons.mp he with rfl | he
      · exact hlt
      · exact String.lt_trans hlt (hh entry he)
    split
    · rename_i heq
      exact List.pairwise_cons.mpr ⟨fun entry he => heq ▸ hh entry he, hr⟩
    · rename_i hlt hne
      have hgt : head.1 < name := by
        rcases Decidable.em (head.1 < name) with h | h
        · exact h
        · exact absurd (String.le_antisymm (String.not_lt.mp h) (String.not_lt.mp hlt)) hne
      refine List.pairwise_cons.mpr ⟨fun entry he => ?_, ih hr⟩
      rcases mem_insertEntry he with rfl | he
      · exact hgt
      · exact hh entry he

/-- The catalog with a value for a name. -/
def insert (catalog : Catalog α) (name : String) (value : α) : Catalog α :=
  ⟨insertEntry name value catalog.entries, pairwise_insertEntry name value catalog.ascending⟩

/-- The catalog of the given entries, of which a later one replaces an earlier one. -/
def ofList (entries : List (String × α)) : Catalog α :=
  entries.foldl (fun catalog (name, value) => catalog.insert name value) empty

/-- The value under a name. -/
def get? (catalog : Catalog α) (name : String) : Option α :=
  catalog.entries.lookup name

/-- The names, in ascending order. -/
def names (catalog : Catalog α) : List String :=
  catalog.entries.map (·.1)

end Catalog

/-- Named texts. -/
abbrev Attributes := Catalog String

end GrammarFile
