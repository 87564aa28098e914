import GrammarFile.Catalog
import Mathlib.Data.List.Nodup

/-!
# What stands in a catalog

A catalog has one entry for each of its names (`Catalog.get?_eq_some_iff`). Inserting under a name changes
what stands under it and nothing else (`Catalog.get?_insert`, `Catalog.exists_perm_insert`).
-/

namespace GrammarFile

variable {α : Type}

/-- An entry in front is passed over when another name is looked up. -/
theorem lookup_cons_of_ne {name other : String} (h : other ≠ name) (value : α)
    (entries : List (String × α)) : ((name, value) :: entries).lookup other = entries.lookup other := by
  rw [List.lookup_cons, beq_false_of_ne h]

/-- A look-up behind an entry in front asks for the name of that entry first. -/
theorem lookup_cons_eq_ite (name : String) (value : α) (entries : List (String × α)) (other : String) :
    ((name, value) :: entries).lookup other =
      if other = name then some value else entries.lookup other := by
  split
  · rename_i heq
    rw [heq, List.lookup_cons_self]
  · rename_i hne
    exact lookup_cons_of_ne hne value entries

/-- What a look-up finds is an entry. -/
theorem mem_of_lookup_eq_some {name : String} {value : α} {entries : List (String × α)}
    (h : entries.lookup name = some value) : (name, value) ∈ entries := by
  obtain ⟨before, behind, hentries, -⟩ := List.lookup_eq_some_iff.mp h
  rw [hentries]
  exact List.mem_append_right before List.mem_cons_self

/-- A key that no entry has is not found. -/
theorem lookup_eq_none_of_notMem {κ : Type} [BEq κ] [LawfulBEq κ] {key : κ} {entries : List (κ × α)}
    (h : key ∉ entries.map (·.1)) : entries.lookup key = none :=
  List.lookup_eq_none_iff.mpr fun entry hmem => bne_iff_ne.mpr fun heq =>
    h (List.mem_map.mpr ⟨entry, hmem, heq.symm⟩)

/-- Nothing stands under a name that comes before all others. -/
theorem lookup_eq_none_of_lt {name : String} {entries : List (String × α)}
    (h : ∀ entry ∈ entries, name < entry.1) : entries.lookup name = none :=
  List.lookup_eq_none_iff.mpr fun entry hmem => bne_iff_ne.mpr (String.ne_of_lt (h entry hmem))

/-- An insertion answers for its own name and leaves every other answer as it was. -/
theorem lookup_insertEntry (name : String) (value : α) (entries : List (String × α)) (other : String) :
    (insertEntry name value entries).lookup other =
      if other = name then some value else entries.lookup other := by
  induction entries with
  | nil => exact lookup_cons_eq_ite name value [] other
  | cons head rest ih =>
    obtain ⟨kept, old⟩ := head
    rw [insertEntry]
    split
    · exact lookup_cons_eq_ite name value _ other
    split
    · rename_i heq
      rw [lookup_cons_eq_ite]
      split
      · rfl
      · rename_i hne
        rw [lookup_cons_of_ne (heq ▸ hne)]
    · rename_i hkept
      by_cases hother : other = kept
      · rw [hother, List.lookup_cons_self, List.lookup_cons_self, if_neg (Ne.symm hkept)]
      · rw [lookup_cons_of_ne hother, lookup_cons_of_ne hother, ih]

/-- An insertion replaces the entry of its name, where there is one. -/
theorem exists_perm_insertEntry (name : String) (value : α) {entries : List (String × α)}
    (h : entries.Pairwise fun a b => a.1 < b.1) :
    ∃ rest, (insertEntry name value entries).Perm ((name, value) :: rest) ∧
      entries.Perm ((entries.lookup name).toList.map (name, ·) ++ rest) := by
  induction entries with
  | nil => exact ⟨[], .refl _, .refl _⟩
  | cons head rest ih =>
    obtain ⟨hhead, hrest⟩ := List.pairwise_cons.mp h
    obtain ⟨kept, old⟩ := head
    rw [insertEntry]
    by_cases hlt : name < kept
    · have hnone : ((kept, old) :: rest).lookup name = none := by
        refine lookup_eq_none_of_lt fun entry hmem => ?_
        rcases List.mem_cons.mp hmem with rfl | hmem
        · exact hlt
        · exact String.lt_trans hlt (hhead entry hmem)
      rw [if_pos hlt, hnone]
      exact ⟨_, .refl _, .refl _⟩
    rw [if_neg hlt]
    by_cases heq : name = kept
    · rw [if_pos heq, heq, List.lookup_cons_self]
      exact ⟨rest, .refl _, .refl _⟩
    · obtain ⟨others, hinserted, hentries⟩ := ih hrest
      rw [if_neg heq, lookup_cons_of_ne heq]
      exact ⟨(kept, old) :: others, (hinserted.cons _).trans (.swap ..),
        (hentries.cons _).trans List.perm_middle.symm⟩

namespace Catalog

variable {catalog : Catalog α}

/-- A catalog answers with what was put in last under a name, and as before for every other name. -/
theorem get?_insert (catalog : Catalog α) (name : String) (value : α) (other : String) :
    (catalog.insert name value).get? other = if other = name then some value else catalog.get? other :=
  lookup_insertEntry name value catalog.entries other

/-- An insertion puts its entry in the place of the one of the same name, and keeps the rest. -/
theorem exists_perm_insert (catalog : Catalog α) (name : String) (value : α) :
    ∃ rest, (catalog.insert name value).entries.Perm ((name, value) :: rest) ∧
      catalog.entries.Perm ((catalog.get? name).toList.map (name, ·) ++ rest) :=
  exists_perm_insertEntry name value catalog.ascending

/-- The names of a catalog stand in strictly increasing order. -/
theorem pairwise_names (catalog : Catalog α) : catalog.names.Pairwise (· < ·) :=
  List.pairwise_map.mpr catalog.ascending

/-- No name occurs twice in a catalog. -/
theorem nodup_names (catalog : Catalog α) : catalog.names.Nodup :=
  catalog.pairwise_names.imp String.ne_of_lt

/-- **There is one entry for each name.** -/
theorem get?_eq_some_iff {name : String} {value : α} :
    catalog.get? name = some value ↔ (name, value) ∈ catalog.entries := by
  rw [get?]
  constructor
  · exact mem_of_lookup_eq_some
  · intro hmem
    obtain ⟨before, behind, hentries⟩ := List.append_of_mem hmem
    refine List.lookup_eq_some_iff.mpr ⟨before, behind, hentries, ?_⟩
    intro entry hbefore
    -- the entries in front of this one have smaller names
    have hascending := catalog.ascending
    rw [hentries] at hascending
    have hlt := (List.pairwise_append.mp hascending).2.2 entry hbefore _ List.mem_cons_self
    exact bne_iff_ne.mpr (String.ne_of_lt hlt).symm

/-- The names of a catalog are those that it has an answer for. -/
theorem mem_names_iff {name : String} : name ∈ catalog.names ↔ (catalog.get? name).isSome := by
  simp only [names, List.mem_map, Option.isSome_iff_exists, get?_eq_some_iff, Prod.exists,
    exists_and_right, exists_eq_right]

/-- Catalogs with values under the same names list them alike. -/
theorem names_eq_of_isSome_eq {β : Type} {other : Catalog β}
    (h : ∀ name, (catalog.get? name).isSome = (other.get? name).isSome) :
    catalog.names = other.names := by
  have hperm : catalog.names.Perm other.names := by
    apply (List.perm_ext_iff_of_nodup catalog.nodup_names other.nodup_names).mpr
    intro name
    rw [mem_names_iff, mem_names_iff, h]
  refine hperm.eq_of_pairwise ?_ catalog.pairwise_names other.pairwise_names
  intro a b _ _ hlt hgt
  exact absurd (String.lt_trans hlt hgt) (String.lt_irrefl a)

/-! ### Catalogs from lists -/

/-- Catalogs with the same entries are the same. -/
theorem eq_of_entries_eq {other : Catalog α} (h : catalog.entries = other.entries) : catalog = other := by
  obtain ⟨entries, ascending⟩ := catalog
  obtain ⟨entries', ascending'⟩ := other
  obtain rfl : entries = entries' := h
  rfl

/-- An entry whose name comes after all others is put at the end. -/
theorem insertEntry_of_lt {name : String} (value : α) {entries : List (String × α)}
    (h : ∀ entry ∈ entries, entry.1 < name) :
    insertEntry name value entries = entries ++ [(name, value)] := by
  induction entries with
  | nil => rfl
  | cons head rest ih =>
    obtain ⟨hhead, hrest⟩ := List.forall_mem_cons.mp h
    have hbefore : ¬ name < head.1 := fun hlt => absurd (String.lt_trans hhead hlt) (String.lt_irrefl _)
    rw [insertEntry, if_neg hbefore, if_neg (String.ne_of_lt hhead).symm, ih hrest, List.cons_append]

/-- Entries that come in increasing order are put at the end, one behind the other. -/
theorem entries_foldl_insert (catalog : Catalog α) (entries : List (String × α))
    (h : (catalog.entries ++ entries).Pairwise fun a b => a.1 < b.1) :
    (entries.foldl (fun catalog (name, value) => catalog.insert name value) catalog).entries =
      catalog.entries ++ entries := by
  induction entries generalizing catalog with
  | nil => simp
  | cons entry entries ih =>
    have hlast : (catalog.insert entry.1 entry.2).entries = catalog.entries ++ [entry] :=
      insertEntry_of_lt entry.2 fun other hother =>
        (List.pairwise_append.mp h).2.2 other hother entry List.mem_cons_self
    rw [List.foldl_cons, ih, hlast, List.append_assoc, List.singleton_append]
    rwa [hlast, List.append_assoc, List.singleton_append]

/-- A catalog is made of its entries again. -/
theorem ofList_entries (catalog : Catalog α) : ofList catalog.entries = catalog :=
  eq_of_entries_eq (entries_foldl_insert empty catalog.entries catalog.ascending)

end Catalog

end GrammarFile
