import GrammarFile.Proofs.Catalog
import GrammarFile.Settings.Load

/-!
# What assignments change

`Setting.put` changes what stands under one name and nothing else (`Setting.get?_put`). Assigning
the entries of a table in turn, as is done with each file of settings, changes what stands under the
names of the entries: a table is merged into what was there, and anything else takes its place
(`Setting.merge`). Where the names are in lower case and all different, the entries do not get in
each other's way (`Setting.get?_assignAll`).
-/

namespace GrammarFile.Setting

/-- Whether a value is a table. -/
def IsTable (setting : Setting) : Prop :=
  ∃ entries origin, setting = table entries origin

/-! ### Putting a value under a name -/

/-- A value that is put under a name is found there, and every other answer stays. -/
theorem lookup_putEntry (name : String) (value : Setting) (entries : List (String × Setting))
    (other : String) :
    (putEntry name value entries).lookup other =
      if other = name then some value else entries.lookup other := by
  induction entries with
  | nil => exact lookup_cons_eq_ite name value [] other
  | cons entry entries ih =>
    obtain ⟨first, kept⟩ := entry
    rw [putEntry]
    split
    · rename_i hfirst
      rw [hfirst, lookup_cons_eq_ite, lookup_cons_eq_ite]
      split <;> rfl
    · rename_i hfirst
      rw [lookup_cons_eq_ite, lookup_cons_eq_ite, ih]
      split
      · rename_i hother
        rw [hother, if_neg hfirst]
      · rfl

/-- A setting answers with what was put under a name, and as before for every other name. -/
@[simp]
theorem get?_put (setting : Setting) (name : String) (value : Setting) (other : String) :
    (setting.put name value).get? other = if other = name then some value else setting.get? other := by
  cases setting with
  | table entries origin => exact lookup_putEntry name value entries other
  | plain | array => exact lookup_putEntry name value [] other

/-- Putting a value under a name makes a table. -/
theorem isTable_put (setting : Setting) (name : String) (value : Setting) :
    (setting.put name value).IsTable := by
  cases setting <;> exact ⟨_, _, rfl⟩

/-! ### Assigning a table -/

/-- What stands under a name after the assignment of a value to it: a table is merged into what was
there. -/
def merge (old : Option Setting) : Setting → Setting
  | table entries _ => assignAll (old.getD noEntries) entries
  | value => value

/-- An assignment puts a merged value under the name in lower case. -/
theorem assign_eq_put (setting : Setting) (name : String) (value : Setting) :
    setting.assign name value =
      setting.put (Text.lowercase name) (merge (setting.get? (Text.lowercase name)) value) := by
  cases value with
  | table entries origin => rw [assign]; rfl
  | plain | array => simp only [assign, merge]

/-- Assigning entries to a table leaves a table. -/
theorem isTable_assignAll {setting : Setting} (h : setting.IsTable) (entries : List (String × Setting)) :
    (assignAll setting entries).IsTable := by
  induction entries generalizing setting with
  | nil => rwa [assignAll]
  | cons entry entries ih =>
    rw [assignAll, assign_eq_put]
    exact ih (isTable_put _ _ _)

/-- **Each entry of a table that is assigned changes what stands under its own name, and nothing
else.** -/
theorem get?_assignAll {entries : List (String × Setting)}
    (hlower : ∀ entry ∈ entries, Text.lowercase entry.1 = entry.1) (hnames : (entries.map (·.1)).Nodup)
    (setting : Setting) (name : String) :
    (assignAll setting entries).get? name =
      (entries.lookup name).elim (setting.get? name) fun value =>
        some (merge (setting.get? name) value) := by
  induction entries generalizing setting with
  | nil => rw [assignAll, List.lookup_nil]; rfl
  | cons entry entries ih =>
    obtain ⟨first, value⟩ := entry
    obtain ⟨hfirst, hrest⟩ := List.forall_mem_cons.mp hlower
    obtain ⟨hnotMem, hnodup⟩ := List.nodup_cons.mp hnames
    rw [assignAll, assign_eq_put, hfirst, ih hrest hnodup, get?_put]
    rw [lookup_cons_eq_ite]
    split
    · rename_i heq
      rw [heq, lookup_eq_none_of_notMem hnotMem]
      rfl
    · rfl

/-- Settings after the assignment of a value of one piece to a name in a table. -/
theorem assignAt_entry_entry {setting : Setting} {outer inner : String}
    (houter : Text.lowercase outer = outer)
    (hinner : Text.lowercase inner = inner) (value : Plain) (origin : Option String) :
    setting.assignAt [.entry outer, .entry inner] (plain value origin) =
      setting.put outer (((setting.get? outer).getD unset).put inner (plain value origin)) := by
  simp only [assignAt, assign, houter, hinner]

end GrammarFile.Setting
