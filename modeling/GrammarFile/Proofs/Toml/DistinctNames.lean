import GrammarFile.Toml.Reader
import Mathlib.Data.List.Nodup

/-!
# No name twice

No table of a TOML document has two entries of one name (`Toml.distinct_of_read`): not the document
itself, and no table at any depth of it, between braces or below a header. While a document is being
read this holds of the tables read so far (`Toml.EntriesDistinct`), and whatever adds to them goes
through `alter`, which changes the entry of a name that is there already
(`Toml.EntriesDistinct.alter`). The readers of values bring in nothing else, since only arrays and
tables have parts.
-/

namespace GrammarFile

/-! ### Results that may fail -/

section

variable {ε ε' α β : Type}

/-- What goes on succeeds if both parts do. -/
theorem bind_eq_ok_iff {x : Except ε α} {f : α → Except ε β} {b : β} :
    (x >>= f) = .ok b ↔ ∃ a, x = .ok a ∧ f a = .ok b := by
  cases x with
  | error e => exact ⟨nofun, nofun⟩
  | ok a => exact ⟨fun h => ⟨a, rfl, h⟩, fun ⟨a', ha, h⟩ => Except.ok.inj ha ▸ h⟩

/-- What is made of a result comes from it. -/
theorem map_eq_ok_iff {x : Except ε α} {f : α → β} {b : β} :
    x.map f = .ok b ↔ ∃ a, x = .ok a ∧ f a = b := by
  cases x <;> simp [Except.map]

/-- An optional result is there if it was a success. -/
theorem toOption_eq_some_iff {x : Except ε α} {a : α} : x.toOption = some a ↔ x = .ok a := by
  cases x <;> simp [Except.toOption]

/-- Another error does not make a success. -/
theorem eq_ok_of_mapError_eq_ok {x : Except ε α} {f : ε → ε'} {a : α} (h : x.mapError f = .ok a) :
    x = .ok a := by
  cases x with
  | error e => cases h
  | ok a' => exact congrArg _ (Except.ok.inj h)

end

namespace Toml

/-! ### Values -/

/-- Whether no table in a value has two entries of one name. -/
inductive Distinct : Toml → Prop where
  | string (text : String) : Distinct (.string text)
  | integer (value : Int) : Distinct (.integer value)
  | float (value : Binary64) : Distinct (.float value)
  | boolean (value : Bool) : Distinct (.boolean value)
  | moment (text : String) : Distinct (.moment text)
  | array {items : List Toml} (parts : ∀ item ∈ items, Distinct item) : Distinct (.array items)
  | table {entries : List (String × Toml)} (names : (entries.map (·.1)).Nodup)
      (parts : ∀ entry ∈ entries, Distinct entry.2) : Distinct (.table entries)

/-- Whether no table among the entries of a table that is being read has two entries of one name,
nor the table itself. -/
structure EntriesDistinct (entries : Entries) : Prop where
  names : (entries.map (·.1)).Nodup
  parts : ∀ entry ∈ entries, entry.2.toValue.Distinct

/-- Entries are turned into values one by one. -/
theorem entriesToValues_eq_map (entries : Entries) :
    entriesToValues entries = entries.map fun entry => (entry.1, entry.2.toValue) := by
  induction entries with
  | nil => rw [entriesToValues, List.map_nil]
  | cons entry entries ih => rw [entriesToValues, ih, List.map_cons]

/-- A table of values has distinct names if the entries have. -/
theorem distinct_entriesToValues_iff {entries : Entries} :
    (table (entriesToValues entries)).Distinct ↔ EntriesDistinct entries := by
  rw [entriesToValues_eq_map]
  constructor
  · rintro (_ | _ | _ | _ | _ | _ | ⟨names, parts⟩)
    rw [List.map_map] at names
    exact ⟨names, fun entry hentry => parts _ (List.mem_map_of_mem hentry)⟩
  · rintro ⟨names, parts⟩
    refine .table ?_ fun entry hentry => ?_
    · rw [List.map_map]
      exact names
    · obtain ⟨entry', hentry', rfl⟩ := List.mem_map.mp hentry
      exact parts entry' hentry'

/-- A table that was read has distinct names if its entries have. -/
theorem distinct_table_iff {origin : TableOrigin} {entries : Entries} :
    (Node.table origin entries).toValue.Distinct ↔ EntriesDistinct entries := by
  rw [Node.toValue, distinct_entriesToValues_iff]

/-- No entries have no repeated names. -/
theorem EntriesDistinct.nil : EntriesDistinct [] :=
  ⟨.nil, nofun⟩

/-- Tables are turned into values one by one. -/
theorem tablesToValues_eq_map (tables : List Entries) :
    tablesToValues tables = tables.map fun entries => table (entriesToValues entries) := by
  induction tables with
  | nil => rw [tablesToValues, List.map_nil]
  | cons entries tables ih => rw [tablesToValues, ih, List.map_cons]

/-- An array of tables is made of its finished tables and of the last one. -/
theorem distinct_tables_iff {finished : List Entries} {last : Entries} :
    (Node.tables finished last).toValue.Distinct ↔
      (∀ entries ∈ finished, EntriesDistinct entries) ∧ EntriesDistinct last := by
  rw [Node.toValue, tablesToValues_eq_map]
  constructor
  · rintro (_ | _ | _ | _ | _ | ⟨parts⟩)
    obtain ⟨hfinished, hlast⟩ := List.forall_mem_append.mp parts
    exact ⟨fun entries hentries =>
      distinct_entriesToValues_iff.mp (hfinished _ (List.mem_map_of_mem hentries)),
      distinct_entriesToValues_iff.mp (hlast _ List.mem_cons_self)⟩
  · rintro ⟨hfinished, hlast⟩
    refine .array (List.forall_mem_append.mpr ⟨fun item hitem => ?_, ?_⟩)
    · obtain ⟨entries, hentries, rfl⟩ := List.mem_map.mp hitem
      exact distinct_entriesToValues_iff.mpr (hfinished entries hentries)
    · exact List.forall_mem_singleton.mpr (distinct_entriesToValues_iff.mpr hlast)

/-! ### Building tables -/

/-- A change to the entry of one name adds no other name. -/
theorem mem_names_of_alter {key : String} {change : Option Node → Except TableError Node}
    {entries entries' : Entries} (h : alter key change entries = .ok entries') {name : String}
    (hname : name ∈ entries'.map (·.1)) : name = key ∨ name ∈ entries.map (·.1) := by
  induction entries generalizing entries' with
  | nil =>
    obtain ⟨node, -, rfl⟩ := map_eq_ok_iff.mp h
    exact .inl (List.mem_singleton.mp hname)
  | cons entry entries ih =>
    rw [alter] at h
    split at h
    · obtain ⟨node, -, rfl⟩ := map_eq_ok_iff.mp h
      exact .inr hname
    · obtain ⟨rest, hrest, rfl⟩ := map_eq_ok_iff.mp h
      rcases List.mem_cons.mp hname with rfl | hname
      · exact .inr List.mem_cons_self
      · exact (ih hrest hname).imp_right (List.mem_cons_of_mem _)

/-- **A change to the entry of one name keeps names distinct**, if it keeps them distinct in the entry. -/
theorem EntriesDistinct.alter {key : String} {change : Option Node → Except TableError Node}
    {entries entries' : Entries} (h : EntriesDistinct entries)
    (hchange : ∀ before node, (∀ n ∈ before, n.toValue.Distinct) → change before = .ok node →
      node.toValue.Distinct)
    (halter : Toml.alter key change entries = .ok entries') : EntriesDistinct entries' := by
  induction entries generalizing entries' with
  | nil =>
    obtain ⟨node, hnode, rfl⟩ := map_eq_ok_iff.mp halter
    exact ⟨List.nodup_singleton _, List.forall_mem_singleton.mpr (hchange none node nofun hnode)⟩
  | cons entry entries ih =>
    obtain ⟨hname, hnames⟩ := List.nodup_cons.mp h.names
    obtain ⟨hpart, hparts⟩ := List.forall_mem_cons.mp h.parts
    rw [Toml.alter] at halter
    split at halter
    · obtain ⟨node, hnode, rfl⟩ := map_eq_ok_iff.mp halter
      have hdistinct : node.toValue.Distinct :=
        hchange (some entry.2) node (fun n hn => Option.some.inj hn ▸ hpart) hnode
      exact ⟨h.names, List.forall_mem_cons.mpr ⟨hdistinct, hparts⟩⟩
    · rename_i hne
      obtain ⟨rest, hrest, rfl⟩ := map_eq_ok_iff.mp halter
      obtain ⟨hrestnames, hrestparts⟩ := ih ⟨hnames, hparts⟩ hrest
      refine ⟨List.nodup_cons.mpr ⟨fun hmem => ?_, hrestnames⟩,
        List.forall_mem_cons.mpr ⟨hpart, hrestparts⟩⟩
      exact (mem_names_of_alter hrest hmem).elim hne hname

/-- Whether a change to the entries of a table keeps names distinct. -/
def KeepsDistinct (change : Entries → Except TableError Entries) : Prop :=
  ∀ entries entries', EntriesDistinct entries → change entries = .ok entries' → EntriesDistinct entries'

/-- Changing what stands under one name keeps names distinct if the new value does. -/
theorem KeepsDistinct.alter {key : String} {change : Option Node → Except TableError Node}
    (h : ∀ before node, (∀ n ∈ before, n.toValue.Distinct) → change before = .ok node →
      node.toValue.Distinct) : KeepsDistinct (Toml.alter key change) :=
  fun _ _ hentries halter => hentries.alter h halter

/-- A change that keeps names distinct in the table that a path leads to does so in the table that
the path starts from. -/
theorem KeepsDistinct.alterAt {made : TableOrigin} {enters : TableOrigin → Bool}
    {change : TableOrigin → Entries → Except TableError Entries}
    (h : ∀ origin, KeepsDistinct (change origin))
    (path before : List String) (origin : TableOrigin) :
    KeepsDistinct (Toml.alterAt made enters change before path origin) := by
  induction path generalizing before origin with
  | nil => exact h origin
  | cons key path ih =>
    refine KeepsDistinct.alter fun old node hold hnode => ?_
    rcases old with _ | ⟨value⟩ | ⟨origin, entries⟩ | ⟨finished, last⟩
    · obtain ⟨entries, hentries, rfl⟩ := map_eq_ok_iff.mp hnode
      exact distinct_table_iff.mpr (ih _ _ _ _ .nil hentries)
    · cases hnode
    · dsimp only at hnode
      split at hnode
      · obtain ⟨entries', hentries', rfl⟩ := map_eq_ok_iff.mp hnode
        exact distinct_table_iff.mpr (ih _ _ _ _ (distinct_table_iff.mp (hold _ rfl)) hentries')
      · cases hnode
    · obtain ⟨hfinished, hlast⟩ := distinct_tables_iff.mp (hold _ rfl)
      obtain ⟨last', hlast', rfl⟩ := map_eq_ok_iff.mp hnode
      exact distinct_tables_iff.mpr ⟨hfinished, ih _ _ _ _ hlast hlast'⟩

/-- Defining a name at a path keeps names distinct. -/
theorem keepsDistinct_define (table : Option (List String)) (path : List String) (key : String)
    {value : Toml} (h : value.Distinct) : KeepsDistinct (define table path key value) := by
  refine KeepsDistinct.alterAt (fun origin entries entries' hentries hdefine => ?_) path [] .defined
  split at hdefine
  · refine hentries.alter (fun before node _ hnode => ?_) hdefine
    cases before with
    | none =>
      obtain rfl := Except.ok.inj hnode
      exact h
    | some => cases hnode
  · cases hdefine

/-- Defining a name below a header keeps names distinct. -/
theorem keepsDistinct_defineIn (header path : List String) (key : String) {value : Toml}
    (h : value.Distinct) :
    KeepsDistinct (defineIn header path key value) :=
  KeepsDistinct.alterAt (fun _ => keepsDistinct_define (some header) path key h) header [] .defined

/-- Opening a table keeps names distinct. -/
theorem keepsDistinct_openTable (path : List String) (key : String) :
    KeepsDistinct (openTable path key) := by
  refine KeepsDistinct.alterAt
    (fun _ => KeepsDistinct.alter fun before node hbefore hnode => ?_) path [] .defined
  split at hnode
  · obtain rfl := Except.ok.inj hnode
    exact distinct_table_iff.mpr .nil
  · obtain rfl := Except.ok.inj hnode
    exact distinct_table_iff.mpr (distinct_table_iff.mp (hbefore _ rfl))
  · cases hnode

/-- Appending to an array of tables keeps names distinct. -/
theorem keepsDistinct_appendTable (path : List String) (key : String) :
    KeepsDistinct (appendTable path key) := by
  refine KeepsDistinct.alterAt
    (fun _ => KeepsDistinct.alter fun before node hbefore hnode => ?_) path [] .defined
  split at hnode
  · obtain rfl := Except.ok.inj hnode
    exact distinct_tables_iff.mpr ⟨nofun, .nil⟩
  · rename_i finished last
    obtain rfl := Except.ok.inj hnode
    obtain ⟨hfinished, hlast⟩ := distinct_tables_iff.mp (hbefore _ rfl)
    refine distinct_tables_iff.mpr ⟨List.forall_mem_append.mpr ⟨hfinished, ?_⟩, .nil⟩
    exact List.forall_mem_singleton.mpr hlast
  · cases hnode

/-! ### Reading values -/

/-- Whether all that a reader gives has some property. -/
def Reader.Gives {α : Type} (P : α → Prop) (reader : Reader α) : Prop :=
  ∀ cs value rest, reader cs = .ok (value, rest) → P value

/-- A whole number has no names. -/
theorem distinct_of_wholeNumber {start rest rest' : List Char} {n : Int} {value : Toml}
    (h : wholeNumber start rest n = .ok (value, rest')) : value.Distinct := by
  unfold wholeNumber at h
  split at h
  · cases h
    exact .integer n
  · split at h <;> cases h

/-- A number in another base has no names. -/
theorem distinct_of_readInBase {base : Nat} {name : String} {start cs rest : List Char} {value : Toml}
    (h : readInBase base name start cs = .ok (value, rest)) : value.Distinct := by
  obtain ⟨digits, -, h⟩ := bind_eq_ok_iff.mp h
  exact distinct_of_wholeNumber h

/-- A number that is read has no names. -/
theorem gives_readNumber : readNumber.Gives Distinct := by
  intro start value rest h
  obtain ⟨decimal, -, h⟩ := bind_eq_ok_iff.mp h
  obtain ⟨places, -, h⟩ := bind_eq_ok_iff.mp h
  obtain ⟨exponent, -, h⟩ := bind_eq_ok_iff.mp h
  dsimp only at h
  split at h
  · exact distinct_of_wholeNumber h
  · split at h
    · cases h
    · cases h
      exact .float _

/-- A numeral that is read has no names. -/
theorem gives_readNumeral : readNumeral.Gives Distinct := by
  intro cs value rest h
  unfold readNumeral at h
  split at h
  · obtain ⟨moment, -, heq⟩ := map_eq_ok_iff.mp h
    cases heq
    exact .moment _
  · cases h
    exact .float _
  · split at h
    · exact distinct_of_readInBase h
    · exact distinct_of_readInBase h
    · exact distinct_of_readInBase h
    · exact gives_readNumber _ _ _ h

/-- A word stands for a value with distinct names. -/
theorem gives_readWord (word : String) {value : Toml} (hvalue : value.Distinct) :
    (readWord word value).Gives Distinct := by
  intro cs value' rest h
  unfold readWord at h
  split at h
  · cases h
    exact hvalue
  · cases h

/-- A value without parts has no names. -/
theorem gives_readAtom : readAtom.Gives Distinct := by
  intro cs value rest h
  unfold readAtom at h
  split at h
  · cases h
  · obtain ⟨text, -, heq⟩ := map_eq_ok_iff.mp h
    cases heq
    exact .string _
  · obtain ⟨text, -, heq⟩ := map_eq_ok_iff.mp h
    cases heq
    exact .string _
  · exact gives_readWord _ (.boolean true) _ _ _ h
  · exact gives_readWord _ (.boolean false) _ _ _ h
  · cases h
  · cases h
  · split at h
    · exact gives_readNumeral _ _ _ h
    · split at h
      · cases h
        exact .float _
      · cases h

section

variable {value : Reader Toml} (hvalue : value.Gives Distinct)

include hvalue

/-- The items of an array have distinct names if values have. -/
theorem gives_readItems (bound : Nat) :
    (readItems value bound).Gives fun items => ∀ item ∈ items, item.Distinct := by
  induction bound with
  | zero =>
    intro cs items rest h
    cases h
    exact nofun
  | succ bound ih =>
    intro cs items rest h
    rw [readItems] at h
    split at h
    · split at h
      · cases h
        exact nofun
      · cases h
    · rename_i item after hitem
      obtain ⟨start, -, hstart⟩ := bind_eq_ok_iff.mp hitem
      obtain ⟨⟨item', after'⟩, hread, hskip⟩ := bind_eq_ok_iff.mp hstart
      obtain ⟨left, -, hpair⟩ := bind_eq_ok_iff.mp hskip
      obtain ⟨rfl, rfl⟩ := Prod.mk.inj (Except.ok.inj hpair)
      have hdistinct := hvalue _ _ _ hread
      split at h
      · obtain ⟨⟨items', after''⟩, hmore, hresult⟩ := bind_eq_ok_iff.mp h
        obtain ⟨rfl, -⟩ := Prod.mk.inj (Except.ok.inj hresult)
        exact List.forall_mem_cons.mpr ⟨hdistinct, ih _ _ _ hmore⟩
      · cases h
        exact List.forall_mem_singleton.mpr hdistinct

/-- An array has distinct names if values have. -/
theorem gives_readArray : (readArray value).Gives Distinct := by
  intro cs array rest h
  obtain ⟨⟨items, after⟩, hitems, h⟩ := bind_eq_ok_iff.mp h
  obtain ⟨left, -, h⟩ := bind_eq_ok_iff.mp h
  split at h
  · obtain ⟨rfl, -⟩ := Prod.mk.inj (Except.ok.inj h)
    exact .array (gives_readItems hvalue _ _ _ _ hitems)
  · cases h

/-- The value of a pair has distinct names if values have. -/
theorem gives_readPair : (readPair value).Gives fun pair => pair.2.Distinct := by
  intro cs pair rest h
  obtain ⟨⟨key, after⟩, -, h⟩ := bind_eq_ok_iff.mp h
  dsimp only at h
  split at h
  · obtain ⟨⟨found, left⟩, hfound, h⟩ := bind_eq_ok_iff.mp h
    obtain ⟨rfl, -⟩ := Prod.mk.inj (Except.ok.inj h)
    exact hvalue _ _ _ (eq_ok_of_mapError_eq_ok hfound)
  · cases h

/-- The values of pairs have distinct names if values have. -/
theorem gives_readPairs (bound : Nat) :
    (readPairs value bound).Gives fun pairs => ∀ pair ∈ pairs, pair.2.Distinct := by
  induction bound with
  | zero =>
    intro cs pairs rest h
    cases h
    exact nofun
  | succ bound ih =>
    intro cs pairs rest h
    rw [readPairs] at h
    split at h
    · split at h
      · cases h
        exact nofun
      · cases h
    · rename_i pair after hpair
      have hdistinct := gives_readPair hvalue _ _ _ hpair
      dsimp only at h
      split at h
      · obtain ⟨⟨pairs', after'⟩, hmore, hresult⟩ := bind_eq_ok_iff.mp h
        obtain ⟨rfl, -⟩ := Prod.mk.inj (Except.ok.inj hresult)
        exact List.forall_mem_cons.mpr ⟨hdistinct, ih _ _ _ hmore⟩
      · cases h
        exact List.forall_mem_singleton.mpr hdistinct

end

/-- Defining values in turn keeps names distinct. -/
theorem entriesDistinct_of_defineAll {pairs : List ((List String × String) × Toml)} {entries : Entries}
    (hpairs : ∀ pair ∈ pairs, pair.2.Distinct) (h : defineAll pairs = .ok entries) :
    EntriesDistinct entries := by
  have hfold : ∀ start : Entries, EntriesDistinct start →
      pairs.foldlM (fun entries pair => define none pair.1.1 pair.1.2 pair.2 entries) start =
        .ok entries → EntriesDistinct entries := by
    clear h
    induction pairs with
    | nil =>
      intro start hstart h
      cases h
      exact hstart
    | cons pair pairs ih =>
      intro start hstart h
      obtain ⟨hpair, hrest⟩ := List.forall_mem_cons.mp hpairs
      rw [List.foldlM_cons] at h
      obtain ⟨next, hnext, h⟩ := bind_eq_ok_iff.mp h
      exact ih hrest next (keepsDistinct_define none pair.1.1 pair.1.2 hpair _ _ hstart hnext) h
  exact hfold [] .nil h

/-- An inline table has distinct names if values have. -/
theorem gives_readInlineTable {value : Reader Toml} (hvalue : value.Gives Distinct) :
    (readInlineTable value).Gives Distinct := by
  intro cs table rest h
  obtain ⟨⟨pairs, after⟩, hpairs, h⟩ := bind_eq_ok_iff.mp h
  obtain ⟨entries, hentries, h⟩ := bind_eq_ok_iff.mp h
  split at h
  · obtain ⟨rfl, -⟩ := Prod.mk.inj (Except.ok.inj h)
    exact distinct_entriesToValues_iff.mpr
      (entriesDistinct_of_defineAll (gives_readPairs hvalue _ _ _ _ hpairs)
        (eq_ok_of_mapError_eq_ok hentries))
  · cases h

/-- A value that is read has distinct names, at any depth. -/
theorem gives_readValue (depth : Nat) : (readValue depth).Gives Distinct := by
  induction depth with
  | zero =>
    intro cs value rest h
    unfold readValue at h
    split at h
    · cases h
    · cases h
    · exact gives_readAtom _ _ _ h
  | succ depth ih =>
    intro cs value rest h
    unfold readValue at h
    split at h
    · exact gives_readArray ih _ _ _ h
    · exact gives_readInlineTable ih _ _ _ h
    · exact gives_readAtom _ _ _ h

/-! ### Reading documents -/

/-- A header leaves a draft with distinct names if its change does. -/
theorem gives_readHeader {change : List String → String → Entries → Except TableError Entries}
    (hchange : ∀ path key, KeepsDistinct (change path key)) (close : String) (start : List Char)
    {draft : Draft} (hdraft : EntriesDistinct draft.entries) :
    (readHeader change close start draft).Gives fun draft => EntriesDistinct draft.entries := by
  intro cs draft' rest h
  obtain ⟨⟨⟨path, key⟩, after⟩, -, h⟩ := bind_eq_ok_iff.mp h
  dsimp only at h
  split at h
  · cases h
  · obtain ⟨left, -, h⟩ := bind_eq_ok_iff.mp h
    obtain ⟨entries, hentries, h⟩ := bind_eq_ok_iff.mp h
    obtain ⟨rfl, -⟩ := Prod.mk.inj (Except.ok.inj h)
    exact hchange path key _ _ hdraft (eq_ok_of_mapError_eq_ok hentries)

/-- **A statement keeps names distinct**, be it a header or a value under a key. -/
theorem gives_readStatement {draft : Draft} (hdraft : EntriesDistinct draft.entries) :
    (readStatement draft).Gives fun draft => EntriesDistinct draft.entries := by
  intro cs draft' rest h
  unfold readStatement at h
  split at h
  · exact gives_readHeader keepsDistinct_appendTable _ _ hdraft _ _ _ (eq_ok_of_mapError_eq_ok h)
  · cases h
  · exact gives_readHeader keepsDistinct_openTable _ _ hdraft _ _ _ (eq_ok_of_mapError_eq_ok h)
  · obtain ⟨⟨⟨⟨path, key⟩, value⟩, after⟩, hpair, h⟩ := bind_eq_ok_iff.mp h
    obtain ⟨left, -, h⟩ := bind_eq_ok_iff.mp h
    obtain ⟨entries, hentries, h⟩ := bind_eq_ok_iff.mp h
    obtain ⟨rfl, -⟩ := Prod.mk.inj (Except.ok.inj h)
    have hvalue : value.Distinct := gives_readPair (gives_readValue depthLimit) _ _ _ hpair
    exact keepsDistinct_defineIn draft.header path key hvalue _ _ hdraft
      (eq_ok_of_mapError_eq_ok hentries)

/-- Reading statements leaves a draft with distinct names. -/
theorem entriesDistinct_of_readStatements {bound : Nat} {draft draft' : Draft} {cs : List Char}
    (hdraft : EntriesDistinct draft.entries) (h : readStatements bound draft cs = .ok draft') :
    EntriesDistinct draft'.entries := by
  induction bound generalizing draft cs with
  | zero => cases h
  | succ bound ih =>
    rw [readStatements] at h
    split at h
    · cases h
      exact hdraft
    · split at h
      · cases h
        exact hdraft
      · cases h
    · cases h
    · obtain ⟨⟨next, rest⟩, hnext, h⟩ := bind_eq_ok_iff.mp h
      exact ih (gives_readStatement hdraft _ _ _ hnext) h

/-- **No table of a document has two entries of one name.** -/
theorem distinct_of_read {text : String} {entries : List (String × Toml)} (h : read text = .ok entries) :
    (table entries).Distinct := by
  obtain ⟨draft, hdraft, rfl⟩ := map_eq_ok_iff.mp h
  exact distinct_entriesToValues_iff.mpr (entriesDistinct_of_readStatements .nil hdraft)

end Toml

end GrammarFile
