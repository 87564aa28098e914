import GrammarFile.Proofs.Json.Scalars

/-!
# What is written is read back

`Spells value text` says that a text writes a JSON value, with any blanks between its parts. What is
so written is read as that value (`readValue_of_spells`), and both layouts of a value are ways to
write it, so each of them is read back (`read_compact`, `read_pretty`).
-/

namespace GrammarFile.Json

/-- Whether there is nothing but blanks. -/
def Blank (cs : List Char) : Prop :=
  ∀ c ∈ cs, isBlank c

mutual

/-- The texts that write a value, from its first character to its last one. -/
inductive Spells : Json → List Char → Prop where
  | null : Spells null "null".toList
  | boolean (b : Bool) : Spells (bool b) (if b then "true" else "false").toList
  | number (n : Number) : Spells (number n) n.write.toList
  | string (s : String) : Spells (string s) (quote s).toList
  | unreadable : Spells unreadable unreadableText.toList
  | emptyArray : Spells (array []) ['[', ']']
  | array {items : List Json} {blanks text : List Char} : Blank blanks → SpellsItems items text →
      Spells (array items) ('[' :: (blanks ++ text))
  | emptyObject : Spells (object []) ['\x7b', '\x7d']
  | object {members : List (String × Json)} {blanks text : List Char} : Blank blanks →
      SpellsMembers members text → Spells (object members) ('\x7b' :: (blanks ++ text))

/-- The texts that write the items of an array, up to its closing bracket. -/
inductive SpellsItems : List Json → List Char → Prop where
  | last {item : Json} {text blanks : List Char} : Spells item text → Blank blanks →
      SpellsItems [item] (text ++ (blanks ++ [']']))
  | more {item : Json} {items : List Json} {text blanks rest : List Char} :
    Spells item text → Blank blanks →
      SpellsItems items rest → SpellsItems (item :: items) (text ++ ',' :: (blanks ++ rest))

/-- The texts that write the members of an object, up to its closing brace. -/
inductive SpellsMembers : List (String × Json) → List Char → Prop where
  | last {name : String} {value : Json} {text blanks blanks' : List Char} :
    Blank blanks → Spells value text → Blank blanks' → SpellsMembers [(name, value)]
        ((quote name).toList ++ ':' :: (blanks ++ (text ++ (blanks' ++ ['\x7d']))))
  | more {name : String} {value : Json} {members : List (String × Json)}
    {text blanks blanks' rest : List Char} :
      Blank blanks → Spells value text → Blank blanks' → SpellsMembers members rest →
      SpellsMembers ((name, value) :: members)
        ((quote name).toList ++ ':' :: (blanks ++ (text ++ ',' :: (blanks' ++ rest))))

end

/-! ### Blanks -/

/-- Nothing is blank. -/
theorem blank_nil : Blank [] := by
  simp [Blank]

/-- The empty text is blank. -/
theorem blank_empty : Blank "".toList := by
  simp [Blank]

/-- Blanks in front are skipped. -/
theorem skip_append {blanks : List Char} (h : Blank blanks) (rest : List Char) :
    skip (blanks ++ rest) = skip rest := by
  rw [skip, List.dropWhile_append_of_pos h]
  rfl

/-- Nothing is skipped where no blank comes next. -/
theorem skip_cons_of_not {c : Char} (h : isBlank c = false) (cs : List Char) :
    skip (c :: cs) = c :: cs := by
  rw [skip, List.dropWhile_cons_of_neg (by simp [h])]

/-- What stands behind blanks, from its first character that is none. -/
theorem skip_append_cons {blanks : List Char} (h : Blank blanks) {c : Char} (hc : isBlank c = false)
    (rest : List Char) : skip (blanks ++ c :: rest) = c :: rest := by
  rw [skip_append h, skip_cons_of_not hc]

/-- No number goes on behind blanks, or at a comma, a bracket or a brace. -/
theorem ends_append {blanks : List Char} (h : Blank blanks) {c : Char} (hc : c ∈ [',', ']', '\x7d'])
    (rest : List Char) : Ends (blanks ++ c :: rest) := by
  cases blanks with
  | nil =>
    rintro d ⟨rfl⟩
    simp only [List.mem_cons, List.not_mem_nil, or_false] at hc
    rcases hc with rfl | rfl | rfl <;> decide
  | cons d blanks =>
    rintro e ⟨rfl⟩
    have hblank := h d List.mem_cons_self
    simp only [isBlank, Bool.or_eq_true, decide_eq_true_eq] at hblank
    rcases hblank with ((rfl | rfl) | rfl) | rfl <;> decide

/-! ### First characters -/

/-- The first character of a number is none that another value, or the end of an array, starts with. -/
theorem of_number_start {c : Char} (h : c.isDigit ∨ c = '-') :
    isBlank c = false ∧ c ∉ ['\x22', '[', '\x7b', 'n', 't', 'f', ']'] := by
  have hne : ∀ d, ¬ (d.isDigit ∨ d = '-') → c ≠ d := by
    rintro d hd rfl
    exact hd h
  constructor
  · simp [isBlank, hne ' ' (by decide), hne '\n' (by decide), hne '\t' (by decide), hne '\r' (by decide)]
  · intro hmem
    simp only [List.mem_cons, List.not_mem_nil, or_false] at hmem
    rcases hmem with rfl | rfl | rfl | rfl | rfl | rfl | rfl <;> revert h <;> decide

/-- A value starts with no blank, and with no closing bracket. -/
theorem Spells.exists_cons {value : Json} {text : List Char} (h : Spells value text) :
    ∃ c cs, text = c :: cs ∧ isBlank c = false ∧ c ≠ ']' := by
  cases h with
  | number n =>
    obtain ⟨c, cs, htext, hc⟩ := n.exists_write_cons
    obtain ⟨hblank, hstart⟩ := of_number_start hc
    refine ⟨c, cs, htext, hblank, ?_⟩
    rintro rfl
    exact absurd hstart (by decide)
  | string s =>
    exact ⟨'\x22', s.toList.flatMap escapeChar ++ ['\x22'], by simp [quote], by decide, by decide⟩
  | boolean b => cases b <;> exact ⟨_, _, rfl, by decide, by decide⟩
  | _ => exact ⟨_, _, rfl, by decide, by decide⟩

/-- What spells items starts with a character that does not close the array. -/
theorem SpellsItems.exists_cons {items : List Json} {text : List Char} (h : SpellsItems items text) :
    ∃ c cs, text = c :: cs ∧ isBlank c = false ∧ c ≠ ']' := by
  cases h with
  | last hitem _ =>
    obtain ⟨c, cs, rfl, hc⟩ := hitem.exists_cons
    exact ⟨c, _, rfl, hc⟩
  | more hitem _ _ =>
    obtain ⟨c, cs, rfl, hc⟩ := hitem.exists_cons
    exact ⟨c, _, rfl, hc⟩

/-- The members of an object start with a quote. -/
theorem SpellsMembers.exists_cons {members : List (String × Json)} {text : List Char}
    (h : SpellsMembers members text) : ∃ cs, text = '\x22' :: cs := by
  cases h <;> simp [quote]

/-! ### Reading -/

/-- Whether values are read up to a bound. -/
def ReadsValues (bound : Nat) : Prop :=
  ∀ ⦃value text⦄, Spells value text → ∀ {blanks rest : List Char}, Blank blanks →
    2 * text.length < bound →
    Ends rest → readValue bound (blanks ++ (text ++ rest)) = some (value, rest)

/-- Whether the items of arrays are read up to a bound. -/
def ReadsItems (bound : Nat) : Prop :=
  ∀ ⦃items text⦄, SpellsItems items text → ∀ {blanks : List Char} (rest : List Char), Blank blanks →
    2 * text.length + 1 < bound → readItems bound (blanks ++ (text ++ rest)) = some (items, rest)

/-- Whether the members of objects are read up to a bound. -/
def ReadsMembers (bound : Nat) : Prop :=
  ∀ ⦃members text⦄, SpellsMembers members text → ∀ {blanks : List Char} (rest : List Char), Blank blanks →
    2 * text.length + 1 < bound → readMembers bound (blanks ++ (text ++ rest)) =
      some (members.map (Prod.map some id), rest)

/-- A digit or a minus sign starts a number. -/
theorem readValue_of_number (bound : Nat) {c : Char} {cs : List Char} (h : c.isDigit ∨ c = '-') :
    readValue (bound + 1) (c :: cs) = (readNumber (c :: cs)).map fun (n, rest) => (number n, rest) := by
  obtain ⟨hblank, hstart⟩ := of_number_start h
  rw [readValue, skip_cons_of_not hblank]
  split
  all_goals first
    | rfl
    | rename_i heq
      obtain ⟨rfl, -⟩ := List.cons.inj heq
      exact absurd hstart (by decide)

/-- Items that are read one by one are read together. -/
theorem mapM_map_eq_some {α β γ : Type} {read : β → Option γ} {write : α → β} {f : α → γ} {as : List α}
    (h : ∀ a ∈ as, read (write a) = some (f a)) : (as.map write).mapM read = some (as.map f) := by
  induction as with
  | nil => rfl
  | cons a as ih =>
    obtain ⟨ha, has⟩ := List.forall_mem_cons.mp h
    rw [List.map_cons, List.mapM_cons, ha, ih has]
    rfl

/-- The members of an object are all readable if their names are. -/
theorem ofMembers_map (members : List (String × Json)) :
    ofMembers (members.map (Prod.map some id)) = object members := by
  rw [ofMembers, mapM_map_eq_some (f := id) ?_, List.map_id]
  exact fun _ _ => rfl

/-- Items are read with one more step if values and items are with the steps before it. -/
theorem readsItems_succ {bound : Nat} (hvalues : ReadsValues bound) (hitems : ReadsItems bound) :
    ReadsItems (bound + 1) := by
  intro items text h blanks rest hblanks hbound
  cases h with
  | @last item text blanks' hitem hinner =>
    rw [List.length_append, List.length_append, List.length_singleton] at hbound
    have hread := hvalues hitem hblanks (by omega) (ends_append hinner (c := ']') (by simp) rest)
    have hend := skip_append_cons hinner (c := ']') (by decide) rest
    simp [readItems, hread, hend]
  | @more item items text blanks' others hitem hinner hothers =>
    rw [List.length_append, List.length_cons, List.length_append] at hbound
    have hread := hvalues hitem hblanks (by omega) (ends_append blank_nil (c := ',')
      (by simp) (blanks' ++ (others ++ rest)))
    have hrest := hitems hothers rest hinner (by omega)
    have hcomma := skip_cons_of_not (c := ',') (by decide) (blanks' ++ (others ++ rest))
    simp only [List.nil_append] at hread
    simp [readItems, hread, hcomma, hrest]

/-- Members are read with one more step if values and members are with the steps before it. -/
theorem readsMembers_succ {bound : Nat} (hvalues : ReadsValues bound) (hmembers : ReadsMembers bound) :
    ReadsMembers (bound + 1) := by
  intro members text h blanks rest hblanks hbound
  cases h with
  | @last name value text inner inner' hinner hvalue hinner' =>
    simp only [List.length_append, List.length_cons, List.length_nil] at hbound
    obtain ⟨body, htext, hname⟩ :=
      readString_quote name (':' :: (inner ++ (text ++ (inner' ++ '\x7d' :: rest))))
    have hread := hvalues hvalue hinner (by omega) (ends_append hinner' (c := '\x7d') (by simp) rest)
    have hend := skip_append_cons hinner' (c := '\x7d') (by decide) rest
    have hcolon := skip_cons_of_not (c := ':') (by decide) (inner ++ (text ++ (inner' ++ '\x7d' :: rest)))
    have hskip := skip_append_cons hblanks (c := '\x22') (by decide) body
    simp [readMembers, htext, hskip, hname, hcolon, hread, hend]
  | @more name value members text inner inner' others hinner hvalue hinner' hothers =>
    simp only [List.length_append, List.length_cons] at hbound
    obtain ⟨body, htext, hname⟩ :=
      readString_quote name (':' :: (inner ++ (text ++ ',' :: (inner' ++ (others ++ rest)))))
    have hread := hvalues hvalue hinner (by omega) (ends_append blank_nil (c := ',')
      (by simp) (inner' ++ (others ++ rest)))
    have hrest := hmembers hothers rest hinner' (by omega)
    have hcomma := skip_cons_of_not (c := ',') (by decide) (inner' ++ (others ++ rest))
    have hcolon :=
      skip_cons_of_not (c := ':') (by decide)
        (inner ++ (text ++ ',' :: (inner' ++ (others ++ rest))))
    have hskip := skip_append_cons hblanks (c := '\x22') (by decide) body
    simp only [List.nil_append] at hread
    simp [readMembers, htext, hskip, hname, hcolon, hread, hcomma, hrest]

/-- Blanks in front of a value are passed over. -/
theorem readValue_append (bound : Nat) {blanks : List Char} (h : Blank blanks) (cs : List Char) :
    readValue bound (blanks ++ cs) = readValue bound cs := by
  cases bound with
  | zero => rw [readValue, readValue]
  | succ bound => rw [readValue, readValue, skip_append h]

/-- An array is read if its items are. -/
theorem readValue_array {bound : Nat} (hitems : ReadsItems bound) {items : List Json}
    {inner text : List Char}
    (hinner : Blank inner) (hspells : SpellsItems items text) (hbound : 2 * text.length + 1 < bound)
    (rest : List Char) :
    readValue (bound + 1) ('[' :: (inner ++ (text ++ rest))) = some (array items, rest) := by
  have hread := hitems hspells rest blank_nil hbound
  obtain ⟨c, cs, rfl, hblank, hne⟩ := hspells.exists_cons
  have hskip := skip_append_cons hinner hblank (cs ++ rest)
  rw [List.nil_append, List.cons_append] at hread
  rw [readValue, skip_cons_of_not (by decide), List.cons_append]
  simp only [hskip]
  split
  · rename_i heq
    exact absurd (List.cons.inj heq).1 hne
  · rw [hread]
    rfl

/-- An object is read if its members are. -/
theorem readValue_object {bound : Nat} (hmembers : ReadsMembers bound) {members : List (String × Json)}
    {inner text : List Char} (hinner : Blank inner) (hspells : SpellsMembers members text)
    (hbound : 2 * text.length + 1 < bound) (rest : List Char) :
    readValue (bound + 1) ('\x7b' :: (inner ++ (text ++ rest))) = some (object members, rest) := by
  have hread := hmembers hspells rest blank_nil hbound
  obtain ⟨cs, rfl⟩ := hspells.exists_cons
  have hskip := skip_append_cons hinner (c := '\x22') (by decide) (cs ++ rest)
  rw [List.nil_append, List.cons_append] at hread
  rw [readValue, skip_cons_of_not (by decide), List.cons_append]
  simp only [hskip]
  show Option.map _ (readMembers bound ('\x22' :: (cs ++ rest))) = _
  rw [hread, Option.map_some, ofMembers_map]

/-- Values are read with one more step if items and members are with the steps before it. -/
theorem readsValues_succ {bound : Nat} (hitems : ReadsItems bound) (hmembers : ReadsMembers bound) :
    ReadsValues (bound + 1) := by
  intro value text h blanks rest hblanks hbound hrest
  rw [readValue_append _ hblanks]
  cases h with
  | null => rfl
  | boolean b => cases b <;> rfl
  | number n =>
    obtain ⟨c, cs, htext, hc⟩ := n.exists_write_cons
    rw [htext, List.cons_append, readValue_of_number bound hc, ← List.cons_append, ← htext,
      readNumber_write n hrest]
    rfl
  | string s =>
    obtain ⟨body, htext, hread⟩ := readString_quote s rest
    rw [readValue, htext, skip_cons_of_not (by decide)]
    simp [hread]
  | unreadable =>
    obtain ⟨body, htext, hread⟩ := readString_unreadableText rest
    rw [readValue, htext, skip_cons_of_not (by decide)]
    simp [hread]
  | emptyArray => rfl
  | emptyObject => rfl
  | array hinner hspells =>
    simp only [List.length_cons, List.length_append] at hbound
    simpa using readValue_array hitems hinner hspells (by omega) rest
  | object hinner hspells =>
    simp only [List.length_cons, List.length_append] at hbound
    simpa using readValue_object hmembers hinner hspells (by omega) rest

/-- Whatever the bound, it is enough for texts of half its length. -/
theorem reads (bound : Nat) : ReadsValues bound ∧ ReadsItems bound ∧ ReadsMembers bound := by
  induction bound with
  | zero =>
    refine ⟨fun _ _ _ _ _ _ hbound _ => ?_, fun _ _ _ _ _ _ hbound => ?_,
      fun _ _ _ _ _ _ hbound => ?_⟩ <;>
      exact absurd hbound (Nat.not_lt_zero _)
  | succ bound ih =>
    obtain ⟨hvalues, hitems, hmembers⟩ := ih
    exact ⟨readsValues_succ hitems hmembers, readsItems_succ hvalues hitems,
      readsMembers_succ hvalues hmembers⟩

/-- **A text that writes a value is read as that value.** -/
theorem read_of_spells {value : Json} {text : String} (h : Spells value text.toList) :
    read text = some value := by
  obtain ⟨hvalues, -⟩ := reads (2 * text.toList.length + 1)
  have hread := hvalues h blank_nil (Nat.lt_succ_self _) ends_nil
  rw [List.nil_append, List.append_nil] at hread
  rw [read, hread]
  rfl

/-! ### Layouts -/

/-- Whether a text writes a member: the name, a colon and the value. -/
def SpellsMember (member : String × Json) (text : String) : Prop :=
  ∃ blanks value, text = quote member.1 ++ ":" ++ blanks ++ value ∧ Blank blanks.toList ∧
    Spells member.2 value.toList

section Rows

variable {gap close : String} (hgap : Blank gap.toList) (hclose : Blank close.toList)
include hgap hclose

/-- Texts of items with commas and gaps between them spell the items. -/
theorem spellsItems_intercalate {item : Json} {text : String} (hitem : Spells item text.toList)
    {items : List Json} {texts : List String}
    (h : List.Forall₂ (fun item text => Spells item text.toList) items texts) :
    SpellsItems (item :: items) (("," ++ gap).intercalate (text :: texts) ++ close ++ "]").toList := by
  induction h generalizing item text with
  | nil => simpa using SpellsItems.last hitem hclose
  | cons hnext _ ih =>
    have hrest := SpellsItems.more hitem hgap (ih hnext)
    simpa [String.intercalate_cons_cons] using hrest

/-- Texts of members with commas and gaps between them spell the members. -/
theorem spellsMembers_intercalate {member : String × Json} {text : String}
    (hmember : SpellsMember member text)
    {members : List (String × Json)} {texts : List String} (h : List.Forall₂ SpellsMember members texts) :
    SpellsMembers (member :: members)
      (("," ++ gap).intercalate (text :: texts) ++ close ++ "\x7d").toList := by
  induction h generalizing member text with
  | nil =>
    obtain ⟨blanks, value, rfl, hblanks, hvalue⟩ := hmember
    simpa using @SpellsMembers.last member.1 _ _ _ _ hblanks hvalue hclose
  | cons hnext _ ih =>
    obtain ⟨blanks, value, rfl, hblanks, hvalue⟩ := hmember
    have hrest := @SpellsMembers.more member.1 _ _ _ _ _ _ hblanks hvalue hgap (ih hnext)
    simpa [String.intercalate_cons_cons] using hrest

/-- Items with a comma between them are an array. -/
theorem spells_array {items : List Json} {texts : List String}
    (h : List.Forall₂ (fun item text => Spells item text.toList) items texts) (hne : items ≠ []) :
    Spells (array items) ("[" ++ gap ++ ("," ++ gap).intercalate texts ++ close ++ "]").toList := by
  cases h with
  | nil => exact absurd rfl hne
  | cons hitem hitems =>
    have harray := Spells.array hgap (spellsItems_intercalate hgap hclose hitem hitems)
    simpa using harray

/-- Members with a comma between them are an object. -/
theorem spells_object {members : List (String × Json)} {texts : List String}
    (h : List.Forall₂ SpellsMember members texts) (hne : members ≠ []) :
    Spells (object members)
      ("\x7b" ++ gap ++ ("," ++ gap).intercalate texts ++ close ++ "\x7d").toList := by
  cases h with
  | nil => exact absurd rfl hne
  | cons hmember hmembers =>
    have hobject := Spells.object hgap (spellsMembers_intercalate hgap hclose hmember hmembers)
    simpa using hobject

end Rows

mutual

/-- The layout without white space writes the value. -/
theorem spells_compact : (value : Json) → Spells value value.compact.toList
  | null => .null
  | bool b => .boolean b
  | number n => .number n
  | string s => .string s
  | unreadable => .unreadable
  | array [] => .emptyArray
  | array (item :: items) => by
    have harray := spells_array blank_empty blank_empty
      (spells_compactItems (item :: items)) (List.cons_ne_nil _ _)
    simpa [compact] using harray
  | object [] => .emptyObject
  | object (m :: members) => by
    have hobject := spells_object blank_empty blank_empty
      (spells_compactMembers (m :: members)) (List.cons_ne_nil _ _)
    simpa [compact] using hobject

/-- Compact texts of items spell them. -/
theorem spells_compactItems : (items : List Json) →
    List.Forall₂ (fun item text => Spells item text.toList) items (compactItems items)
  | [] => .nil
  | item :: items => .cons (spells_compact item) (spells_compactItems items)

/-- Compact texts of members spell them. -/
theorem spells_compactMembers : (members : List (String × Json)) →
    List.Forall₂ SpellsMember members (compactMembers members)
  | [] => .nil
  | (name, value) :: members =>
    .cons ⟨"", value.compact, by simp, by simp [Blank], spells_compact value⟩
      (spells_compactMembers members)

end

/-- A line feed and an indentation are blank. -/
theorem blank_newline (level : Nat) : Blank (newline level).toList := by
  rw [newline, String.toList_ofList]
  refine List.forall_mem_cons.mpr ⟨by decide, fun c hc => ?_⟩
  rw [(List.mem_replicate.mp hc).2]
  rfl

mutual

/-- The layout with one item on each line writes the value. -/
theorem spells_prettyAt (level : Nat) : (value : Json) → Spells value (value.prettyAt level).toList
  | null => .null
  | bool b => .boolean b
  | number n => .number n
  | string s => .string s
  | unreadable => .unreadable
  | array [] => by simpa [prettyAt, block, prettyItems] using Spells.emptyArray
  | array (item :: items) => by
    have harray := spells_array (blank_newline (level + 1)) (blank_newline level)
      (spells_prettyItems (level + 1) (item :: items)) (List.cons_ne_nil _ _)
    simpa [prettyAt, block, prettyItems] using harray
  | object [] => by simpa [prettyAt, block, prettyMembers] using Spells.emptyObject
  | object (m :: members) => by
    have hobject := spells_object (blank_newline (level + 1)) (blank_newline level)
      (spells_prettyMembers (level + 1) (m :: members)) (List.cons_ne_nil _ _)
    simpa [prettyAt, block, prettyMembers] using hobject

/-- Indented texts of items spell them. -/
theorem spells_prettyItems (level : Nat) : (items : List Json) →
    List.Forall₂ (fun item text => Spells item text.toList) items (prettyItems level items)
  | [] => .nil
  | item :: items => .cons (spells_prettyAt level item) (spells_prettyItems level items)

/-- Indented texts of members spell them. -/
theorem spells_prettyMembers (level : Nat) : (members : List (String × Json)) →
    List.Forall₂ SpellsMember members (prettyMembers level members)
  | [] => .nil
  | (name, value) :: members =>
    have hblank : Blank " ".toList := by simp [Blank, isBlank]
    .cons ⟨" ", value.prettyAt level, by simp [String.append_assoc], hblank, spells_prettyAt level value⟩
      (spells_prettyMembers level members)

end

/-- **Every value is read back from its text without white space.** -/
theorem read_compact (value : Json) : read value.compact = some value :=
  read_of_spells (spells_compact value)

/-- **Every value is read back from its text with one item on each line.** -/
theorem read_pretty (value : Json) : read value.pretty = some value :=
  read_of_spells (spells_prettyAt 0 value)

end GrammarFile.Json
