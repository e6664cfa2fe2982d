import EnumLabels.Proofs.Yaml.Denotes

/-!
# Plain data is read back from YAML

Data of every depth is written as a text that denotes what is read of it, both behind a dash and
behind the colon of a key. A list or a mapping has such a text because its parts have, so the
statement passes from the parts to the whole, with the indentation of the parts in place of its own.

The fields of a mapping come back in the order of writing.
-/

namespace EnumLabels.Yaml

/-- Plain data with short keys in all its mappings. -/
inductive IsShortKeyed : Data → Prop
  | null : IsShortKeyed .null
  | bool (b : Bool) : IsShortKeyed (.bool b)
  | int (n : Int) : IsShortKeyed (.int n)
  | str (s : String) : IsShortKeyed (.str s)
  | list {items : List Data} (hitems : ∀ d ∈ items, IsShortKeyed d) : IsShortKeyed (.list items)
  | dict {fields : List (String × Data)} (hkeys : (fields.map (·.1)).Nodup)
      (hshort : ∀ f ∈ fields, IsShortKey f.1) (hvalues : ∀ f ∈ fields, IsShortKeyed f.2) :
      IsShortKeyed (.dict (Data.ofFields fields))

/-- Data with short keys is plain. -/
theorem IsShortKeyed.isPlain {d : Data} (h : IsShortKeyed d) : d.IsPlain := by
  induction h with
  | null => exact .null
  | bool b => exact .bool b
  | int n => exact .int n
  | str s => exact .str s
  | list _ ih => exact .list ih
  | dict hkeys _ _ ih => exact .dict hkeys ih

/-- Lists do not change the keys. -/
theorem IsShortKeyed.nested {d : Data} (h : IsShortKeyed d) (depth : Nat) :
    IsShortKeyed (Data.nested depth d) := by
  induction depth with
  | zero => exact h
  | succ depth ih => exact .list (by simpa using ih)

namespace KeyOrder

variable {α β : Type} (order : KeyOrder)

/-- The data with the entries of its mappings in the order of writing. -/
def data (d : Data) : Data :=
  match order with
  | .sorted => d.sorted
  | .asStored => d

/-- What belongs to string keys, in the order of writing. -/
def sortParts (parts : List (String × α)) : List (String × α) :=
  match order with
  | .sorted => parts.mergeSort fun p q => decide (p.1 ≤ q.1)
  | .asStored => parts

/-- The order of writing loses and adds nothing. -/
theorem sortParts_perm (parts : List (String × α)) : (order.sortParts parts).Perm parts := by
  cases order with
  | sorted => exact List.mergeSort_perm _ _
  | asStored => exact List.Perm.refl _

/-- The order of writing looks only at the keys. -/
theorem map_sortParts (f : String × α → β) (parts : List (String × α)) :
    (order.sortParts parts).map (fun p => (p.1, f p)) =
      order.sortParts (parts.map fun p => (p.1, f p)) := by
  cases order with
  | asStored => rfl
  | sorted =>
    refine List.map_mergeSort ?_
    intro p _ q _
    rfl

/-- String keys are written in their order. -/
theorem arrange_eq (f : String × α → β) (parts : List (String × α)) :
    order.arrange (parts.map fun p => (.str p.1, f p)) =
      (order.sortParts parts).map fun p => (.str p.1, f p) := by
  cases order with
  | asStored => rfl
  | sorted =>
    have hall :
        ((parts.map fun p => (Data.str p.1, f p)).all fun e => Data.isString e.1) = true := by
      rw [List.all_map, List.all_eq_true]
      intro p _
      rfl
    rw [arrange, Data.sortByKey?, if_pos hall, Option.getD_some, sortParts, List.map_mergeSort]
    intro p _ q _
    rfl

/-- A list is written item by item. -/
theorem data_list (items : List Data) :
    order.data (.list items) = .list (items.map order.data) := by
  cases order with
  | sorted => exact Data.sorted_list items
  | asStored => exact congrArg Data.list (List.map_id items).symm

/-- The fields of a mapping are written in their order. -/
theorem data_dict (fields : List (String × Data)) :
    order.data (.dict (Data.ofFields fields)) =
      .dict (Data.ofFields (order.sortParts (fields.map fun f => (f.1, order.data f.2)))) := by
  cases order with
  | sorted => exact Data.sorted_dict_ofFields fields
  | asStored => simp [data, sortParts]

end KeyOrder

section Parts

variable {order : KeyOrder} {indent : Nat} {read : Data → Data}

/-- If items have texts that denote them, then they are written as these texts behind dashes. -/
theorem exists_itemParts {items : List Data}
    (h : ∀ d ∈ items, ∃ text, writeNested? order indent d = some text ∧
      Denotes true indent text (read d)) :
    ∃ parts : List (List Char × Data),
      writeItems? order indent items = some (parts.map fun p => '-' :: p.1) ∧
        parts.map (·.2) = items.map read ∧ ∀ p ∈ parts, Denotes true indent p.1 p.2 := by
  induction items with
  | nil => exact ⟨[], rfl, rfl, by simp⟩
  | cons d items ih =>
    obtain ⟨⟨text, htext, hdenotes⟩, hitems⟩ := List.forall_mem_cons.mp h
    obtain ⟨parts, hparts, hdata, hall⟩ := ih hitems
    refine ⟨(text, read d) :: parts, ?_, ?_, List.forall_mem_cons.mpr ⟨hdenotes, hall⟩⟩
    · rw [writeItems?, htext, hparts]
      rfl
    · rw [List.map_cons, List.map_cons, hdata]

/-- If items have texts that denote them, then their lines denote the list of them. -/
theorem writeItems?_of_forall {items : List Data} (hne : items ≠ [])
    (h : ∀ d ∈ items, ∃ text, writeNested? order indent d = some text ∧
      Denotes true indent text (read d)) :
    ∃ parts, writeItems? order indent items = some parts ∧
      DenotesItems indent (onLines indent parts) (items.map read) := by
  obtain ⟨parts, hwrite, hdata, hall⟩ := exists_itemParts h
  have hparts : parts ≠ [] := by
    rintro rfl
    exact hne (List.map_eq_nil_iff.mp hdata.symm)
  exact ⟨_, hwrite, hdata ▸ denotesItems_onLines hparts hall⟩

/-- A short key and a value with a text that denotes it have a line that denotes a field. -/
theorem writeEntry?_of_isShortKey {key : String} {value d : Data} (hkey : IsShortKey key)
    (h : ∀ column, indent ≤ column → ∃ text, writeValue? order indent column value = some text ∧
      Denotes false indent text d) :
    ∃ text, writeEntry? order indent (.str key, value) = some (.str key, text) ∧
      DenotesField indent text key d := by
  obtain ⟨text, htext, hdenotes⟩ :=
    h (indent + ((Scalar.ofString key).write false (indent + 2) indent).length + 1) (by omega)
  refine ⟨_, ?_, _, text, rfl, hkey.denotesKey (Nat.succ_pos (indent + 1)) indent, hdenotes⟩
  unfold writeEntry?
  change (if (Scalar.ofString key).isSimpleKey = true then _ else _) = _
  rw [if_pos hkey.isSimpleKey, htext]
  rfl

/-- If the values of fields with short keys have texts that denote them, then the fields are written
as lines that denote them. -/
theorem exists_entryParts {fields : List (String × Data)} (hshort : ∀ f ∈ fields, IsShortKey f.1)
    (h : ∀ f ∈ fields, ∀ column, indent ≤ column →
      ∃ text, writeValue? order indent column f.2 = some text ∧
        Denotes false indent text (read f.2)) :
    ∃ parts : List (String × List Char × Data),
      writeEntries? order indent (Data.ofFields fields) =
          some (parts.map fun p => (.str p.1, p.2.1)) ∧
        (parts.map fun p => (p.1, p.2.2)) = (fields.map fun f => (f.1, read f.2)) ∧
        ∀ p ∈ parts, DenotesField indent p.2.1 p.1 p.2.2 := by
  induction fields with
  | nil => exact ⟨[], rfl, rfl, by simp⟩
  | cons f fields ih =>
    obtain ⟨hkey, hkeys⟩ := List.forall_mem_cons.mp hshort
    obtain ⟨hvalue, hvalues⟩ := List.forall_mem_cons.mp h
    obtain ⟨text, htext, hdenotes⟩ := writeEntry?_of_isShortKey hkey hvalue
    obtain ⟨parts, hparts, hdata, hall⟩ := ih hkeys hvalues
    refine ⟨(f.1, text, read f.2) :: parts, ?_, ?_, List.forall_mem_cons.mpr ⟨hdenotes, hall⟩⟩
    · rw [Data.ofFields] at hparts ⊢
      rw [List.map_cons, writeEntries?, htext, hparts]
      rfl
    · rw [List.map_cons, List.map_cons, hdata]

/-- If the values of fields with short keys have texts that denote them, then the lines of the
fields denote the mapping with the fields in the order of writing. -/
theorem writeEntries?_of_forall (order : KeyOrder) (indent : Nat) (read : Data → Data)
    {fields : List (String × Data)} (hne : fields ≠ [])
    (hshort : ∀ f ∈ fields, IsShortKey f.1)
    (h : ∀ f ∈ fields, ∀ column, indent ≤ column →
      ∃ text, writeValue? order indent column f.2 = some text ∧
        Denotes false indent text (read f.2)) :
    ∃ parts, writeEntries? order indent (Data.ofFields fields) = some parts ∧
      DenotesFields indent (onLines indent ((order.arrange parts).map (·.2)))
        (order.sortParts (fields.map fun f => (f.1, read f.2))) := by
  obtain ⟨parts, hwrite, hdata, hall⟩ := exists_entryParts hshort h
  have hperm := order.sortParts_perm parts
  have hparts : order.sortParts parts ≠ [] := by
    intro hnil
    rw [hnil, List.nil_perm] at hperm
    subst hperm
    exact hne (List.map_eq_nil_iff.mp hdata.symm)
  have hlines := denotesFields_onLines indent hparts fun p hp => hall p (hperm.mem_iff.mp hp)
  refine ⟨_, hwrite, ?_⟩
  rw [order.arrange_eq fun p : String × List Char × Data => p.2.1, List.map_map, ← hdata,
    ← order.map_sortParts fun p : String × List Char × Data => p.2.2]
  exact hlines

end Parts

/-- Data with a text that denotes what is read of it, behind a dash and behind a colon. -/
structure IsReread (order : KeyOrder) (d : Data) : Prop where
  nested : ∀ indent, ∃ text, writeNested? order indent d = some text ∧
    Denotes true indent text ((order.data d).reread true indent)
  value : ∀ indent column, indent ≤ column →
    ∃ text, writeValue? order indent column d = some text ∧
      Denotes false indent text ((order.data d).reread false indent)

section Values

variable {order : KeyOrder}

/-- A scalar is reread if its text denotes what is read of it. -/
theorem isReread_scalar {d : Data} {s : Scalar} (hdata : order.data d = d)
    (hnested : ∀ indent,
      writeNested? order indent d = some (' ' :: s.write true (indent + 2) (indent + 2)))
    (hvalue : ∀ indent column,
      writeValue? order indent column d = some (' ' :: s.write true (indent + 2) (column + 1)))
    (h : ∀ behindDash indent column, indent < column →
      Denotes behindDash indent (' ' :: s.write true (indent + 2) column)
        (d.reread behindDash indent)) : IsReread order d := by
  rw [← hdata] at h
  constructor
  · intro indent
    exact ⟨_, hnested indent, h true indent _ (by omega)⟩
  · intro indent column hcolumn
    exact ⟨_, hvalue indent column, h false indent _ (by omega)⟩

/-- A list is reread if its items are. -/
theorem isReread_list {items : List Data} (h : ∀ d ∈ items, IsReread order d) :
    IsReread order (.list items) := by
  have hread (behindDash : Bool) (indent : Nat) :
      (order.data (.list items)).reread behindDash indent = .list (items.map fun d =>
        (order.data d).reread true (if behindDash then indent + 2 else indent)) := by
    rw [order.data_list, Data.reread, Data.rereadItems_eq_map, List.map_map]
    rfl
  by_cases hne : items = []
  · subst hne
    constructor
    · intro indent
      exact ⟨_, rfl, (hread true indent).symm ▸ denotes_squareBrackets⟩
    · intro indent column _
      exact ⟨_, rfl, (hread false indent).symm ▸ denotes_squareBrackets⟩
  · constructor
    · -- behind a dash the items stand deeper, below a colon they do not
      intro indent
      obtain ⟨parts, hparts, hlines⟩ := writeItems?_of_forall hne fun d hd =>
        (h d hd).nested (indent + 2)
      rw [hread, writeNested?, hparts]
      · exact ⟨_, rfl, hlines.nested⟩
      · exact hne
    · intro indent column _
      obtain ⟨parts, hparts, hlines⟩ := writeItems?_of_forall hne fun d hd => (h d hd).nested indent
      rw [hread, writeValue?, hparts]
      · exact ⟨_, rfl, hlines.belowColon⟩
      · exact hne

/-- The keys of fields with other values, in the order of writing, still differ. -/
theorem nodup_sortParts (order : KeyOrder) {fields : List (String × Data)}
    (hkeys : (fields.map (·.1)).Nodup) (read : Data → Data) :
    ((order.sortParts (fields.map fun f => (f.1, read f.2))).map (·.1)).Nodup := by
  have hperm := (order.sortParts_perm (fields.map fun f => (f.1, read f.2))).map (·.1)
  rw [List.map_map] at hperm
  exact hperm.nodup_iff.mpr hkeys

/-- What is read of a mapping has the fields in the order of writing. -/
theorem reread_data_dict (fields : List (String × Data)) (behindDash : Bool) (indent : Nat) :
    (order.data (.dict (Data.ofFields fields))).reread behindDash indent =
      .dict (Data.ofFields (order.sortParts (fields.map fun f =>
        (f.1, (order.data f.2).reread false (indent + 2))))) := by
  rw [order.data_dict, Data.reread, Data.rereadEntries_ofFields,
    order.map_sortParts fun f : String × Data => f.2.reread false (indent + 2), List.map_map]
  rfl

/-- A mapping with short keys is reread if its values are. -/
theorem isReread_dict {fields : List (String × Data)} (hkeys : (fields.map (·.1)).Nodup)
    (hshort : ∀ f ∈ fields, IsShortKey f.1) (h : ∀ f ∈ fields, IsReread order f.2) :
    IsReread order (.dict (Data.ofFields fields)) := by
  by_cases hne : fields = []
  · subst hne
    have hnil : order.sortParts ([] : List (String × Data)) = [] :=
      List.perm_nil.mp (order.sortParts_perm [])
    constructor
    · intro indent
      rw [reread_data_dict, List.map_nil, hnil]
      exact ⟨_, rfl, denotes_braces⟩
    · intro indent column _
      rw [reread_data_dict, List.map_nil, hnil]
      exact ⟨_, rfl, denotes_braces⟩
  · have hentries : Data.ofFields fields ≠ [] := by simpa [Data.ofFields] using hne
    have hlines (indent : Nat) := writeEntries?_of_forall order (indent + 2)
      (fun d => (order.data d).reread false (indent + 2)) hne hshort
      fun f hf => (h f hf).value (indent + 2)
    have hnodup (indent : Nat) := nodup_sortParts order hkeys
      fun d => (order.data d).reread false (indent + 2)
    constructor
    · intro indent
      obtain ⟨parts, hparts, hfields⟩ := hlines indent
      rw [reread_data_dict, writeNested?, hparts]
      · exact ⟨_, rfl, hfields.nested (hnodup indent)⟩
      · exact hentries
    · intro indent column _
      obtain ⟨parts, hparts, hfields⟩ := hlines indent
      rw [reread_data_dict, writeValue?, hparts]
      · exact ⟨_, rfl, hfields.belowColon (hnodup indent)⟩
      · exact hentries

/-- Data with short keys is reread at every depth. -/
theorem IsShortKeyed.isReread {d : Data} (h : IsShortKeyed d) (order : KeyOrder) :
    IsReread order d := by
  induction h with
  | null =>
    refine isReread_scalar (by cases order <;> rfl) (fun _ => rfl) (fun _ _ => rfl) ?_
    intro behindDash indent column _
    exact isPlainData_null.denotes_write 6
  | bool b =>
    refine isReread_scalar (by cases order <;> rfl) (fun _ => rfl) (fun _ _ => rfl) ?_
    intro behindDash indent column _
    exact (isPlainData_bool b).denotes_write 6
  | int n =>
    refine isReread_scalar (by cases order <;> rfl) (fun _ => rfl) (fun _ _ => rfl) ?_
    intro behindDash indent column _
    exact (isPlainData_int n).denotes_write 5
  | str s =>
    refine isReread_scalar (by cases order <;> rfl) (fun _ => rfl) (fun _ _ => rfl) ?_
    intro behindDash indent column hcolumn
    exact denotes_string s hcolumn
  | list _ ih => exact isReread_list ih
  | dict hkeys hshort _ ih => exact isReread_dict hkeys hshort ih

/-- A mapping of data with short keys survives YAML: its text is read as the mapping with the
fields in the order of writing and what is read of their values. -/
theorem data_text?_dict (order : KeyOrder) {fields : List (String × Data)} (hne : fields ≠ [])
    (hkeys : (fields.map (·.1)).Nodup) (hshort : ∀ f ∈ fields, IsShortKey f.1)
    (hvalues : ∀ f ∈ fields, IsShortKeyed f.2) :
    ∃ text, text? order (.dict (Data.ofFields fields)) = some text ∧
      data text = .ok (.dict (Data.ofFields (order.sortParts (fields.map fun f =>
        (f.1, (order.data f.2).reread false 0))))) := by
  obtain ⟨parts, hparts, hlines⟩ := writeEntries?_of_forall order 0
    (fun d => (order.data d).reread false 0) hne hshort fun f hf => ((hvalues f hf).isReread order).value 0
  have hwrite : write? order (.dict (Data.ofFields fields)) =
      some (onLines 0 ((order.arrange parts).map (·.2)) ++ ['\n']) := by
    rw [write?, hparts, Option.map_some]
    simpa [Data.ofFields] using hne
  refine ⟨String.ofList _, by rw [text?, hwrite, Option.map_some], ?_⟩
  rw [data, String.toList_ofList]
  exact hlines.read_eq (nodup_sortParts order hkeys fun d => (order.data d).reread false 0)

end Values

end EnumLabels.Yaml
