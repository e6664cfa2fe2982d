import EnumLabels.Proofs.Data.Sorted
import Mathlib.Data.List.Nodup
import Mathlib.Data.List.Perm.Basic

/-!
# Plain data

Plain data is built from null, truth values, integers and strings by lists and by mappings with
string keys. It equals itself, and the order in which a mapping holds its entries decides neither
what is stored under a key nor what the mapping equals.
-/

namespace EnumLabels.Data

/-- The entries of a mapping whose keys are strings. -/
def ofFields (fields : List (String × Data)) : List (Data × Data) :=
  fields.map fun f => (str f.1, f.2)

/-- Data without floats, moments and objects, the keys of whose mappings are pairwise different
strings. -/
inductive IsPlain : Data → Prop
  | null : IsPlain null
  | bool (b : Bool) : IsPlain (bool b)
  | int (n : Int) : IsPlain (int n)
  | str (s : String) : IsPlain (str s)
  | list {items : List Data} (hitems : ∀ d ∈ items, IsPlain d) : IsPlain (list items)
  | dict {fields : List (String × Data)} (hkeys : (fields.map (·.1)).Nodup)
      (hvalues : ∀ f ∈ fields, IsPlain f.2) : IsPlain (dict (ofFields fields))

/-- Strings count as one key when they are equal. -/
@[simp] theorem alike_str (s t : String) : (str s).alike (str t) = (s == t) := by
  have hsame : (str s).alike (str t) = decide (CodeString.chars s = CodeString.chars t) := rfl
  rw [hsame, Bool.beq_eq_decide_eq]
  simp

/-- An entry is found in a mapping if the mapping stores such a value under its key. -/
theorem isEntryOf_eq (k v : Data) (fs : List (Data × Data)) :
    isEntryOf (k, v) fs =
      match lookup? k fs with
      | some w => v.alike w
      | none => false := by
  simp only [isEntryOf, lookup?, alike]
  cases fs.find? fun f => bothNan k f.1 || k.same f.1 <;> rfl

/-- The value of a field is stored under its key. -/
theorem field?_of_mem {fields : List (String × Data)} (hkeys : (fields.map (·.1)).Nodup)
    {k : String} {v : Data} (h : (k, v) ∈ fields) : field? k (ofFields fields) = some v := by
  induction fields with
  | nil => contradiction
  | cons f fields ih =>
    rw [List.map_cons, List.nodup_cons] at hkeys
    simp only [field?, lookup?, ofFields, List.map_cons, List.find?_cons, alike_str] at ih ⊢
    rcases List.mem_cons.mp h with rfl | hmem
    · simp
    · have hne : (k == f.1) = false := by
        rw [beq_eq_false_iff_ne]
        rintro rfl
        exact hkeys.1 (List.mem_map.mpr ⟨_, hmem, rfl⟩)
      rw [hne]
      exact ih hkeys.2 hmem

/-- A list equals itself if its items do. -/
theorem sameItems_self {items : List Data} (h : ∀ d ∈ items, d.same d = true) :
    sameItems items items = true := by
  induction items with
  | nil => rfl
  | cons x xs ih =>
    obtain ⟨hx, hrest⟩ := List.forall_mem_cons.mp h
    simp only [sameItems, hx, ih hrest, Bool.or_true, Bool.and_true]

/-- Plain data equals itself. -/
theorem same_self {d : Data} (h : d.IsPlain) : d.same d = true := by
  induction h with
  | null => rfl
  | bool b => cases b <;> rfl
  | int n => simp [same, sameScalar, toInt?]
  | str s => simp [same, sameScalar, toInt?]
  | list _ ih => simpa only [same] using sameItems_self ih
  | @dict fields hkeys _ ih =>
    simp only [same, beq_self_eq_true, Bool.true_and, sameEntries_eq_all, List.all_eq_true]
    intro e he
    obtain ⟨⟨k, v⟩, hmem, rfl⟩ := List.mem_map.mp he
    have hfield : lookup? (str k) (ofFields fields) = some v := field?_of_mem hkeys hmem
    rw [isEntryOf_eq, hfield]
    simp only [alike, ih _ hmem, Bool.or_true]

/-- Sorted plain data counts as one with the data. -/
theorem alike_sorted {d : Data} (h : d.IsPlain) : d.sorted.alike d = true := by
  rw [alike, same_sorted, same_self h, Bool.or_true]

/-- Plain data counts as one with itself. -/
theorem alike_self {d : Data} (h : d.IsPlain) : d.alike d = true := by
  rw [alike, same_self h, Bool.or_true]

/-- Whether the key of a field does not come after the key of another one. -/
def fieldLe (f g : String × Data) : Bool := decide (f.1 ≤ g.1)

/-- The fields of a mapping, with sorted values and in the order of their keys. -/
def sortedFields (fields : List (String × Data)) : List (String × Data) :=
  (fields.map fun f => (f.1, f.2.sorted)).mergeSort fieldLe

/-- A mapping with string keys is sorted by sorting its fields. -/
theorem sorted_dict_ofFields (fields : List (String × Data)) :
    (dict (ofFields fields)).sorted = dict (ofFields (sortedFields fields)) := by
  rw [sorted_dict, sortedFields, ofFields, ofFields, List.map_mergeSort, List.map_map, List.map_map]
  · rfl
  · intro f _ g _
    rfl

/-- Sorting keeps the keys of the fields. -/
theorem nodup_sortedFields {fields : List (String × Data)} (hkeys : (fields.map (·.1)).Nodup) :
    ((sortedFields fields).map (·.1)).Nodup := by
  have hperm := (List.mergeSort_perm (fields.map fun f => (f.1, f.2.sorted)) fieldLe).map (·.1)
  rw [List.map_map] at hperm
  exact hperm.nodup_iff.mpr hkeys

/-- What sorted fields store under a key is what the fields store there, sorted. -/
theorem field?_sortedFields {fields : List (String × Data)} (hkeys : (fields.map (·.1)).Nodup)
    {k : String} {v : Data} (h : (k, v) ∈ fields) :
    field? k (ofFields (sortedFields fields)) = some v.sorted := by
  refine field?_of_mem (nodup_sortedFields hkeys) ?_
  exact List.mem_mergeSort.mpr (List.mem_map_of_mem h)

/-- A key that is not yet there is stored behind the others. -/
theorem store_ofFields {fields : List (String × Data)} {k : String}
    (hk : k ∉ fields.map (·.1)) (v : Data) :
    store (str k) v (ofFields fields) = ofFields (fields ++ [(k, v)]) := by
  induction fields with
  | nil => rfl
  | cons f fields ih =>
    rw [List.map_cons, List.mem_cons, not_or] at hk
    have hne : (str k).alike (str f.1) = false := by
      rw [alike_str, beq_eq_false_iff_ne]
      exact hk.1
    have hrest := ih hk.2
    simp only [ofFields, List.map_cons, List.cons_append, store, hne, Bool.false_eq_true,
      if_false] at hrest ⊢
    rw [hrest]

/-- Fields with new keys are stored behind the others. -/
theorem foldl_store_ofFields {stored more : List (String × Data)}
    (hkeys : ((stored ++ more).map (·.1)).Nodup) :
    (ofFields more).foldl (fun entries p => store p.1 p.2 entries) (ofFields stored) =
      ofFields (stored ++ more) := by
  induction more generalizing stored with
  | nil => simp [ofFields]
  | cons f more ih =>
    have hnew : f.1 ∉ stored.map (·.1) := by
      rw [List.map_append, List.map_cons, List.nodup_append'] at hkeys
      exact fun hmem => hkeys.2.2 hmem List.mem_cons_self
    have hrest := @ih (stored ++ [f]) (by simpa using hkeys)
    rw [List.append_assoc, List.singleton_append] at hrest
    rw [← hrest, ← store_ofFields hnew f.2]
    rfl

/-- Storing pairs with pairwise different keys one after the other keeps all of them. -/
theorem ofPairs_ofFields {fields : List (String × Data)} (hkeys : (fields.map (·.1)).Nodup) :
    ofPairs (ofFields fields) = ofFields fields :=
  @foldl_store_ofFields [] fields hkeys

end EnumLabels.Data
