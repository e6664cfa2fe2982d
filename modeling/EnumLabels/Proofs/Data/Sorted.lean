import EnumLabels.Data.Order
import Mathlib.Data.List.Basic

/-!
# Data with its keys in order

Equality of data does not look at the order in which a mapping holds its entries. So putting the
entries of all mappings in the order of their keys leaves data equal to the same values.
-/

namespace EnumLabels.Data

/-- Whether the key of an entry does not come after the key of another one. -/
def keyLe (e f : Data × Data) : Bool := stringLe e.1 f.1

mutual

/-- The data with the entries of all its mappings in the order of their keys. -/
def sorted : Data → Data
  | list items => list (sortedItems items)
  | dict entries => dict ((sortedEntries entries).mergeSort keyLe)
  | d => d
termination_by structural d => d

/-- The items of a list, each with its entries in order. -/
def sortedItems : List Data → List Data
  | [] => []
  | x :: xs => x.sorted :: sortedItems xs
termination_by structural xs => xs

/-- The entries of a mapping as they stand, each with the entries of its value in order. -/
def sortedEntries : List (Data × Data) → List (Data × Data)
  | [] => []
  | e :: es => sortedEntry e :: sortedEntries es
termination_by structural es => es

/-- An entry with the entries of its value in order. -/
def sortedEntry : Data × Data → Data × Data
  | (k, v) => (k, v.sorted)
termination_by structural e => e

end

/-- The items of a list are sorted one by one. -/
theorem sortedItems_eq_map (items : List Data) : sortedItems items = items.map sorted := by
  induction items with
  | nil => rfl
  | cons x xs ih => rw [sortedItems, ih, List.map_cons]

/-- The values of a mapping are sorted one by one. -/
theorem sortedEntries_eq_map (entries : List (Data × Data)) :
    sortedEntries entries = entries.map fun e => (e.1, e.2.sorted) := by
  induction entries with
  | nil => rfl
  | cons e es ih => rw [sortedEntries, ih, List.map_cons, sortedEntry]

/-- A list is sorted item by item. -/
@[simp] theorem sorted_list (items : List Data) :
    (list items).sorted = list (items.map sorted) := by
  rw [sorted, sortedItems_eq_map]

/-- A mapping is sorted value by value and then by its keys. -/
@[simp] theorem sorted_dict (entries : List (Data × Data)) :
    (dict entries).sorted =
      dict ((entries.map fun e => (e.1, e.2.sorted)).mergeSort keyLe) := by
  rw [sorted, sortedEntries_eq_map]

/-- Sorting makes no value one that is no number. -/
theorem bothNan_sorted (a b : Data) : bothNan a.sorted b = bothNan a b := by
  cases a <;> rfl

/-- The entries of a mapping are found in another one if each of them is. -/
theorem sameEntries_eq_all (es fs : List (Data × Data)) :
    sameEntries es fs = es.all fun e => isEntryOf e fs := by
  induction es with
  | nil => rfl
  | cons e es ih => rw [sameEntries, ih, List.all_cons]

/-- The order of entries makes no difference to whether they are found in a mapping. -/
theorem sameEntries_mergeSort (es fs : List (Data × Data)) :
    sameEntries (es.mergeSort keyLe) fs = sameEntries es fs := by
  rw [sameEntries_eq_all, sameEntries_eq_all]
  exact (List.mergeSort_perm es keyLe).all_eq

/-- Sorting keeps the number of entries. -/
theorem length_sortedEntries (entries : List (Data × Data)) :
    (sortedEntries entries).length = entries.length := by
  rw [sortedEntries_eq_map, List.length_map]

/-- A list equals no value without parts. -/
theorem sameScalar_list (items : List Data) (b : Data) : sameScalar (list items) b = false := by
  cases b <;> rfl

/-- A mapping equals no value without parts. -/
theorem sameScalar_dict (entries : List (Data × Data)) (b : Data) :
    sameScalar (dict entries) b = false := by
  cases b <;> rfl

mutual

/-- Sorted data equals the same values. -/
theorem same_sorted (a b : Data) : a.sorted.same b = a.same b := by
  cases a with
  | list xs =>
    cases b with
    | list ys => simp only [sorted, same, sameItems_sorted xs ys]
    | _ => simp only [sorted, same, sameScalar_list]
  | dict es =>
    cases b with
    | dict fs =>
      simp only [sorted, same, sameEntries_mergeSort, sameEntries_sorted es fs,
        List.length_mergeSort, length_sortedEntries]
    | _ => simp only [sorted, same, sameScalar_dict]
  | _ => rfl
termination_by structural a

/-- Sorted items equal the same items. -/
theorem sameItems_sorted (xs ys : List Data) : sameItems (sortedItems xs) ys = sameItems xs ys := by
  cases xs with
  | nil => rfl
  | cons x xs =>
    cases ys with
    | nil => rfl
    | cons y ys =>
      simp only [sortedItems, sameItems, bothNan_sorted, same_sorted x y, sameItems_sorted xs ys]
termination_by structural xs

/-- Entries with sorted values are found in the same mappings. -/
theorem sameEntries_sorted (es fs : List (Data × Data)) :
    sameEntries (sortedEntries es) fs = sameEntries es fs := by
  cases es with
  | nil => rfl
  | cons e es =>
    simp only [sortedEntries, sameEntries, isEntryOf_sorted e fs, sameEntries_sorted es fs]
termination_by structural es

/-- An entry with a sorted value is found in the same mappings. -/
theorem isEntryOf_sorted (e : Data × Data) (fs : List (Data × Data)) :
    isEntryOf (sortedEntry e) fs = isEntryOf e fs := by
  obtain ⟨k, v⟩ := e
  simp only [sortedEntry, isEntryOf, bothNan_sorted]
  cases fs.find? fun f => bothNan k f.1 || k.same f.1 with
  | none => rfl
  | some f => simp only [same_sorted v f.2]
termination_by structural e

end

end EnumLabels.Data
