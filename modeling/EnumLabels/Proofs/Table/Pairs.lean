import EnumLabels.Table.Basic

/-!
# The pairs of a table

The pairs of a table are its cases beside its labels. As there are equally many of both, nothing is
lost on either side.
-/

namespace EnumLabels.Table

variable {t : Table}

/-- A table is its cases with its labels. -/
theorem eq_of_cases_of_labels {u : Table} (hcases : t.cases = u.cases)
    (hlabels : t.labels = u.labels) : t = u := by
  obtain ⟨cases, labels, _⟩ := t
  obtain rfl : cases = u.cases := hcases
  obtain rfl : labels = u.labels := hlabels
  rfl

/-- The cases are those of the pairs. -/
theorem map_fst_pairs (t : Table) : t.pairs.map (·.1) = t.cases :=
  List.map_fst_zip (Nat.le_of_eq t.length_eq)

/-- The labels are those of the pairs. -/
theorem map_snd_pairs (t : Table) : t.pairs.map (·.2) = t.labels :=
  List.map_snd_zip (Nat.le_of_eq t.length_eq.symm)

/-- A table has as many pairs as cases. -/
theorem length_pairs (t : Table) : t.pairs.length = t.size := by
  rw [pairs, List.length_zip, ← t.length_eq, Nat.min_self, size]

/-- The case and the label of a pair stand in the table. -/
theorem mem_of_mem_pairs {p : Case × Data} (h : p ∈ t.pairs) : p.1 ∈ t.cases ∧ p.2 ∈ t.labels := by
  obtain ⟨c, label⟩ := p
  exact List.of_mem_zip h

/-- Every case of a table stands in a pair. -/
theorem exists_pair_of_mem_cases {c : Case} (h : c ∈ t.cases) :
    ∃ label, (c, label) ∈ t.pairs := by
  rw [← t.map_fst_pairs] at h
  obtain ⟨⟨d, label⟩, hmem, rfl⟩ := List.mem_map.mp h
  exact ⟨label, hmem⟩

/-- The pairs of a table of pairs. -/
theorem pairs_ofPairs (pairs : List (Case × Data)) : (ofPairs pairs).pairs = pairs := by
  induction pairs with
  | nil => rfl
  | cons p pairs ih => exact congrArg (p :: ·) ih

/-- A table with the pairs of another one is that table. -/
theorem ofPairs_pairs (t : Table) : ofPairs t.pairs = t :=
  eq_of_cases_of_labels t.map_fst_pairs t.map_snd_pairs

end EnumLabels.Table
