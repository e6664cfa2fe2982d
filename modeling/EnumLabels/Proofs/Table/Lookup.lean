import EnumLabels.Proofs.Data.Equality
import EnumLabels.Proofs.Table.Pairs

/-!
# The two lookups of a table

Looking up a label undoes looking up a case if no two labels are equal, and looking up a case undoes
looking up a label if no two cases are. The first is true of cases that repeat, and the second of
labels that repeat: each lookup stops at the first pair that fits, and it is the other one of the
two that has to come back to this pair.
-/

namespace EnumLabels

/-- A search among items with different keys finds each of them by its own key. -/
theorem find?_eq_some_of_pairwise {α β : Type} {key : α → β} {same : β → β → Bool}
    {items : List α} (hdistinct : (items.map key).Pairwise fun a b => same a b = false) {x : α}
    (hx : x ∈ items) (hself : same (key x) (key x) = true) :
    items.find? (fun y => same (key y) (key x)) = some x := by
  obtain ⟨before, behind, rfl⟩ := List.append_of_mem hx
  rw [List.find?_eq_some_iff_append]
  refine ⟨hself, before, behind, rfl, fun y hy => ?_⟩
  rw [List.pairwise_map, List.pairwise_append] at hdistinct
  rw [hdistinct.2.2 y hy x List.mem_cons_self, Bool.not_false]

/-- A search finds nothing if and only if no key fits. -/
theorem find?_eq_none_iff_map {α β : Type} {key : α → β} {p : β → Bool} {items : List α} :
    items.find? (fun x => p (key x)) = none ↔ ∀ b ∈ items.map key, p b = false := by
  simp

/-- A text equals only itself. -/
theorem Data.same_str_iff (d : Data) (s : CodeString) : d.same (.str s) = true ↔ d = .str s := by
  cases d with
  | str t => simp [same, sameScalar, toInt?]
  | _ => simp [same, sameScalar, toInt?]

namespace Case

/-- A member, or a plain value without floats. -/
def IsComparable : Case → Prop
  | member _ => True
  | value d => d.IsComparable

/-- A case equals itself. -/
theorem IsComparable.same_self {c : Case} (h : c.IsComparable) : c.same c = true := by
  cases c with
  | member m => simp [same, Member.same]
  | value d => exact (Data.IsComparable.isLawful h).same_self

/-- Equality of cases is symmetric. -/
theorem IsComparable.same_comm {c d : Case} (hc : c.IsComparable) (hd : d.IsComparable) :
    c.same d = d.same c := by
  cases c with
  | member m =>
    cases d with
    | member n => simp only [same, Member.same, Bool.beq_comm]
    | value b => rfl
  | value a =>
    cases d with
    | member n => rfl
    | value b => exact Data.IsComparable.same_comm hc hd

/-- Cases that are equal equal the same cases. -/
theorem IsComparable.same_congr {c d : Case} (hc : c.IsComparable) (hd : d.IsComparable)
    (h : c.same d = true) (other : Case) : c.same other = d.same other := by
  cases c with
  | member m =>
    cases d with
    | member n =>
      simp only [same, Member.same, Bool.and_eq_true, beq_iff_eq] at h
      cases other with
      | member k => simp only [same, Member.same, h.1, h.2]
      | value e => rfl
    | value b => contradiction
  | value a =>
    cases d with
    | member n => contradiction
    | value b =>
      cases other with
      | member k => rfl
      | value e => exact (Data.IsComparable.isLawful hc).same_congr b hd h e

end Case

namespace Table

variable {t : Table}

/-- A case has a label if and only if a pair with an equal case comes first. -/
theorem labelFor_eq_ok_iff {c : Case} {label : Data} : t.labelFor c = .ok label ↔
    ∃ p, t.pairs.find? (fun p => p.1.same c) = some p ∧ p.2 = label := by
  unfold labelFor
  cases t.pairs.find? fun p => p.1.same c with
  | none => simp
  | some p => simp

/-- A label has a case if and only if a pair with an equal label comes first. -/
theorem caseFor_eq_ok_iff {label : Data} {c : Case} : t.caseFor label = .ok c ↔
    ∃ p, t.pairs.find? (fun p => p.2.same label) = some p ∧ p.1 = c := by
  unfold caseFor
  cases t.pairs.find? fun p => p.2.same label with
  | none => simp
  | some p => simp

/-- A case has no label if and only if no case of the table equals it. -/
theorem labelFor_eq_error_iff {c : Case} {e : Error} : t.labelFor c = .error e ↔
    e = .unknownCase c ∧ ∀ x ∈ t.cases, x.same c = false := by
  rw [← t.map_fst_pairs, ← find?_eq_none_iff_map]
  unfold labelFor
  cases t.pairs.find? fun p => p.1.same c with
  | none => simp [eq_comm]
  | some p => simp

/-- A label has no case if and only if no label of the table equals it. -/
theorem caseFor_eq_error_iff {label : Data} {e : Error} : t.caseFor label = .error e ↔
    e = .unknownLabel label ∧ ∀ m ∈ t.labels, m.same label = false := by
  rw [← t.map_snd_pairs, ← find?_eq_none_iff_map]
  unfold caseFor
  cases t.pairs.find? fun p => p.2.same label with
  | none => simp [eq_comm]
  | some p => simp

/-- What the two lookups of a table fail on, and what each one makes of the answer of the other. -/
structure HasInverseLookups (t : Table) : Prop where
  labelFor_error (c : Case) (e : Error) :
    t.labelFor c = .error e ↔ e = .unknownCase c ∧ ∀ x ∈ t.cases, x.same c = false
  caseFor_error (label : Data) (e : Error) :
    t.caseFor label = .error e ↔ e = .unknownLabel label ∧ ∀ m ∈ t.labels, m.same label = false
  /-- With different labels the label of a case leads back to an equal case. -/
  caseFor_labelFor (hdistinct : t.labels.Pairwise fun l m => l.same m = false) (c : Case)
    (hc : ∃ x ∈ t.cases, x.same c = true) :
    ∃ label x, t.labelFor c = .ok label ∧ t.caseFor label = .ok x ∧ x.same c = true
  /-- With different cases the case of a label leads back to an equal label. -/
  labelFor_caseFor (hdistinct : t.cases.Pairwise fun c d => c.same d = false) (label : Data)
    (hlabel : ∃ m ∈ t.labels, m.same label = true) :
    ∃ x m, t.caseFor label = .ok x ∧ t.labelFor x = .ok m ∧ m.same label = true
  /-- Equal cases have the same label. -/
  labelFor_congr (c d : Case) (hc : c.IsComparable) (hd : d.IsComparable) (h : c.same d = true)
    (label : Data) : t.labelFor c = .ok label ↔ t.labelFor d = .ok label

/-- A case that equals one of the table has the label of the first pair with an equal case. -/
theorem exists_of_mem_cases {c : Case} (hc : ∃ x ∈ t.cases, x.same c = true) :
    ∃ p ∈ t.pairs, p.1.same c = true ∧ t.labelFor c = .ok p.2 := by
  cases h : t.labelFor c with
  | ok label =>
    obtain ⟨p, hfind, rfl⟩ := labelFor_eq_ok_iff.mp h
    have hsame := List.find?_some hfind
    exact ⟨p, List.mem_of_find?_eq_some hfind, hsame, rfl⟩
  | error e =>
    obtain ⟨x, hx, hsame⟩ := hc
    have hnone := (labelFor_eq_error_iff.mp h).2 x hx
    rw [hsame] at hnone
    contradiction

/-- A label that equals one of the table has the case of the first pair with an equal label. -/
theorem exists_of_mem_labels {label : Data} (hlabel : ∃ m ∈ t.labels, m.same label = true) :
    ∃ p ∈ t.pairs, p.2.same label = true ∧ t.caseFor label = .ok p.1 := by
  cases h : t.caseFor label with
  | ok c =>
    obtain ⟨p, hfind, rfl⟩ := caseFor_eq_ok_iff.mp h
    have hsame := List.find?_some hfind
    exact ⟨p, List.mem_of_find?_eq_some hfind, hsame, rfl⟩
  | error e =>
    obtain ⟨m, hm, hsame⟩ := hlabel
    have hnone := (caseFor_eq_error_iff.mp h).2 m hm
    rw [hsame] at hnone
    contradiction

/-- With different cases each pair gives its label. -/
theorem labelFor_of_mem_pairs (hdistinct : t.cases.Pairwise fun c d => c.same d = false)
    {p : Case × Data} (hp : p ∈ t.pairs) (hself : p.1.same p.1 = true) :
    t.labelFor p.1 = .ok p.2 := by
  rw [← t.map_fst_pairs] at hdistinct
  exact labelFor_eq_ok_iff.mpr ⟨p, find?_eq_some_of_pairwise hdistinct hp hself, rfl⟩

/-- With different labels each pair gives its case. -/
theorem caseFor_of_mem_pairs (hdistinct : t.labels.Pairwise fun l m => l.same m = false)
    {p : Case × Data} (hp : p ∈ t.pairs) (hself : p.2.same p.2 = true) :
    t.caseFor p.2 = .ok p.1 := by
  rw [← t.map_snd_pairs] at hdistinct
  exact caseFor_eq_ok_iff.mpr ⟨p, find?_eq_some_of_pairwise hdistinct hp hself, rfl⟩

/-- Without floats, the two lookups undo each other as far as labels or cases are different.

A label that is a text is equal to no other label, so such a label is found again itself. -/
theorem lookups_inverse (t : Table) (hcases : ∀ c ∈ t.cases, c.IsComparable)
    (hlabels : ∀ label ∈ t.labels, label.IsComparable) :
    t.HasInverseLookups ∧
      ∀ (label : Data) (s : CodeString), label.same (.str s) = true ↔ label = .str s := by
  refine ⟨?_, Data.same_str_iff⟩
  constructor
  case labelFor_error => exact fun c e => labelFor_eq_error_iff
  case caseFor_error => exact fun label e => caseFor_eq_error_iff
  case caseFor_labelFor =>
    intro hdistinct c hc
    obtain ⟨p, hp, hsame, hlabel⟩ := exists_of_mem_cases hc
    have hself := (hlabels p.2 (mem_of_mem_pairs hp).2).isLawful.same_self
    exact ⟨p.2, p.1, hlabel, caseFor_of_mem_pairs hdistinct hp hself, hsame⟩
  case labelFor_caseFor =>
    intro hdistinct label hlabel
    obtain ⟨p, hp, hsame, hcase⟩ := exists_of_mem_labels hlabel
    have hself := (hcases p.1 (mem_of_mem_pairs hp).1).same_self
    exact ⟨p.1, p.2, hcase, labelFor_of_mem_pairs hdistinct hp hself, hsame⟩
  case labelFor_congr =>
    intro c d hc hd h label
    rw [labelFor_eq_ok_iff, labelFor_eq_ok_iff]
    have hfind : t.pairs.find? (fun p => p.1.same c) = t.pairs.find? fun p => p.1.same d := by
      refine List.find?_congr fun p hp => ?_
      have hx := hcases p.1 (mem_of_mem_pairs hp).1
      rw [hx.same_comm hc, hc.same_congr hd h, hd.same_comm hx]
    rw [hfind]

/-- A case that comes again, as an equal value of another kind, and a label that comes again. -/
theorem lookups_inverse_of_repeated :
    let repeatedCase := ofPairs [(.value (.int 1), .str "a"), (.value (.list [.int 0]), .str "b"),
      (.value (.bool true), .str "c")]
    let repeatedLabel := ofPairs [(.value (.dict [(.str "k", .null)]), .str "a"),
      (.member ⟨"Coin", "heads", .int 1, none⟩, .str "b"), (.value (.int 1), .str "b")]
    (∃ label x, repeatedCase.labelFor (.value (.bool true)) = .ok label ∧
      repeatedCase.caseFor label = .ok x ∧ x.same (.value (.bool true)) = true) ∧
    ∃ x m, repeatedLabel.caseFor (.str "b") = .ok x ∧ repeatedLabel.labelFor x = .ok m ∧
      m.same (.str "b") = true := by
  intro repeatedCase repeatedLabel
  constructor
  · have hinverse : repeatedCase.HasInverseLookups := by
      refine (lookups_inverse repeatedCase ?_ ?_).1
      · simp [repeatedCase, ofPairs, Case.IsComparable, Data.IsComparable.int,
          Data.IsComparable.bool, Data.IsComparable.list]
      · simp [repeatedCase, ofPairs, Data.IsComparable.str]
    refine hinverse.caseFor_labelFor (by decide) _ ⟨.value (.int 1), ?_, rfl⟩
    simp [repeatedCase, ofPairs]
  · have hinverse : repeatedLabel.HasInverseLookups := by
      refine (lookups_inverse repeatedLabel ?_ ?_).1
      · have hmapping : (Data.dict [(.str "k", .null)]).IsComparable :=
          .dict (by simp [Data.HasDistinctKeys]) (by simp [Data.IsComparable.str])
            (by simp [Data.IsComparable.null])
        simp [repeatedLabel, ofPairs, Case.IsComparable, Data.IsComparable.int, hmapping]
      · simp [repeatedLabel, ofPairs, Data.IsComparable.str]
    refine hinverse.labelFor_caseFor (by decide) _ ⟨.str "b", ?_, rfl⟩
    simp [repeatedLabel, ofPairs]

/-- A case is not found again by a label that an earlier case has. -/
example : let t := ofPairs [(.value (.int 1), .str "a"), (.value (.int 2), .str "a")]
    t.labelFor (.value (.int 2)) = .ok (.str "a") ∧
      t.caseFor (.str "a") = .ok (.value (.int 1)) := ⟨rfl, rfl⟩

end Table

end EnumLabels
