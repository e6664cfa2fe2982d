import EnumLabels.Proofs.Json.Value
import EnumLabels.Proofs.Stages
import EnumLabels.Proofs.Table.Pairs
import EnumLabels.Samples
import EnumLabels.Table.Stored

/-!
# Label tables survive JSON

A stored table is plain data if its labels are strings and its cases stand for plain values. Its
text gives back the sorted entries, in the order of the table. Without an enumerated type the case
of an entry is the sorted value, which equals the case. With one it is the member that stands for
an equal value, and if no other member stands for such a value, it is the member itself.
-/

namespace EnumLabels

/-- A member is found by a value that equals its own and that of no other member. -/
theorem EnumType.ofValue?_of_same {type : EnumType} {m : Member} {value : Data}
    (hm : m ∈ type.members) (hsame : value.same m.value = true)
    (hunequal : ∀ n ∈ type.members, m ≠ n → value.same n.value = false) :
    type.ofValue? value = some m := by
  have hsome : (type.ofValue? value).isSome = true := List.find?_isSome.mpr ⟨m, hm, hsame⟩
  obtain ⟨n, hn⟩ := Option.isSome_iff_exists.mp hsome
  have hfound : value.same n.value = true :=
    List.find?_some (p := fun k : Member => value.same k.value) hn
  have heq : m = n := by
    by_contra hne
    rw [hunequal n (List.mem_of_find?_eq_some hn) hne] at hfound
    contradiction
  rw [hn, heq]

/-- A member is found by its sorted value if the values of the others are unequal to it. -/
theorem EnumType.ofValue?_sorted {type : EnumType} {m : Member} (hm : m ∈ type.members)
    (hplain : m.value.IsPlain)
    (hunequal : ∀ n ∈ type.members, m ≠ n → m.value.same n.value = false) :
    type.ofValue? m.value.sorted = some m := by
  refine EnumType.ofValue?_of_same hm ?_ fun n hn hne => ?_
  · rw [Data.same_sorted, Data.same_self hplain]
  · rw [Data.same_sorted, hunequal n hn hne]

namespace Table

/-- The table with other cases in the places of its own. -/
def mapCases (t : Table) (f : Case → Case) : Table :=
  ⟨t.cases.map f, t.labels, by rw [List.length_map, t.length_eq]⟩

/-- The fields of a stored entry. -/
def entryFields (p : Case × Data) : List (String × Data) :=
  [("label", p.2), ("value", p.1.toData)]

/-- The fields of a stored table. -/
def fields (t : Table) : List (String × Data) :=
  [("count", .int t.size), ("cases", .list (t.pairs.map entryData))]

/-- The keys of a stored entry differ. -/
theorem nodup_entryFields (p : Case × Data) : ((entryFields p).map (·.1)).Nodup := by
  change ["label", "value"].Nodup
  decide

/-- The keys of a stored table differ. -/
theorem nodup_fields (t : Table) : (t.fields.map (·.1)).Nodup := by
  change ["count", "cases"].Nodup
  decide

/-- The pairs of a table with other cases give the table with these cases. -/
theorem ofPairs_map_pairs (t : Table) (f : Case → Case) :
    ofPairs (t.pairs.map fun p => (f p.1, p.2)) = t.mapCases f := by
  simp only [ofPairs, mapCases, List.map_map, ← t.map_fst_pairs, ← t.map_snd_pairs]
  rfl

/-- Data stores the table of its entries if its count is theirs. -/
theorem ofData_eq_ok {type : Option EnumType} {fields : List (Data × Data)} {entries : List Data}
    {pairs : List (Case × Data)} {count : Data}
    (hentries : Data.field? "cases" fields = some (.list entries))
    (hpairs : entries.mapM (pairOfData type) = .ok pairs)
    (hcount : Data.field? "count" fields = some count)
    (hsame : count.same (.int pairs.length) = true) :
    ofData type (.dict fields) = .ok (ofPairs pairs) := by
  rw [ofData, hentries, hcount]
  change (entries.mapM (pairOfData type) >>= _) = _
  rw [hpairs]
  change (if _ then _ else _) = _
  rw [if_pos hsame]
  rfl

/-- Entries of plain labels and values are plain. -/
theorem isPlain_entryData {p : Case × Data} (hlabel : p.2.IsPlain) (hvalue : p.1.toData.IsPlain) :
    (entryData p).IsPlain := by
  have hfields : ∀ f ∈ entryFields p, f.2.IsPlain := by
    simp only [entryFields, List.forall_mem_cons]
    exact ⟨hlabel, hvalue, by simp⟩
  exact @Data.IsPlain.dict (entryFields p) (nodup_entryFields p) hfields

section Plain

variable {t : Table} (hlabels : ∀ label ∈ t.labels, ∃ s : String, label = .str s)
  (hcases : ∀ c ∈ t.cases, c.toData.IsPlain)
include hlabels

/-- Labels that are strings are plain. -/
theorem isPlain_of_mem_labels {label : Data} (h : label ∈ t.labels) : label.IsPlain := by
  obtain ⟨s, rfl⟩ := hlabels label h
  exact Data.IsPlain.str s

/-- A sorted entry is read as its pair, with the case for which the sorted value stands. -/
theorem pairOfData_sorted {type : Option EnumType} {p : Case × Data} {c : Case} (hp : p ∈ t.pairs)
    (hcase : caseOfData type p.1.toData.sorted = .ok c) :
    pairOfData type (entryData p).sorted = .ok (c, p.2) := by
  obtain ⟨s, hs⟩ := hlabels p.2 (mem_of_mem_pairs hp).2
  have hsorted : p.2.sorted = p.2 := by
    rw [hs]
    rfl
  have hlabel := @Data.field?_sortedFields _ (nodup_entryFields p) "label" p.2
    (by simp [entryFields])
  have hvalue := @Data.field?_sortedFields _ (nodup_entryFields p) "value" p.1.toData
    (by simp [entryFields])
  have hentry : (entryData p).sorted = .dict (Data.ofFields (Data.sortedFields (entryFields p))) :=
    Data.sorted_dict_ofFields (entryFields p)
  rw [hentry, pairOfData, hvalue]
  simp only [hcase, hlabel, hsorted]

include hcases

/-- A stored table is plain data if its labels are strings and its cases stand for plain values. -/
theorem isPlain_toData : t.toData.IsPlain := by
  have hentries : ∀ d ∈ t.pairs.map entryData, d.IsPlain := by
    intro d hd
    obtain ⟨p, hp, rfl⟩ := List.mem_map.mp hd
    obtain ⟨hcase, hlabel⟩ := mem_of_mem_pairs hp
    exact isPlain_entryData (isPlain_of_mem_labels hlabels hlabel) (hcases p.1 hcase)
  have hfields : ∀ f ∈ t.fields, f.2.IsPlain := by
    simp only [fields, List.forall_mem_cons]
    exact ⟨Data.IsPlain.int _, Data.IsPlain.list hentries, by simp⟩
  exact @Data.IsPlain.dict t.fields t.nodup_fields hfields

/-- The text of a table is read as the table with the cases for which the sorted values stand. -/
theorem ofJson_toJson (type : Option EnumType) (f : Case → Case)
    (hread : ∀ c ∈ t.cases, caseOfData type c.toData.sorted = .ok (f c)) :
    ∃ text, t.toJson = .ok text ∧ ofJson type text = .ok (t.mapCases f) := by
  obtain ⟨text, htext, hdata⟩ := Json.text?_of_isPlain (isPlain_toData hlabels hcases)
  refine ⟨text, by rw [toJson, htext], ?_⟩
  have hcount := @Data.field?_sortedFields _ t.nodup_fields "count" (.int t.size) (by simp [fields])
  have hentries := @Data.field?_sortedFields _ t.nodup_fields "cases"
    (.list (t.pairs.map entryData)) (by simp [fields])
  have hpairs : ((t.pairs.map entryData).map Data.sorted).mapM (pairOfData type) =
      .ok (t.pairs.map fun p => (f p.1, p.2)) := by
    rw [List.mapM_map, List.mapM_map]
    exact mapM_eq_ok_iff.mpr fun p hp =>
      pairOfData_sorted hlabels hp (hread p.1 (mem_of_mem_pairs hp).1)
  have hsize : (Data.int t.size).sorted.same
      (.int (t.pairs.map fun p => (f p.1, p.2)).length) = true := by
    rw [List.length_map, length_pairs]
    exact beq_self_eq_true _
  have htable : t.toData.sorted = .dict (Data.ofFields (Data.sortedFields t.fields)) :=
    Data.sorted_dict_ofFields t.fields
  rw [Data.sorted_list] at hentries
  rw [ofJson, hdata, htable, ← ofPairs_map_pairs]
  exact ofData_eq_ok hentries hpairs hcount hsize

end Plain

/-- Items are compared with those put in their places one by one. -/
theorem all_zip_map {α : Type} (f : α → α) (r : α → α → Bool) (items : List α) :
    ((items.map f).zip items).all (fun p => r p.1 p.2) = items.all fun x => r (f x) x := by
  induction items with
  | nil => rfl
  | cons x items ih => rw [List.map_cons, List.zip_cons_cons, List.all_cons, List.all_cons, ih]

/-- A table with other cases in the places of its own is the same if they are equal to them. -/
theorem same_mapCases_eq_all {t : Table} {f : Case → Case}
    (hlabels : ∀ label ∈ t.labels, label.alike label = true) :
    (t.mapCases f).same t = t.cases.all fun c => (f c).alike c := by
  have hallCases := all_zip_map f Case.alike t.cases
  have hallLabels := all_zip_map id Data.alike t.labels
  rw [List.map_id] at hallLabels
  have hsize : ((t.mapCases f).size == t.size) = true := beq_iff_eq.mpr (List.length_map f)
  have hsame : (t.labels.all fun label => (id label).alike label) = true :=
    List.all_eq_true.mpr hlabels
  rw [same, hsize, Bool.true_and, mapCases, hallCases, hallLabels, hsame, Bool.and_true]

/-- A table with equal cases in the places of its own is the same. -/
theorem same_mapCases {t : Table} {f : Case → Case} (hcases : ∀ c ∈ t.cases, (f c).alike c = true)
    (hlabels : ∀ label ∈ t.labels, label.alike label = true) : (t.mapCases f).same t = true := by
  rw [same_mapCases_eq_all hlabels, List.all_eq_true]
  exact hcases

/-- Tables survive JSON. Cases that are plain data come back equal, and members of a type whose
members stand for unequal plain values come back as they were. -/
theorem json_roundtrip (t : Table) (hlabels : ∀ label ∈ t.labels, ∃ s : String, label = .str s) :
    ((∀ c ∈ t.cases, ∃ d, c = .value d ∧ d.IsPlain) →
      ∃ text read, t.toJson = .ok text ∧ ofJson none text = .ok read ∧ read.same t = true ∧
        read.labels = t.labels) ∧
    ∀ type : EnumType, (∀ c ∈ t.cases, ∃ m ∈ type.members, c = .member m) →
      (∀ m ∈ type.members, m.value.IsPlain) →
      (∀ m ∈ type.members, ∀ n ∈ type.members, m ≠ n → m.value.same n.value = false) →
      ∃ text, t.toJson = .ok text ∧ ofJson (some type) text = .ok t := by
  constructor
  · intro hvalues
    have hcases : ∀ c ∈ t.cases, c.toData.IsPlain := by
      intro c hc
      obtain ⟨d, rfl, hplain⟩ := hvalues c hc
      exact hplain
    obtain ⟨text, htext, hjson⟩ := ofJson_toJson hlabels hcases none
      (fun c => .value c.toData.sorted) fun _ _ => rfl
    refine ⟨text, _, htext, hjson, same_mapCases ?_ ?_, rfl⟩
    · intro c hc
      obtain ⟨d, rfl, hplain⟩ := hvalues c hc
      exact Data.alike_sorted hplain
    · intro label hlabel
      exact Data.alike_self (isPlain_of_mem_labels hlabels hlabel)
  · intro type hmembers hplain hunequal
    have hcases : ∀ c ∈ t.cases, c.toData.IsPlain := by
      intro c hc
      obtain ⟨m, hm, rfl⟩ := hmembers c hc
      exact hplain m hm
    have hread : ∀ c ∈ t.cases, caseOfData (some type) c.toData.sorted = .ok (id c) := by
      intro c hc
      obtain ⟨m, hm, rfl⟩ := hmembers c hc
      have hfound := type.ofValue?_sorted hm (hplain m hm) (hunequal m hm)
      simp only [caseOfData, Case.toData, hfound, id_eq]
    obtain ⟨text, htext, hjson⟩ := ofJson_toJson hlabels hcases (some type) id hread
    refine ⟨text, htext, ?_⟩
    rw [hjson, mapCases]
    simp only [List.map_id]

/-- A mapping whose keys are not in order, and the members of a type in reverse. -/
theorem json_roundtrip_reverse :
    let mapping := Data.dict [(.str "b", .int (-1)), (.str "a", .list [.null, .str "é"])]
    let values := ofPairs [(.value mapping, .str "x"), (.value mapping, .str "x")]
    let members := ofPairs (basicType.members.reverse.map fun m => (.member m, .str m.name))
    (∃ text read, values.toJson = .ok text ∧ ofJson none text = .ok read ∧
      read.same values = true ∧ read.labels = values.labels) ∧
    ∃ text, members.toJson = .ok text ∧ ofJson (some basicType) text = .ok members := by
  intro mapping values members
  have hplain : mapping.IsPlain := by
    refine @Data.IsPlain.dict [("b", .int (-1)), ("a", .list [.null, .str "é"])] (by decide) ?_
    simp only [List.forall_mem_cons]
    refine ⟨Data.IsPlain.int _, Data.IsPlain.list ?_, by simp⟩
    simp only [List.forall_mem_cons]
    exact ⟨Data.IsPlain.null, Data.IsPlain.str _, by simp⟩
  constructor
  · refine (json_roundtrip values ?_).1 ?_
    · simp [values, ofPairs]
    · simp [values, ofPairs, hplain]
  · refine (json_roundtrip members ?_).2 basicType ?_ ?_ ?_
    · simp [members, ofPairs, basicType]
    · simp [members, ofPairs, basicType]
    · simp [basicType, Data.IsPlain.str]
    · have hunequal : (Data.str "z").same (.str "o") = false ∧
          (Data.str "o").same (.str "z") = false := by decide
      simp [basicType, hunequal]

end Table

end EnumLabels
