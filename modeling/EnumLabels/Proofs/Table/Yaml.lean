import EnumLabels.Proofs.Table.Building
import EnumLabels.Proofs.Table.Stored
import EnumLabels.Proofs.Yaml.Value

/-!
# Label tables in YAML

The YAML text of a table gives back the labels and what is read of the values of its cases, in the
order of the table. A table therefore survives YAML if and only if nothing strays into the strings
of its cases. With an enumerated type a value that something strayed into stands for another member
or for none.
-/

namespace EnumLabels

namespace Table

/-- What is read of a stored entry. -/
def rereadEntry (p : Case × Data) : Data :=
  .dict (Data.ofFields [("label", p.2), ("value", p.1.toData.reread false 2)])

/-- What is read of a stored table. -/
def rereadData (t : Table) : Data :=
  .dict (Data.ofFields [("count", .int t.size), ("cases", .list (t.pairs.map rereadEntry))])

/-- The case of what is read of an entry is the one for which its value stands. -/
theorem pairOfData_rereadEntry (type : Option EnumType) (p : Case × Data) :
    pairOfData type (rereadEntry p) =
      (caseOfData type (p.1.toData.reread false 2)).map fun c => (c, p.2) := by
  cases hcase : caseOfData type (p.1.toData.reread false 2) <;>
    simp [rereadEntry, pairOfData, Data.ofFields, Data.field?, Data.lookup?, hcase, Except.map]

/-- What is read of the entries of a table gives pairs with other cases exactly when the values that
are read stand for them. -/
theorem mapM_rereadEntry_eq_ok_iff {t : Table} {type : Option EnumType} {f : Case → Case} :
    (t.pairs.map rereadEntry).mapM (pairOfData type) = .ok (t.pairs.map fun p => (f p.1, p.2)) ↔
      ∀ c ∈ t.cases, caseOfData type (c.toData.reread false 2) = .ok (f c) := by
  rw [List.mapM_map, mapM_eq_ok_iff]
  constructor
  · intro h c hc
    obtain ⟨label, hmem⟩ := exists_pair_of_mem_cases hc
    have hpair : pairOfData type (rereadEntry (c, label)) = .ok (f c, label) := h _ hmem
    rw [pairOfData_rereadEntry] at hpair
    cases hcase : caseOfData type (c.toData.reread false 2) with
    | error e =>
      rw [hcase] at hpair
      contradiction
    | ok d =>
      rw [hcase] at hpair
      exact congrArg Except.ok (Prod.mk.inj (Except.ok.inj hpair)).1
  · intro h p hp
    change pairOfData type (rereadEntry p) = _
    rw [pairOfData_rereadEntry, h p.1 (mem_of_mem_pairs hp).1]
    rfl

/-- A table that data stores is the one of the pairs of its entries. -/
theorem mapM_of_ofData_eq_ok {type : Option EnumType} {fields : List (Data × Data)}
    {entries : List Data} {t : Table}
    (hentries : Data.field? "cases" fields = some (.list entries))
    (h : ofData type (.dict fields) = .ok t) : entries.mapM (pairOfData type) = .ok t.pairs := by
  rw [ofData_eq, ofDataUsing, hentries, ← pairOfData_eq] at h
  change (entries.mapM (pairOfData type) >>= _) = _ at h
  obtain ⟨pairs, hpairs, hcounted⟩ := ok_of_bind h
  obtain ⟨rfl, -⟩ := ofCountedPairs_eq_ok_iff.mp hcounted
  rw [hpairs, pairs_ofPairs]

/-- What is read of a stored table stores the table with other cases exactly when the values that
are read stand for them. -/
theorem ofData_rereadData_eq_ok_iff {t : Table} {type : Option EnumType} {f : Case → Case} :
    ofData type t.rereadData = .ok (t.mapCases f) ↔
      ∀ c ∈ t.cases, caseOfData type (c.toData.reread false 2) = .ok (f c) := by
  have hcount : Data.field? "count" (Data.ofFields [("count", .int t.size),
      ("cases", .list (t.pairs.map rereadEntry))]) = some (.int t.size) := by
    simp [Data.field?, Data.lookup?, Data.ofFields]
  have hentries : Data.field? "cases" (Data.ofFields [("count", .int t.size),
      ("cases", .list (t.pairs.map rereadEntry))]) = some (.list (t.pairs.map rereadEntry)) := by
    simp [Data.field?, Data.lookup?, Data.ofFields]
  rw [← mapM_rereadEntry_eq_ok_iff, ← ofPairs_map_pairs]
  constructor
  · intro h
    have hpairs := mapM_of_ofData_eq_ok hentries h
    rwa [pairs_ofPairs] at hpairs
  · intro h
    refine ofData_eq_ok hentries h hcount ?_
    rw [List.length_map, length_pairs]
    exact beq_self_eq_true _

section ShortKeyed

variable {t : Table} (hlabels : ∀ label ∈ t.labels, ∃ s : String, label = .str s)
include hlabels

/-- What is read of an entry with a string for its label. -/
theorem reread_entryData {p : Case × Data} (hp : p ∈ t.pairs) :
    (entryData p).reread true 0 = rereadEntry p := by
  obtain ⟨s, hs⟩ := hlabels p.2 (mem_of_mem_pairs hp).2
  have hlabel : p.2.reread false 2 = p.2 := by
    rw [hs, Data.reread_str (by decide)]
  have hentry : (entryData p).reread true 0 =
      .dict (Data.ofFields [("label", p.2.reread false 2), ("value", p.1.toData.reread false 2)]) :=
    rfl
  rw [hentry, hlabel]
  rfl

variable (hcases : ∀ c ∈ t.cases, Yaml.IsShortKeyed c.toData)
include hcases

/-- A table whose cases stand for data with short keys has a text of which it is reread. -/
theorem data_toYaml :
    ∃ text, t.toYaml = .ok text ∧ Yaml.data text = .ok t.rereadData := by
  have hentries : ∀ d ∈ t.pairs.map entryData, Yaml.IsShortKeyed d := by
    intro d hd
    obtain ⟨p, hp, rfl⟩ := List.mem_map.mp hd
    obtain ⟨hcase, hlabel⟩ := mem_of_mem_pairs hp
    obtain ⟨s, hs⟩ := hlabels p.2 hlabel
    refine @Yaml.IsShortKeyed.dict (entryFields p) (nodup_entryFields p) ?_ ?_
    · simp only [entryFields, List.forall_mem_cons]
      exact ⟨by decide, by decide, by simp⟩
    · simp only [entryFields, List.forall_mem_cons]
      exact ⟨hs ▸ Yaml.IsShortKeyed.str s, hcases p.1 hcase, by simp⟩
  have hshort : ∀ f ∈ t.fields, Yaml.IsShortKey f.1 := by
    simp only [fields, List.forall_mem_cons]
    exact ⟨by decide, by decide, by simp⟩
  have hvalues : ∀ f ∈ t.fields, Yaml.IsShortKeyed f.2 := by
    simp only [fields, List.forall_mem_cons]
    exact ⟨.int _, .list hentries, by simp⟩
  obtain ⟨text, htext, hdata⟩ := Yaml.data_text?_dict .asStored
    (by simp [fields] : t.fields ≠ []) t.nodup_fields hshort hvalues
  have hitems : (t.pairs.map entryData).map (Data.reread true 0) = t.pairs.map rereadEntry := by
    rw [List.map_map]
    exact List.map_congr_left fun p hp => reread_entryData hlabels hp
  have htoData : t.toData = .dict (Data.ofFields t.fields) := rfl
  refine ⟨text, by rw [toYaml, htoData, htext], ?_⟩
  rw [hdata, rereadData, ← hitems, ← Data.rereadItems_eq_map]
  rfl

end ShortKeyed

/-- The value that is read of a member stands for it exactly when nothing strays into it, if the
values of the others are unequal to its own. -/
theorem caseOfData_reread_eq_ok_iff {type : EnumType} {m : Member} (hm : m ∈ type.members)
    (hplain : m.value.IsPlain)
    (hunequal : ∀ n ∈ type.members, m ≠ n → m.value.same n.value = false) :
    caseOfData (some type) (m.value.reread false 2) = .ok (.member m) ↔
      m.value.strays false 2 = false := by
  constructor
  · intro h
    cases hfound : type.ofValue? (m.value.reread false 2) with
    | none =>
      rw [caseOfData, hfound] at h
      contradiction
    | some n =>
      -- the member that is found equals what is read, so nothing strayed in
      rw [caseOfData, hfound] at h
      obtain rfl := Case.member.inj (Except.ok.inj h)
      have hsame : (n.value.reread false 2).same n.value = true :=
        List.find?_some (p := fun k : Member => (n.value.reread false 2).same k.value) hfound
      rwa [Data.same_reread hplain, Bool.not_eq_true'] at hsame
  · intro h
    have hfound := EnumType.ofValue?_of_same hm (Data.same_self hplain) hunequal
    rw [Data.reread_eq_self hplain h, caseOfData, hfound]

/-- A table of plain values with what is read of them is the same exactly when nothing strays into
them. -/
theorem same_mapCases_reread_iff {t : Table}
    (hlabels : ∀ label ∈ t.labels, ∃ s : String, label = .str s)
    (hvalues : ∀ c ∈ t.cases, ∃ d, c = .value d ∧ d.IsPlain) :
    (t.mapCases fun c => .value (c.toData.reread false 2)).same t = true ↔
      ∀ c ∈ t.cases, c.toData.strays false 2 = false := by
  rw [same_mapCases_eq_all fun label hlabel =>
    Data.alike_self (isPlain_of_mem_labels hlabels hlabel), List.all_eq_true]
  refine forall₂_congr fun c hc => ?_
  obtain ⟨d, rfl, hplain⟩ := hvalues c hc
  rw [Case.alike, Data.alike, Case.toData, Data.bothNan_eq_false hplain, Bool.false_or,
    Data.same_reread hplain, Bool.not_eq_true']

/-- Tables have a YAML text that gives back their labels, and they survive it exactly when nothing
strays into the strings of their cases. Cases that are data with short keys are then read as equal
values, and members of a type whose members stand for unequal values of this kind as they were. -/
theorem yaml_roundtrip_iff (t : Table)
    (hlabels : ∀ label ∈ t.labels, ∃ s : String, label = .str s) :
    ((∀ c ∈ t.cases, ∃ d, c = .value d ∧ Yaml.IsShortKeyed d) →
      ∃ text read, t.toYaml = .ok text ∧ ofYaml none text = .ok read ∧ read.labels = t.labels ∧
        (read.same t = true ↔ ∀ c ∈ t.cases, c.toData.strays false 2 = false)) ∧
    ∀ type : EnumType, (∀ c ∈ t.cases, ∃ m ∈ type.members, c = .member m) →
      (∀ m ∈ type.members, Yaml.IsShortKeyed m.value) →
      (∀ m ∈ type.members, ∀ n ∈ type.members, m ≠ n → m.value.same n.value = false) →
      ∃ text, t.toYaml = .ok text ∧
        (ofYaml (some type) text = .ok t ↔ ∀ c ∈ t.cases, c.toData.strays false 2 = false) := by
  constructor
  · intro hvalues
    have hcases : ∀ c ∈ t.cases, Yaml.IsShortKeyed c.toData := by
      intro c hc
      obtain ⟨d, rfl, hd⟩ := hvalues c hc
      exact hd
    obtain ⟨text, htext, hdata⟩ := data_toYaml hlabels hcases
    refine ⟨text, t.mapCases fun c => .value (c.toData.reread false 2), htext, ?_, rfl, ?_⟩
    · rw [ofYaml, hdata]
      exact ofData_rereadData_eq_ok_iff.mpr fun _ _ => rfl
    · refine same_mapCases_reread_iff hlabels fun c hc => ?_
      obtain ⟨d, hd, hplain⟩ := hvalues c hc
      exact ⟨d, hd, hplain.isPlain⟩
  · intro type hmembers hplain hunequal
    have hcases : ∀ c ∈ t.cases, Yaml.IsShortKeyed c.toData := by
      intro c hc
      obtain ⟨m, hm, rfl⟩ := hmembers c hc
      exact hplain m hm
    obtain ⟨text, htext, hdata⟩ := data_toYaml hlabels hcases
    have hself : t.mapCases id = t := by
      rw [mapCases]
      simp only [List.map_id]
    have hread := @ofData_rereadData_eq_ok_iff t (some type) id
    rw [hself] at hread
    refine ⟨text, htext, ?_⟩
    rw [ofYaml, hdata]
    refine hread.trans (forall₂_congr fun c hc => ?_)
    obtain ⟨m, hm, rfl⟩ := hmembers c hc
    exact caseOfData_reread_eq_ok_iff hm (hplain m hm).isPlain (hunequal m hm)

/-- A string between double quotes in two lists, and the members of a type in reverse. -/
theorem yaml_roundtrip_iff_reverse :
    let values := ofPairs [(.value (Data.nested 2 (.str "aé b")), .str "x"),
      (.value (.dict [(.str "key", .int (-1))]), .str "null")]
    let members := ofPairs (basicType.members.reverse.map fun m => (.member m, .str m.name))
    (∃ text read, values.toYaml = .ok text ∧ ofYaml none text = .ok read ∧
      read.labels = values.labels ∧ read.same values = true) ∧
    ∃ text, members.toYaml = .ok text ∧ ofYaml (some basicType) text = .ok members := by
  intro values members
  have hmapping : Yaml.IsShortKeyed (.dict [(.str "key", .int (-1))]) := by
    refine @Yaml.IsShortKeyed.dict [("key", .int (-1))] (by decide) ?_ ?_
    · simp only [List.forall_mem_cons]
      exact ⟨by decide, by simp⟩
    · simp only [List.forall_mem_cons]
      exact ⟨.int _, by simp⟩
  have hnested : Yaml.IsShortKeyed (Data.nested 2 (.str "aé b")) :=
    (Yaml.IsShortKeyed.str "aé b").nested 2
  constructor
  · obtain ⟨text, read, htext, hread, hlabels, hsame⟩ := (yaml_roundtrip_iff values (by
      simp [values, ofPairs])).1 (by simp [values, ofPairs, hnested, hmapping])
    refine ⟨text, read, htext, hread, hlabels, hsame.mpr ?_⟩
    simp only [values, ofPairs, List.map_cons, List.map_nil, List.forall_mem_cons]
    exact ⟨Data.strays_eq_false_of_depth hnested.isPlain (by decide),
      Data.strays_eq_false_of_depth hmapping.isPlain (by decide), by simp⟩
  · have hunequal : (Data.str "z").same (.str "o") = false ∧
        (Data.str "o").same (.str "z") = false := by decide
    obtain ⟨text, htext, hread⟩ := (yaml_roundtrip_iff members (by
      simp [members, ofPairs, basicType])).2 basicType (by simp [members, ofPairs, basicType])
      (by simp [basicType, Yaml.IsShortKeyed.str]) (by simp [basicType, hunequal])
    refine ⟨text, htext, hread.mpr ?_⟩
    simp only [members, ofPairs, basicType, List.map_cons, List.map_nil, List.reverse_cons,
      List.reverse_nil, List.nil_append, List.cons_append, List.forall_mem_cons]
    exact ⟨Data.strays_eq_false_of_depth (.str "o") (by decide),
      Data.strays_eq_false_of_depth (.str "z") (by decide), by simp⟩

/-- A string in thirty-nine lists, in which an escape stands before a blank, is read with a
backslash and another blank between them. -/
theorem yaml_stray_nested :
    let stored := Data.nested 39 (.str "aé b")
    let t := ofPairs [(.value stored, .str "x")]
    Yaml.IsShortKeyed stored ∧ ∃ text read, t.toYaml = .ok text ∧ ofYaml none text = .ok read ∧
      read.cases = [.value (Data.nested 39 (.str "aé\\  b"))] ∧ read.same t = false := by
  intro stored t
  have hstored : Yaml.IsShortKeyed stored := (Yaml.IsShortKeyed.str "aé b").nested 39
  have hlabels : ∀ label ∈ t.labels, ∃ s : String, label = .str s := by simp [t, ofPairs]
  have hvalues : ∀ c ∈ t.cases, ∃ d, c = .value d ∧ d.IsPlain := by
    simp [t, ofPairs, hstored.isPlain]
  have hcases : ∀ c ∈ t.cases, Yaml.IsShortKeyed c.toData := by
    simp only [t, ofPairs, List.map_cons, List.map_nil, List.forall_mem_cons]
    exact ⟨hstored, by simp⟩
  obtain ⟨text, htext, hdata⟩ := data_toYaml hlabels hcases
  refine ⟨hstored, text, t.mapCases fun c => .value (c.toData.reread false 2), htext, ?_, ?_, ?_⟩
  · rw [ofYaml, hdata]
    exact ofData_rereadData_eq_ok_iff.mpr fun _ _ => rfl
  · have hstring : Yaml.rereadString 80 "aé b" = "aé\\  b" := by decide +kernel
    have hread : stored.reread false 2 = .list [Data.nested 38 (.str "aé\\  b")] := by
      have hitem : (Data.nested 38 (.str "aé b")).reread true 2 =
          Data.nested 38 (.str (Yaml.rereadString 80 "aé b")) :=
        Data.reread_nested 38 2 (.str "aé b")
      change Data.list [(Data.nested 38 (.str "aé b")).reread true 2] = _
      rw [hitem, hstring]
    change [Case.value (stored.reread false 2)] = _
    rw [hread]
    rfl
  · have hstrays : stored.strays false 2 = true := by decide +kernel
    rw [Bool.eq_false_iff]
    intro hsame
    have hnone := (same_mapCases_reread_iff hlabels hvalues).mp hsame (.value stored) (by
      simp [t, ofPairs])
    exact absurd (hnone.symm.trans hstrays) Bool.false_ne_true

end Table

end EnumLabels
