import EnumLabels.Proofs.Table.Building
import EnumLabels.Proofs.Table.Stored
import EnumLabels.Samples

/-!
# Consistent stored tables

A mapping whose cases are mappings stores a table if each of these has a value that stands for a
case and a label, and if the stored count is right or missing. Nothing else in the mapping counts,
and what is stored anew is just the count, the labels and the values, so storing a table that was
read makes its mapping normal, once and for all.

The entries are read in order, and within an entry first the value, then the case for which it
stands and then the label. The first fault in this order is the cause if there is no table. A wrong
count is one only behind entries without faults.
-/

namespace EnumLabels

/-- The member that is found by a value is the first one whose value is equal. -/
theorem EnumType.ofValue?_eq_some_iff {type : EnumType} {value : Data} {m : Member} :
    type.ofValue? value = some m ↔
      value.same m.value = true ∧ ∃ before after, type.members = before ++ m :: after ∧
        ∀ n ∈ before, value.same n.value = false := by
  simp [ofValue?, List.find?_eq_some_iff_append]

/-- No member is found by a value that is unequal to those of all of them. -/
theorem EnumType.ofValue?_eq_none_iff {type : EnumType} {value : Data} :
    type.ofValue? value = none ↔ ∀ m ∈ type.members, value.same m.value = false := by
  simp [ofValue?]

namespace Table

/-- What a value stands for: without a type for itself, and with one for the first member whose
value is equal, if there is such a member. -/
inductive StandsFor : Option EnumType → Data → Except Error Case → Prop
  | itself (value : Data) : StandsFor none value (.ok (.value value))
  | member {type : EnumType} {value : Data} {before after : List Member} {m : Member}
      (hmembers : type.members = before ++ m :: after) (hsame : value.same m.value = true)
      (hbefore : ∀ n ∈ before, value.same n.value = false) :
      StandsFor (some type) value (.ok (.member m))
  | noMember {type : EnumType} {value : Data}
      (hnone : ∀ m ∈ type.members, value.same m.value = false) :
      StandsFor (some type) value (.error (.notMember value type.name))

/-- What an entry with the given fields is read as: its case and its label, or its first fault. -/
inductive IsReadAs (type : Option EnumType) (fields : List (Data × Data)) :
    Except Error (Case × Data) → Prop
  | noValue (hvalue : Data.field? "value" fields = none) :
      IsReadAs type fields (.error (.missingField "value"))
  | noCase {value : Data} {e : Error} (hvalue : Data.field? "value" fields = some value)
      (hcase : StandsFor type value (.error e)) : IsReadAs type fields (.error e)
  | noLabel {value : Data} {c : Case} (hvalue : Data.field? "value" fields = some value)
      (hcase : StandsFor type value (.ok c)) (hlabel : Data.field? "label" fields = none) :
      IsReadAs type fields (.error (.missingField "label"))
  | pair {value label : Data} {c : Case} (hvalue : Data.field? "value" fields = some value)
      (hcase : StandsFor type value (.ok c)) (hlabel : Data.field? "label" fields = some label) :
      IsReadAs type fields (.ok (c, label))

/-- A value is converted to what it stands for. -/
theorem caseOfData_eq_iff {type : Option EnumType} {value : Data} {outcome : Except Error Case} :
    caseOfData type value = outcome ↔ StandsFor type value outcome := by
  constructor
  · rintro rfl
    cases type with
    | none => exact .itself value
    | some type =>
      cases hfind : type.ofValue? value with
      | none =>
        rw [caseOfData, hfind]
        exact .noMember (EnumType.ofValue?_eq_none_iff.mp hfind)
      | some m =>
        rw [caseOfData, hfind]
        obtain ⟨hsame, before, after, hmembers, hbefore⟩ := EnumType.ofValue?_eq_some_iff.mp hfind
        exact .member hmembers hsame hbefore
  · rintro (_ | ⟨hmembers, hsame, hbefore⟩ | hnone)
    · rfl
    · simp only [caseOfData, EnumType.ofValue?_eq_some_iff.mpr ⟨hsame, _, _, hmembers, hbefore⟩]
    · simp only [caseOfData, EnumType.ofValue?_eq_none_iff.mpr hnone]

/-- An entry is read as its case and its label or as its first fault. -/
theorem pairOfData_dict_eq_iff {type : Option EnumType} {fields : List (Data × Data)}
    {outcome : Except Error (Case × Data)} :
    pairOfData type (.dict fields) = outcome ↔ IsReadAs type fields outcome := by
  constructor
  · rintro rfl
    cases hvalue : Data.field? "value" fields with
    | none => simpa [pairOfData, hvalue] using IsReadAs.noValue hvalue
    | some value =>
      cases hcase : caseOfData type value with
      | error e =>
        simpa [pairOfData, hvalue, hcase] using IsReadAs.noCase hvalue (caseOfData_eq_iff.mp hcase)
      | ok c =>
        cases hlabel : Data.field? "label" fields with
        | none =>
          simpa [pairOfData, hvalue, hcase, hlabel] using
            IsReadAs.noLabel hvalue (caseOfData_eq_iff.mp hcase) hlabel
        | some label =>
          simpa [pairOfData, hvalue, hcase, hlabel] using
            IsReadAs.pair hvalue (caseOfData_eq_iff.mp hcase) hlabel
  · rintro (hvalue | ⟨hvalue, hcase⟩ | ⟨hvalue, hcase, hlabel⟩ | ⟨hvalue, hcase, hlabel⟩)
    · simp only [pairOfData, hvalue]
    · simp only [pairOfData, hvalue, caseOfData_eq_iff.mpr hcase]
    · simp only [pairOfData, hvalue, caseOfData_eq_iff.mpr hcase, hlabel]
    · simp only [pairOfData, hvalue, caseOfData_eq_iff.mpr hcase, hlabel]

/-- A table whose cases stand for themselves is read as it is stored. -/
theorem ofData_toData {type : Option EnumType} {t : Table}
    (hcases : ∀ c ∈ t.cases, StandsFor type c.toData (.ok c)) : ofData type t.toData = .ok t := by
  have hpairs : (t.pairs.map entryData).mapM (pairOfData type) = .ok (t.pairs.map id) := by
    rw [List.mapM_map]
    refine mapM_eq_ok_iff.mpr fun p hp => pairOfData_dict_eq_iff.mpr ?_
    exact .pair rfl (hcases p.1 (mem_of_mem_pairs hp).1) rfl
  have hsize : (Data.int t.size).same (.int (t.pairs.map id).length) = true := by
    rw [List.length_map, length_pairs]
    exact beq_self_eq_true _
  have hread : ofData type t.toData = .ok (ofPairs (t.pairs.map id)) :=
    ofData_eq_ok rfl hpairs rfl hsize
  rwa [List.map_id, ofPairs_pairs] at hread

/-- Without a type the cases of a table that is read are plain values. -/
theorem exists_value_of_ofData {d : Data} {t : Table} (h : ofData none d = .ok t) {c : Case}
    (hc : c ∈ t.cases) : ∃ value, c = .value value := by
  rw [ofData_eq] at h
  obtain ⟨_, _, ⟨pairs, ⟨_, entries, -, -, hpairs, -⟩, rfl, rfl⟩, hholds⟩ :=
    (isBuiltFrom_ofDataUsing (neverMiscounts_caseOfData none) d).holds t h
  rw [hholds.cases_eq] at hc
  obtain ⟨p, hp, rfl⟩ := List.mem_map.mp hc
  have hvalues : List.Forall₂ (fun p entry => (∃ value, p.1 = .value value) ∧
      IsEntryOf (caseOfData none) entry p) pairs entries := by
    refine hpairs.flip.imp fun p entry hentry => ⟨?_, hentry⟩
    obtain ⟨_, value, -, -, hcase, -⟩ := hentry
    exact ⟨value, (Except.ok.inj hcase).symm⟩
  exact ((List.forall₂_and_left pairs entries).mp hvalues).1 p hp

section Mappings

variable {type : Option EnumType} {fields : List (Data × Data)}
  {entries : List (List (Data × Data))}

/-- The cases of a mapping are mappings with the given fields, none if the mapping has no cases. -/
def HasEntries (fields : List (Data × Data)) (entries : List (List (Data × Data))) : Prop :=
  Data.field? "cases" fields = some (.list (entries.map Data.dict)) ∨
    Data.field? "cases" fields = none ∧ entries = []

/-- The table of a mapping is that of the pairs of its entries, which are counted. -/
theorem ofData_of_hasEntries (hentries : HasEntries fields entries) :
    ofData type (.dict fields) =
      (entries.mapM fun e => pairOfData type (.dict e)) >>=
        ofCountedPairs (Data.field? "count" fields) := by
  have hcases : (Data.field? "cases" fields).getD (.list []) = .list (entries.map Data.dict) := by
    rcases hentries with hcases | ⟨hcases, rfl⟩ <;> rw [hcases] <;> rfl
  rw [ofData_eq, ofDataUsing, hcases, ← pairOfData_eq]
  change ((entries.map Data.dict).mapM (pairOfData type) >>= _) = _
  rw [List.mapM_map]
  rfl

/-- A mapping stores the table of the pairs of its entries if they are counted rightly. -/
theorem ofData_dict_eq_ok_iff (hentries : HasEntries fields entries) {t : Table} :
    ofData type (.dict fields) = .ok t ↔
      (entries.mapM fun e => pairOfData type (.dict e)) = .ok t.pairs ∧
        ∀ count, Data.field? "count" fields = some count →
          count.same (.int entries.length) = true := by
  rw [ofData_of_hasEntries hentries]
  constructor
  · intro h
    obtain ⟨pairs, hpairs, hcounted⟩ := ok_of_bind h
    obtain ⟨rfl, hcount⟩ := ofCountedPairs_eq_ok_iff.mp hcounted
    rw [pairs_ofPairs, (mapM_eq_ok_iff_forall₂.mp hpairs).length_eq]
    exact ⟨hpairs, hcount⟩
  · rintro ⟨hpairs, hcount⟩
    rw [(mapM_eq_ok_iff_forall₂.mp hpairs).length_eq] at hcount
    rw [hpairs]
    exact ofCountedPairs_eq_ok_iff.mpr ⟨(ofPairs_pairs t).symm, hcount⟩

/-- A mapping stores a table if its entries are without faults and counted rightly. -/
theorem exists_ofData_dict_eq_ok_iff (hentries : HasEntries fields entries) :
    (∃ t, ofData type (.dict fields) = .ok t) ↔
      (∀ e ∈ entries, ∃ p, IsReadAs type e (.ok p)) ∧
        ∀ count, Data.field? "count" fields = some count →
          count.same (.int entries.length) = true := by
  simp only [← pairOfData_dict_eq_iff]
  rw [← exists_mapM_eq_ok_iff_forall]
  constructor
  · rintro ⟨t, ht⟩
    obtain ⟨hpairs, hcount⟩ := (ofData_dict_eq_ok_iff hentries).mp ht
    exact ⟨⟨t.pairs, hpairs⟩, hcount⟩
  · rintro ⟨⟨pairs, hpairs⟩, hcount⟩
    refine ⟨ofPairs pairs, (ofData_dict_eq_ok_iff hentries).mpr ⟨?_, hcount⟩⟩
    rw [pairs_ofPairs, hpairs]

/-- The pairs of a table are what the entries of the mapping that stores it are read as. -/
theorem forall₂_isReadAs_of_ofData (hentries : HasEntries fields entries) {t : Table}
    (h : ofData type (.dict fields) = .ok t) :
    List.Forall₂ (fun e p => IsReadAs type e (.ok p)) entries t.pairs := by
  obtain ⟨hpairs, -⟩ := (ofData_dict_eq_ok_iff hentries).mp h
  simpa only [mapM_eq_ok_iff_forall₂, pairOfData_dict_eq_iff] using hpairs

/-- A mapping stores no table for the first fault of its entries, or if there is none, for a wrong
count. -/
theorem ofData_dict_eq_error_iff (hentries : HasEntries fields entries) {e : Error} :
    ofData type (.dict fields) = .error e ↔
      (∃ before entry after, entries = before ++ entry :: after ∧ IsReadAs type entry (.error e) ∧
        ∀ b ∈ before, ∃ p, IsReadAs type b (.ok p)) ∨
      (∀ b ∈ entries, ∃ p, IsReadAs type b (.ok p)) ∧
        ∃ count, Data.field? "count" fields = some count ∧
          count.same (.int entries.length) = false ∧ e = .storedCount count entries.length := by
  rw [ofData_of_hasEntries hentries]
  simp only [← pairOfData_dict_eq_iff]
  rw [← mapM_eq_error_iff, ← exists_mapM_eq_ok_iff_forall]
  constructor
  · intro h
    rcases error_of_bind h with hfault | ⟨pairs, hpairs, hcounted⟩
    · exact .inl hfault
    · have hlength := (mapM_eq_ok_iff_forall₂.mp hpairs).length_eq
      exact .inr ⟨⟨pairs, hpairs⟩, hlength ▸ ofCountedPairs_eq_error_iff.mp hcounted⟩
  · rintro (hfault | ⟨⟨pairs, hpairs⟩, hcount⟩)
    · rw [hfault]
      rfl
    · have hlength := (mapM_eq_ok_iff_forall₂.mp hpairs).length_eq
      rw [hpairs]
      exact ofCountedPairs_eq_error_iff.mpr (hlength ▸ hcount)

end Mappings

/-- What a mapping whose cases are entries with the given fields is read as. -/
structure IsRead (type : Option EnumType) (fields : List (Data × Data))
    (entries : List (List (Data × Data))) : Prop where
  /-- There is a table if and only if every entry is read as a case and a label and the count is
  right or missing. -/
  returns_iff : (∃ t, ofData type (.dict fields) = .ok t) ↔
    (∀ e ∈ entries, ∃ p, IsReadAs type e (.ok p)) ∧
      ∀ count, Data.field? "count" fields = some count → count.same (.int entries.length) = true
  /-- The table holds what the entries are read as, in their order. -/
  holds : ∀ t, ofData type (.dict fields) = .ok t →
    List.Forall₂ (fun e p => IsReadAs type e (.ok p)) entries t.pairs
  /-- Without a type the table is stored as its count with the label and the value of each entry. -/
  toData_eq : type = none → ∀ t, ofData type (.dict fields) = .ok t → ∃ stored,
    t.toData = .dict [(.str "count", .int entries.length), (.str "cases", .list stored)] ∧
      List.Forall₂ (fun e d => ∃ label value, Data.field? "label" e = some label ∧
        Data.field? "value" e = some value ∧
        d = .dict [(.str "label", label), (.str "value", value)]) entries stored
  /-- If there is no table, the cause is the fault of the first entry that has one, or a wrong count
  if no entry has one. -/
  error_iff : ∀ e, ofData type (.dict fields) = .error e ↔
    (∃ before entry after, entries = before ++ entry :: after ∧ IsReadAs type entry (.error e) ∧
      ∀ b ∈ before, ∃ p, IsReadAs type b (.ok p)) ∨
    (∀ b ∈ entries, ∃ p, IsReadAs type b (.ok p)) ∧
      ∃ count, Data.field? "count" fields = some count ∧
        count.same (.int entries.length) = false ∧ e = .storedCount count entries.length

/-- A mapping whose cases are mappings is read as a table exactly if it is consistent, and otherwise
fails with its first fault. Without a type, storing what is read gives a normal form, which is read
as the same table and stored as itself. -/
theorem ofData_accepts_consistent (type : Option EnumType) {fields : List (Data × Data)}
    {entries : List (List (Data × Data))} (hentries : HasEntries fields entries) :
    IsRead type fields entries ∧
      (∀ t : Table, (∀ c ∈ t.cases, ∃ value, c = .value value) → ofData none t.toData = .ok t) ∧
      ∀ d e, (ofData none d).map toData = .ok e → (ofData none e).map toData = .ok e := by
  have hreread (t : Table) (hvalues : ∀ c ∈ t.cases, ∃ value, c = .value value) :
      ofData none t.toData = .ok t := by
    refine ofData_toData fun c hc => ?_
    obtain ⟨value, rfl⟩ := hvalues c hc
    exact .itself value
  refine ⟨?_, hreread, fun d e h => ?_⟩
  · constructor
    case returns_iff => exact exists_ofData_dict_eq_ok_iff hentries
    case holds => exact fun t => forall₂_isReadAs_of_ofData hentries
    case toData_eq =>
      rintro rfl t ht
      have hpairs := forall₂_isReadAs_of_ofData hentries ht
      refine ⟨t.pairs.map entryData, ?_, ?_⟩
      · rw [hpairs.length_eq, length_pairs]
        rfl
      · rw [List.forall₂_map_right_iff]
        refine hpairs.imp fun e p hread => ?_
        cases hread with
        | pair hvalue hcase hlabel =>
          cases hcase with
          | itself => exact ⟨_, _, hlabel, hvalue, rfl⟩
    case error_iff => exact fun e => ofData_dict_eq_error_iff hentries
  · cases hread : ofData none d with
    | error cause => simp [hread, Except.map] at h
    | ok t =>
      obtain rfl : t.toData = e := by simpa [hread, Except.map] using h
      rw [hreread t fun c => exists_value_of_ofData hread]
      rfl

/-- Other fields and the order of the fields do not count. A member that is not found comes before a
missing value in a later entry and before a wrong count. -/
theorem ofData_accepts_consistent_of_other_fields :
    let named := [(.str "value", .str "z"), (.str "note", .null), (.str "label", .str "zero")]
    let unknown := [(.str "value", .int 0)]
    let good :=
      [(.str "version", .int 1), (.str "cases", .list [.dict named]), (.str "count", .int 1)]
    let faulty := [(.str "cases", .list [.dict named, .dict unknown, .dict []])]
    HasEntries good [named] ∧ HasEntries faulty [named, unknown, []] ∧
      (∃ stored, (ofData none (.dict good)).map toData = .ok stored ∧
        (ofData none stored).map toData = .ok stored) ∧
      ofData (some basicType) (.dict faulty) = .error (.notMember (.int 0) "BasicEnum") := by
  intro named unknown good faulty
  have hgood : HasEntries good [named] := .inl rfl
  have hfaulty : HasEntries faulty [named, unknown, []] := .inl rfl
  obtain ⟨hread, -, hagain⟩ := ofData_accepts_consistent none hgood
  obtain ⟨hfails, -, -⟩ := ofData_accepts_consistent (some basicType) hfaulty
  refine ⟨hgood, hfaulty, ?_, ?_⟩
  · have hentry : ∃ p, IsReadAs none named (.ok p) := ⟨_, .pair rfl (.itself _) rfl⟩
    obtain ⟨t, ht⟩ := hread.returns_iff.mpr ⟨by simpa using hentry, by rintro _ ⟨⟩; rfl⟩
    have hstored : (ofData none (.dict good)).map toData = .ok t.toData := by rw [ht]; rfl
    exact ⟨_, hstored, hagain _ _ hstored⟩
  · have hentry : ∃ p, IsReadAs (some basicType) named (.ok p) :=
      ⟨_, .pair rfl (.member (List.nil_append _).symm rfl (by simp)) rfl⟩
    refine (hfails.error_iff _).mpr (.inl ⟨[named], unknown, [[]], rfl, ?_, by simpa using hentry⟩)
    exact .noCase rfl (.noMember (by simp only [basicType]; decide))

end Table

end EnumLabels
