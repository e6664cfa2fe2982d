import EnumLabels.Proofs.Json.Value
import EnumLabels.Proofs.Settings.Checks
import EnumLabels.Proofs.Yaml.Value
import EnumLabels.Settings.Stored

/-!
# Options survive storing

The settings of options are a mapping of plain values under five different names, so they have a
text, and the text gives the mapping with its names in order. The order makes no difference to
what the settings are, and settings of options pass their checks.
-/

namespace EnumLabels.Settings

/-- The settings with their names. -/
def fields (s : Settings) : List (String × Data) :=
  [("keyword", s.keyword), ("comment_marker", s.commentMarker), ("skip_closures", s.skipClosures),
    ("open_brace", s.openBrace), ("close_brace", s.closeBrace)]

/-- The names of the settings differ. -/
theorem nodup_fields (s : Settings) : (s.fields.map (·.1)).Nodup := by
  change ["keyword", "comment_marker", "skip_closures", "open_brace", "close_brace"].Nodup
  decide

/-- A mapping with the names of settings gives the settings that it states under them, if they
pass the checks. -/
theorem ofData_ofFields {s : Settings} {stored : List (String × Data)} (hne : stored ≠ [])
    (hnames : ∀ f ∈ stored, f.1 ∈ names)
    (hstates : ∀ f ∈ s.fields, Data.field? f.1 (Data.ofFields stored) = some f.2) :
    ofData (.dict (Data.ofFields stored)) = check s := by
  have htrue : (Data.dict (Data.ofFields stored)).isTrue = true := by
    simpa [Data.isTrue, Data.ofFields] using hne
  have hunknown : ((Data.ofFields stored).map (·.1)).filter (fun k => !isName k) = [] := by
    rw [List.filter_eq_nil_iff]
    intro k hk
    simp only [Data.ofFields, List.map_map, List.mem_map, Function.comp_apply] at hk
    obtain ⟨f, hf, rfl⟩ := hk
    simp [isName, hnames f hf]
  have hoverlay : overlay {} (Data.ofFields stored) = s := by
    simp only [fields, List.forall_mem_cons] at hstates
    obtain ⟨hkeyword, hmarker, hskip, hopen, hclose, -⟩ := hstates
    rw [overlay, hkeyword, hmarker, hskip, hopen, hclose]
    rfl
  simp only [ofData, htrue, unknownNames, hunknown]
  change check (overlay {} (Data.ofFields stored)) = _
  rw [hoverlay]

/-- A character has length one as a setting. -/
theorem length?_singleton (c : Char) : (Data.str (String.singleton c)).length? = some 1 := by
  simp [Data.length?, CodeString.length]

/-- A text that is not empty counts as true. -/
theorem isTrue_ofList {text : List Char} (h : text ≠ []) :
    (Data.str (String.ofList text)).isTrue = true := by
  simpa [Data.isTrue, CodeString.isEmpty] using h

variable (o : Options)

/-- The settings of options are valid. -/
theorem isValid_ofOptions : IsValid (ofOptions o) where
  keyword := isTrue_ofList o.keyword_ne_nil
  commentMarker := isTrue_ofList o.commentMarker_ne_nil
  openBrace := length?_singleton o.openBrace
  closeBrace := length?_singleton o.closeBrace
  braces_ne := by
    have hne : ¬ CodeString.chars (String.singleton o.openBrace) =
        .chars (String.singleton o.closeBrace) := by
      intro heq
      have hlist := congrArg String.toList (CodeString.chars.inj heq)
      exact o.braces_ne (by simpa using hlist)
    simpa [ofOptions, Data.same, Data.sameScalar, Data.toInt?] using hne

/-- The settings of options pass the checks. -/
theorem check_ofOptions : check (ofOptions o) = .ok (ofOptions o) :=
  check_eq_ok_iff.mpr ⟨rfl, isValid_ofOptions o⟩

/-- The settings of options are plain values. -/
theorem isPlain_of_mem_fields : ∀ f ∈ (ofOptions o).fields, f.2.IsPlain := by
  simp only [fields, List.forall_mem_cons]
  exact ⟨.str _, .str _, .bool _, .str _, .str _, by simp⟩

/-- The settings of options are plain data. -/
theorem isPlain_toData : (ofOptions o).toData.IsPlain :=
  @Data.IsPlain.dict (ofOptions o).fields (nodup_fields _) (isPlain_of_mem_fields o)

/-- The settings of options are given by their mapping with the names in order. -/
theorem ofData_sorted_toData : ofData (ofOptions o).toData.sorted = .ok (ofOptions o) := by
  have hstates : ∀ f ∈ (ofOptions o).fields,
      Data.field? f.1 (Data.ofFields (Data.sortedFields (ofOptions o).fields)) = some f.2 := by
    intro f hf
    have hvalue : f.2.sorted = f.2 := by
      simp only [fields, List.mem_cons, List.not_mem_nil, or_false] at hf
      rcases hf with rfl | rfl | rfl | rfl | rfl <;> rfl
    rw [Data.field?_sortedFields (nodup_fields _) hf, hvalue]
  have hperm := List.mergeSort_perm
    ((ofOptions o).fields.map fun f => (f.1, f.2.sorted)) Data.fieldLe
  have hnames : ∀ f ∈ Data.sortedFields (ofOptions o).fields, f.1 ∈ names := by
    intro f hf
    obtain ⟨g, hg, rfl⟩ := List.mem_map.mp (hperm.mem_iff.mp hf)
    simp only [fields, List.mem_cons, List.not_mem_nil, or_false] at hg
    rcases hg with rfl | rfl | rfl | rfl | rfl <;> simp [names]
  have hne : Data.sortedFields (ofOptions o).fields ≠ [] := by
    intro hnil
    have hlength := hperm.length_eq
    change (Data.sortedFields (ofOptions o).fields).length = 5 at hlength
    rw [hnil] at hlength
    contradiction
  have htoData : (ofOptions o).toData.sorted =
      .dict (Data.ofFields (Data.sortedFields (ofOptions o).fields)) :=
    Data.sorted_dict_ofFields (ofOptions o).fields
  rw [htoData, ofData_ofFields hne hnames hstates, check_ofOptions]

/-- Options survive JSON: their text gives the same settings. -/
theorem ofJson_toJson_options :
    ∃ text, (ofOptions o).toJson = .ok text ∧ ofJson text = .ok (ofOptions o) := by
  obtain ⟨text, htext, hdata⟩ := Json.text?_of_isPlain (isPlain_toData o)
  refine ⟨text, by rw [toJson, htext], ?_⟩
  rw [ofJson, hdata]
  exact ofData_sorted_toData o

/-- The names of settings are short keys. -/
theorem isShortKey_of_mem_fields : ∀ f ∈ (ofOptions o).fields, Yaml.IsShortKey f.1 := by
  simp only [fields, List.forall_mem_cons]
  exact ⟨by decide, by decide, by decide, by decide, by decide, by simp⟩

/-- The settings of options are read from YAML as they are written. -/
theorem reread_of_mem_fields {f : String × Data} (hf : f ∈ (ofOptions o).fields) :
    f.2.sorted.reread false 0 = f.2.sorted := by
  have hstring (s : String) : (Data.str s).sorted.reread false 0 = (Data.str s).sorted :=
    Data.reread_str (by decide) false s
  simp only [fields, List.mem_cons, List.not_mem_nil, or_false] at hf
  rcases hf with rfl | rfl | rfl | rfl | rfl
  · exact hstring _
  · exact hstring _
  · rfl
  · exact hstring _
  · exact hstring _

/-- Options survive YAML: their text gives the same settings. -/
theorem ofYaml_toYaml_options :
    ∃ text, (ofOptions o).toYaml = .ok text ∧ ofYaml text = .ok (ofOptions o) := by
  have hshortKeyed : ∀ f ∈ (ofOptions o).fields, Yaml.IsShortKeyed f.2 := by
    simp only [fields, List.forall_mem_cons]
    exact ⟨.str _, .str _, .bool _, .str _, .str _, by simp⟩
  obtain ⟨text, htext, hdata⟩ := Yaml.data_text?_dict .sorted
    (by simp [fields] : (ofOptions o).fields ≠ []) (nodup_fields _)
    (isShortKey_of_mem_fields o) hshortKeyed
  have hread : (ofOptions o).fields.map (fun f =>
      (f.1, (Yaml.KeyOrder.sorted.data f.2).reread false 0)) =
      (ofOptions o).fields.map fun f => (f.1, f.2.sorted) :=
    List.map_congr_left fun f hf => congrArg (Prod.mk f.1) (reread_of_mem_fields o hf)
  have hsorted : (ofOptions o).toData.sorted =
      .dict (Data.ofFields (Data.sortedFields (ofOptions o).fields)) :=
    Data.sorted_dict_ofFields (ofOptions o).fields
  have htoData : (ofOptions o).toData = .dict (Data.ofFields (ofOptions o).fields) := rfl
  refine ⟨text, by rw [toYaml, htoData, htext], ?_⟩
  rw [ofYaml, hdata, hread]
  change ofData (.dict (Data.ofFields (Data.sortedFields (ofOptions o).fields))) = _
  rw [← hsorted]
  exact ofData_sorted_toData o

end EnumLabels.Settings
