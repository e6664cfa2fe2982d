import EnumLabels.Proofs.Settings.Stored
import EnumLabels.Proofs.Stages
import EnumLabels.Proofs.Text.CodeString

/-!
# What a mapping gives

A mapping with string keys gives the default settings with its own values in the place of theirs, or
it fails with all its keys that name no setting. The values are not looked at before the keys, and
after that they are only looked at by the checks. What is given once is given by its own mapping.
-/

namespace EnumLabels

namespace Data

/-- The entries of a mapping whose keys are texts. -/
def ofTexts (fields : List (CodeString × Data)) : List (Data × Data) :=
  fields.map fun f => (str f.1, f.2)

/-- Texts count as one key when they are equal. -/
theorem alike_str_text (s t : CodeString) : (str s).alike (str t) = decide (s = t) := rfl

/-- What is stored under a key is what its first entry holds. -/
theorem field?_ofTexts_cons (k : String) (f : CodeString × Data)
    (fields : List (CodeString × Data)) :
    field? k (ofTexts (f :: fields)) =
      if .chars k = f.1 then some f.2 else field? k (ofTexts fields) := by
  simp only [field?, lookup?, ofTexts, List.map_cons, List.find?_cons, alike_str_text]
  split <;> simp_all

/-- Nothing is stored under a key that no entry has. -/
theorem field?_ofTexts_eq_none {k : String} {fields : List (CodeString × Data)}
    (h : .chars k ∉ fields.map (·.1)) : field? k (ofTexts fields) = none := by
  induction fields with
  | nil => rfl
  | cons f fields ih =>
    rw [List.map_cons, List.mem_cons, not_or] at h
    rw [field?_ofTexts_cons, if_neg h.1, ih h.2]

end Data

namespace Settings

/-- The names of the settings, as texts. -/
def keys : List CodeString := names.map CodeString.chars

/-- A text names a setting if and only if it is one of their names. -/
theorem isName_str_iff (text : CodeString) : isName (.str text) = true ↔ text ∈ keys := by
  cases text with
  | chars name => simp [isName, keys]
  | points codes => simp [isName, keys]

/-- Settings are overlaid with some entries one entry at a time. -/
theorem overlay_cons (s : Settings) (f : CodeString × Data) (given : List (CodeString × Data))
    (hnew : f.1 ∉ given.map (·.1)) :
    s.overlay (Data.ofTexts (f :: given)) =
      (s.overlay (Data.ofTexts [f])).overlay (Data.ofTexts given) := by
  have hfield (k : String) (d : Data) : (Data.field? k (Data.ofTexts (f :: given))).getD d =
      (Data.field? k (Data.ofTexts given)).getD ((Data.field? k (Data.ofTexts [f])).getD d) := by
    rw [Data.field?_ofTexts_cons, Data.field?_ofTexts_cons]
    by_cases hk : CodeString.chars k = f.1
    · rw [Data.field?_ofTexts_eq_none (hk ▸ hnew), if_pos hk, if_pos hk]
      rfl
    · rw [if_neg hk, if_neg hk]
      rfl
  simp only [overlay, hfield]

/-- Overlaying settings with one entry stores its value under its name. -/
theorem fields_overlay_singleton (s : Settings) {f : CodeString × Data} (hf : f.1 ∈ keys) :
    Data.ofFields (s.overlay (Data.ofTexts [f])).fields =
      Data.store (.str f.1) f.2 (Data.ofFields s.fields) := by
  obtain ⟨text, value⟩ := f
  simp only [keys, names, List.map_cons, List.map_nil, List.mem_cons, List.not_mem_nil,
    or_false] at hf
  rcases hf with rfl | rfl | rfl | rfl | rfl <;> rfl

/-- Overlaying settings with entries stores the values of the entries one after the other. -/
theorem fields_overlay (s : Settings) {given : List (CodeString × Data)}
    (hdistinct : (given.map (·.1)).Nodup) (hknown : ∀ f ∈ given, f.1 ∈ keys) :
    Data.ofFields (s.overlay (Data.ofTexts given)).fields =
      (Data.ofTexts given).foldl (fun entries p => Data.store p.1 p.2 entries)
        (Data.ofFields s.fields) := by
  induction given generalizing s with
  | nil => rfl
  | cons f given ih =>
    rw [List.map_cons, List.nodup_cons] at hdistinct
    obtain ⟨hf, hknown⟩ := List.forall_mem_cons.mp hknown
    rw [overlay_cons s f given hdistinct.1, ih _ hdistinct.2 hknown, fields_overlay_singleton s hf]
    rfl

/-- The default settings overlaid with some entries are the mapping that results from storing the
entries behind the defaults. -/
theorem toData_overlay {given : List (CodeString × Data)} (hdistinct : (given.map (·.1)).Nodup)
    (hknown : ∀ f ∈ given, f.1 ∈ keys) :
    (overlay {} (Data.ofTexts given)).toData =
      .dict (Data.ofPairs (Data.ofFields (fields {}) ++ Data.ofTexts given)) := by
  have hdefaults := Data.ofPairs_ofFields (nodup_fields {})
  rw [Data.ofPairs] at hdefaults
  rw [Data.ofPairs, List.foldl_append, hdefaults, ← fields_overlay {} hdistinct hknown]
  rfl

/-- The keys that name no setting are found if all keys are texts. -/
theorem unknownNames_ofTexts (given : List (CodeString × Data)) :
    unknownNames (Data.ofTexts given) = .ok ((given.map (·.1)).filter (· ∉ keys)) := by
  have hkeys : (Data.ofTexts given).map (·.1) = (given.map (·.1)).map Data.str := by
    simp [Data.ofTexts]
  have hfilter : ((given.map (·.1)).map Data.str).filter (fun k => !isName k) =
      ((given.map (·.1)).filter (· ∉ keys)).map Data.str := by
    rw [List.filter_map]
    congr 1
    refine List.filter_congr fun text _ => ?_
    rw [Bool.eq_iff_iff]
    simp [← isName_str_iff]
  rw [unknownNames, hkeys, hfilter, mapM_eq_ok_iff_forall₂, List.forall₂_map_left_iff,
    List.forall₂_same]
  exact fun _ _ => rfl

/-- A mapping that names only settings gives the defaults overlaid with it, if these are valid. -/
theorem ofData_of_known {given : List (CodeString × Data)} (hknown : ∀ f ∈ given, f.1 ∈ keys) :
    ofData (.dict (Data.ofTexts given)) = (overlay {} (Data.ofTexts given)).check := by
  cases given with
  | nil => exact (check_eq_ok_iff.mpr ⟨rfl, isValid_default⟩).symm
  | cons f given =>
    have hunknown : ((f :: given).map (·.1)).filter (· ∉ keys) = [] := by
      rw [List.filter_eq_nil_iff, List.forall_mem_map]
      simpa using hknown
    rw [ofData, if_neg (by simp [Data.isTrue, Data.ofTexts])]
    simp only [unknownNames_ofTexts, hunknown]
    rfl

/-- A mapping that names something else fails with these names. -/
theorem ofData_of_unknown {given : List (CodeString × Data)} (hunknown : ∃ f ∈ given, f.1 ∉ keys) :
    ofData (.dict (Data.ofTexts given)) =
      .error (.unknownSettings (CodeString.sort ((given.map (·.1)).filter (· ∉ keys)))) := by
  obtain ⟨f, hf, hname⟩ := hunknown
  have hmem : f.1 ∈ (given.map (·.1)).filter (· ∉ keys) := by
    simpa using ⟨⟨f.2, hf⟩, hname⟩
  have hne : ((given.map (·.1)).filter (· ∉ keys)).isEmpty = false :=
    List.isEmpty_eq_false_iff.mpr (List.ne_nil_of_mem hmem)
  have htrue : (Data.dict (Data.ofTexts given)).isTrue = true := by
    simpa [Data.isTrue, Data.ofTexts] using List.ne_nil_of_mem hf
  rw [ofData, htrue]
  simp only [unknownNames_ofTexts, bind, Except.bind, hne]
  rfl

/-- Settings that are given are valid. -/
theorem isValid_of_ofData {d : Data} {s : Settings} (h : ofData d = .ok s) : s.IsValid := by
  cases htrue : d.isTrue with
  | false =>
    unfold ofData at h
    rw [htrue] at h
    obtain rfl := Except.ok.inj h
    exact isValid_default
  | true =>
    unfold ofData at h
    rw [htrue] at h
    cases d with
    | dict entries =>
      obtain ⟨unknown, -, hrest⟩ := ok_of_bind h
      cases hempty : unknown.isEmpty with
      | false => simp [hempty, bind, Except.bind, throw, throwThe, MonadExceptOf.throw] at hrest
      | true =>
        have hcheck : (overlay {} entries).check = .ok s := by simpa [hempty] using hrest
        obtain ⟨rfl, hvalid⟩ := check_eq_ok_iff.mp hcheck
        exact hvalid
    | _ => contradiction

/-- Valid settings are given by their own mapping. -/
theorem ofData_toData {s : Settings} (h : s.IsValid) : ofData s.toData = .ok s := by
  have hnames : ∀ f ∈ s.fields, f.1 ∈ names := by simp [fields, names]
  have hstates : ∀ f ∈ s.fields, Data.field? f.1 (Data.ofFields s.fields) = some f.2 :=
    fun f hf => Data.field?_of_mem s.nodup_fields hf
  exact (ofData_ofFields (by simp [fields]) hnames hstates).trans (check_eq_ok_iff.mpr ⟨rfl, h⟩)

/-- What a mapping whose keys are texts gives. -/
structure IsReadFrom (given : List (CodeString × Data)) : Prop where
  /-- If some key names no setting, the mapping fails with all such keys, each of them once and in
  the order of their code points. -/
  unknown (hunknown : ∃ f ∈ given, f.1 ∉ keys) : ∃ texts : List CodeString,
    ofData (.dict (Data.ofTexts given)) = .error (.unknownSettings texts) ∧
    (Error.unknownSettings texts).message =
      CodeString.chars "Unknown scan option(s): " ++ CodeString.joined texts ∧
    texts.Nodup ∧ texts.Pairwise (fun s t => s.toPoints ≤ t.toPoints) ∧
    ∀ text, text ∈ texts ↔ text ∈ given.map (·.1) ∧ text ∉ keys
  /-- If all keys name settings, the settings are the defaults overlaid with the mapping, or the
  mapping fails with the first fault of these. -/
  known (hknown : ∀ f ∈ given, f.1 ∈ keys) : ∃ s : Settings,
    s.toData = .dict (Data.ofPairs (Data.ofFields (fields {}) ++ Data.ofTexts given)) ∧
    ofData (.dict (Data.ofTexts given)) = s.check ∧
    (∀ e, s.check = .error e ↔ s.faults.findSome? id = some e) ∧
    ∀ t, s.check = .ok t ↔ t = s ∧ s.IsValid

/-- A mapping whose keys are different texts is read as it stands. -/
theorem isReadFrom {given : List (CodeString × Data)} (hdistinct : (given.map (·.1)).Nodup) :
    IsReadFrom given := by
  constructor
  case unknown =>
    intro hunknown
    have hperm := List.mergeSort_perm ((given.map (·.1)).filter (· ∉ keys)) CodeString.le
    refine ⟨_, ofData_of_unknown hunknown, rfl, hperm.nodup_iff.mpr (hdistinct.filter _),
      CodeString.pairwise_sort _, fun text => ?_⟩
    rw [CodeString.sort, hperm.mem_iff, List.mem_filter, decide_eq_true_eq]
  case known =>
    intro hknown
    exact ⟨_, toData_overlay hdistinct hknown, ofData_of_known hknown,
      fun e => check_eq_error_iff, fun t => check_eq_ok_iff⟩

/-- No setting is dropped from a mapping whose keys are different texts and none is invented, and
settings that were checked or given once are given by their mapping.

What is given is checked, so it has markers that are not empty and two different single braces. -/
theorem ofData_neither_drops_nor_invents (given : List (CodeString × Data))
    (hdistinct : (given.map (·.1)).Nodup) :
    IsReadFrom given ∧
      (∀ s : Settings, s.check = .ok s → s.IsValid ∧ ofData s.toData = .ok s) ∧
      (∀ d e, (ofData d).map toData = .ok e → (ofData e).map toData = .ok e) ∧
      ∀ d s, ofData d = .ok s → s.IsValid := by
  refine ⟨isReadFrom hdistinct, ?_, ?_, fun d s => isValid_of_ofData⟩
  · intro s hcheck
    have hvalid := (check_eq_ok_iff.mp hcheck).2
    exact ⟨hvalid, ofData_toData hvalid⟩
  · intro d e hgiven
    cases hread : ofData d with
    | error cause => simp [hread, Except.map] at hgiven
    | ok s =>
      obtain rfl : s.toData = e := by simpa [hread, Except.map] using hgiven
      rw [ofData_toData (isValid_of_ofData hread)]
      rfl

/-- Two names that no setting has, behind an empty keyword, and the braces in another order. -/
theorem ofData_neither_drops_nor_invents_of_misspelt :
    let misspelt : List (CodeString × Data) :=
      [("keyword", .str ""), ("open_Brace", .str "<"), ("Keyword", .null)]
    let braces : List (CodeString × Data) := [("close_brace", .str ">"), ("open_brace", .str "<")]
    (∃ texts, ofData (.dict (Data.ofTexts misspelt)) = .error (.unknownSettings texts) ∧
      ∀ text, text ∈ texts ↔ text ∈ misspelt.map (·.1) ∧ text ∉ keys) ∧
    ∃ s : Settings, s.toData = .dict (Data.ofFields [("keyword", .str "case"),
      ("comment_marker", .str "//"), ("skip_closures", .bool true), ("open_brace", .str "<"),
      ("close_brace", .str ">")]) ∧ ofData (.dict (Data.ofTexts braces)) = s.check := by
  intro misspelt braces
  constructor
  · obtain ⟨hread, -⟩ := ofData_neither_drops_nor_invents misspelt (by decide)
    obtain ⟨texts, herror, -, -, -, hmem⟩ := hread.unknown (by decide)
    exact ⟨texts, herror, hmem⟩
  · obtain ⟨hread, -⟩ := ofData_neither_drops_nor_invents braces (by decide)
    obtain ⟨s, hs, hcheck, -⟩ := hread.known (by decide)
    exact ⟨s, hs, hcheck⟩

end Settings

end EnumLabels
