import EnumLabels.Proofs.Table.Building
import EnumLabels.Proofs.Table.Lookup
import EnumLabels.Samples
import Mathlib.Data.List.Nodup

/-!
# Tables of cases that label themselves

Equal cases give themselves equal labels. A member is determined by its name and that of its type,
so it equals only itself. Objects that are equal have the same attributes up to equality, and what
equals a text is that text, so they have a label in common if one of them has one. No other value
has a label.

In a table of cases that label themselves a lookup may stop at an earlier case than the one that is
looked up. Since that case is equal, the label that is found is the one that the case gives itself.
-/

namespace EnumLabels

/-- A type whose members bear its name and different names of their own. -/
structure EnumType.IsWellFormed (t : EnumType) : Prop where
  typeName_eq : ∀ m ∈ t.members, m.typeName = t.name
  nodup_names : (t.members.map (·.name)).Nodup

/-- Well-formed types of different names. -/
structure EnumType.AreDistinct (types : List EnumType) : Prop where
  isWellFormed : ∀ t ∈ types, t.IsWellFormed
  nodup_names : (types.map (·.name)).Nodup

namespace Case

/-- A member of one of some types, or a plain value without floats. -/
def IsDrawnFrom (types : List EnumType) : Case → Prop
  | member m => ∃ t ∈ types, m ∈ t.members
  | value d => d.IsComparable

variable {types : List EnumType} {c d : Case}

/-- A case that is drawn from some types is a member or a plain value without floats. -/
theorem IsDrawnFrom.isComparable (h : c.IsDrawnFrom types) : c.IsComparable := by
  cases c with
  | member m => trivial
  | value d => exact h

end Case

/-- Members of distinct types that have the same names are the same member. -/
theorem EnumType.AreDistinct.eq_of_same {types : List EnumType} (htypes : AreDistinct types)
    {m n : Member} (hm : (Case.member m).IsDrawnFrom types)
    (hn : (Case.member n).IsDrawnFrom types) (hsame : m.same n = true) : m = n := by
  obtain ⟨t, ht, hm⟩ := hm
  obtain ⟨u, hu, hn⟩ := hn
  simp only [Member.same, Bool.and_eq_true, beq_iff_eq] at hsame
  have hname : t.name = u.name := by
    rw [← (htypes.isWellFormed t ht).typeName_eq m hm, hsame.1,
      (htypes.isWellFormed u hu).typeName_eq n hn]
  obtain rfl := List.inj_on_of_nodup_map htypes.nodup_names ht hu hname
  exact List.inj_on_of_nodup_map (htypes.isWellFormed t ht).nodup_names hm hn hsame.2

namespace Data

/-- What counts as one with a text is that text. -/
theorem eq_str_of_str_alike {s : CodeString} {d : Data} (h : (str s).alike d = true) :
    d = str s := by
  cases d with
  | str t => exact congrArg str (of_decide_eq_true h).symm
  | _ => contradiction

/-- A text that is stored under a name is found under it in entries among which the others are
found. -/
theorem field?_eq_of_sameEntries {entries others : List (Data × Data)} {name : String}
    {s : CodeString} (h : sameEntries entries others = true)
    (hfield : field? name entries = some (str s)) : field? name others = some (str s) := by
  obtain ⟨⟨k, v⟩, hfind, rfl⟩ := Option.map_eq_some_iff.mp hfield
  have hname := List.find?_some hfind
  obtain rfl : k = str name := eq_str_of_str_alike hname
  rw [sameEntries_eq_all, List.all_eq_true] at h
  have hentry := h _ (List.mem_of_find?_eq_some hfind)
  rw [isEntryOf_eq] at hentry
  split at hentry
  · next w hw => rw [field?, hw, eq_str_of_str_alike hentry]
  · contradiction

/-- What equals an object is one, and the entries of the object are found among its own. -/
theorem exists_of_object_same {attributes : List (Data × Data)} {d : Data}
    (h : (object attributes).same d = true) :
    ∃ others, d = object others ∧ sameEntries attributes others = true := by
  cases d with
  | object others => exact ⟨others, rfl, (Bool.and_eq_true_iff.mp h).2⟩
  | _ => contradiction

end Data

namespace Case

variable {types : List EnumType} {c d : Case} {label : CodeString}

/-- A plain value has a label if and only if it is an object with a text for its label. -/
theorem ownLabel?_value_eq_some_iff {d : Data} :
    (value d).ownLabel? = some label ↔
      ∃ attributes, d = .object attributes ∧
        Data.field? "label" attributes = some (.str label) := by
  cases d with
  | object attributes =>
    simp only [ownLabel?, Data.object.injEq, exists_eq_left']
    split <;> simp_all
  | _ => simp [ownLabel?]

/-- A case that equals one with a label of its own has the same label. -/
theorem ownLabel?_of_same (htypes : EnumType.AreDistinct types) (hc : c.IsDrawnFrom types)
    (hd : d.IsDrawnFrom types) (hsame : c.same d = true) (hlabel : c.ownLabel? = some label) :
    d.ownLabel? = some label := by
  cases c with
  | member m =>
    cases d with
    | member n => rwa [← htypes.eq_of_same hc hd hsame]
    | value b => contradiction
  | value a =>
    cases d with
    | member n => contradiction
    | value b =>
      obtain ⟨attributes, rfl, hfield⟩ := ownLabel?_value_eq_some_iff.mp hlabel
      obtain ⟨others, rfl, hentries⟩ := Data.exists_of_object_same hsame
      exact ownLabel?_value_eq_some_iff.mpr
        ⟨others, rfl, Data.field?_eq_of_sameEntries hentries hfield⟩

/-- A member has a label, its name if no other. -/
theorem exists_ownLabel?_member (m : Member) : ∃ label, (member m).ownLabel? = some label := by
  simp only [ownLabel?]
  split <;> exact ⟨_, rfl⟩

/-- A case labels itself if it has a label of its own. -/
theorem ownLabel_eq_ok_iff : c.ownLabel = .ok label ↔ c.ownLabel? = some label := by
  unfold ownLabel
  split <;> simp [*]

/-- A case cannot label itself if it has no label of its own. -/
theorem ownLabel_eq_error_iff {e : Error} :
    c.ownLabel = .error e ↔ c.ownLabel? = none ∧ e = .noOwnLabel c.typeName := by
  unfold ownLabel
  split <;> simp [*, eq_comm]

/-- Equal cases give themselves the same label. -/
theorem ownLabel_congr (htypes : EnumType.AreDistinct types) (hc : c.IsDrawnFrom types)
    (hd : d.IsDrawnFrom types) (hsame : c.same d = true) :
    c.ownLabel = .ok label ↔ d.ownLabel = .ok label := by
  have hsymm : d.same c = true := by
    rw [hd.isComparable.same_comm hc.isComparable, hsame]
  rw [ownLabel_eq_ok_iff, ownLabel_eq_ok_iff]
  exact ⟨ownLabel?_of_same htypes hc hd hsame, ownLabel?_of_same htypes hd hc hsymm⟩

end Case

namespace Table

variable {labelOf : Case → Except Error CodeString} {cases : List Case}

/-- Cases make a table with the labels that a function gives to all of them. -/
theorem label_of_mapM_ok {texts : List CodeString} (h : cases.mapM labelOf = .ok texts) :
    ∃ t, label labelOf cases = .ok t := by
  have hlength := (mapM_eq_ok_iff_forall₂.mp h).length_eq
  have hmake : label labelOf cases = make cases (texts.map Data.str) none := by
    rw [label, h]
    rfl
  rw [hmake, make, dif_pos (by rw [List.length_map, hlength])]
  exact ⟨_, rfl⟩

/-- Cases make no table where a function fails to label them. -/
theorem label_of_mapM_error {e : Error} (h : cases.mapM labelOf = .error e) :
    label labelOf cases = .error e := by
  rw [label, h]
  rfl

/-- Cases that a function is to label make a table if and only if it labels every one of them. -/
theorem exists_label_eq_ok_iff :
    (∃ t, label labelOf cases = .ok t) ↔ ∀ c ∈ cases, ∃ text, labelOf c = .ok text := by
  rw [← exists_mapM_eq_ok_iff_forall]
  refine ⟨fun ⟨t, ht⟩ => ?_, fun ⟨texts, htexts⟩ => label_of_mapM_ok htexts⟩
  cases hlabels : cases.mapM labelOf with
  | ok texts => exact ⟨texts, rfl⟩
  | error e =>
    rw [label_of_mapM_error hlabels] at ht
    contradiction

/-- Otherwise the cause is that of the first case which the function does not label. -/
theorem label_eq_error_iff {e : Error} :
    label labelOf cases = .error e ↔
      ∃ before c after, cases = before ++ c :: after ∧ labelOf c = .error e ∧
        ∀ b ∈ before, ∃ text, labelOf b = .ok text := by
  rw [← mapM_eq_error_iff]
  refine ⟨fun h => ?_, label_of_mapM_error⟩
  cases hlabels : cases.mapM labelOf with
  | error cause =>
    rw [label_of_mapM_error hlabels] at h
    exact congrArg Except.error (Except.error.inj h)
  | ok texts =>
    obtain ⟨t, ht⟩ := label_of_mapM_ok hlabels
    rw [ht] at h
    contradiction

/-- A case in a table of cases that a function labels stands beside the label that it is given. -/
theorem exists_of_mem_pairs {t : Table} (hlabels : AreLabelsOf labelOf t.cases t.labels)
    {p : Case × Data} (hp : p ∈ t.pairs) : ∃ text, labelOf p.1 = .ok text ∧ p.2 = .str text :=
  (List.forall₂_iff_zip.mp hlabels).2 hp

/-- A table of cases that a function labels holds these cases and their labels. -/
theorem areLabelsOf_of_label (hlabel : ∀ c, NeverMiscounts (labelOf c)) {t : Table}
    (h : label labelOf cases = .ok t) : t.cases = cases ∧ AreLabelsOf labelOf t.cases t.labels := by
  obtain ⟨_, labels, ⟨rfl, hlabels⟩, hholds⟩ := (isBuiltFrom_label hlabel cases).holds t h
  rw [hholds.cases_eq, hholds.labels_eq]
  exact ⟨rfl, hlabels⟩

/-- What becomes of cases that are to label themselves. -/
structure AreSelfLabelled (cases : List Case) : Prop where
  /-- They make a table if and only if every one of them labels itself. -/
  returns_iff : (∃ t, ofCases cases = .ok t) ↔ ∀ c ∈ cases, ∃ label, c.ownLabel = .ok label
  /-- Otherwise the cause is that of the first case which does not. -/
  error_iff : ∀ e, ofCases cases = .error e ↔
    ∃ before c after, cases = before ++ c :: after ∧ c.ownLabel = .error e ∧
      ∀ b ∈ before, ∃ label, b.ownLabel = .ok label
  /-- Each case is looked up in the table with the label that it gives itself. -/
  labelFor_eq : ∀ t, ofCases cases = .ok t → t.cases = cases ∧
    ∀ c ∈ cases, ∃ label, c.ownLabel = .ok label ∧ t.labelFor c = .ok (.str label)
  /-- Equal cases label themselves alike. -/
  ownLabel_congr : ∀ c ∈ cases, ∀ d ∈ cases, c.same d = true →
    ∀ label, c.ownLabel = .ok label ↔ d.ownLabel = .ok label

/-- Cases that are drawn from distinct types and from plain values without floats make a table if
all of them label themselves, and each of them is looked up with its own label, also behind an equal
one.

A case that does not label itself is no member, and the cause names its type. -/
theorem ofCases_coherent {types : List EnumType} (htypes : EnumType.AreDistinct types)
    {cases : List Case} (hcases : ∀ c ∈ cases, c.IsDrawnFrom types) :
    AreSelfLabelled cases ∧
      ∀ (c : Case) (e : Error), c.ownLabel = .error e →
        e = .noOwnLabel c.typeName ∧ ∃ d, c = .value d := by
  have hcongr {c d : Case} (hc : c ∈ cases) (hd : d ∈ cases) (hsame : c.same d = true)
      (label : CodeString) : c.ownLabel = .ok label ↔ d.ownLabel = .ok label :=
    Case.ownLabel_congr htypes (hcases c hc) (hcases d hd) hsame
  refine ⟨⟨exists_label_eq_ok_iff, fun e => label_eq_error_iff, fun t ht => ?_,
    fun c hc d hd hsame label => hcongr hc hd hsame label⟩, fun c e he => ?_⟩
  · obtain ⟨rfl, hlabels⟩ := areLabelsOf_of_label neverMiscounts_ownLabel ht
    refine ⟨rfl, fun c hc => ?_⟩
    have hself := (hcases c hc).isComparable.same_self
    obtain ⟨p, hp, hsame, hfound⟩ := exists_of_mem_cases ⟨c, hc, hself⟩
    obtain ⟨text, htext, hlabel⟩ := exists_of_mem_pairs hlabels hp
    rw [hlabel] at hfound
    exact ⟨text, (hcongr (mem_of_mem_pairs hp).1 hc hsame text).mp htext, hfound⟩
  · obtain ⟨hnone, rfl⟩ := Case.ownLabel_eq_error_iff.mp he
    cases c with
    | member m =>
      obtain ⟨label, hlabel⟩ := Case.exists_ownLabel?_member m
      rw [hnone] at hlabel
      contradiction
    | value d => exact ⟨rfl, d, rfl⟩

/-- The types of the samples are distinct. -/
theorem areDistinct_sampleTypes : EnumType.AreDistinct [basicType, rawValueType] := by
  constructor
  case isWellFormed =>
    simp only [List.forall_mem_cons]
    exact ⟨⟨by decide, by decide⟩, ⟨by decide, by decide⟩, by simp⟩
  case nodup_names => decide

/-- Members with a label of their own and without one, and objects that are equal but for a truth
value in the place of a number, alone and before values without a label. -/
theorem ofCases_coherent_of_equal_objects :
    let first := Case.value (.object [(.str "label", .str "one"), (.str "n", .int 1)])
    let second := Case.value (.object [(.str "n", .bool true), (.str "label", .str "one")])
    let labelled := [basicType, rawValueType].flatMap (·.members.map Case.member) ++ [first, second]
    first.same second = true ∧
      (∃ t, ofCases labelled = .ok t ∧ t.labelFor second = .ok (.str "one")) ∧
      ofCases (labelled ++ [.value (.int 7), .value .null]) = .error (.noOwnLabel "int") := by
  intro first second labelled
  have hmembers : ∀ c ∈ [basicType, rawValueType].flatMap (·.members.map Case.member),
      c.IsDrawnFrom [basicType, rawValueType] := by
    intro c hc
    obtain ⟨t, ht, hc⟩ := List.mem_flatMap.mp hc
    obtain ⟨m, hm, rfl⟩ := List.mem_map.mp hc
    exact ⟨t, ht, hm⟩
  have hobjects : ∀ c ∈ [first, second], c.IsDrawnFrom [basicType, rawValueType] := by
    simp only [List.forall_mem_cons, first, second, Case.IsDrawnFrom]
    refine ⟨.object ?_ ?_ ?_, .object ?_ ?_ ?_, by simp⟩ <;>
      simp [Data.HasDistinctKeys, Data.same, Data.sameScalar, Data.toInt?, Data.IsComparable.str,
        Data.IsComparable.int, Data.IsComparable.bool]
  have hlabelled : ∀ c ∈ labelled, c.IsDrawnFrom [basicType, rawValueType] :=
    List.forall_mem_append.mpr ⟨hmembers, hobjects⟩
  have hself : ∀ c ∈ labelled, ∃ label, c.ownLabel = .ok label := by
    have hsome : ∀ c ∈ labelled, c.ownLabel?.isSome = true := by
      simp only [labelled, first, second]
      decide
    intro c hc
    obtain ⟨label, hlabel⟩ := Option.isSome_iff_exists.mp (hsome c hc)
    exact ⟨label, Case.ownLabel_eq_ok_iff.mpr hlabel⟩
  have hvalues : ∀ c ∈ labelled ++ [.value (.int 7), .value .null],
      c.IsDrawnFrom [basicType, rawValueType] := by
    refine List.forall_mem_append.mpr ⟨hlabelled, ?_⟩
    simp [Case.IsDrawnFrom, Data.IsComparable.int, Data.IsComparable.null]
  obtain ⟨hcoherent, -⟩ := ofCases_coherent areDistinct_sampleTypes hlabelled
  obtain ⟨hfails, -⟩ := ofCases_coherent areDistinct_sampleTypes hvalues
  refine ⟨rfl, ?_, ?_⟩
  · obtain ⟨t, ht⟩ := hcoherent.returns_iff.mpr hself
    obtain ⟨-, hlookup⟩ := hcoherent.labelFor_eq t ht
    obtain ⟨label, hlabel, hfound⟩ := hlookup second (by simp [labelled])
    obtain rfl := Except.ok.inj (hlabel.symm.trans (rfl : second.ownLabel = .ok "one"))
    exact ⟨t, ht, hfound⟩
  · exact (hfails.error_iff _).mpr ⟨labelled, _, [.value .null], rfl, rfl, hself⟩

end Table

end EnumLabels
