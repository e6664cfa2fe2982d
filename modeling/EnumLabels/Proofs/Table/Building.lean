import EnumLabels.Proofs.Source.Readable
import EnumLabels.Proofs.Steps
import EnumLabels.Proofs.Table.Pairs
import EnumLabels.Table.Stored

/-!
# Tables are built from two whole sequences

Every way to build a table obtains two sequences, the cases and the labels. The table holds both of
them as they are, and it is built when they are equally long. If they are not then it fails for the
count, with the two lengths, and it fails for the count for no other reason. Since that is so of a
table made of two sequences, it is so of every stage that ends with one, as long as no stage before
fails for the count.
-/

namespace EnumLabels

/-- Whether a cause is a difference between the numbers of cases and labels. -/
def Error.isCountMismatch : Error → Bool
  | countMismatch .. => true
  | _ => false

/-- A stage that does not fail for the count. -/
def NeverMiscounts {α : Type} (stage : Except Error α) : Prop :=
  ∀ e, stage = .error e → e.isCountMismatch = false

section Stages

variable {α β : Type}

/-- A stage that succeeds does not fail for the count. -/
theorem neverMiscounts_ok (a : α) : NeverMiscounts (.ok a) := nofun

/-- A failure for another cause is not one for the count. -/
theorem neverMiscounts_error {e : Error} (h : e.isCountMismatch = false) :
    NeverMiscounts (.error e : Except Error α) := by
  intro e' he
  obtain rfl := Except.error.inj he
  exact h

/-- A list does not fail for the count if no item of it does. -/
theorem neverMiscounts_mapM {f : α → Except Error β} (h : ∀ x, NeverMiscounts (f x))
    (items : List α) : NeverMiscounts (items.mapM f) := by
  intro e he
  obtain ⟨x, -, hx⟩ := exists_of_mapM_error he
  exact h x e hx

end Stages

/-- A scan of a file does not fail for the count. -/
theorem neverMiscounts_scanFile (d : Directory) (s : Settings) (position : Position)
    (skip : Option Bool) : NeverMiscounts (scanFile d s position skip false) := by
  intro e h
  obtain ⟨path, line, column⟩ := position
  by_cases hline : 0 ≤ line
  · by_cases hcolumn : 0 ≤ column
    · cases hload : loadLines d path with
      | error e' =>
        rw [scanFile_of_error hline hcolumn hload] at h
        obtain rfl := Except.error.inj h
        cases hpath : Directory.hasNul path with
        | true =>
          rw [loadLines, hpath, if_pos rfl] at hload
          obtain rfl := Except.error.inj hload
          rfl
        | false =>
          obtain ⟨reason, rfl⟩ := error_of_loadLines hpath hload
          rfl
      | ok lines =>
        rw [scanFile_of_ok hline hcolumn hload] at h
        rcases error_of_scan (error_of_map h) with rfl | rfl | rfl | ⟨number, text, rfl⟩ <;> rfl
    · rw [scanFile_of_negative_column hline (Int.not_le.mp hcolumn)] at h
      obtain rfl := Except.error.inj h
      rfl
  · rw [scanFile_of_negative (Int.not_le.mp hline)] at h
    obtain rfl := Except.error.inj h
    rfl

namespace Table

/-- A table holds two sequences, which are as long as it is and which its pairs project to. -/
structure Holds (t : Table) (cases : List Case) (labels : List Data) : Prop where
  cases_eq : t.cases = cases
  labels_eq : t.labels = labels
  length_cases : t.cases.length = t.size
  length_labels : t.labels.length = t.size
  map_fst_pairs : t.pairs.map (·.1) = cases
  map_snd_pairs : t.pairs.map (·.2) = labels

/-- A table holds its cases and its labels. -/
theorem holds_of_eq {t : Table} {cases : List Case} {labels : List Data} (hcases : t.cases = cases)
    (hlabels : t.labels = labels) : t.Holds cases labels :=
  ⟨hcases, hlabels, rfl, t.length_eq.symm, t.map_fst_pairs.trans hcases,
    t.map_snd_pairs.trans hlabels⟩

/-- What was built came of two sequences that could be obtained: a table that holds them, a failure
for their lengths, or another failure. -/
structure IsBuiltFrom (built : Except Error Table) (obtained : List Case → List Data → Prop)
    (place : Option String) : Prop where
  holds : ∀ t, built = .ok t → ∃ cases labels, obtained cases labels ∧ t.Holds cases labels
  returns_iff : (∃ t, built = .ok t) ↔
    ∃ cases labels, obtained cases labels ∧ cases.length = labels.length
  mismatch_iff : ∀ m n p, built = .error (.countMismatch m n p) ↔
    ∃ cases labels, obtained cases labels ∧ cases.length ≠ labels.length ∧
      m = cases.length ∧ n = labels.length ∧ p = place

namespace IsBuiltFrom

variable {built : Except Error Table} {obtained : List Case → List Data → Prop}
  {place : Option String}

/-- Sequences that are equally long give no failure for the count. -/
theorem neverMiscounts (h : IsBuiltFrom built obtained place)
    (hlength : ∀ cases labels, obtained cases labels → cases.length = labels.length) :
    NeverMiscounts built := by
  intro e herror
  cases e with
  | countMismatch m n p =>
    obtain ⟨cases, labels, hobtained, hne, -⟩ := (h.mismatch_iff m n p).mp herror
    exact absurd (hlength cases labels hobtained) hne
  | _ => rfl

/-- A failure that is not for the count obtains no sequences. -/
theorem of_error {e : Error} (he : e.isCountMismatch = false)
    (hnone : ∀ cases labels, ¬ obtained cases labels) :
    IsBuiltFrom (.error e) obtained place where
  holds := nofun
  returns_iff := ⟨nofun, fun ⟨cases, labels, h, _⟩ => absurd h (hnone cases labels)⟩
  mismatch_iff m n p := by
    constructor
    · intro h
      obtain rfl := Except.error.inj h
      contradiction
    · rintro ⟨cases, labels, h, -⟩
      exact absurd h (hnone cases labels)

/-- Sequences that are obtained alike are built from alike. -/
theorem congr {obtained' : List Case → List Data → Prop} (h : IsBuiltFrom built obtained place)
    (hiff : ∀ cases labels, obtained cases labels ↔ obtained' cases labels) :
    IsBuiltFrom built obtained' place := by
  obtain rfl : obtained = obtained' := by
    funext cases labels
    exact propext (hiff cases labels)
  exact h

/-- A stage that does not fail for the count may come before. -/
theorem bind {α : Type} {stage : Except Error α} {next : α → Except Error Table}
    {obtained : α → List Case → List Data → Prop}
    (hstage : NeverMiscounts stage)
    (hnext : ∀ a, stage = .ok a → IsBuiltFrom (next a) (obtained a) place) :
    IsBuiltFrom (stage >>= next) (fun cases labels => ∃ a, stage = .ok a ∧ obtained a cases labels)
      place := by
  cases stage with
  | error e => exact of_error (hstage e rfl) fun _ _ ⟨_, h, _⟩ => nomatch h
  | ok a =>
    refine (hnext a rfl).congr fun cases labels => ⟨fun h => ⟨a, rfl, h⟩, ?_⟩
    rintro ⟨b, hb, h⟩
    obtain rfl := Except.ok.inj hb
    exact h

end IsBuiltFrom

/-- A table is made of two given sequences. -/
theorem isBuiltFrom_make (cases : List Case) (labels : List Data) (place : Option String) :
    IsBuiltFrom (make cases labels place) (fun cs ls => cs = cases ∧ ls = labels) place where
  holds t h := by
    obtain ⟨-, hcases, hlabels⟩ := make_eq_ok_iff.mp h
    exact ⟨cases, labels, ⟨rfl, rfl⟩, holds_of_eq hcases hlabels⟩
  returns_iff := by
    constructor
    · rintro ⟨t, h⟩
      exact ⟨cases, labels, ⟨rfl, rfl⟩, (make_eq_ok_iff.mp h).1⟩
    · rintro ⟨_, _, ⟨rfl, rfl⟩, hlength⟩
      exact ⟨⟨_, _, hlength⟩, make_eq_ok_iff.mpr ⟨hlength, rfl, rfl⟩⟩
  mismatch_iff m n p := by
    rw [make_eq_error_iff]
    constructor
    · rintro ⟨hlength, heq⟩
      obtain ⟨rfl, rfl, rfl⟩ := Error.countMismatch.inj heq
      exact ⟨cases, labels, ⟨rfl, rfl⟩, hlength, rfl, rfl, rfl⟩
    · rintro ⟨_, _, ⟨rfl, rfl⟩, hlength, rfl, rfl, rfl⟩
      exact ⟨hlength, rfl⟩

/-- A table of pairs is made of their two sides. -/
theorem isBuiltFrom_ofPairs (pairs : List (Case × Data)) (place : Option String) :
    IsBuiltFrom (.ok (ofPairs pairs))
      (fun cs ls => cs = pairs.map (·.1) ∧ ls = pairs.map (·.2)) place := by
  have hmake : make (pairs.map (·.1)) (pairs.map (·.2)) place = .ok (ofPairs pairs) :=
    make_eq_ok_iff.mpr ⟨by simp, rfl, rfl⟩
  rw [← hmake]
  exact isBuiltFrom_make _ _ place

/-- The labels that a function gives to cases, in their order. -/
def AreLabelsOf (labelOf : Case → Except Error CodeString) (cases : List Case)
    (labels : List Data) : Prop :=
  List.Forall₂ (fun c label => ∃ text, labelOf c = .ok text ∧ label = .str text) cases labels

/-- A function labels cases when it gives each of them its label. -/
theorem exists_mapM_eq_ok_iff {labelOf : Case → Except Error CodeString} {cases : List Case}
    {labels : List Data} :
    (∃ texts, cases.mapM labelOf = .ok texts ∧ labels = texts.map Data.str) ↔
      AreLabelsOf labelOf cases labels := by
  simp only [mapM_eq_ok_iff_forall₂]
  constructor
  · rintro ⟨texts, htexts, rfl⟩
    rw [AreLabelsOf, List.forall₂_map_right_iff]
    exact htexts.imp fun c text h => ⟨text, h, rfl⟩
  · intro h
    induction h with
    | nil => exact ⟨[], .nil, rfl⟩
    | cons hlabel _ ih =>
      obtain ⟨text, htext, rfl⟩ := hlabel
      obtain ⟨texts, htexts, rfl⟩ := ih
      exact ⟨text :: texts, .cons htext htexts, rfl⟩

/-- A table of cases that a function labels is made of them and the labels that it gives. -/
theorem isBuiltFrom_label {labelOf : Case → Except Error CodeString}
    (hlabel : ∀ c, NeverMiscounts (labelOf c)) (cases : List Case) :
    IsBuiltFrom (label labelOf cases) (fun cs ls => cs = cases ∧ AreLabelsOf labelOf cases ls)
      none := by
  refine (IsBuiltFrom.bind (neverMiscounts_mapM hlabel cases) fun texts _ =>
    isBuiltFrom_make cases (texts.map Data.str) none).congr fun cs ls => ?_
  rw [← exists_mapM_eq_ok_iff]
  constructor
  · rintro ⟨texts, htexts, hcases, hlabels⟩
    exact ⟨hcases, texts, htexts, hlabels⟩
  · rintro ⟨hcases, texts, htexts, hlabels⟩
    exact ⟨texts, htexts, hcases, hlabels⟩

/-- Labels that a function gives are as many as the cases. -/
theorem neverMiscounts_label {labelOf : Case → Except Error CodeString}
    (hlabel : ∀ c, NeverMiscounts (labelOf c)) (cases : List Case) :
    NeverMiscounts (label labelOf cases) := by
  apply (isBuiltFrom_label hlabel cases).neverMiscounts
  rintro _ labels ⟨rfl, hlabels⟩
  exact hlabels.length_eq

/-- A case that cannot label itself is no failure for the count. -/
theorem neverMiscounts_ownLabel (c : Case) : NeverMiscounts c.ownLabel := by
  unfold Case.ownLabel
  split
  · exact neverMiscounts_ok _
  · exact neverMiscounts_error rfl

/-- The labels that a scan of a file finds. -/
def AreScanned (d : Directory) (s : Settings) (position : Position) (skip : Option Bool)
    (labels : List Data) : Prop :=
  ∃ found, scanFile d s position skip false = .ok found ∧ labels = scannedLabels found.labels

/-- The words for the place of a call. -/
def placeOf (position : Position) : String := position.path ++ ":" ++ toString position.line

/-- A table labelled by a scan is made of the cases and the labels that are found. -/
theorem isBuiltFrom_ofSource (d : Directory) (s : Settings) (cases : List Case)
    (position : Position) (skip : Option Bool) :
    IsBuiltFrom (ofSource d s cases position skip)
      (fun cs ls => cs = cases ∧ AreScanned d s position skip ls) (some (placeOf position)) := by
  refine (IsBuiltFrom.bind (neverMiscounts_scanFile d s position skip) fun found _ =>
    isBuiltFrom_make cases (scannedLabels found.labels) (some (placeOf position))).congr
      fun cs ls => ?_
  constructor
  · rintro ⟨found, hfound, hcases, hlabels⟩
    exact ⟨hcases, found, hfound, hlabels⟩
  · rintro ⟨hcases, found, hfound, hlabels⟩
    exact ⟨found, hfound, hcases, hlabels⟩

/-- A table of the cases of a chain that ends is made of them. -/
theorem isBuiltFrom_of_isChain {step : Case → Case} {cases : List Case}
    (hchain : IsChain step Case.null cases) (d : Directory) (s : Settings) (position : Position)
    (skip : Option Bool) :
    IsBuiltFrom (ofSource d s cases position skip)
      (fun cs ls => IsChain step Case.null cs ∧ AreScanned d s position skip ls)
      (some (placeOf position)) := by
  refine (isBuiltFrom_ofSource d s cases position skip).congr fun cs ls => and_congr_left' ?_
  constructor
  · rintro rfl
    exact hchain
  · intro h
    exact h.unique hchain

/-- The case and the label of a stored entry, whose value is converted to the case. -/
def pairUsing (convert : Data → Except Error Case) : Data → Except Error (Case × Data)
  | .dict fields =>
    match Data.field? "value" fields with
    | none => .error (.missingField "value")
    | some value =>
      match convert value with
      | .error e => .error e
      | .ok c =>
        match Data.field? "label" fields with
        | none => .error (.missingField "label")
        | some label => .ok (c, label)
  | _ => .error .wrongType

/-- The table of pairs, if there are as many as stored. -/
def ofCountedPairs (stored : Option Data) (pairs : List (Case × Data)) : Except Error Table :=
  match stored with
  | none => .ok (ofPairs pairs)
  | some count =>
    if count.same (.int pairs.length) then .ok (ofPairs pairs)
    else .error (.storedCount count pairs.length)

/-- The table that data stores, whose values are converted to cases. -/
def ofDataUsing (convert : Data → Except Error Case) : Data → Except Error Table
  | .dict fields => do
    let entries ← entriesOfData ((Data.field? "cases" fields).getD (.list []))
    let pairs ← entries.mapM (pairUsing convert)
    ofCountedPairs (Data.field? "count" fields) pairs
  | _ => .error .notMapping

/-- A stored entry is one whose value is converted to the case that it stands for. -/
theorem pairOfData_eq (type : Option EnumType) : pairOfData type = pairUsing (caseOfData type) := by
  funext entry
  cases entry <;> rfl

/-- A stored table is one whose values are converted to the cases that they stand for. -/
theorem ofData_eq (type : Option EnumType) : ofData type = ofDataUsing (caseOfData type) := by
  funext d
  cases d with
  | dict fields => rw [ofData, pairOfData_eq]; rfl
  | _ => rfl

/-- A stored entry is a mapping with a value, which is converted to a case, and a label. -/
def IsEntryOf (convert : Data → Except Error Case) (entry : Data) (p : Case × Data) : Prop :=
  ∃ fields value, entry = .dict fields ∧ Data.field? "value" fields = some value ∧
    convert value = .ok p.1 ∧ Data.field? "label" fields = some p.2

/-- Data stores the pairs of its entries, as many as it says if it says how many. -/
def Stores (convert : Data → Except Error Case) (d : Data) (pairs : List (Case × Data)) : Prop :=
  ∃ fields entries, d = .dict fields ∧
    entriesOfData ((Data.field? "cases" fields).getD (.list [])) = .ok entries ∧
    List.Forall₂ (IsEntryOf convert) entries pairs ∧
    ∀ count, Data.field? "count" fields = some count → count.same (.int pairs.length) = true

/-- An entry is read as its case and its label. -/
theorem pairUsing_eq_ok_iff {convert : Data → Except Error Case} {entry : Data} {p : Case × Data} :
    pairUsing convert entry = .ok p ↔ IsEntryOf convert entry p := by
  constructor
  · intro h
    unfold pairUsing at h
    split at h
    · next fields =>
      split at h
      · contradiction
      · next value hvalue =>
        split at h
        · contradiction
        · next c hc =>
          split at h
          · contradiction
          · next label hlabel =>
            obtain rfl := Except.ok.inj h
            exact ⟨fields, value, rfl, hvalue, hc, hlabel⟩
    · contradiction
  · rintro ⟨fields, value, rfl, hvalue, hc, hlabel⟩
    simp only [pairUsing, hvalue, hc, hlabel]

/-- A stored entry is read without a failure for the count. -/
theorem neverMiscounts_pairUsing {convert : Data → Except Error Case}
    (hconvert : ∀ value, NeverMiscounts (convert value)) (entry : Data) :
    NeverMiscounts (pairUsing convert entry) := by
  unfold pairUsing
  split
  · split
    · exact neverMiscounts_error rfl
    · next value _ =>
      split
      · next e hvalue => exact neverMiscounts_error (hconvert value e hvalue)
      · split
        · exact neverMiscounts_error rfl
        · exact neverMiscounts_ok _
  · exact neverMiscounts_error rfl

/-- The entries of stored data are found without a failure for the count. -/
theorem neverMiscounts_entriesOfData (d : Data) : NeverMiscounts (entriesOfData d) := by
  unfold entriesOfData
  split
  · exact neverMiscounts_ok _
  · exact neverMiscounts_ok _
  · exact neverMiscounts_ok _
  · exact neverMiscounts_error rfl

/-- Pairs make their table if they are as many as stored, or if it is not stored how many. -/
theorem ofCountedPairs_eq_ok_iff {stored : Option Data} {pairs : List (Case × Data)} {t : Table} :
    ofCountedPairs stored pairs = .ok t ↔
      t = ofPairs pairs ∧ ∀ count, stored = some count → count.same (.int pairs.length) = true := by
  cases stored with
  | none => exact ⟨fun h => ⟨(Except.ok.inj h).symm, nofun⟩, fun h => congrArg Except.ok h.1.symm⟩
  | some count =>
    simp only [ofCountedPairs, Option.some.injEq, forall_eq']
    split
    · next hsame => exact ⟨fun h => ⟨(Except.ok.inj h).symm, hsame⟩, fun h => congrArg _ h.1.symm⟩
    · next hsame => exact ⟨nofun, fun h => absurd h.2 hsame⟩

/-- Pairs make no table if it is stored that there are more or fewer of them. -/
theorem ofCountedPairs_eq_error_iff {stored : Option Data} {pairs : List (Case × Data)}
    {e : Error} :
    ofCountedPairs stored pairs = .error e ↔
      ∃ count, stored = some count ∧ count.same (.int pairs.length) = false ∧
        e = .storedCount count pairs.length := by
  cases stored with
  | none => exact ⟨nofun, nofun⟩
  | some count =>
    simp only [ofCountedPairs, Option.some.injEq, exists_eq_left']
    split
    · next hsame => exact ⟨nofun, fun h => absurd hsame (Bool.eq_false_iff.mp h.1)⟩
    · next hsame =>
      exact ⟨fun h => ⟨Bool.eq_false_iff.mpr hsame, (Except.error.inj h).symm⟩,
        fun h => congrArg _ h.2.symm⟩

/-- A table of pairs that are as many as stored is made of their two sides. -/
theorem isBuiltFrom_ofCountedPairs (stored : Option Data) (pairs : List (Case × Data)) :
    IsBuiltFrom (ofCountedPairs stored pairs)
      (fun cs ls => (∀ count, stored = some count → count.same (.int pairs.length) = true) ∧
        cs = pairs.map (·.1) ∧ ls = pairs.map (·.2)) none := by
  cases stored with
  | none =>
    refine (isBuiltFrom_ofPairs pairs none).congr fun cs ls => ?_
    exact ⟨fun h => ⟨nofun, h⟩, And.right⟩
  | some count =>
    unfold ofCountedPairs
    by_cases hsame : count.same (.int pairs.length) = true
    · simp only [hsame, if_true]
      refine (isBuiltFrom_ofPairs pairs none).congr fun cs ls => ?_
      refine ⟨fun h => ⟨fun other hother => ?_, h⟩, And.right⟩
      obtain rfl := Option.some.inj hother
      exact hsame
    · simp only [hsame]
      exact .of_error rfl fun cs ls h => hsame (h.1 count rfl)

/-- A stored table is made of the two sides of the pairs that are stored. -/
theorem isBuiltFrom_ofDataUsing {convert : Data → Except Error Case}
    (hconvert : ∀ value, NeverMiscounts (convert value)) (d : Data) :
    IsBuiltFrom (ofDataUsing convert d)
      (fun cs ls => ∃ pairs, Stores convert d pairs ∧ cs = pairs.map (·.1) ∧ ls = pairs.map (·.2))
      none := by
  cases d with
  | dict fields =>
    have hpairs := neverMiscounts_mapM (neverMiscounts_pairUsing hconvert)
    refine (IsBuiltFrom.bind (neverMiscounts_entriesOfData _) fun entries _ =>
      IsBuiltFrom.bind (hpairs entries) fun pairs _ =>
        isBuiltFrom_ofCountedPairs (Data.field? "count" fields) pairs).congr fun cs ls => ?_
    simp only [mapM_eq_ok_iff_forall₂, pairUsing_eq_ok_iff]
    constructor
    · rintro ⟨entries, hentries, pairs, hpairs, hcount, hsides⟩
      exact ⟨pairs, ⟨fields, entries, rfl, hentries, hpairs, hcount⟩, hsides⟩
    · rintro ⟨pairs, ⟨_, entries, hfields, hentries, hpairs, hcount⟩, hsides⟩
      obtain rfl := Data.dict.inj hfields
      exact ⟨entries, hentries, pairs, hpairs, hcount, hsides⟩
  | _ =>
    refine .of_error rfl ?_
    rintro cs ls ⟨pairs, ⟨fields, entries, hfields, -⟩, -⟩
    contradiction

/-- Labels that are stored with values are as many as these. -/
theorem neverMiscounts_ofDataUsing {convert : Data → Except Error Case}
    (hconvert : ∀ value, NeverMiscounts (convert value)) (d : Data) :
    NeverMiscounts (ofDataUsing convert d) := by
  apply (isBuiltFrom_ofDataUsing hconvert d).neverMiscounts
  rintro _ _ ⟨pairs, -, rfl, rfl⟩
  rw [List.length_map, List.length_map]

/-- A value that stands for no case is no failure for the count. -/
theorem neverMiscounts_caseOfData (type : Option EnumType) (value : Data) :
    NeverMiscounts (caseOfData type value) := by
  unfold caseOfData
  split
  · exact neverMiscounts_ok _
  · split
    · exact neverMiscounts_ok _
    · exact neverMiscounts_error rfl

/-- Whichever way a table is built, no case and no label is left out or added: it is built from the
two sequences that are given, computed, scanned, stepped through or converted, and it fails for the
count exactly when both can be obtained and are not equally long. Where the labels come with the
cases it never does. -/
theorem isBuiltFrom_whole_sequences :
    (∀ cases labels,
      IsBuiltFrom (make cases labels none) (fun cs ls => cs = cases ∧ ls = labels) none) ∧
    (∀ labelOf : Case → Except Error CodeString,
      (∀ c, NeverMiscounts (labelOf c)) → ∀ cases,
      IsBuiltFrom (label labelOf cases) (fun cs ls => cs = cases ∧ AreLabelsOf labelOf cases ls)
        none ∧
      NeverMiscounts (label labelOf cases)) ∧
    (∀ cases,
      IsBuiltFrom (ofCases cases) (fun cs ls => cs = cases ∧ AreLabelsOf Case.ownLabel cases ls)
        none ∧
      NeverMiscounts (ofCases cases)) ∧
    (∀ pairs, IsBuiltFrom (.ok (ofPairs pairs))
      (fun cs ls => cs = pairs.map (·.1) ∧ ls = pairs.map (·.2)) none) ∧
    (∀ d s cases position skip, IsBuiltFrom (ofSource d s cases position skip)
      (fun cs ls => cs = cases ∧ AreScanned d s position skip ls) (some (placeOf position))) ∧
    (∀ d s position skip step cases limit, IsChain step Case.null cases → cases.length < limit →
      IsBuiltFrom (ofSource d s (walkSteps step limit Case.null).cases position skip)
        (fun cs ls => IsChain step Case.null cs ∧ AreScanned d s position skip ls)
        (some (placeOf position))) ∧
    (∀ d s position skip (rows : StepTable) cases, IsChain rows.next Case.null cases →
      IsBuiltFrom (ofSteps d s rows position skip)
        (fun cs ls => IsChain rows.next Case.null cs ∧ AreScanned d s position skip ls)
        (some (placeOf position))) ∧
    (∀ convert : Data → Except Error Case,
      (∀ value, NeverMiscounts (convert value)) → ∀ d,
      IsBuiltFrom (ofDataUsing convert d)
        (fun cs ls => ∃ pairs, Stores convert d pairs ∧ cs = pairs.map (·.1) ∧
          ls = pairs.map (·.2)) none ∧
      NeverMiscounts (ofDataUsing convert d)) ∧
    ∀ type d,
      IsBuiltFrom (ofData type d)
        (fun cs ls => ∃ pairs, Stores (caseOfData type) d pairs ∧ cs = pairs.map (·.1) ∧
          ls = pairs.map (·.2)) none ∧
      NeverMiscounts (ofData type d) := by
  refine ⟨?_, ?_, ?_, ?_, ?_, ?_, ?_, ?_, ?_⟩
  · intro cases labels
    exact isBuiltFrom_make cases labels none
  · intro labelOf hlabel cases
    exact ⟨isBuiltFrom_label hlabel cases, neverMiscounts_label hlabel cases⟩
  · intro cases
    exact ⟨isBuiltFrom_label neverMiscounts_ownLabel cases,
      neverMiscounts_label neverMiscounts_ownLabel cases⟩
  · intro pairs
    exact isBuiltFrom_ofPairs pairs none
  · exact isBuiltFrom_ofSource
  · intro d s position skip step cases limit hchain hlimit
    rw [walkSteps_of_isChain hchain hlimit]
    exact isBuiltFrom_of_isChain hchain d s position skip
  · intro d s position skip rows cases hchain
    rw [ofSteps, StepTable.chain_of_isChain hchain]
    exact isBuiltFrom_of_isChain hchain d s position skip
  · intro convert hconvert d
    exact ⟨isBuiltFrom_ofDataUsing hconvert d, neverMiscounts_ofDataUsing hconvert d⟩
  · intro type d
    have hconvert := neverMiscounts_caseOfData type
    rw [ofData_eq]
    exact ⟨isBuiltFrom_ofDataUsing hconvert d, neverMiscounts_ofDataUsing hconvert d⟩

/-- A chain of three cases is not labelled by the two labels of a file. -/
theorem isBuiltFrom_whole_sequences_steps :
    let text := "enum E \x7b\ncase a\n//\ncase b\n\x7d".toList
    let d : Directory := ⟨["src"], [(["src", "E.swift"], .file (Text.Utf8.encode text))]⟩
    let rows : StepTable := [(Case.null, .value (.int 1)), (.value (.int 1), .value (.int 2)),
      (.value (.int 2), .value (.int 3))]
    IsChain rows.next Case.null [.value (.int 1), .value (.int 2), .value (.int 3)] ∧
      ofSteps d {} rows ⟨"E.swift", 1, 0⟩ (some false) =
        .error (.countMismatch 3 2 (some "E.swift:1")) := by
  intro text d rows
  have hchain : IsChain rows.next Case.null [.value (.int 1), .value (.int 2), .value (.int 3)] :=
    .next rfl (.next rfl (.next rfl (.done rfl)))
  have hread : d.read "E.swift" = .ok (Text.Utf8.encode text) := by decide +kernel
  have hlines : Text.lines text =
      ["enum E \x7b", "case a", "//", "case b", "\x7d"].map String.toList := by decide +kernel
  have hload := loadLines_of_encode (by decide) hread
  have hscan : scan {} (Text.lines text) 1 (some false) = .ok ["a", "b"] := by
    rw [hlines]
    rfl
  have hfound : scanFile d {} ⟨"E.swift", 1, 0⟩ (some false) false = .ok ⟨["a", "b"], []⟩ := by
    rw [scanFile_of_ok (by decide) (by decide) hload, hscan]
    rfl
  have hsteps := isBuiltFrom_whole_sequences.2.2.2.2.2.2.1 d {} ⟨"E.swift", 1, 0⟩ (some false) rows
    _ hchain
  refine ⟨hchain, (hsteps.mismatch_iff _ _ _).mpr ?_⟩
  exact ⟨_, _, ⟨hchain, _, hfound, rfl⟩, by decide, rfl, rfl, rfl⟩

end Table

end EnumLabels
