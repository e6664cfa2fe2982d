import EnumLabels.Proofs.Scan.LocatedBlock
import EnumLabels.Proofs.Text.Words

/-!
# The labels of a block

The lines of a block that are no filler lines are case lines, and each of them gives the first word
behind the keyword. So the labels belong to these lines one by one and in their order. If some of
them have no word there, the first such line is the error. A block that is found has a line at each
of its numbers.
-/

namespace EnumLabels

namespace Line

variable {m : Markers} {line : Line} {label : String}

/-- A line that is no filler line and has no letter or digit behind the keyword. -/
def IsUnnamed (m : Markers) (line : Line) : Prop :=
  line.isFiller m = false ∧ ∀ c ∈ line.afterKeyword m, Text.isWordChar c = false

/-- A line that begins with the keyword, behind which the label is the leftmost run of letters and
digits that cannot be made longer. -/
def IsLabelled (m : Markers) (line : Line) (label : String) : Prop :=
  m.keyword <+: Text.trim line ∧ Text.IsFirstWord (line.afterKeyword m) label.toList

/-- A line gives no label exactly if it has no letter or digit behind the keyword. -/
theorem label?_eq_none_iff :
    line.label? m = none ↔ ∀ c ∈ line.afterKeyword m, Text.isWordChar c = false := by
  rw [label?, Option.map_eq_none_iff, List.head?_eq_none_iff, Text.words_eq_nil_iff]

/-- A line gives the first word behind the keyword. -/
theorem label?_eq_some_iff :
    line.label? m = some label ↔ Text.IsFirstWord (line.afterKeyword m) label.toList := by
  rw [label?, ← Text.head?_words_eq_some_iff, Option.map_eq_some_iff]
  constructor
  · rintro ⟨word, hword, rfl⟩
    rwa [String.toList_ofList]
  · intro h
    exact ⟨label.toList, h, String.ofList_toList⟩

end Line

/-- The label of a numbered line, which has to have one. -/
def labelFrom (label? : Line → Option String) (n : Int × Line) : Except Error String :=
  match label? n.2 with
  | none => .error (.unnamedCase n.1 (String.ofList (Text.trim n.2)))
  | some label => .ok label

/-- A numbered line has the label of its line. -/
theorem labelFrom_eq_ok_iff {label? : Line → Option String} {n : Int × Line} {label : String} :
    labelFrom label? n = .ok label ↔ label? n.2 = some label := by
  unfold labelFrom
  split <;> simp_all

/-- A numbered line without a label is an error that shows its number and its text. -/
theorem labelFrom_eq_error_iff {label? : Line → Option String} {n : Int × Line} {e : Error} :
    labelFrom label? n = .error e ↔
      label? n.2 = none ∧ e = .unnamedCase n.1 (String.ofList (Text.trim n.2)) := by
  unfold labelFrom
  split <;> simp_all [eq_comm]

/-- The labels of numbered lines are those of the lines that are no filler lines. -/
theorem labelsOf_eq_mapM (m : Markers) (numbered : List (Int × Line)) :
    labelsOf m numbered =
      (numbered.filter fun n => !n.2.isFiller m).mapM (labelFrom (Line.label? m)) := by
  induction numbered with
  | nil => rfl
  | cons n rest ih =>
    rw [labelsOf]
    cases hfiller : n.2.isFiller m with
    | true => simp [hfiller, ih]
    | false =>
      rw [List.filter_cons_of_pos (by simp [hfiller]), List.mapM_cons, ← ih, labelFrom]
      cases n.2.label? m with
      | none => rfl
      | some label => cases labelsOf m rest <;> rfl

/-- Lines have consecutive numbers, the first of which is the given one. -/
theorem mem_numberedFrom_iff {number : Int} {lines : List Line} {n : Int × Line} :
    n ∈ numberedFrom number lines ↔ number ≤ n.1 ∧ lines[(n.1 - number).toNat]? = some n.2 := by
  induction lines generalizing number with
  | nil => simp [numberedFrom]
  | cons line lines ih =>
    obtain ⟨k, other⟩ := n
    rw [numberedFrom, List.mem_cons, ih, Prod.mk.injEq]
    rcases Int.lt_trichotomy k number with hlt | rfl | hgt
    · constructor
      · rintro (⟨rfl, -⟩ | ⟨hle, -⟩) <;> omega
      · rintro ⟨hle, -⟩
        omega
    · have hlater : ¬ k + 1 ≤ k := by omega
      simp [hlater, eq_comm]
    · have hnext : (k - number).toNat = (k - (number + 1)).toNat + 1 := by omega
      have hne : k ≠ number := by omega
      have hle : number ≤ k := by omega
      simp only [hnext, List.getElem?_cons_succ, hne, false_and, false_or, hle, true_and]
      exact and_iff_right (by omega)

/-- Consecutive lines have increasing numbers. -/
theorem pairwise_numberedFrom (number : Int) (lines : List Line) :
    (numberedFrom number lines).Pairwise fun a b => a.1 < b.1 := by
  induction lines generalizing number with
  | nil => exact List.Pairwise.nil
  | cons line lines ih =>
    refine List.Pairwise.cons (fun n hn => ?_) (ih (number + 1))
    have hle := (mem_numberedFrom_iff.mp hn).1
    exact Int.lt_of_add_one_le hle

namespace Block

/-- The numbers of a block are those from its first to its last one. -/
theorem contains_iff {b : Block} {k : Int} : b.contains k = true ↔ b.first ≤ k ∧ k ≤ b.last := by
  simp [contains]

/-- A number of a block and the line that has it. -/
def HasLine (b : Block) (lines : List Line) (k : Int) (line : Line) : Prop :=
  b.contains k = true ∧ lines[k.toNat]? = some line

/-- A number of a block has one line. -/
theorem HasLine.unique {b : Block} {lines : List Line} {k : Int} {line other : Line}
    (hline : b.HasLine lines k line) (hother : b.HasLine lines k other) : line = other :=
  Option.some.inj (hline.2.symm.trans hother.2)

variable {m : Markers} {lines : List Line} {cursor : Nat} {b : Block}

namespace IsFirst

variable (h : b.IsFirst m lines cursor)
include h

/-- Every number of a first block has a line. -/
theorem exists_hasLine {k : Int} (hk : b.contains k = true) : ∃ line, b.HasLine lines k line := by
  have hcursor := h.cursor_le
  have hlast := h.last_lt
  have hbounds := contains_iff.mp hk
  have hlt : k.toNat < lines.length := by omega
  exact ⟨lines[k.toNat], hk, List.getElem?_eq_getElem hlt⟩

/-- A line of a first block that is no filler line is a case line. -/
theorem isCase_of_isFiller {k : Int} {line : Line} (hline : b.HasLine lines k line)
    (hfiller : line.isFiller m = false) : line.isCase m = true := by
  have hcursor := h.cursor_le
  have hbounds := contains_iff.mp hline.1
  have hcontinues := h.continues k.toNat (by omega) (by omega) line hline.2
  rwa [Markers.continues, hfiller, Bool.or_false] at hcontinues

/-- The numbered lines of a first block. -/
theorem numbered_eq : b.numbered lines =
    numberedFrom b.first ((lines.drop b.first.toNat).take (b.last - b.first + 1).toNat) := by
  have hcursor := h.cursor_le
  rw [numbered, linesFrom?, if_pos (by omega)]
  exact map_zipIdx_eq_numberedFrom _ _

/-- The numbered lines of a first block are those that it has. -/
theorem mem_numbered_iff {n : Int × Line} :
    n ∈ b.numbered lines ↔ b.HasLine lines n.1 n.2 := by
  have hcursor := h.cursor_le
  rw [h.numbered_eq, mem_numberedFrom_iff, HasLine, contains_iff, and_assoc]
  refine and_congr_right fun hfirst => ?_
  have hindex : b.first.toNat + (n.1 - b.first).toNat = n.1.toNat := by omega
  by_cases hlast : n.1 ≤ b.last
  · rw [List.getElem?_take_of_lt (by omega), List.getElem?_drop, hindex, and_iff_right hlast]
  · rw [List.getElem?_take_eq_none (by omega)]
    simp [hlast]

/-- A first block has its labels from its numbered lines, none of which is missing. -/
theorem labels_eq : b.labels m lines = labelsOf m (b.numbered lines) := by
  have hcursor := h.cursor_le
  have hlast := h.last_lt
  have hcount : (b.last - b.first + 1).toNat = (b.numbered lines).length := by
    rw [h.numbered_eq, length_numberedFrom, List.length_take, List.length_drop]
    omega
  exact labels_eq_labelsOf m hcount

/-- The lines of a first block that are no filler lines have increasing numbers. -/
theorem pairwise_numbered :
    ((b.numbered lines).filter fun n => !n.2.isFiller m).Pairwise fun a b => a.1 < b.1 := by
  rw [h.numbered_eq]
  exact (pairwise_numberedFrom _ _).filter _

/-- The lines of a first block that are no filler lines, as numbered lines. -/
theorem mem_filter_numbered_iff {n : Int × Line} :
    (n ∈ (b.numbered lines).filter fun n => !n.2.isFiller m) ↔
      b.HasLine lines n.1 n.2 ∧ n.2.isFiller m = false := by
  rw [List.mem_filter, h.mem_numbered_iff, Bool.not_eq_true']

/-- If a first block has no labels then its first unnamed line is the error. -/
theorem exists_of_labels_error {e : Error} (herror : b.labels m lines = .error e) :
    ∃ k line, b.HasLine lines k line ∧ line.IsUnnamed m ∧
      (∀ j other, b.HasLine lines j other → other.IsUnnamed m → k ≤ j) ∧
      e = .unnamedCase k (String.ofList (Text.trim line)) := by
  rw [h.labels_eq, labelsOf_eq_mapM] at herror
  obtain ⟨before, n, after, hsplit, hn, hbefore⟩ := exists_first_of_mapM_error herror
  obtain ⟨hnone, rfl⟩ := labelFrom_eq_error_iff.mp hn
  have hmem : n ∈ (b.numbered lines).filter fun n => !n.2.isFiller m := by
    rw [hsplit]
    exact List.mem_append_right _ List.mem_cons_self
  obtain ⟨hline, hfiller⟩ := h.mem_filter_numbered_iff.mp hmem
  refine ⟨n.1, n.2, hline, ⟨hfiller, Line.label?_eq_none_iff.mp hnone⟩, ?_, rfl⟩
  rintro j other hother ⟨hotherFiller, hotherNone⟩
  have hotherMem := (h.mem_filter_numbered_iff (n := (j, other))).mpr ⟨hother, hotherFiller⟩
  have hsorted := h.pairwise_numbered (m := m)
  rw [hsplit] at hotherMem hsorted
  -- The lines in front of the error have labels, and those behind it have greater numbers.
  rcases List.mem_append.mp hotherMem with hfront | hback
  · obtain ⟨label, hlabel⟩ := hbefore _ hfront
    rw [labelFrom_eq_ok_iff, Line.label?_eq_none_iff.mpr hotherNone] at hlabel
    contradiction
  · rcases List.mem_cons.mp hback with heq | hafter
    · exact Int.le_of_eq (congrArg Prod.fst heq).symm
    · have hlt := List.rel_of_pairwise_cons (List.pairwise_append.mp hsorted).2.1 hafter
      exact Int.le_of_lt hlt

/-- The labels of a first block belong to its numbered lines that are no filler lines, one by one. -/
theorem forall₂_of_labels_ok {labels : List String} (hlabels : b.labels m lines = .ok labels) :
    List.Forall₂ (fun n label => b.HasLine lines n.1 n.2 ∧ n.2.IsLabelled m label)
      ((b.numbered lines).filter fun n => !n.2.isFiller m) labels := by
  rw [h.labels_eq, labelsOf_eq_mapM, mapM_eq_ok_iff_forall₂] at hlabels
  have hkept : ∀ n ∈ (b.numbered lines).filter fun n => !n.2.isFiller m,
      b.HasLine lines n.1 n.2 ∧ m.keyword <+: Text.trim n.2 := by
    intro n hn
    obtain ⟨hline, hfiller⟩ := h.mem_filter_numbered_iff.mp hn
    exact ⟨hline, (Line.isCase_iff.mp (h.isCase_of_isFiller hline hfiller)).1⟩
  refine ((List.forall₂_and_left _ _).mpr ⟨hkept, hlabels⟩).imp ?_
  rintro n label ⟨⟨hline, hkeyword⟩, hlabel⟩
  exact ⟨hline, hkeyword, Line.label?_eq_some_iff.mp (labelFrom_eq_ok_iff.mp hlabel)⟩

/-- The labels of a first block belong to its lines that are no filler lines, one by one and in the
order of their numbers. -/
theorem exists_of_labels_ok {labels : List String} (hlabels : b.labels m lines = .ok labels) :
    ∃ numbers : List Int, numbers.Pairwise (· < ·) ∧
      (∀ k, k ∈ numbers ↔ ∃ line, b.HasLine lines k line ∧ line.isFiller m = false) ∧
      List.Forall₂ (fun k label => ∃ line, b.HasLine lines k line ∧ line.IsLabelled m label)
        numbers labels := by
  refine ⟨((b.numbered lines).filter fun n => !n.2.isFiller m).map (·.1), ?_, fun k => ?_, ?_⟩
  · exact List.pairwise_map.mpr h.pairwise_numbered
  · rw [List.mem_map]
    constructor
    · rintro ⟨n, hn, rfl⟩
      exact ⟨n.2, h.mem_filter_numbered_iff.mp hn⟩
    · rintro ⟨line, hline⟩
      exact ⟨(k, line), h.mem_filter_numbered_iff.mpr hline, rfl⟩
  · rw [List.forall₂_map_left_iff]
    exact (h.forall₂_of_labels_ok hlabels).imp fun n _ hlabel => ⟨n.2, hlabel⟩

/-- A first block has no labels exactly if one of its lines is unnamed. -/
theorem exists_labels_error_iff :
    (∃ e, b.labels m lines = .error e) ↔
      ∃ k line, b.HasLine lines k line ∧ line.IsUnnamed m := by
  constructor
  · rintro ⟨e, herror⟩
    obtain ⟨k, line, hline, hunnamed, -⟩ := h.exists_of_labels_error herror
    exact ⟨k, line, hline, hunnamed⟩
  · rintro ⟨k, line, hline, hfiller, hnone⟩
    cases hlabels : b.labels m lines with
    | error e => exact ⟨e, rfl⟩
    | ok labels =>
      rw [h.labels_eq, labelsOf_eq_mapM] at hlabels
      obtain ⟨label, hlabel⟩ := exists_of_mapM_ok hlabels
        ((h.mem_filter_numbered_iff (n := (k, line))).mpr ⟨hline, hfiller⟩)
      rw [labelFrom_eq_ok_iff, Line.label?_eq_none_iff.mpr hnone] at hlabel
      contradiction

end IsFirst

end Block

/-- With options a block has the labels that it has with their markers. -/
theorem Options.labels_settings (o : Options) (lines : List Line) (b : Block) :
    Settings.labels o lines b = b.labels o.toMarkers lines :=
  Settings.labels_of_markers o.markers_settings lines b

/-- A block that is found has a line at each of its numbers, and those that are no filler lines are
case lines. It has no labels exactly if one of them has no letter or digit behind the keyword, and
the first such line is then the error. Otherwise there is one label for each of them in their order,
the leftmost run of letters and digits behind the keyword that cannot be made longer. -/
theorem labels_of_located_block (o : Options) (lines : List Line) (cursor : Nat) (b : Block)
    (hlocate : Settings.locateFrom o lines cursor = .ok (some b)) :
    (0 ≤ b.first ∧ b.first ≤ b.last ∧ b.last < lines.length) ∧
    (∀ k, b.contains k = true → ∃ line, b.HasLine lines k line) ∧
    (∀ k line, b.HasLine lines k line → line.isFiller o.toMarkers = false →
      line.isCase o.toMarkers = true) ∧
    ((∃ e, Settings.labels o lines b = .error e) ↔
      ∃ k line, b.HasLine lines k line ∧ line.IsUnnamed o.toMarkers) ∧
    (∀ e, Settings.labels o lines b = .error e →
      ∃ k line, b.HasLine lines k line ∧ line.IsUnnamed o.toMarkers ∧
        (∀ j other, b.HasLine lines j other → other.IsUnnamed o.toMarkers → k ≤ j) ∧
        e = .unnamedCase k (String.ofList (Text.trim line))) ∧
    ∀ labels, Settings.labels o lines b = .ok labels →
      ∃ numbers : List Int, numbers.Pairwise (· < ·) ∧
        (∀ k, k ∈ numbers ↔ ∃ line, b.HasLine lines k line ∧ line.isFiller o.toMarkers = false) ∧
        List.Forall₂
          (fun k label => ∃ line, b.HasLine lines k line ∧ line.IsLabelled o.toMarkers label)
          numbers labels := by
  rw [o.locateFrom_eq_some_iff] at hlocate
  rw [o.labels_settings]
  have hcursor := hlocate.cursor_le
  refine ⟨⟨by omega, hlocate.first_le_last, hlocate.last_lt⟩, ?_, ?_, ?_, ?_, ?_⟩
  · intro k hk
    exact hlocate.exists_hasLine hk
  · intro k line hline hfiller
    exact hlocate.isCase_of_isFiller hline hfiller
  · exact hlocate.exists_labels_error_iff
  · intro e herror
    exact hlocate.exists_of_labels_error herror
  · intro labels hlabels
    exact hlocate.exists_of_labels_ok hlabels

/-- A block gives its labels around a note, and of two lines without a name the first one is the
error. -/
theorem labels_of_located_block_with_note :
    let m := Options.default.toMarkers
    let named := ["case a(T)", " // note", "case b_c"].map String.toList
    let unnamed := named ++ ["case :", "case"].map String.toList
    Settings.locateFrom Options.default named 0 = .ok (some ⟨0, 2⟩) ∧
      Settings.locateFrom Options.default unnamed 0 = .ok (some ⟨0, 4⟩) ∧
      (∃ numbers : List Int, numbers.Pairwise (· < ·) ∧
        (∀ k, k ∈ numbers ↔
          ∃ line, Block.HasLine ⟨0, 2⟩ named k line ∧ line.isFiller m = false) ∧
        List.Forall₂
          (fun k label => ∃ line, Block.HasLine ⟨0, 2⟩ named k line ∧ line.IsLabelled m label)
          numbers ["a", "b"]) ∧
      ∃ k line, Block.HasLine ⟨0, 4⟩ unnamed k line ∧ line.IsUnnamed m ∧
        (∀ j other, Block.HasLine ⟨0, 4⟩ unnamed j other → other.IsUnnamed m → k ≤ j) ∧
        Error.unnamedCase 3 "case :" = .unnamedCase k (String.ofList (Text.trim line)) := by
  intro m named unnamed
  have hnamed : Settings.locateFrom Options.default named 0 = .ok (some ⟨0, 2⟩) := rfl
  have hunnamed : Settings.locateFrom Options.default unnamed 0 = .ok (some ⟨0, 4⟩) := rfl
  have hlabels := labels_of_located_block Options.default named 0 ⟨0, 2⟩ hnamed
  have herror := labels_of_located_block Options.default unnamed 0 ⟨0, 4⟩ hunnamed
  exact ⟨hnamed, hunnamed, hlabels.2.2.2.2.2 ["a", "b"] rfl, herror.2.2.2.2.1 _ rfl⟩

end EnumLabels
