import EnumLabels.Proofs.Report.Agreement
import EnumLabels.Proofs.Scan.BlockLabels

/-!
# Lines that look alike to a report

A report asks of a line whether it is a case line, whether it is a filler line, what its label is
and whether it declares several cases. Label and commas are only asked for where the answers matter,
in the lines of a block. So two lists of lines that answer alike have the same block, the same
labels and the same report, as long as the search for the block begins at the same line.
-/

namespace EnumLabels

/-- Lines of the same kind. As case lines they have the same label or fail alike, and unless they
are filler lines both declare several cases or none does. -/
structure Line.Alike (m : Markers) (line other : Line) : Prop where
  isCase_eq : other.isCase m = line.isCase m
  isFiller_eq : other.isFiller m = line.isFiller m
  labelFrom_eq : line.isCase m = true →
    ∀ k, labelFrom (Line.label? m) (k, other) = labelFrom (Line.label? m) (k, line)
  isMultiCase_eq : line.isFiller m = false → other.isMultiCase m = line.isMultiCase m

/-- A line is alike to itself. -/
theorem Line.Alike.refl (m : Markers) (line : Line) : line.Alike m line where
  isCase_eq := rfl
  isFiller_eq := rfl
  labelFrom_eq _ _ := rfl
  isMultiCase_eq _ := rfl

section Block

variable {m : Markers} {lines others : List Line}

/-- The block that is found depends on which lines are case lines and which are filler lines. -/
theorem locate?_eq_of_kinds (m : Markers) (lines : List Line) (cursor : Nat) :
    locate? m lines cursor =
      let kinds := (lines.map fun line => (line.isCase m, line.isFiller m)).drop cursor
      (kinds.findIdx? (·.1)).map fun k =>
        let more := (kinds.drop (k + 1)).takeWhile fun kind => kind.1 || kind.2
        ⟨(cursor + k : Nat), (cursor + k + more.length : Nat)⟩ := by
  simp only [locate?, ← List.map_drop, List.findIdx?_map, List.takeWhile_map, List.length_map,
    Function.comp_def]

/-- In lines that are alike the same block is found. -/
theorem locate?_eq_of_alike (h : List.Forall₂ (Line.Alike m) lines others) (cursor : Nat) :
    locate? m others cursor = locate? m lines cursor := by
  have hkinds : lines.map (fun line => (line.isCase m, line.isFiller m)) =
      others.map fun line => (line.isCase m, line.isFiller m) := by
    rw [← List.forall₂_eq_eq_eq, List.forall₂_map_left_iff, List.forall₂_map_right_iff]
    exact h.imp fun line other halike => by rw [halike.isCase_eq, halike.isFiller_eq]
  rw [locate?_eq_of_kinds, locate?_eq_of_kinds, hkinds]

/-- Consecutive lines have the same numbers, and lines that are related stay so. -/
theorem forall₂_numberedFrom {R : Line → Line → Prop} (h : List.Forall₂ R lines others)
    (number : Int) :
    List.Forall₂ (fun n o => o.1 = n.1 ∧ R n.2 o.2) (numberedFrom number lines)
      (numberedFrom number others) := by
  induction h generalizing number with
  | nil => exact .nil
  | cons hline _ ih => exact .cons ⟨rfl, hline⟩ (ih (number + 1))

/-- Numbered lines that are alike have the same labels, if all but filler lines are case lines. -/
theorem labelsOf_eq_of_alike {numbered others : List (Int × Line)}
    (h : List.Forall₂ (fun n o => (n.2.isFiller m = false → n.2.isCase m = true) ∧ o.1 = n.1 ∧
      Line.Alike m n.2 o.2) numbered others) : labelsOf m others = labelsOf m numbered := by
  rw [labelsOf_eq_mapM, labelsOf_eq_mapM]
  induction h with
  | nil => rfl
  | @cons n o numbered others hpair _ ih =>
    obtain ⟨k, line⟩ := n
    obtain ⟨j, other⟩ := o
    obtain ⟨hcase, rfl, halike⟩ := hpair
    cases hfiller : line.isFiller m with
    | true => simpa [halike.isFiller_eq, hfiller] using ih
    | false => simp [halike.isFiller_eq, hfiller, halike.labelFrom_eq (hcase hfiller), ih]

/-- The same numbers are listed of numbered lines of which the same satisfy a condition. -/
theorem numbersWhere_eq {p : Line → Bool} {numbered others : List (Int × Line)}
    (h : List.Forall₂ (fun n o => o.1 = n.1 ∧ p o.2 = p n.2) numbered others) :
    Report.numbersWhere p others = Report.numbersWhere p numbered := by
  induction h with
  | nil => rfl
  | cons hpair _ ih =>
    simp only [Report.numbersWhere, List.filter_cons, hpair.2] at ih ⊢
    split
    · rw [List.map_cons, List.map_cons, ih, hpair.1]
    · exact ih

/-- A report finds the same in a block of numbered lines that are alike. -/
theorem Report.withBlock_eq_of_alike {numbered others : List (Int × Line)}
    (h : List.Forall₂ (fun n o => o.1 = n.1 ∧ Line.Alike m n.2 o.2) numbered others) (r : Report)
    (labels : List String) : r.withBlock m others labels = r.withBlock m numbered labels := by
  have hfillers : numbersWhere (Line.isFiller m) others = numbersWhere (Line.isFiller m) numbered :=
    numbersWhere_eq (h.imp fun n o hpair => ⟨hpair.1, hpair.2.isFiller_eq⟩)
  have hmultis : numbersWhere (fun line => !line.isFiller m && line.isMultiCase m) others =
      numbersWhere (fun line => !line.isFiller m && line.isMultiCase m) numbered := by
    refine numbersWhere_eq (h.imp fun n o hpair => ⟨hpair.1, ?_⟩)
    rw [hpair.2.isFiller_eq]
    cases hfiller : n.2.isFiller m with
    | true => rfl
    | false => rw [hpair.2.isMultiCase_eq hfiller]
  simp only [withBlock, hfillers, hmultis]

namespace Block.IsFirst

variable {cursor : Nat} {b : Block} (hfirst : b.IsFirst m lines cursor)
  (hother : b.IsFirst m others cursor) (h : List.Forall₂ (Line.Alike m) lines others)
include hfirst hother h

/-- The numbered lines of a block are alike. -/
theorem forall₂_numbered :
    List.Forall₂ (fun n o => o.1 = n.1 ∧ Line.Alike m n.2 o.2) (b.numbered lines)
      (b.numbered others) := by
  rw [hfirst.numbered_eq, hother.numbered_eq]
  exact forall₂_numberedFrom (List.forall₂_take _ (List.forall₂_drop _ h)) _

/-- A block of lines that are alike has the same labels. -/
theorem labels_eq_of_alike : b.labels m others = b.labels m lines := by
  rw [hfirst.labels_eq, hother.labels_eq]
  refine labelsOf_eq_of_alike ((List.forall₂_and_left _ _).mpr ⟨fun n hn => ?_,
    hfirst.forall₂_numbered hother h⟩)
  exact hfirst.isCase_of_isFiller (hfirst.mem_numbered_iff.mp hn)

end Block.IsFirst

end Block

/-- Lines that are alike have the same report, if the search for a block begins at the same line. -/
theorem Report.inspect_eq_of_alike {s : Settings} {m : Markers} (hmarkers : s.markers = .ok m)
    {lines others : List Line} (h : List.Forall₂ (Line.Alike m) lines others) {line : Int}
    {skip : Option Bool} (hstart : scanStart s others line skip = scanStart s lines line skip)
    (expectedCount : Option Int) (path : Option String) :
    inspect s others line skip expectedCount path =
      inspect s lines line skip expectedCount path := by
  rcases Int.lt_or_le line 0 with hline | hline
  · rw [inspect_of_negative hline, inspect_of_negative hline]
  · simp only [inspect_of_nonneg hline, begun, hstart, ← h.length_eq,
      Settings.locate_of_markers hmarkers, locate?_eq_of_alike h,
      Settings.labels_of_markers hmarkers, hmarkers]
    cases hlocate : locate? m lines (scanStart s lines line skip) with
    | none => rfl
    | some b =>
      have hfirst := locate?_eq_some_iff.mp hlocate
      have hother := locate?_eq_some_iff.mp ((locate?_eq_of_alike h _).trans hlocate)
      simp only [hfirst.labels_eq_of_alike hother h, bind, Except.bind,
        withBlock_eq_of_alike (hfirst.forall₂_numbered hother h)]

end EnumLabels
