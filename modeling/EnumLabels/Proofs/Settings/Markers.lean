import EnumLabels.Proofs.Stages
import EnumLabels.Settings.Use

/-!
# Settings with markers

Settings ask of each line what it is, and each time a marker may turn out to be no text. If both are
texts, no question fails and every answer is the one that the markers give. Searching line by line
then finds the block that the markers find, and the labels line by line are those that the markers
give. So a search and its labels can always be described line by line, whatever the settings are.
-/

namespace EnumLabels

/-- A line that is no case line begins no block. -/
theorem locate?_of_isCase_eq_false {m : Markers} {lines : List Line} {line : Line} {cursor : Nat}
    (hahead : lines.drop cursor = line :: lines.drop (cursor + 1))
    (hcase : line.isCase m = false) : locate? m lines cursor = locate? m lines (cursor + 1) := by
  simp only [locate?, hahead, List.findIdx?_cons, hcase, Bool.false_eq_true, if_false,
    Option.map_map, Function.comp_def, List.drop_succ_cons, Nat.add_assoc, Nat.add_comm 1]

namespace Settings

variable {s : Settings}

/-- A text is as long as its list of characters. -/
theorem length?_of_characters {d : Data} {text : List Char} (h : characters d = .ok text) :
    d.length? = some text.length := by
  cases d with
  | str content =>
    cases content with
    | chars string =>
      obtain rfl := Except.ok.inj h
      exact congrArg some String.length_toList.symm
    | points codes => contradiction
  | _ => contradiction

section Markers

variable {m : Markers} (hmarkers : s.markers = .ok m)
include hmarkers

/-- The markers of settings are their texts. -/
theorem characters_of_markers :
    characters s.keyword = .ok m.keyword ∧ characters s.commentMarker = .ok m.commentMarker := by
  obtain ⟨keyword, hkeyword, hrest⟩ := ok_of_bind hmarkers
  obtain ⟨commentMarker, hcomment, hmade⟩ := ok_of_bind hrest
  split at hmade
  · contradiction
  · split at hmade
    · contradiction
    · obtain rfl := Except.ok.inj hmade
      exact ⟨hkeyword, hcomment⟩

/-- Settings with markers tell case lines by them. -/
theorem isCase_of_markers (line : Line) : s.isCase line = .ok (line.isCase m) := by
  rw [isCase, (characters_of_markers hmarkers).1]
  rfl

/-- Settings with markers tell filler lines by them. -/
theorem isFiller_of_markers (line : Line) : s.isFiller line = .ok (line.isFiller m) := by
  rw [isFiller, (characters_of_markers hmarkers).2, Line.isFiller]
  cases line.isBlank <;> rfl

/-- Settings with markers let a block go on with the lines with which the markers do. -/
theorem continues_of_markers (line : Line) :
    s.continues line = .ok (line.isCase m || line.isFiller m) := by
  rw [continues, isCase_of_markers hmarkers, isFiller_of_markers hmarkers]
  cases line.isCase m <;> rfl

/-- Settings with markers let a block go on for as many lines as the markers do. -/
theorem countContinued_of_markers (lines : List Line) :
    s.countContinued lines =
      .ok (lines.takeWhile fun line => line.isCase m || line.isFiller m).length := by
  induction lines with
  | nil => rfl
  | cons line lines ih =>
    rw [countContinued, continues_of_markers hmarkers, ih]
    cases hgoesOn : line.isCase m || line.isFiller m with
    | true => simp [hgoesOn, bind, Except.bind, pure, Except.pure]
    | false => simp [hgoesOn, bind, Except.bind, pure, Except.pure]

/-- Line by line the block is found that the markers find. -/
theorem firstBlock_of_markers {lines rest : List Line} {cursor : Nat}
    (hahead : lines.drop cursor = rest) :
    s.firstBlock cursor rest = .ok (locate? m lines cursor) := by
  induction rest generalizing cursor with
  | nil => simp [firstBlock, locate?, hahead]
  | cons line rest ih =>
    rw [firstBlock, isCase_of_markers hmarkers]
    cases hcase : line.isCase m with
    | true =>
      rw [countContinued_of_markers hmarkers, locate?, hahead]
      simp [List.findIdx?_cons, hcase, bind, Except.bind, pure, Except.pure]
    | false =>
      obtain rfl : rest = lines.drop (cursor + 1) := by
        rw [← List.drop_drop, hahead, List.drop_one, List.tail_cons]
      rw [locate?_of_isCase_eq_false hahead hcase]
      exact ih rfl

/-- The label of a line, and the fault of a line without one, are those that the markers give. -/
theorem lineLabel_of_markers (number : Int) (line : Line) :
    s.lineLabel number line =
      if line.isFiller m then .ok none
      else
        match line.label? m with
        | none => .error (.unnamedCase number (String.ofList (Text.trim line)))
        | some label => .ok (some label) := by
  rw [lineLabel, isFiller_of_markers hmarkers]
  cases line.isFiller m with
  | true => rfl
  | false =>
    have hlength : s.keyword.length? = some m.keyword.length :=
      length?_of_characters (characters_of_markers hmarkers).1
    simp only [hlength, Line.label?, Line.afterKeyword]
    cases Text.words ((Text.trim line).drop m.keyword.length) <;> rfl

/-- The labels of numbered lines are found line by line. -/
theorem labelsOf_of_markers (numbered : List (Int × Line)) :
    labelsOf m numbered =
      (numbered.mapM fun n => s.lineLabel n.1 n.2).map fun found => found.filterMap id := by
  induction numbered with
  | nil => rfl
  | cons n rest ih =>
    rw [labelsOf, List.mapM_cons, lineLabel_of_markers hmarkers, ih]
    cases n.2.isFiller m with
    | true => cases rest.mapM fun n => s.lineLabel n.1 n.2 <;> rfl
    | false =>
      cases n.2.label? m with
      | none => rfl
      | some label => cases rest.mapM fun n => s.lineLabel n.1 n.2 <;> rfl

/-- A search with settings finds what it does with their markers. -/
theorem locate_of_markers (lines : List Line) (cursor : Nat) :
    s.locate lines cursor = .ok (locate? m lines cursor) := by
  rw [locate, hmarkers]

/-- With settings a block has the labels that it has with their markers. -/
theorem labels_of_markers (lines : List Line) (b : Block) :
    s.labels lines b = b.labels m lines := by
  rw [labels, hmarkers]

end Markers

/-- A search goes on line by line. -/
theorem locate_eq_firstBlock (s : Settings) (lines : List Line) (cursor : Nat) :
    s.locate lines cursor = s.firstBlock cursor (lines.drop cursor) := by
  unfold locate
  split
  · next m hmarkers => exact (firstBlock_of_markers hmarkers rfl).symm
  · rfl

/-- The labels of a block are found line by line. -/
theorem labels_eq_mapM_lineLabel (s : Settings) (lines : List Line) (b : Block) :
    s.labels lines b =
      match (b.numbered lines).mapM fun n => s.lineLabel n.1 n.2 with
      | .error e => .error e
      | .ok found => b.complete lines (found.filterMap id) := by
  unfold labels
  split
  · next m hmarkers =>
    rw [Block.labels, labelsOf_of_markers hmarkers]
    cases (b.numbered lines).mapM fun n => s.lineLabel n.1 n.2 <;> rfl
  · rfl

end Settings

end EnumLabels
