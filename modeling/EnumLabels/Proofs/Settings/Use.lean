import EnumLabels.Proofs.Scan.LineKind
import EnumLabels.Proofs.Settings.Checks
import EnumLabels.Proofs.Settings.Markers

/-!
# Labels are found by texts only

Settings pass their checks with any value that counts as true for a keyword or a comment marker.
A search finds a block only if the keyword is a text, and the case line that begins the block
gives a label only if the comment marker is one. So wherever settings give labels, they have
markers.
-/

namespace EnumLabels

/-- The numbered lines of a block begin with the line at its first number. -/
theorem Block.numbered_eq_cons {b : Block} {lines rest : List Line} {first : Line} {start : Nat}
    (hahead : lines.drop start = first :: rest) (hfirst : b.first = start)
    (hlast : b.first ≤ b.last) : ∃ more, b.numbered lines = (b.first, first) :: more := by
  obtain ⟨count, hcount⟩ : ∃ count, (b.last - b.first + 1).toNat = count + 1 :=
    ⟨(b.last - b.first).toNat, by omega⟩
  have hlines : linesFrom? lines b.first = some (first :: rest) := by
    simp [linesFrom?, hfirst, hahead]
  simp [Block.numbered, hlines, hcount, List.zipIdx_cons]

namespace Settings

variable {s : Settings}

/-- A text that counts as true has characters. -/
theorem characters_ne_nil {d : Data} {text : List Char} (htrue : d.isTrue = true)
    (htext : characters d = .ok text) : text ≠ [] := by
  cases d with
  | str content =>
    cases content with
    | chars string =>
      obtain rfl := Except.ok.inj htext
      simpa [Data.isTrue, CodeString.isEmpty] using htrue
    | points codes => simp [characters] at htext
  | _ => simp [characters] at htext

/-- Texts that are not empty are the markers of a scan. -/
theorem markers_eq {keyword commentMarker : List Char}
    (hkeyword : characters s.keyword = .ok keyword)
    (hmarker : characters s.commentMarker = .ok commentMarker) (hkeywordNil : keyword ≠ [])
    (hmarkerNil : commentMarker ≠ []) :
    s.markers = .ok ⟨keyword, commentMarker, hkeywordNil, hmarkerNil⟩ := by
  simp only [markers, hkeyword, hmarker, bind, Except.bind, hkeywordNil, hmarkerNil, dif_neg,
    not_false_eq_true]
  rfl

/-- A line is only found to be a case line by a keyword that is a text. -/
theorem exists_keyword_of_isCase {line : Line} (h : s.isCase line = .ok true) :
    ∃ keyword, characters s.keyword = .ok keyword ∧ line.opensWith keyword = true := by
  rw [isCase] at h
  cases htext : characters s.keyword with
  | error e => simp [htext, Except.map] at h
  | ok keyword => exact ⟨keyword, rfl, by simpa [htext, Except.map] using h⟩

/-- A line that is not blank is compared with the comment marker before it gives a label. -/
theorem lineLabel_of_error {line : Line} {e : Error} (hblank : line.isBlank = false)
    (hmarker : characters s.commentMarker = .error e) (number : Int) :
    s.lineLabel number line = .error e := by
  simp [lineLabel, isFiller, hblank, hmarker, Except.map, bind, Except.bind]

/-- A block that is found begins with a case line. -/
theorem exists_of_firstBlock {number : Int} {lines : List Line} {b : Block}
    (h : s.firstBlock number lines = .ok (some b)) :
    ∃ gap first rest, lines = gap ++ first :: rest ∧ b.first = number + gap.length ∧
      b.first ≤ b.last ∧ s.isCase first = .ok true := by
  induction lines generalizing number with
  | nil => simp [firstBlock] at h
  | cons line lines ih =>
    obtain ⟨opens, hcase, hrest⟩ := ok_of_bind h
    cases opens with
    | false =>
      obtain ⟨gap, first, rest, rfl, hfirst, hlast, hopens⟩ := ih hrest
      refine ⟨line :: gap, first, rest, rfl, ?_, hlast, hopens⟩
      rw [hfirst, List.length_cons]
      omega
    | true =>
      obtain ⟨count, -, hfound⟩ := ok_of_bind hrest
      obtain rfl := Option.some.inj (Except.ok.inj hfound)
      exact ⟨[], line, lines, rfl, by simp, by simp only; omega, hcase⟩

/-- No block is found exactly if every line is found to be no case line. -/
theorem firstBlock_eq_none_iff {number : Int} {lines : List Line} :
    s.firstBlock number lines = .ok none ↔ ∀ line ∈ lines, s.isCase line = .ok false := by
  induction lines generalizing number with
  | nil => simp [firstBlock]
  | cons line lines ih =>
    rw [List.forall_mem_cons, ← @ih (number + 1), firstBlock]
    cases hcase : s.isCase line with
    | error e => simp [bind, Except.bind]
    | ok opens =>
      cases opens with
      | false => simp [bind, Except.bind]
      | true =>
        cases s.countContinued lines <;> simp [bind, Except.bind, pure, Except.pure]

/-- Where checked settings give the labels of a block that they found, they have markers. -/
theorem exists_markers_of_labels (hcheck : s.check = .ok s) {lines : List Line} {cursor : Nat}
    {b : Block} {labels : List String} (hlocate : s.locate lines cursor = .ok (some b))
    (hlabels : s.labels lines b = .ok labels) : ∃ m, s.markers = .ok m := by
  obtain ⟨hkeyword, hmarker, -, -, -⟩ := isValid_of_check hcheck
  cases hmarkers : s.markers with
  | ok m => exact ⟨m, rfl⟩
  | error e =>
    simp only [locate, hmarkers] at hlocate
    simp only [Settings.labels, hmarkers] at hlabels
    obtain ⟨gap, first, rest, hahead, hfirst, hlast, hcase⟩ := exists_of_firstBlock hlocate
    obtain ⟨keyword, htext, hopens⟩ := exists_keyword_of_isCase hcase
    have hkeywordNil := characters_ne_nil hkeyword htext
    cases hcomment : characters s.commentMarker with
    | ok commentMarker =>
      rw [markers_eq htext hcomment hkeywordNil (characters_ne_nil hmarker hcomment)] at hmarkers
      contradiction
    | error e =>
      have hblank : first.isBlank = false := by
        simpa [Line.isBlank] using Line.trim_ne_nil_of_opensWith hkeywordNil hopens
      have hdrop : lines.drop (cursor + gap.length) = first :: rest := by
        rw [← List.drop_drop, hahead, List.drop_left]
      obtain ⟨more, hnumbered⟩ := Block.numbered_eq_cons hdrop (by omega) hlast
      simp [hnumbered, lineLabel_of_error hblank hcomment, bind, Except.bind] at hlabels

end Settings

end EnumLabels
