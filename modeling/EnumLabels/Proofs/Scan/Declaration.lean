import EnumLabels.Proofs.Scan.SkippedClosure
import EnumLabels.Proofs.Source
import EnumLabels.Proofs.Text.Words

/-!
# Reading back a declaration

A declaration that is laid out with one case on a line gives back the names of its cases. It may
hold comments and blank lines between the cases, may be indented in any way and may have anything
behind the names. The keyword has to be a word and the comment marker must not look like one.

Around it there may be a closure that is opened at the call site, lines between that closure and
the first case, and any lines behind the last case, as long as the next one ends the block.
-/

namespace EnumLabels

/-- The parts of a line that declares a case: blanks, then, behind the keyword, characters that
are no part of a word, the name of the case, and a rest which the name does not run into. -/
structure CaseLine where
  indent : List Char
  separator : List Char
  name : List Char
  tail : List Char
  isBlank_of_mem_indent : ∀ c ∈ indent, Text.isBlank c = true
  separator_ne_nil : separator ≠ []
  separator_not_word : ∀ c ∈ separator, Text.isWordChar c = false
  name_ne_nil : name ≠ []
  isWordChar_of_mem_name : ∀ c ∈ name, Text.isWordChar c = true
  tail_not_word : ∀ c ∈ tail.head?, Text.isWordChar c = false

/-- The line that consists of the parts. -/
def CaseLine.line (m : Markers) (d : CaseLine) : Line :=
  d.indent ++ (m.keyword ++ (d.separator ++ d.name ++ d.tail))

/-- Lines that declare cases with the given names, one on each line that is no filler line. -/
inductive Declares (m : Markers) : List Line → List String → Prop
  | nil : Declares m [] []
  | filler {line : Line} {lines : List Line} {names : List String} (hfiller : line.isFiller m = true)
      (hlines : Declares m lines names) : Declares m (line :: lines) names
  | case (d : CaseLine) {lines : List Line} {names : List String}
      (hlines : Declares m lines names) :
      Declares m (d.line m :: lines) (String.ofList d.name :: names)

/-- The keyword is a word, and the comment marker does not begin as one. -/
structure Markers.Plain (m : Markers) : Prop where
  keyword : ∀ c ∈ m.keyword, Text.isWordChar c = true
  commentMarker : ∀ c ∈ m.commentMarker.head?, Text.isWordChar c = false

/-- The markers of a scan that states none are of this kind. -/
theorem Markers.plain_default : Options.default.toMarkers.Plain where
  keyword := List.all_eq_true.mp rfl
  commentMarker := by simp [Options.default]; decide

/-- With such markers no case line is a filler line. -/
theorem Markers.Plain.isFiller_of_isCase {m : Markers} (hm : m.Plain) {line : Line}
    (h : line.isCase m = true) : line.isFiller m = false := by
  rw [← Bool.not_eq_true, Line.isFiller_iff]
  rintro (hnil | hbegins)
  · exact Line.trim_ne_nil_of_isCase h hnil
  · obtain ⟨c, rest, hkeyword⟩ := List.exists_cons_of_ne_nil m.keyword_ne_nil
    obtain ⟨c', rest', hmarker⟩ := List.exists_cons_of_ne_nil m.commentMarker_ne_nil
    obtain ⟨tail, htail⟩ := (Line.isCase_iff.mp h).1
    rw [← htail, hkeyword, hmarker, List.cons_append, List.cons_prefix_cons] at hbegins
    have hc := hm.keyword c (by simp [hkeyword])
    have hc' := hm.commentMarker c' (by simp [hmarker])
    rw [hbegins.1, hc] at hc'
    contradiction

/-- With such markers no filler line is a case line. -/
theorem Markers.Plain.isCase_of_isFiller {m : Markers} (hm : m.Plain) {line : Line}
    (h : line.isFiller m = true) : line.isCase m = false := by
  rw [← Bool.not_eq_true]
  intro hcase
  rw [hm.isFiller_of_isCase hcase] at h
  contradiction

namespace CaseLine

variable {m : Markers} (hm : m.Plain) (d : CaseLine)

include hm

/-- Trimming a case line leaves it from the keyword to the name. -/
theorem trim_line :
    Text.trim (d.line m) = m.keyword ++ (d.separator ++ d.name ++ Text.trimEnd d.tail) := by
  obtain ⟨c, rest, hkeyword⟩ := List.exists_cons_of_ne_nil m.keyword_ne_nil
  have hc : Text.isBlank c = false :=
    Text.isBlank_of_isWordChar (hm.keyword c (by simp [hkeyword]))
  obtain ⟨init, last, hname⟩ : ∃ init last, d.name = init ++ [last] :=
    ⟨_, _, (List.dropLast_append_getLast d.name_ne_nil).symm⟩
  have hlast : Text.isBlank last = false :=
    Text.isBlank_of_isWordChar (d.isWordChar_of_mem_name last (by simp [hname]))
  have hend : Text.trimEnd (rest ++ (d.separator ++ d.name ++ d.tail)) =
      rest ++ (d.separator ++ d.name ++ Text.trimEnd d.tail) := by
    have hsplit (tail : List Char) : rest ++ (d.separator ++ d.name ++ tail) =
        rest ++ d.separator ++ init ++ last :: tail := by
      simp [hname]
    rw [hsplit, Text.trimEnd_append_cons hlast, hsplit]
  rw [line, Text.trim_append d.isBlank_of_mem_indent, hkeyword, List.cons_append,
    Text.trim_cons hc, hend, List.cons_append]

/-- A line that declares a case is a case line. -/
theorem isCase_line : Line.isCase m (d.line m) = true := by
  obtain ⟨c, rest, hseparator⟩ := List.exists_cons_of_ne_nil d.separator_ne_nil
  have hc : Text.isWordChar c = false := d.separator_not_word c (by simp [hseparator])
  rw [Line.isCase_iff, Line.afterKeyword, trim_line hm, List.drop_left, hseparator]
  exact ⟨List.prefix_append _ _, Line.leavesWord_cons hc _ _⟩

/-- A line that declares a case is no filler line. -/
theorem isFiller_line : Line.isFiller m (d.line m) = false :=
  hm.isFiller_of_isCase (isCase_line hm d)

/-- The label of a line that declares a case is the name of the case. -/
theorem label_line : Line.label? m (d.line m) = some (String.ofList d.name) := by
  have htail : ∀ c ∈ (Text.trimEnd d.tail).head?, Text.isWordChar c = false := by
    intro c hc
    obtain ⟨more, hmore⟩ := Text.trimEnd_prefix d.tail
    refine d.tail_not_word c ?_
    rw [← hmore, List.head?_append, Option.mem_def.mp hc]
    rfl
  rw [Line.label?, Line.afterKeyword, trim_line hm, List.drop_left,
    Text.words_separated d.separator_not_word d.name_ne_nil d.isWordChar_of_mem_name htail]
  rfl

end CaseLine

namespace Declares

variable {m : Markers} {lines : List Line} {names : List String}

/-- The labels of the lines of a declaration are the names of its cases. -/
theorem labelsOf_eq (hm : m.Plain) (h : Declares m lines names) (number : Int) :
    labelsOf m (numberedFrom number lines) = .ok names := by
  induction h generalizing number with
  | nil => rfl
  | filler hfiller _ ih =>
    simp only [numberedFrom, labelsOf, hfiller, if_true]
    exact ih _
  | case d _ ih =>
    simp only [numberedFrom, labelsOf, d.isFiller_line hm, d.label_line hm, ih]
    rfl

/-- A declaration is one block. -/
theorem continues_of_mem (hm : m.Plain) (h : Declares m lines names) :
    ∀ line ∈ lines, m.continues line = true := by
  induction h with
  | nil => simp
  | filler hfiller _ ih => simpa [Markers.continues, hfiller] using ih
  | case d _ ih => simpa [Markers.continues, d.isCase_line hm] using ih

/-- Reading a declaration that a line ends gives the names of its cases. -/
theorem read_eq {first : Line} {rest below : List Line} (hm : m.Plain)
    (hfirst : first.isCase m = true) (h : Declares m (first :: rest) names)
    (hbelow : ∀ line ∈ below.head?, m.continues line = false) (number : Int) :
    m.read number (first :: rest ++ below) = .ok names := by
  have hrest : (rest ++ below).takeWhile m.continues = rest := by
    obtain ⟨-, hcontinues⟩ := List.forall_mem_cons.mp (h.continues_of_mem hm)
    rw [List.takeWhile_append_of_pos hcontinues]
    cases below with
    | nil => simp
    | cons line below => simp [hbelow line rfl]
  rw [List.cons_append, Markers.read_cons_of_isCase hfirst, hrest]
  exact h.labelsOf_eq hm number

end Declares

/-- A scan recovers the names of a declaration behind a closure, from lines and from a file that
holds them. Without the closure being skipped it does so from any line between the closure and the
first case. -/
theorem scan_declared (o : Options) (hplain : o.toMarkers.Plain)
    (above before gap rest below : List Line) (closing first : Line) (names : List String)
    (hcloses : o.ClosesOn before closing) (hclosing : closing.isCase o.toMarkers = false)
    (hgap : ∀ line ∈ gap, line.isCase o.toMarkers = false)
    (hfirst : first.isCase o.toMarkers = true)
    (hdeclares : Declares o.toMarkers (first :: rest) names)
    (hbelow : ∀ line ∈ below.head?,
      line.isCase o.toMarkers = false ∧ line.isFiller o.toMarkers = false)
    (line : Int) (hline : 0 ≤ line) (hstart : (line - 1).toNat = above.length)
    (skip : Option Bool) (hskip : skip.getD o.skipsClosures = true) :
    let lines := above ++ (before ++ [closing]) ++ gap ++ (first :: rest) ++ below
    scan o lines line skip = .ok names ∧
      (∀ d path column missingOk, 0 ≤ column → loadLines d path = .ok lines →
        scanFile d o ⟨path, line, column⟩ skip missingOk = .ok ⟨names, []⟩) ∧
      ∀ cursor : Nat, above.length + before.length < cursor →
        cursor ≤ above.length + before.length + 1 + gap.length →
        scan o lines cursor (some false) = .ok names := by
  intro lines
  have hends : ∀ line ∈ below.head?, o.toMarkers.continues line = false := by
    intro line hhead
    simp [Markers.continues, hbelow line hhead]
  have hread (number : Int) : o.toMarkers.read number (first :: rest ++ below) = .ok names :=
    hdeclares.read_eq hplain hfirst hends number
  have hscan : scan o lines line skip = .ok names := by
    have hlines : lines = above ++ (before ++ closing :: (gap ++ (first :: rest ++ below))) := by
      simp [lines]
    rw [hlines, hcloses.scan_skipping hline hstart hskip, Markers.read_cons hclosing,
      Markers.read_append hgap, hread]
  refine ⟨hscan, ?_, ?_⟩
  · intro d path column missingOk hcolumn hload
    rw [scanFile_of_ok hline hcolumn hload, hscan]
    rfl
  · intro cursor hlow hhigh
    obtain ⟨passed, ahead, hsplit, hpassed⟩ : ∃ passed ahead, gap = passed ++ ahead ∧
        cursor = (above ++ (before ++ [closing]) ++ passed).length := by
      refine ⟨gap.take (cursor - (above.length + before.length + 1)), _,
        (List.take_append_drop _ gap).symm, ?_⟩
      simp only [List.length_append, List.length_take, List.length_singleton]
      omega
    have hlines : lines = (above ++ (before ++ [closing]) ++ passed) ++
        (ahead ++ (first :: rest ++ below)) := by
      simp [lines, hsplit]
    have hahead : ∀ line ∈ ahead, line.isCase o.toMarkers = false :=
      fun line hmem => hgap line (hsplit ▸ List.mem_append_right _ hmem)
    rw [hlines, hpassed, o.scan_append_notSkipping _ _ rfl, Markers.read_append hahead, hread]

/-- The names of two cases with a note between them, behind a closure with a case of its own. -/
theorem scan_declared_two_cases :
    let lines := ["import X", "Gen \x7b", "  case .x: \x7b 1 \x7d", "\x7d", "enum E \x7b",
      "  case a = 1", "", "  // note", "\tcase b(T), c", "\x7d"].map String.toList
    Options.default.ClosesOn ["Gen \x7b".toList, "  case .x: \x7b 1 \x7d".toList] "\x7d".toList ∧
      scan Options.default lines 2 none = .ok ["a", "b"] ∧
      scan Options.default lines 4 (some false) = .ok ["a", "b"] := by
  intro lines
  have hcloses : Options.default.ClosesOn
      ["Gen \x7b".toList, "  case .x: \x7b 1 \x7d".toList] "\x7d".toList :=
    ⟨"Gen ".toList, "  case .x: \x7b 1 \x7d".toList, [], [], by decide⟩
  let a : CaseLine :=
    { indent := "  ".toList, separator := " ".toList, name := "a".toList, tail := " = 1".toList
      isBlank_of_mem_indent := by simp; decide
      separator_ne_nil := by decide
      separator_not_word := by simp; decide
      name_ne_nil := by decide
      isWordChar_of_mem_name := by simp; decide
      tail_not_word := by simp; decide }
  let b : CaseLine :=
    { indent := "\t".toList, separator := " ".toList, name := "b".toList, tail := "(T), c".toList
      isBlank_of_mem_indent := by simp; decide
      separator_ne_nil := by decide
      separator_not_word := by simp; decide
      name_ne_nil := by decide
      isWordChar_of_mem_name := by simp; decide
      tail_not_word := by simp; decide }
  have hdeclares : Declares Options.default.toMarkers
      [a.line Options.default.toMarkers, [], "  // note".toList, b.line Options.default.toMarkers]
      ["a", "b"] :=
    .case a (.filler (by decide) (.filler (by decide) (.case b .nil)))
  have hall := scan_declared Options.default Markers.plain_default ["import X".toList]
    ["Gen \x7b".toList, "  case .x: \x7b 1 \x7d".toList] ["enum E \x7b".toList]
    [[], "  // note".toList, b.line Options.default.toMarkers] ["\x7d".toList] "\x7d".toList
    (a.line Options.default.toMarkers) ["a", "b"] hcloses (by decide) (by decide) (by decide)
    hdeclares (by decide) 2 (by decide) (by decide) none rfl
  exact ⟨hcloses, hall.1, hall.2.2 4 (by decide) (by decide)⟩

end EnumLabels
