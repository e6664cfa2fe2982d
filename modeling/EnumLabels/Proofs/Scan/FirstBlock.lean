import EnumLabels.Proofs.Settings.Use
import EnumLabels.Scan
import Mathlib.Data.List.TakeWhile

/-!
# A scan reads the first block ahead

Once the line is known at which a scan begins, the scan depends on nothing but that number and
the lines from there on: its outcome is that of reading the labels of their first block. Lines
that are no case lines may be left out in front, and counting on from another number changes
nothing but the number in an error.
-/

namespace EnumLabels

/-- Lines with their numbers, of which the first one is given. -/
def numberedFrom (number : Int) : List Line → List (Int × Line)
  | [] => []
  | line :: lines => (number, line) :: numberedFrom (number + 1) lines

/-- Numbering gives one number to each line. -/
@[simp] theorem length_numberedFrom (number : Int) (lines : List Line) :
    (numberedFrom number lines).length = lines.length := by
  induction lines generalizing number with
  | nil => rfl
  | cons line lines ih => simp [numberedFrom, ih]

/-- Numbering adds no lines. -/
theorem mem_of_mem_numberedFrom {number : Int} {lines : List Line} {n : Int × Line}
    (h : n ∈ numberedFrom number lines) : n.2 ∈ lines := by
  induction lines generalizing number with
  | nil => simp [numberedFrom] at h
  | cons line lines ih =>
    simp only [numberedFrom, List.mem_cons] at h
    rcases h with rfl | h
    · exact List.mem_cons_self
    · exact List.mem_cons_of_mem _ (ih h)

/-- Numbering from a later number makes every number as much later. -/
theorem numberedFrom_add (number shift : Int) (lines : List Line) :
    numberedFrom (number + shift) lines =
      (numberedFrom number lines).map fun n => (n.1 + shift, n.2) := by
  induction lines generalizing number with
  | nil => rfl
  | cons line lines ih =>
    simp only [numberedFrom, List.map_cons, ← ih]
    rw [Int.add_right_comm]

/-- The numbering of a block is that of consecutive lines. -/
theorem map_zipIdx_eq_numberedFrom (number : Int) (lines : List Line) :
    (lines.zipIdx.map fun p => (number + p.2, p.1)) = numberedFrom number lines := by
  have general (k : Nat) : ((lines.zipIdx k).map fun p => (number + p.2, p.1)) =
      numberedFrom (number + k) lines := by
    induction lines generalizing k with
    | nil => rfl
    | cons line lines ih =>
      simp only [List.zipIdx_cons, List.map_cons, numberedFrom, ih]
      rw [Int.add_assoc, Int.natCast_succ]
  simpa using general 0

/-- Two outcomes of a scan that are the same but for the number of a line, on which `f` acts. -/
inductive Renumbered (f : Int → Int) :
    Except Error (List String) → Except Error (List String) → Prop
  | labels (labels : List String) : Renumbered f (.ok labels) (.ok labels)
  | unnamedCase (line : Int) (text : String) :
      Renumbered f (.error (.unnamedCase line text)) (.error (.unnamedCase (f line) text))

/-- A label before both outcomes keeps them the same but for the number. -/
theorem Renumbered.cons {f : Int → Int} {first second : Except Error (List String)}
    (h : Renumbered f first second) (label : String) :
    Renumbered f ((label :: ·) <$> first) ((label :: ·) <$> second) := by
  cases h with
  | labels labels => exact .labels (label :: labels)
  | unnamedCase line text => exact .unnamedCase line text

/-- The labels of numbered lines do not depend on the numbers, which only an error shows. -/
theorem labelsOf_renumbered (f : Int → Int) (markers : Markers) (numbered : List (Int × Line)) :
    Renumbered f (labelsOf markers numbered)
      (labelsOf markers (numbered.map fun n => (f n.1, n.2))) := by
  induction numbered with
  | nil => exact .labels []
  | cons n rest ih =>
    simp only [List.map_cons, labelsOf]
    by_cases hfiller : n.2.isFiller markers
    · simpa only [hfiller, if_true] using ih
    · simp only [hfiller, if_false, Bool.false_eq_true]
      cases n.2.label? markers with
      | none => exact .unnamedCase _ _
      | some label => exact ih.cons label

namespace Markers

/-- Whether a block goes on with a line. -/
def continues (m : Markers) (line : Line) : Bool := line.isCase m || line.isFiller m

/-- The lines before the first case line, all of them if there is none. -/
def gap (m : Markers) (lines : List Line) : List Line :=
  lines.takeWhile fun line => !line.isCase m

/-- The lines of the first block, none if no line is a case line. -/
def block (m : Markers) (lines : List Line) : List Line :=
  (lines.dropWhile fun line => !line.isCase m).takeWhile m.continues

/-- The labels of the first block of some lines, of which the first one has the given number. -/
def read (m : Markers) (number : Int) (lines : List Line) : Except Error (List String) :=
  labelsOf m (numberedFrom (number + (m.gap lines).length) (m.block lines))

/-- Lines either hold no case line or have a first one. -/
theorem exists_firstCase (m : Markers) (lines : List Line) :
    (∀ line ∈ lines, line.isCase m = false) ∨
      ∃ gap first rest, lines = gap ++ first :: rest ∧
        (∀ line ∈ gap, line.isCase m = false) ∧ first.isCase m = true := by
  induction lines with
  | nil => simp
  | cons line lines ih =>
    cases hcase : line.isCase m with
    | true => exact .inr ⟨[], line, lines, rfl, by simp, hcase⟩
    | false =>
      rcases ih with hnone | ⟨gap, first, rest, rfl, hgap, hfirst⟩
      · exact .inl (by simpa [hcase] using hnone)
      · exact .inr ⟨line :: gap, first, rest, rfl, by simpa [hcase] using hgap, hfirst⟩

variable {m : Markers}

/-- Lines that are no case lines count to the gap. -/
theorem gap_append {lines : List Line} (h : ∀ line ∈ lines, line.isCase m = false)
    (more : List Line) : m.gap (lines ++ more) = lines ++ m.gap more := by
  exact List.takeWhile_append_of_pos (by simpa using h)

/-- Lines that are no case lines do not count to the block. -/
theorem block_append {lines : List Line} (h : ∀ line ∈ lines, line.isCase m = false)
    (more : List Line) : m.block (lines ++ more) = m.block more := by
  rw [block, List.dropWhile_append_of_pos (by simpa using h), block]

/-- There is no gap before a case line. -/
theorem gap_cons_of_isCase {first : Line} (h : first.isCase m = true) (rest : List Line) :
    m.gap (first :: rest) = [] := by
  simp [gap, h]

/-- A case line begins a block. -/
theorem block_cons_of_isCase {first : Line} (h : first.isCase m = true) (rest : List Line) :
    m.block (first :: rest) = first :: rest.takeWhile m.continues := by
  simp [block, continues, h]

/-- A block consists of lines with which it goes on. -/
theorem continues_of_mem_block {line : Line} {lines : List Line} (h : line ∈ m.block lines) :
    m.continues line = true :=
  List.mem_takeWhile_imp h

/-- Lines without a case line hold no block. -/
theorem block_eq_nil {lines : List Line} (h : ∀ line ∈ lines, line.isCase m = false) :
    m.block lines = [] := by
  simpa [block] using block_append h []

/-- Reading passes over lines that are no case lines. -/
theorem read_append {lines : List Line} (h : ∀ line ∈ lines, line.isCase m = false)
    (number : Int) (more : List Line) :
    m.read number (lines ++ more) = m.read (number + lines.length) more := by
  rw [read, gap_append h, block_append h, read, List.length_append]
  congr 2
  omega

/-- Reading passes over a line that is no case line. -/
theorem read_cons {line : Line} (h : line.isCase m = false) (number : Int) (more : List Line) :
    m.read number (line :: more) = m.read (number + 1) more := by
  have hline : ∀ l ∈ [line], l.isCase m = false := by simpa using h
  exact read_append hline number more

/-- Lines without a case line give no labels. -/
theorem read_eq_nil {lines : List Line} (h : ∀ line ∈ lines, line.isCase m = false)
    (number : Int) : m.read number lines = .ok [] := by
  rw [read, block_eq_nil h]
  rfl

/-- At a case line, reading takes the labels of that line and of those that go on with it. -/
theorem read_cons_of_isCase {first : Line} (h : first.isCase m = true) (number : Int)
    (rest : List Line) :
    m.read number (first :: rest) =
      labelsOf m (numberedFrom number (first :: rest.takeWhile m.continues)) := by
  rw [read, gap_cons_of_isCase h, block_cons_of_isCase h]
  simp

/-- Reading from another number changes nothing but the number in an error. -/
theorem read_renumbered (m : Markers) (number shift : Int) (lines : List Line) :
    Renumbered (· + shift) (m.read number lines) (m.read (number + shift) lines) := by
  rw [read, read, Int.add_right_comm, numberedFrom_add (number + _) shift]
  exact labelsOf_renumbered _ m _

end Markers

/-- Without a case line ahead there is no block. -/
theorem locate?_eq_none {m : Markers} {lines : List Line} {cursor : Nat}
    (h : ∀ line ∈ lines.drop cursor, line.isCase m = false) : locate? m lines cursor = none := by
  have hfind : (lines.drop cursor).findIdx? (Line.isCase m) = none := by
    simpa using h
  simp [locate?, hfind]

/-- The first case line ahead begins the block, which goes on as long as lines let it. -/
theorem locate?_eq_some {m : Markers} {lines gap rest : List Line} {first : Line} {cursor : Nat}
    (hahead : lines.drop cursor = gap ++ first :: rest)
    (hgap : ∀ line ∈ gap, line.isCase m = false) (hfirst : first.isCase m = true) :
    locate? m lines cursor =
      some ⟨(cursor + gap.length : Nat),
        (cursor + gap.length + (rest.takeWhile m.continues).length : Nat)⟩ := by
  have hfind : (gap ++ first :: rest).findIdx? (Line.isCase m) = some gap.length := by
    rw [List.findIdx?_append, List.findIdx?_eq_none_iff.mpr hgap]
    simp [List.findIdx?_cons, hfirst]
  simp only [locate?, hahead, hfind, Option.map_some]
  rw [← List.drop_drop, List.drop_left]
  rfl

/-- A case line at the cursor begins the block. -/
theorem locate?_of_isCase {m : Markers} {lines rest : List Line} {first : Line} {cursor : Nat}
    (hahead : lines.drop cursor = first :: rest) (hfirst : first.isCase m = true) :
    locate? m lines cursor =
      some ⟨cursor, (cursor + (rest.takeWhile m.continues).length : Nat)⟩ := by
  rw [← List.nil_append (first :: rest)] at hahead
  exact locate?_eq_some hahead (by simp) hfirst

/-- A block does not begin with a line that is no case line. -/
theorem lt_first_of_locate? {m : Markers} {lines rest : List Line} {line : Line} {cursor : Nat}
    {b : Block} (hahead : lines.drop cursor = line :: rest) (hcase : line.isCase m = false)
    (hlocate : locate? m lines cursor = some b) : cursor < b.first := by
  rcases m.exists_firstCase rest with hnone | ⟨gap, first, more, rfl, hgap, hfirst⟩
  · rw [locate?_eq_none (by simpa [hahead, hcase] using hnone)] at hlocate
    contradiction
  · rw [← List.cons_append] at hahead
    rw [locate?_eq_some hahead (by simpa [hcase] using hgap) hfirst] at hlocate
    obtain rfl := Option.some.inj hlocate
    simp only [List.length_cons]
    omega

/-- A block none of whose numbers lacks a line has its labels from its numbered lines. -/
theorem Block.labels_eq_labelsOf (m : Markers) {lines : List Line} {b : Block}
    (hcount : (b.last - b.first + 1).toNat = (b.numbered lines).length) :
    b.labels m lines = labelsOf m (b.numbered lines) := by
  rw [labels]
  cases labelsOf m (b.numbered lines) with
  | error e => rfl
  | ok labels => exact if_pos hcount

/-- The labels of consecutive lines of a source, all of which exist. -/
theorem Block.labels_eq (m : Markers) {lines taken : List Line} {first : Nat}
    (htaken : taken <+: lines.drop first) {last : Int} (hlast : last = first + taken.length - 1) :
    Block.labels m lines ⟨first, last⟩ = labelsOf m (numberedFrom first taken) := by
  have hcount : (last - first + 1).toNat = taken.length := by omega
  have hnumbered : Block.numbered ⟨first, last⟩ lines = numberedFrom first taken := by
    simp only [numbered, linesFrom?, Int.natCast_nonneg, if_true, Int.toNat_natCast, hcount]
    rw [← List.prefix_iff_eq_take.mp htaken, map_zipIdx_eq_numberedFrom]
  rw [labels_eq_labelsOf m (by rw [hnumbered, length_numberedFrom, hcount]), hnumbered]

/-- Locating a block and taking its labels reads the lines ahead. -/
theorem labels_of_locate? (m : Markers) (lines : List Line) (cursor : Nat) :
    (match locate? m lines cursor with
      | none => .ok []
      | some b => b.labels m lines) = m.read cursor (lines.drop cursor) := by
  rcases m.exists_firstCase (lines.drop cursor) with hnone | ⟨gap, first, rest, hahead, hgap, hfirst⟩
  · rw [locate?_eq_none hnone, Markers.read_eq_nil hnone]
  · rw [locate?_eq_some hahead hgap hfirst, hahead, Markers.read_append hgap,
      Markers.read_cons_of_isCase hfirst]
    have htaken : first :: rest.takeWhile m.continues <+: lines.drop (cursor + gap.length) := by
      rw [← List.drop_drop, hahead, List.drop_left]
      exact List.prefix_cons_iff.mpr (.inr ⟨_, rfl, List.takeWhile_prefix _⟩)
    rw [← Int.natCast_add]
    refine Block.labels_eq m htaken ?_
    simp only [List.length_cons]
    omega

namespace Options

/-- The markers of options are those that their settings state. -/
@[simp] theorem markers_settings (o : Options) :
    (Settings.ofOptions o).markers = .ok o.toMarkers := by
  have htext (text : List Char) : Settings.characters (.str (String.ofList text)) = .ok text := by
    rw [Settings.characters, String.toList_ofList]
  exact Settings.markers_eq (htext _) (htext _) o.keyword_ne_nil o.commentMarker_ne_nil

/-- The braces of options are those that their settings state. -/
@[simp] theorem braces_settings (o : Options) : (Settings.ofOptions o).braces = o.braces := by
  simp [Settings.braces, Settings.ofOptions, Settings.character?, Settings.characters, braces]

/-- Whether a scan with options steps over a closure. -/
@[simp] theorem skipsClosure_settings (o : Options) (skip : Option Bool) :
    skipsClosure o skip = skip.getD o.skipsClosures := rfl

/-- A scan reads the lines from the one at which it begins. -/
theorem scan_eq_read (o : Options) (lines : List Line) {line : Int} (hline : 0 ≤ line)
    (skip : Option Bool) :
    scan o lines line skip = o.toMarkers.read (scanStart o lines line skip)
      (lines.drop (scanStart o lines line skip)) := by
  have hnonneg : ¬ line < 0 := by omega
  rw [← labels_of_locate?]
  simp only [scan, hnonneg, if_false, Settings.locate, Settings.labels, markers_settings]
  cases locate? o.toMarkers lines (scanStart o lines line skip) <;> rfl

/-- A scan that steps over a closure begins at the line that closes it. -/
theorem scanStart_skipping (o : Options) (lines : List Line) (line : Int) {skip : Option Bool}
    (hskip : skip.getD o.skipsClosures = true) :
    scanStart o lines line skip = skipClosure o.braces lines line := by
  simp [scanStart, hskip]

/-- A scan that steps over nothing begins at the given line. -/
theorem scanStart_notSkipping (o : Options) (lines : List Line) (line : Int) {skip : Option Bool}
    (hskip : skip.getD o.skipsClosures = false) :
    scanStart o lines line skip = line.toNat := by
  simp [scanStart, hskip]

end Options

end EnumLabels
