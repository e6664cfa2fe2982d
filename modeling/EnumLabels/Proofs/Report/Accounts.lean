import EnumLabels.Proofs.Report.Agreement
import EnumLabels.Proofs.Scan.BlockLabels

/-!
# A report accounts for every line of the block

The labels are read from the block by the scan, and the line numbers are collected in a second pass
by the report. Both tell filler lines apart in the same way, so each line of the block either gives
one label or is listed as a filler line, and only the former are listed as lines that declare
several cases. Labels that occur twice are listed once each and in their order.
-/

namespace EnumLabels

/-- Labels are listed once each when repetitions are left out. -/
theorem nodup_eraseDups (labels : List String) : labels.eraseDups.Nodup := by
  -- What is left of the labels behind the first one may have become shorter by more than one.
  induction hlength : labels.length using Nat.strong_induction_on generalizing labels with
  | _ n ih =>
    cases labels with
    | nil => exact List.nodup_nil
    | cons label labels =>
      rw [List.eraseDups_cons, List.nodup_cons, List.mem_eraseDups]
      have hshorter : (labels.filter fun other => !other == label).length < n :=
        Nat.lt_of_le_of_lt (List.length_filter_le _ _) (by simp [← hlength])
      exact ⟨by simp, ih _ hshorter _ rfl⟩

/-- The labels that occur twice are listed. -/
theorem mem_duplicates_iff {labels : List String} {label : String} :
    label ∈ duplicates labels ↔ 2 ≤ labels.count label := by
  rw [duplicates, List.mem_mergeSort, List.mem_filter, List.mem_eraseDups, decide_eq_true_iff]
  constructor
  · exact And.right
  · intro htwice
    exact ⟨List.count_pos_iff.mp (by omega), htwice⟩

/-- The labels that occur twice are listed once each and in their order. -/
theorem pairwise_duplicates (labels : List String) : (duplicates labels).Pairwise (· < ·) := by
  have hsorted : (duplicates labels).Pairwise fun a b => decide (a ≤ b) := by
    refine List.pairwise_mergeSort (fun a b c hab hbc => ?_) (fun a b => ?_) _
    · rw [decide_eq_true_iff] at hab hbc ⊢
      exact String.le_trans hab hbc
    · simpa using String.le_total a b
  have hnodup : (duplicates labels).Nodup :=
    (List.mergeSort_perm _ _).nodup_iff.mpr ((nodup_eraseDups labels).filter _)
  refine (hsorted.and hnodup).imp ?_
  rintro a b ⟨hle, hne⟩
  exact String.not_le.mp fun hge => hne (String.le_antisymm (of_decide_eq_true hle) hge)

namespace Block

namespace IsFirst

variable {m : Markers} {lines : List Line} {cursor : Nat} {b : Block}
  (h : b.IsFirst m lines cursor)
include h

/-- The numbers of those lines of a first block that satisfy a condition. -/
theorem mem_numbersWhere_iff {p : Line → Bool} {k : Int} :
    k ∈ Report.numbersWhere p (b.numbered lines) ↔
      ∃ line, b.HasLine lines k line ∧ p line = true := by
  simp only [Report.numbersWhere, List.mem_map, List.mem_filter, h.mem_numbered_iff]
  constructor
  · rintro ⟨n, hn, rfl⟩
    exact ⟨n.2, hn⟩
  · rintro ⟨line, hline⟩
    exact ⟨(k, line), hline, rfl⟩

/-- The numbers of some lines of a first block increase. -/
theorem pairwise_numbersWhere (p : Line → Bool) :
    (Report.numbersWhere p (b.numbered lines)).Pairwise (· < ·) := by
  rw [Report.numbersWhere, List.pairwise_map, h.numbered_eq]
  exact (pairwise_numberedFrom _ _).filter _

/-- A first block has a numbered line for each of its numbers. -/
theorem length_numbered : ((b.numbered lines).length : Int) = b.last - b.first + 1 := by
  have hcursor := h.cursor_le
  have hlast := h.first_le_last
  have hlength := h.last_lt
  rw [h.numbered_eq, length_numberedFrom, List.length_take, List.length_drop]
  omega

/-- The filler lines of a first block are listed. -/
theorem mem_fillerLines_withBlock (r : Report) (labels : List String) {k : Int} :
    k ∈ (r.withBlock m (b.numbered lines) labels).fillerLines ↔
      ∃ line, b.HasLine lines k line ∧ line.isFiller m = true := h.mem_numbersWhere_iff

/-- The lines of a first block that declare several cases are listed. -/
theorem mem_multiCaseLines_withBlock (r : Report) (labels : List String) {k : Int} :
    k ∈ (r.withBlock m (b.numbered lines) labels).multiCaseLines ↔
      ∃ line, b.HasLine lines k line ∧ line.isFiller m = false ∧ line.isMultiCase m = true := by
  have hlisted := h.mem_numbersWhere_iff (p := fun line => !line.isFiller m && line.isMultiCase m)
    (k := k)
  simp only [Bool.and_eq_true, Bool.not_eq_true'] at hlisted
  exact hlisted

/-- Each line of a first block gives a label or is listed as a filler line. -/
theorem length_add_length_fillerLines {labels : List String}
    (hlabels : b.labels m lines = .ok labels) (r : Report) :
    (labels.length + (r.withBlock m (b.numbered lines) labels).fillerLines.length : Int) =
      b.last - b.first + 1 := by
  have hkept := (h.forall₂_of_labels_ok hlabels).length_eq
  have hsplit := List.length_eq_length_filter_add (l := b.numbered lines) fun n => n.2.isFiller m
  have hfillers : (r.withBlock m (b.numbered lines) labels).fillerLines.length =
      ((b.numbered lines).filter fun n => n.2.isFiller m).length := List.length_map _
  rw [← h.length_numbered, ← hkept, hfillers]
  omega

end IsFirst

end Block

/-- A report that tells of each line of a block whether it gives a label. The labels belong to the
lines that are not listed as filler lines, in the order of their numbers. -/
structure Report.Accounts (r : Report) (m : Markers) (lines : List Line) (b : Block) : Prop where
  pairwise_fillerLines : r.fillerLines.Pairwise (· < ·)
  pairwise_multiCaseLines : r.multiCaseLines.Pairwise (· < ·)
  mem_fillerLines_iff : ∀ k, k ∈ r.fillerLines ↔
    ∃ line, b.HasLine lines k line ∧ line.isFiller m = true
  mem_multiCaseLines_iff : ∀ k, k ∈ r.multiCaseLines ↔
    ∃ line, b.HasLine lines k line ∧ line.isFiller m = false ∧ line.isMultiCase m = true
  contains_of_mem_multiCaseLines : ∀ k ∈ r.multiCaseLines, b.contains k = true
  disjoint : ∀ k ∈ r.multiCaseLines, k ∉ r.fillerLines
  length_add_length : (r.labels.length + r.fillerLines.length : Int) = b.last - b.first + 1
  length_block : lines.length < 0x8000000000000000 →
    b.length = .ok (r.labels.length + r.fillerLines.length)
  labelled : ∃ numbers : List Int, numbers.Pairwise (· < ·) ∧
    (∀ k, k ∈ numbers ↔ b.contains k = true ∧ k ∉ r.fillerLines) ∧
    List.Forall₂ (fun k label => ∃ line, b.HasLine lines k line ∧ line.IsLabelled m label)
      numbers r.labels

/-- A report on a first block that has labels accounts for its lines. -/
theorem Block.IsFirst.accounts_withBlock {m : Markers} {lines : List Line} {cursor : Nat}
    {b : Block} (h : b.IsFirst m lines cursor) {labels : List String}
    (hlabels : b.labels m lines = .ok labels) (r : Report) :
    (r.withBlock m (b.numbered lines) labels).Accounts m lines b := by
  have hfillers {k : Int} := h.mem_fillerLines_withBlock r labels (k := k)
  have hmultis {k : Int} := h.mem_multiCaseLines_withBlock r labels (k := k)
  have hlength := h.length_add_length_fillerLines hlabels r
  constructor
  case pairwise_fillerLines => exact h.pairwise_numbersWhere _
  case pairwise_multiCaseLines =>
    exact h.pairwise_numbersWhere fun line => !line.isFiller m && line.isMultiCase m
  case mem_fillerLines_iff => exact fun k => hfillers
  case mem_multiCaseLines_iff => exact fun k => hmultis
  case contains_of_mem_multiCaseLines =>
    intro k hk
    obtain ⟨line, hline, -⟩ := hmultis.mp hk
    exact hline.1
  case disjoint =>
    intro k hk hfiller
    obtain ⟨line, hline, hkept, -⟩ := hmultis.mp hk
    obtain ⟨other, hother, hblank⟩ := hfillers.mp hfiller
    rw [hline.unique hother, hblank] at hkept
    contradiction
  case length_add_length => exact hlength
  case length_block =>
    intro hcountable
    obtain ⟨n, -, hn, hlast, hblock⟩ := h.exists_length
    rw [hblock (Nat.lt_of_le_of_lt hn hcountable), Except.ok.injEq]
    rw [Report.labels_withBlock]
    omega
  case labelled =>
    obtain ⟨numbers, hnumbers, hmem, hall⟩ := h.exists_of_labels_ok hlabels
    refine ⟨numbers, hnumbers, fun k => ?_, hall⟩
    rw [hmem, hfillers]
    constructor
    · rintro ⟨line, hline, hkept⟩
      refine ⟨hline.1, ?_⟩
      rintro ⟨other, hother, hblank⟩
      rw [hline.unique hother, hblank] at hkept
      contradiction
    · rintro ⟨hk, hkept⟩
      obtain ⟨line, hline⟩ := h.exists_hasLine hk
      exact ⟨line, hline, Bool.eq_false_iff.mpr fun hblank => hkept ⟨line, hline, hblank⟩⟩

/-- Warnings leave alone what a report tells of the lines of a block. -/
theorem Report.Accounts.warned {r : Report} {m : Markers} {lines : List Line} {b : Block}
    (h : r.Accounts m lines b) (s : Settings) :
    (r.warnOfBlock s).warnOfLabels.Accounts m lines b := by
  have hfindings : r.findings.Accounts m lines b := { h with }
  rw [← r.findings_warned s] at hfindings
  exact { hfindings with }

variable {s : Settings} {lines : List Line} {line : Int} {skip : Option Bool}
  {expectedCount : Option Int} {path : Option String} {r : Report}

/-- A report on a block accounts for its lines. -/
theorem Report.exists_accounts_of_inspect (h : inspect s lines line skip expectedCount path = .ok r)
    {b : Block} (hblock : r.block = some b) : ∃ m, s.markers = .ok m ∧ r.Accounts m lines b := by
  obtain ⟨-, found, rfl, ⟨-, rfl⟩ | ⟨other, labels, m, hlocate, hlabels, hmarkers, rfl⟩⟩ :=
    exists_of_inspect h
  · rw [block_warned] at hblock
    contradiction
  · rw [block_warned] at hblock
    obtain rfl : other = b := Option.some.inj hblock
    rw [Settings.locate_eq_some_iff hmarkers] at hlocate
    rw [Settings.labels_of_markers hmarkers] at hlabels
    exact ⟨m, hmarkers, (hlocate.accounts_withBlock hlabels _).warned s⟩

/-- A report without a block has no labels and lists no lines. -/
theorem Report.eq_nil_of_inspect (h : inspect s lines line skip expectedCount path = .ok r)
    (hblock : r.block = none) : r.labels = [] ∧ r.fillerLines = [] ∧ r.multiCaseLines = [] := by
  obtain ⟨-, found, rfl, ⟨-, rfl⟩ | ⟨b, labels, m, -, -, -, rfl⟩⟩ := exists_of_inspect h
  · have hfindings := findings_warned (begun s lines line skip expectedCount path) s
    exact ⟨congrArg (·.labels) hfindings, congrArg (·.fillerLines) hfindings,
      congrArg (·.multiCaseLines) hfindings⟩
  · rw [block_warned] at hblock
    contradiction

/-- Of the labels of a report those that occur twice are listed. -/
theorem Report.duplicateLabels_of_inspect
    (h : inspect s lines line skip expectedCount path = .ok r) :
    r.duplicateLabels = duplicates r.labels := by
  obtain ⟨-, found, rfl, hfound⟩ := exists_of_inspect h
  have hduplicates : found.duplicateLabels = duplicates found.labels := by
    obtain ⟨-, rfl⟩ | ⟨b, labels, m, -, -, -, rfl⟩ := hfound
    · change [] = duplicates []
      simp [duplicates]
    · rfl
  rw [labels_warned, ← hduplicates]
  exact congrArg (·.duplicateLabels) (found.findings_warned s)

/-- A report on a block gives each of its lines a label or lists it as a filler line, and lists no
filler line as one that declares several cases. A report without a block has no labels and lists no
lines. Of the labels those that occur twice are listed, once each and in their order. -/
theorem report_accounts_for_lines
    (h : Report.inspect s lines line skip expectedCount path = .ok r) :
    (∀ b, r.block = some b → ∃ m, s.markers = .ok m ∧ r.Accounts m lines b) ∧
    (r.block = none → r.labels = [] ∧ r.fillerLines = [] ∧ r.multiCaseLines = []) ∧
    r.duplicateLabels.Pairwise (· < ·) ∧
    ∀ label, label ∈ r.duplicateLabels ↔ 2 ≤ r.labels.count label := by
  rw [Report.duplicateLabels_of_inspect h]
  exact ⟨fun b hblock => Report.exists_accounts_of_inspect h hblock,
    fun hblock => Report.eq_nil_of_inspect h hblock, pairwise_duplicates r.labels,
    fun label => mem_duplicates_iff⟩

/-- A report on a block with a note and a blank line lists both of them, the line with two cases,
and the label that comes twice. -/
theorem report_accounts_for_lines_of_repeated_case :
    let lines := ["enum E \x7b", "case a, b", " // note", "", "case a", "\x7d"].map String.toList
    ∃ r, Report.inspect Options.default lines 0 (some false) none none = .ok r ∧
      r.block = some ⟨1, 4⟩ ∧ r.labels = ["a", "a"] ∧ r.fillerLines = [2, 3] ∧
      r.multiCaseLines = [1] ∧ r.Accounts Options.default.toMarkers lines ⟨1, 4⟩ ∧
      r.duplicateLabels = ["a"] ∧ r.duplicateLabels.Pairwise (· < ·) ∧
      ∀ label, label ∈ r.duplicateLabels ↔ 2 ≤ r.labels.count label := by
  intro lines
  obtain ⟨r, hr, hblock, hlabels, hfillers, hmultis, hduplicates⟩ :
      ∃ r, Report.inspect Options.default lines 0 (some false) none none = .ok r ∧
        r.block = some ⟨1, 4⟩ ∧ r.labels = ["a", "a"] ∧ r.fillerLines = [2, 3] ∧
        r.multiCaseLines = [1] ∧ r.duplicateLabels = ["a"] :=
    ⟨_, rfl, by decide +kernel⟩
  have hall := report_accounts_for_lines hr
  obtain ⟨m, hmarkers, haccounts⟩ := hall.1 ⟨1, 4⟩ hblock
  obtain rfl : Options.default.toMarkers = m :=
    Except.ok.inj (Options.default.markers_settings.symm.trans hmarkers)
  exact ⟨r, hr, hblock, hlabels, hfillers, hmultis, haccounts, hduplicates, hall.2.2⟩

end EnumLabels
