import EnumLabels.Proofs.Report.AlikeLines
import EnumLabels.Proofs.Report.Groups
import EnumLabels.Proofs.Scan.Declaration
import EnumLabels.Proofs.Text.Marker

/-!
# Comments behind a line

A comment may be put behind a line without quotes, whatever its text is, as long as the line has a
name if it is a case line. The line still begins as it did, its first word behind the keyword is
still the same, and the comment is cut away before commas are looked for. Trimming does not part the
comment from its marker. In lines that a closure may run through the comment must hold no brace. The
report is the same with and without such comments.
-/

namespace EnumLabels

/-- The keyword is a word, and the comment marker does not begin as one and holds no blanks and no
quotes. -/
structure Markers.AllowTrailing (m : Markers) : Prop extends Markers.Plain m where
  not_blank : ∀ c ∈ m.commentMarker, Text.isBlank c = false
  not_quote : ∀ c ∈ m.commentMarker, c ≠ '\'' ∧ c ≠ '"'

/-- A line with a blank and a comment behind it. -/
def Line.commented (m : Markers) (line : Line) (note : List Char) : Line :=
  line ++ ' ' :: (m.commentMarker ++ note)

/-- A line and what becomes of it when a comment may be put behind it. If braces are counted the
comment holds none of them. -/
inductive Line.MayBeCommented (m : Markers) (braces : Braces) (counted : Bool) : Line → Line → Prop
  | same (line : Line) : MayBeCommented m braces counted line line
  | comment (line : Line) (note : List Char) (hquotes : ∀ c ∈ line, c ≠ '\'' ∧ c ≠ '"')
      (hnamed : line.isCase m = true → ∃ c ∈ line.afterKeyword m, Text.isWordChar c = true)
      (hbraces : counted = true → ∀ c ∈ ' ' :: (m.commentMarker ++ note),
        braces.opening ≠ some c ∧ braces.closing ≠ some c) :
      MayBeCommented m braces counted line (line.commented m note)

namespace Line

variable {m : Markers} {line other : Line}

/-- What stands behind a line that begins with the keyword stands behind the text that follows the
keyword. -/
theorem afterKeyword_eq_of_trim {more : List Char} (hkeyword : m.keyword <+: Text.trim line)
    (hother : Text.trim other = Text.trim line ++ more) :
    other.afterKeyword m = line.afterKeyword m ++ more := by
  rw [afterKeyword, hother, List.drop_append_of_le_length hkeyword.length_le, afterKeyword]

variable (hm : m.AllowTrailing)
include hm

/-- Trimming a blank line with a comment behind it leaves the comment, and trimming another one
leaves blanks between the trimmed line and the comment. -/
theorem trim_commented (line : Line) (note : List Char) :
    Text.trim line = [] ∧ m.commentMarker <+: Text.trim (line.commented m note) ∨
      Text.trim line ≠ [] ∧ ∃ c gap rest, (∀ d ∈ c :: gap, Text.isBlank d = true) ∧
        Text.trim (line.commented m note) =
          Text.trim line ++ c :: (gap ++ (m.commentMarker ++ rest)) := by
  obtain ⟨lead, tail, hline, hlead, htail⟩ := Text.exists_eq_append_trim line
  have hspaces : ∀ d ∈ tail ++ [' '], Text.isBlank d = true :=
    List.forall_mem_append.mpr ⟨htail, by simp; rfl⟩
  have hcommented : Text.trim (line.commented m note) =
      Text.trim (Text.trim line ++ ((tail ++ [' ']) ++ (m.commentMarker ++ note))) := by
    conv => lhs; rw [commented, hline, List.append_assoc, Text.trim_append hlead]
    simp
  rw [hcommented]
  cases htrim : Text.trim line with
  | nil =>
    refine .inl ⟨rfl, ?_⟩
    rw [List.nil_append, Text.trim_append hspaces,
      Text.trim_solid_append m.commentMarker_ne_nil hm.not_blank]
    exact List.prefix_append _ _
  | cons c rest =>
    refine .inr ⟨List.cons_ne_nil c rest, ?_⟩
    obtain ⟨d, gap, hgap⟩ := List.exists_cons_of_ne_nil (l := tail ++ [' ']) (by simp)
    refine ⟨d, gap, Text.trimEnd note, hgap ▸ hspaces, ?_⟩
    rw [List.cons_append, Text.trim_cons (Text.isBlank_of_trim_eq_cons htrim), ← List.append_assoc,
      Text.trimEnd_append_solid m.commentMarker_ne_nil hm.not_blank, hgap]
    simp

section Blank

variable {c : Char} {more : List Char} (hc : Text.isBlank c = true)
  (hother : Text.trim other = Text.trim line ++ c :: more)
include hc hother

/-- A blank and other characters behind a line leave it a filler line or not. -/
theorem isFiller_eq_of_trim (hne : Text.trim line ≠ []) : other.isFiller m = line.isFiller m := by
  have hmarker : c ∉ m.commentMarker := by
    intro hmem
    rw [hm.not_blank c hmem] at hc
    contradiction
  rw [Bool.eq_iff_iff, isFiller_iff, isFiller_iff, hother, Text.prefix_append_cons_iff hmarker]
  simp [hne]

/-- A blank and other characters behind a line leave it a case line or not. -/
theorem isCase_eq_of_trim : other.isCase m = line.isCase m := by
  have hword := Text.isWordChar_of_isBlank hc
  have hkeyword : c ∉ m.keyword := by
    intro hmem
    rw [hm.keyword c hmem] at hword
    contradiction
  rw [Bool.eq_iff_iff, isCase_iff, isCase_iff]
  nth_rewrite 1 [hother]
  rw [Text.prefix_append_cons_iff hkeyword]
  refine and_congr_right fun hbegins => ?_
  rw [afterKeyword_eq_of_trim hbegins hother, leavesWord_append_cons hword]

omit hm in
/-- A blank and other characters behind a case line leave its label. -/
theorem label?_eq_some_of_trim (hcase : line.isCase m = true) {label : String}
    (hlabel : line.label? m = some label) : other.label? m = some label := by
  rw [label?, Option.map_eq_some_iff] at hlabel
  obtain ⟨word, hword, rfl⟩ := hlabel
  rw [label?, afterKeyword_eq_of_trim (isCase_iff.mp hcase).1 hother,
    Text.words_append_cons (Text.isWordChar_of_isBlank hc), List.head?_append, hword]
  rfl

end Blank

/-- Before its first marker a text with blanks and a comment behind it has the same commas as the
text. -/
theorem mem_before_append_iff {c : Char} {gap : List Char}
    (hgap : ∀ d ∈ c :: gap, Text.isBlank d = true) (text more : List Char) :
    ',' ∈ withoutGroups (Text.before m.commentMarker
        (text ++ c :: (gap ++ (m.commentMarker ++ more)))) ↔
      ',' ∈ withoutGroups (Text.before m.commentMarker text) := by
  have hsolid : ∀ d ∈ c :: gap, d ∉ m.commentMarker := by
    intro d hd hmem
    have hblank := hgap d hd
    rw [hm.not_blank d hmem] at hblank
    contradiction
  have hbehind :
      Text.before m.commentMarker (c :: gap ++ (m.commentMarker ++ more)) = c :: gap := by
    rw [Text.before_append_of_head_ne m.commentMarker_ne_nil,
      Text.before_eq_nil (List.prefix_append _ _), List.append_nil]
    intro d hd hhead
    exact hsolid d hd (List.mem_of_mem_head? hhead)
  have hflat : IsFlat (c :: gap) := by
    intro d hd
    refine ⟨?_, ?_⟩ <;> rintro rfl <;> exact absurd (hgap _ hd) (by decide)
  have hcomma : ',' ∉ c :: gap := fun hmem => absurd (hgap _ hmem) (by decide)
  rw [Text.before_append_cons m.commentMarker_ne_nil (hsolid c List.mem_cons_self)]
  split
  · rfl
  · next hnone =>
    rw [← List.cons_append, hbehind, withoutGroups_append_flat hflat, Text.before_eq_self hnone,
      List.mem_append, or_iff_left hcomma]

/-- A comment that stands with blanks behind a line without quotes makes no difference to the commas
of the line. -/
theorem isMultiCase_eq_of_trim {c : Char} {gap rest : List Char}
    (hquotes : ∀ d ∈ line, d ≠ '\'' ∧ d ≠ '"')
    (hgap : ∀ d ∈ c :: gap, Text.isBlank d = true)
    (hother : Text.trim other = Text.trim line ++ c :: (gap ++ (m.commentMarker ++ rest))) :
    other.isMultiCase m = line.isMultiCase m := by
  have htext : ∀ d ∈ Text.trim line, d ≠ '\'' ∧ d ≠ '"' := by
    obtain ⟨lead, tail, hline, -, -⟩ := Text.exists_eq_append_trim line
    intro d hd
    exact hquotes d (by rw [hline]; simp [hd])
  have hblanks : ∀ d ∈ c :: gap, d ≠ '\'' ∧ d ≠ '"' := by
    intro d hd
    refine ⟨?_, ?_⟩ <;> rintro rfl <;> exact absurd (hgap _ hd) (by decide)
  have hbehind : withoutQuoted (Text.trim other) =
      Text.trim line ++ c :: (gap ++ (m.commentMarker ++ withoutQuoted rest)) := by
    rw [hother, withoutQuoted_append htext, ← List.cons_append, withoutQuoted_append hblanks,
      withoutQuoted_append hm.not_quote, List.cons_append]
  rw [Bool.eq_iff_iff, isMultiCase, isMultiCase, List.contains_iff_mem, List.contains_iff_mem,
    hbehind, withoutQuoted_eq_self htext, mem_before_append_iff hm hgap]

/-- A line without quotes and, if it is a case line, with a name is alike to itself with a comment
behind it. -/
theorem alike_commented (hquotes : ∀ c ∈ line, c ≠ '\'' ∧ c ≠ '"')
    (hnamed : line.isCase m = true → ∃ c ∈ line.afterKeyword m, Text.isWordChar c = true)
    (note : List Char) : line.Alike m (line.commented m note) := by
  rcases trim_commented hm line note with ⟨hnil, hbegins⟩ | ⟨hne, c, gap, rest, hgap, htrim⟩
  · -- A blank line becomes a comment, which does not begin with the keyword.
    have hfiller : line.isFiller m = true := isFiller_iff.mpr (.inl hnil)
    have hother : (line.commented m note).isFiller m = true := isFiller_iff.mpr (.inr hbegins)
    have hcase : line.isCase m = false := hm.isCase_of_isFiller hfiller
    constructor
    case isCase_eq => rw [hcase, hm.isCase_of_isFiller hother]
    case isFiller_eq => rw [hfiller, hother]
    case labelFrom_eq =>
      intro hopens
      rw [hcase] at hopens
      contradiction
    case isMultiCase_eq =>
      intro hkept
      rw [hfiller] at hkept
      contradiction
  · have hc := hgap c List.mem_cons_self
    constructor
    case isCase_eq => exact isCase_eq_of_trim hm hc htrim
    case isFiller_eq => exact isFiller_eq_of_trim hm hc htrim hne
    case labelFrom_eq =>
      intro hcase k
      cases hlabel : line.label? m with
      | none =>
        obtain ⟨d, hd, hword⟩ := hnamed hcase
        rw [label?_eq_none_iff.mp hlabel d hd] at hword
        contradiction
      | some label =>
        have hother := label?_eq_some_of_trim hc htrim hcase hlabel
        rw [labelFrom_eq_ok_iff.mpr hother, labelFrom_eq_ok_iff.mpr hlabel]
    case isMultiCase_eq => exact fun _ => isMultiCase_eq_of_trim hm hquotes hgap htrim

end Line

namespace Line.MayBeCommented

variable {m : Markers} {braces : Braces} {counted : Bool} {line other : Line}

/-- A line is alike to what becomes of it. -/
theorem alike (hm : m.AllowTrailing) (h : MayBeCommented m braces counted line other) :
    line.Alike m other := by
  cases h with
  | same => exact .refl m line
  | comment note hquotes hnamed => exact alike_commented hm hquotes hnamed note

/-- If braces are counted, a line nests as does what becomes of it. -/
theorem nestAlike (hcounted : counted = true) (h : MayBeCommented m braces counted line other) :
    line.NestAlike braces other := by
  intro n hn
  cases h with
  | same => rfl
  | comment note hquotes hnamed hbraces =>
    rw [commented, Nesting.readLine?_append]
    cases hread : n.readLine? braces line with
    | none => rfl
    | some n' =>
      exact Nesting.readLine?_eq_self (Nesting.isClosed_of_readLine? hn hread)
        (fun c hc => (hbraces hcounted c hc).1) fun c hc => (hbraces hcounted c hc).2

end Line.MayBeCommented

/-- Comments behind lines without quotes leave a report and its errors as they are, if each such
case line has a name and, where a closure is skipped, no comment holds a brace. -/
theorem inspect_commented {s : Settings} {m : Markers} (hmarkers : s.markers = .ok m)
    (hm : m.AllowTrailing) {lines others : List Line} {skip : Option Bool}
    (h : List.Forall₂ (Line.MayBeCommented m s.braces (skipsClosure s skip)) lines others)
    (line : Int) (expectedCount : Option Int) (path : Option String) :
    Report.inspect s others line skip expectedCount path =
      Report.inspect s lines line skip expectedCount path := by
  have halike : List.Forall₂ (Line.Alike m) lines others :=
    h.imp fun line other hline => hline.alike hm
  refine Report.inspect_eq_of_alike hmarkers halike ?_ expectedCount path
  cases hskip : skipsClosure s skip with
  | false => simp [scanStart, hskip]
  | true =>
    simp only [scanStart, hskip, if_true]
    exact skipClosure_eq_of_nestAlike (h.imp fun line other hline => hline.nestAlike hskip) line

/-- Comments with quotes, commas, brackets, markers and the keyword behind a closure, two cases, a
blank line and another case leave the report as it is. -/
theorem inspect_commented_closure :
    let lines := ["Gen \x7b", "\x7d", "case a(T), b", "", "case c"].map String.toList
    let others := ["Gen \x7b", "\x7d // it's (over", "case a(T), b // case x, y", " // , //",
      "case c // \"d\", e)"].map String.toList
    Options.default.AllowTrailing ∧
      Report.inspect Options.default others 1 none (some 2) none =
        Report.inspect Options.default lines 1 none (some 2) none := by
  intro lines others
  have hm : Options.default.AllowTrailing :=
    { Markers.plain_default with
      not_blank := by simp [Options.default]; decide
      not_quote := by simp [Options.default] }
  refine ⟨hm, inspect_commented Options.default.markers_settings hm ?_ 1 (some 2) none⟩
  have hcomment (line note : Line) (hquotes : line.all (fun c => c ≠ '\'' ∧ c ≠ '"') = true)
      (hnamed : line.isCase Options.default.toMarkers = true →
        (line.afterKeyword Options.default.toMarkers).any Text.isWordChar = true)
      (hbraces : (' ' :: (Options.default.commentMarker ++ note)).all (fun c =>
        Options.default.braces.opening ≠ some c ∧ Options.default.braces.closing ≠ some c) = true) :
      Line.MayBeCommented Options.default.toMarkers Options.default.braces true line
        (line.commented Options.default.toMarkers note) := by
    refine .comment line note ?_ (fun hcase => List.any_eq_true.mp (hnamed hcase)) fun _ => ?_
    · exact fun c hc => of_decide_eq_true (List.all_eq_true.mp hquotes c hc)
    · exact fun c hc => of_decide_eq_true (List.all_eq_true.mp hbraces c hc)
  refine .cons (.same _) (.cons ?_ (.cons ?_ (.cons ?_ (.cons ?_ .nil))))
  · exact hcomment "\x7d".toList " it's (over".toList (by decide) (by decide) (by decide)
  · exact hcomment "case a(T), b".toList " case x, y".toList (by decide) (by decide) (by decide)
  · exact hcomment "".toList " , //".toList (by decide) (by decide) (by decide)
  · exact hcomment "case c".toList " \"d\", e)".toList (by decide) (by decide) (by decide)

end EnumLabels
