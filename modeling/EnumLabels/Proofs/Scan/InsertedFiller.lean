import EnumLabels.Proofs.Scan.Locality

/-!
# Filler lines change no label

A blank or comment line that is no case line may be inserted anywhere below the place where a
scan begins. In the gap before the block it is passed over, in the block it gives no label, right
behind the block it is counted to it, and further below nothing looks at it. Within a closure it
has to be free of braces. Only the lines below it, one of which an error may name, get the next
number.
-/

namespace EnumLabels

/-- The number that a line has after another one was inserted with number `p`. -/
def numberAfterInsert (p n : Int) : Int := if p ≤ n then n + 1 else n

/-- The lines below an inserted one get the next number. -/
theorem numberAfterInsert_of_le {p n : Int} (h : p ≤ n) : numberAfterInsert p n = n + 1 :=
  if_pos h

/-- The lines above an inserted one keep their numbers. -/
theorem numberAfterInsert_of_lt {p n : Int} (h : n < p) : numberAfterInsert p n = n :=
  if_neg (by omega)

/-- Consecutive lines are numbered one after the other. -/
theorem numberedFrom_append (number : Int) (lines more : List Line) :
    numberedFrom number (lines ++ more) =
      numberedFrom number lines ++ numberedFrom (number + lines.length) more := by
  induction lines generalizing number with
  | nil => simp [numberedFrom]
  | cons line lines ih =>
    have hnumber : number + 1 + (lines.length : Int) = number + ((line :: lines).length : Nat) := by
      rw [List.length_cons]
      omega
    simp only [List.cons_append, numberedFrom, ih, hnumber]

/-- A renumbering that moves the numbers in use by one amount numbers from a later line. -/
theorem map_numberedFrom (f : Int → Int) (number shift : Int) (lines : List Line)
    (h : ∀ k, number ≤ k → k < number + lines.length → f k = k + shift) :
    ((numberedFrom number lines).map fun n => (f n.1, n.2)) =
      numberedFrom (number + shift) lines := by
  induction lines generalizing number with
  | nil => rfl
  | cons line lines ih =>
    simp only [List.length_cons] at h
    have hrest := ih (number + 1) fun k hlow hhigh => h k (by omega) (by omega)
    simp only [numberedFrom, List.map_cons, hrest]
    rw [h number (Int.le_refl _) (by omega), Int.add_right_comm]

namespace Markers

variable {m : Markers} {inserted : Line}

/-- A filler line among numbered lines gives no label. -/
theorem labelsOf_insert (hfiller : inserted.isFiller m = true) (number : Int)
    (front back : List (Int × Line)) :
    labelsOf m (front ++ (number, inserted) :: back) = labelsOf m (front ++ back) := by
  induction front with
  | nil => simp only [List.nil_append, labelsOf, hfiller, if_true]
  | cons n front ih => simp only [List.cons_append, labelsOf, ih]

/-- A filler line among the lines of a block gives no label and moves the lines below it. -/
theorem labelsOf_numberedFrom_insert (hfiller : inserted.isFiller m = true) (number : Int)
    (front back : List Line) :
    Renumbered (numberAfterInsert (number + front.length))
      (labelsOf m (numberedFrom number (front ++ back)))
      (labelsOf m (numberedFrom number (front ++ inserted :: back))) := by
  have hfront := map_numberedFrom (numberAfterInsert (number + front.length)) number 0 front
    fun k _ hk => by rw [numberAfterInsert_of_lt hk, Int.add_zero]
  have hback := map_numberedFrom (numberAfterInsert (number + front.length))
    (number + front.length) 1 back fun k hk _ => numberAfterInsert_of_le hk
  rw [Int.add_zero] at hfront
  have hrenumbered := labelsOf_renumbered (numberAfterInsert (number + front.length)) m
    (numberedFrom number (front ++ back))
  rw [numberedFrom_append number front back, List.map_append, hfront, hback] at hrenumbered
  rw [numberedFrom_append number front back, numberedFrom_append number front (inserted :: back),
    numberedFrom, labelsOf_insert hfiller]
  exact hrenumbered

/-- A block goes on through a filler line that is inserted into it, and a line that is inserted
behind its end does not belong to it. -/
theorem takeWhile_insert (hinserted : m.continues inserted = true) (front back : List Line) :
    ((front ++ back).takeWhile m.continues = front ++ back.takeWhile m.continues ∧
        (front ++ inserted :: back).takeWhile m.continues =
          front ++ inserted :: back.takeWhile m.continues) ∨
      ((front.takeWhile m.continues).length < front.length ∧
        (front ++ back).takeWhile m.continues = front.takeWhile m.continues ∧
        (front ++ inserted :: back).takeWhile m.continues = front.takeWhile m.continues) := by
  by_cases hfront : ∀ line ∈ front, m.continues line = true
  · refine .inl ⟨List.takeWhile_append_of_pos hfront, ?_⟩
    rw [List.takeWhile_append_of_pos hfront, List.takeWhile_cons_of_pos hinserted]
  · have hshort : (front.takeWhile m.continues).length ≠ front.length := by
      intro hlength
      have hall : front.takeWhile m.continues = front :=
        (List.takeWhile_prefix _).eq_of_length hlength
      exact hfront (List.takeWhile_eq_self_iff.mp hall)
    refine .inr ⟨?_, ?_, ?_⟩
    · exact lt_of_le_of_ne (List.takeWhile_prefix _).length_le hshort
    · rw [List.takeWhile_append, if_neg hshort]
    · rw [List.takeWhile_append, if_neg hshort]

/-- Reading from another number changes the number in an error as it moves the lines below. -/
theorem read_renumbered_of_le {f : Int → Int} {number shift : Int}
    (h : ∀ k, number ≤ k → f k = k + shift) (lines : List Line) :
    Renumbered f (m.read number lines) (m.read (number + shift) lines) := by
  have hblock := map_numberedFrom f (number + (m.gap lines).length) shift (m.block lines)
    fun k hk _ => h k (by omega)
  rw [read, read, Int.add_right_comm, ← hblock]
  exact labelsOf_renumbered f m _

/-- Reading takes the same labels from lines into which a filler line is inserted. -/
theorem read_insert (hfiller : inserted.isFiller m = true) (hcase : inserted.isCase m = false)
    (number : Int) (front back : List Line) :
    Renumbered (numberAfterInsert (number + front.length)) (m.read number (front ++ back))
      (m.read number (front ++ inserted :: back)) := by
  induction front generalizing number with
  | nil =>
    rw [List.nil_append, List.nil_append, read_cons hcase]
    refine read_renumbered_of_le (fun k hk => numberAfterInsert_of_le ?_) back
    simpa using hk
  | cons line front ih =>
    have hnumber : number + ((line :: front).length : Nat) = number + 1 + (front.length : Int) := by
      rw [List.length_cons]
      omega
    rw [hnumber, List.cons_append, List.cons_append]
    cases hline : line.isCase m with
    | false =>
      rw [read_cons hline, read_cons hline]
      exact ih (number + 1)
    | true =>
      rw [read_cons_of_isCase hline, read_cons_of_isCase hline, ← hnumber]
      have hinserted : m.continues inserted = true := by
        rw [continues, hfiller, Bool.or_true]
      rcases takeWhile_insert hinserted front back with
        ⟨hshort, hlong⟩ | ⟨hlength, hshort, hlong⟩
      · rw [hshort, hlong]
        exact labelsOf_numberedFrom_insert hfiller number (line :: front) _
      · -- The block ends above the inserted line, so the same lines keep their numbers.
        rw [hshort, hlong]
        have hsame := map_numberedFrom
          (numberAfterInsert (number + ((line :: front).length : Nat))) number 0
          (line :: front.takeWhile m.continues) fun k _ hk => by
            rw [numberAfterInsert_of_lt, Int.add_zero]
            simp only [List.length_cons] at hk ⊢
            omega
        rw [Int.add_zero] at hsame
        have hrenumbered := labelsOf_renumbered
          (numberAfterInsert (number + ((line :: front).length : Nat))) m
          (numberedFrom number (line :: front.takeWhile m.continues))
        rwa [hsame] at hrenumbered

end Markers

section Closure

variable {braces : Braces} {inserted : Line} (hopen : ∀ c ∈ inserted, braces.opening ≠ some c)
  (hclose : ∀ c ∈ inserted, braces.closing ≠ some c)

include hopen hclose

/-- A line without braces moves the closing line if it is inserted above it. -/
theorem closingLine?_insert {n : Nesting} (hn : n.isClosed = false) (index : Nat)
    (front back : List Line) :
    closingLine? braces n index (front ++ inserted :: back) =
      (closingLine? braces n index (front ++ back)).map fun k =>
        if index + front.length ≤ k then k + 1 else k := by
  induction front generalizing n index with
  | nil =>
    simp only [List.nil_append, closingLine?, Nesting.readLine?_eq_self hn hopen hclose]
    rw [closingLine?_add]
    refine Option.map_congr fun k hk => ?_
    rw [if_pos (by simpa using (closingLine?_bounds braces hk).1)]
  | cons line front ih =>
    simp only [List.cons_append, closingLine?, List.length_cons]
    cases hline : n.readLine? braces line with
    | none =>
      have hlt : ¬ index + (front.length + 1) ≤ index := by omega
      simp only [Option.map_some, if_neg hlt]
    | some n' =>
      have hlength : index + 1 + front.length = index + (front.length + 1) := by omega
      simp only
      rw [ih (Nesting.isClosed_of_readLine? hn hline), hlength]

/-- A line without braces moves the end of the skipped closure if it is inserted above it. -/
theorem skipClosure_insert_line {front : List Line} {line : Int}
    (hstart : (line - 1).toNat ≤ front.length) (back : List Line) :
    skipClosure braces (front ++ inserted :: back) line =
      if front.length ≤ skipClosure braces (front ++ back) line then
        skipClosure braces (front ++ back) line + 1
      else skipClosure braces (front ++ back) line := by
  have hlength : (line - 1).toNat + (front.drop (line - 1).toNat).length = front.length := by
    rw [List.length_drop]
    omega
  rw [skipClosure, skipClosure, List.drop_append_of_le_length hstart,
    List.drop_append_of_le_length hstart, closingLine?_insert hopen hclose rfl, hlength]
  cases closingLine? braces .start (line - 1).toNat (front.drop (line - 1).toNat ++ back) with
  | none =>
    have hle : front.length ≤ (front ++ back).length := by simp
    rw [Option.map_none, Option.getD_none, Option.getD_none, if_pos hle]
    simp only [List.length_append, List.length_cons]
    omega
  | some k => rfl

end Closure

/-- A scan that begins above an inserted filler line takes the same labels. -/
theorem Options.scan_insert_below (o : Options) {front back : List Line} {inserted : Line}
    {line : Int} (hline : 0 ≤ line) {skip : Option Bool}
    (hfiller : inserted.isFiller o.toMarkers = true) (hcase : inserted.isCase o.toMarkers = false)
    (hstart : scanStart o (front ++ back) line skip ≤ front.length)
    (hsame : scanStart o (front ++ inserted :: back) line skip =
      scanStart o (front ++ back) line skip) :
    Renumbered (numberAfterInsert front.length) (scan o (front ++ back) line skip)
      (scan o (front ++ inserted :: back) line skip) := by
  rw [o.scan_eq_read _ hline, o.scan_eq_read _ hline, hsame, List.drop_append_of_le_length hstart,
    List.drop_append_of_le_length hstart]
  have hread := Markers.read_insert hfiller hcase (scanStart o (front ++ back) line skip : Int)
    (front.drop (scanStart o (front ++ back) line skip)) back
  have hlength : ((scanStart o (front ++ back) line skip : Nat) : Int) +
      ((front.drop (scanStart o (front ++ back) line skip)).length : Nat) = front.length := by
    rw [List.length_drop]
    omega
  rwa [hlength] at hread

/-- A scan that begins below an inserted line begins one line later and takes the same labels. -/
theorem Options.scan_insert_above (o : Options) {front back : List Line} {inserted : Line}
    {line : Int} (hline : 0 ≤ line) {skip : Option Bool}
    (hstart : front.length ≤ scanStart o (front ++ back) line skip)
    (hnext : scanStart o (front ++ inserted :: back) line skip =
      scanStart o (front ++ back) line skip + 1) :
    Renumbered (numberAfterInsert front.length) (scan o (front ++ back) line skip)
      (scan o (front ++ inserted :: back) line skip) := by
  rw [o.scan_eq_read _ hline, o.scan_eq_read _ hline, hnext]
  generalize scanStart o (front ++ back) line skip = start at hstart
  obtain ⟨more, rfl⟩ := Nat.exists_eq_add_of_le hstart
  have hdrop : (front ++ inserted :: back).drop (front.length + more + 1) =
      (front ++ back).drop (front.length + more) := by
    rw [Nat.add_assoc, List.drop_length_add_append, List.drop_length_add_append,
      List.drop_succ_cons]
  rw [hdrop, Int.natCast_succ]
  exact Markers.read_renumbered_of_le (fun k hk => numberAfterInsert_of_le (by omega)) _

/-- A filler line that is no case line and, if a closure is skipped, holds no brace may be inserted
anywhere below the place where a scan begins. It changes nothing but the number in an error, which
it moves if it stands above the line that the error names. -/
theorem scan_insert_filler (o : Options) (lines : List Line) (line : Int) (hline : 0 ≤ line)
    (skip : Option Bool) (p : Nat) (habove : o.linesAbove line skip ≤ p) (hp : p ≤ lines.length)
    (inserted : Line) (hfiller : inserted.isFiller o.toMarkers = true)
    (hcase : inserted.isCase o.toMarkers = false)
    (hbraces : skip.getD o.skipsClosures = true →
      o.openBrace ∉ inserted ∧ o.closeBrace ∉ inserted) :
    Renumbered (numberAfterInsert p) (scan o lines line skip)
      (scan o (lines.take p ++ inserted :: lines.drop p) line skip) := by
  have hlines : lines = lines.take p ++ lines.drop p := (List.take_append_drop p lines).symm
  have hlength : p = (lines.take p).length := by
    rw [List.length_take]
    omega
  generalize lines.take p = front at hlines hlength
  generalize lines.drop p = back at hlines
  subst hlines hlength
  cases hskip : skip.getD o.skipsClosures with
  | false =>
    have hstart (more : List Line) : scanStart o (front ++ more) line skip = line.toNat :=
      o.scanStart_notSkipping _ _ hskip
    rw [Options.linesAbove, hskip] at habove
    refine o.scan_insert_below hline hfiller hcase ?_ ?_
    · rw [hstart]
      exact habove
    · rw [hstart, hstart]
  | true =>
    have hstart (more : List Line) :
        scanStart o (front ++ more) line skip = skipClosure o.braces (front ++ more) line :=
      o.scanStart_skipping _ _ hskip
    rw [Options.linesAbove, hskip] at habove
    obtain ⟨hopen, hclose⟩ := hbraces hskip
    have hopening : ∀ c ∈ inserted, o.braces.opening ≠ some c :=
      fun c hc heq => hopen (Option.some.inj heq ▸ hc)
    have hclosing : ∀ c ∈ inserted, o.braces.closing ≠ some c :=
      fun c hc heq => hclose (Option.some.inj heq ▸ hc)
    have hmoved := skipClosure_insert_line hopening hclosing habove back
    rcases Nat.lt_or_ge (skipClosure o.braces (front ++ back) line) front.length with hlt | hge
    · rw [if_neg (by omega)] at hmoved
      refine o.scan_insert_below hline hfiller hcase ?_ ?_
      · rw [hstart]
        omega
      · rw [hstart, hstart, hmoved]
    · rw [if_pos hge] at hmoved
      refine o.scan_insert_above hline ?_ ?_
      · rw [hstart]
        exact hge
      · rw [hstart, hstart, hmoved]

/-- A note above a case without a name moves that case in the error by one line. -/
theorem scan_insert_note :
    let lines := ["Gen \x7b", "\x7d", "case a", "case", "\x7d"].map String.toList
    scan Options.default lines 1 none = .error (.unnamedCase 3 "case") ∧
      scan Options.default (lines.take 3 ++ "  // note".toList :: lines.drop 3) 1 none =
        .error (.unnamedCase 4 "case") := by
  intro lines
  have hscan : scan Options.default lines 1 none = .error (.unnamedCase 3 "case") := by
    rw [Options.scan_eq_read _ _ (by decide)]
    rfl
  have hinsert := scan_insert_filler Options.default lines 1 (by decide) none 3 (by decide)
    (by decide) "  // note".toList (by decide) (by decide) (by decide)
  rw [hscan] at hinsert
  generalize scan Options.default (lines.take 3 ++ "  // note".toList :: lines.drop 3) 1 none =
    outcome at hinsert
  cases hinsert
  exact ⟨hscan, rfl⟩

end EnumLabels
