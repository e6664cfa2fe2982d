import EnumLabels.Proofs.Scan.FirstBlock

/-!
# The block that is found

A block begins with the first case line from the line at which the search begins, and it goes on
up to the last line or to one that is neither a case line nor a filler line. The two conditions
leave at most one block. The search finds it, whatever the lines and the markers are, and finds
nothing only where there is no case line.
-/

namespace EnumLabels

/-- A block that begins with the first case line from a line on and goes on as far as it can. -/
structure Block.IsFirst (m : Markers) (lines : List Line) (cursor : Nat) (b : Block) : Prop where
  cursor_le : cursor ≤ b.first
  first_le_last : b.first ≤ b.last
  last_lt : b.last < lines.length
  isCase_first : ∃ line ∈ lines[b.first.toNat]?, line.isCase m = true
  isCase_above : ∀ k : Nat, cursor ≤ k → k < b.first → ∀ line ∈ lines[k]?, line.isCase m = false
  continues : ∀ k : Nat, b.first ≤ k → k ≤ b.last → ∀ line ∈ lines[k]?, m.continues line = true
  ended : ∀ line ∈ lines[b.last.toNat + 1]?, m.continues line = false

/-- From a line on there is no case line if none of the lines with a later number is one. -/
theorem forall_mem_drop_iff {m : Markers} {lines : List Line} {cursor : Nat} :
    (∀ line ∈ lines.drop cursor, line.isCase m = false) ↔
      ∀ k, cursor ≤ k → ∀ line ∈ lines[k]?, line.isCase m = false := by
  constructor
  · intro h k hk line hline
    refine h line (List.mem_iff_getElem?.mpr ⟨k - cursor, ?_⟩)
    rw [List.getElem?_drop, Nat.add_sub_cancel' hk]
    exact hline
  · intro h line hline
    obtain ⟨i, hi⟩ := List.mem_iff_getElem?.mp hline
    rw [List.getElem?_drop] at hi
    exact h (cursor + i) (Nat.le_add_right _ _) line hi

namespace Block

variable {m : Markers} {lines : List Line} {cursor : Nat} {b other : Block}

/-- A first block does not begin after another one, whose first line would be passed over. -/
theorem IsFirst.first_le (h : b.IsFirst m lines cursor) (hother : other.IsFirst m lines cursor) :
    b.first ≤ other.first := by
  by_contra hlt
  obtain ⟨line, hline, hcase⟩ := hother.isCase_first
  have hcursor := hother.cursor_le
  have habove := h.isCase_above other.first.toNat (by omega) (by omega) line hline
  rw [hcase] at habove
  contradiction

/-- A first block does not end after another one, whose end it would have to pass. -/
theorem IsFirst.last_le (h : b.IsFirst m lines cursor) (hother : other.IsFirst m lines cursor) :
    b.last ≤ other.last := by
  by_contra hlt
  have hfirst := h.first_le hother
  have hcursor := hother.cursor_le
  have hlast := hother.first_le_last
  have hlength := h.last_lt
  have hnext : other.last.toNat + 1 < lines.length := by omega
  have hline : lines[other.last.toNat + 1]? = some lines[other.last.toNat + 1] :=
    List.getElem?_eq_getElem hnext
  have hcontinues := h.continues (other.last.toNat + 1) (by omega) (by omega) _ hline
  rw [hother.ended _ hline] at hcontinues
  contradiction

/-- From a line on there is one first block at most. -/
theorem IsFirst.unique (h : b.IsFirst m lines cursor) (hother : other.IsFirst m lines cursor) :
    b = other := by
  have hfirst : b.first = other.first := Int.le_antisymm (h.first_le hother) (hother.first_le h)
  have hlast : b.last = other.last := Int.le_antisymm (h.last_le hother) (hother.last_le h)
  cases b
  cases other
  simp_all

/-- A first block is the first one from every line of the gap above it on. -/
theorem IsFirst.of_le (h : b.IsFirst m lines cursor) {later : Nat} (hcursor : cursor ≤ later)
    (hfirst : later ≤ b.first) : b.IsFirst m lines later where
  cursor_le := hfirst
  first_le_last := h.first_le_last
  last_lt := h.last_lt
  isCase_first := h.isCase_first
  isCase_above k hk := h.isCase_above k (hcursor.trans hk)
  continues := h.continues
  ended := h.ended

/-- A first block has at least one line and no more than there are, and its length is their number
if it can be counted. -/
theorem IsFirst.exists_length (h : b.IsFirst m lines cursor) :
    ∃ n : Nat, 1 ≤ n ∧ n ≤ lines.length ∧ b.last + 1 = b.first + n ∧
      (n < 0x8000000000000000 → b.length = .ok n) := by
  have hcursor := h.cursor_le
  have hlast := h.first_le_last
  have hlength := h.last_lt
  refine ⟨(b.last - b.first + 1).toNat, by omega, by omega, by omega, fun hn => ?_⟩
  rw [length, if_neg (by omega), if_neg (by omega)]

end Block

/-- Behind a gap, a case line and the lines that go on with it are a first block. -/
theorem isFirst_of_drop_eq {m : Markers} {lines gap body below : List Line} {first : Line}
    {cursor : Nat} (hahead : lines.drop cursor = gap ++ first :: (body ++ below))
    (hgap : ∀ line ∈ gap, line.isCase m = false) (hfirst : first.isCase m = true)
    (hbody : ∀ line ∈ body, m.continues line = true)
    (hbelow : ∀ line ∈ below.head?, m.continues line = false) :
    Block.IsFirst m lines cursor
      ⟨(cursor + gap.length : Nat), (cursor + gap.length + body.length : Nat)⟩ := by
  have hcount := congrArg List.length hahead
  simp only [List.length_drop, List.length_append, List.length_cons] at hcount
  have hget (k : Nat) : lines[cursor + k]? = (gap ++ first :: (body ++ below))[k]? := by
    rw [← hahead, List.getElem?_drop]
  have hrest (k : Nat) : lines[cursor + gap.length + k]? = (first :: (body ++ below))[k]? := by
    rw [Nat.add_assoc, hget, List.getElem?_append_right (Nat.le_add_right _ _),
      Nat.add_sub_cancel_left]
  constructor
  case cursor_le => exact Int.ofNat_le.mpr (Nat.le_add_right _ _)
  case first_le_last => exact Int.ofNat_le.mpr (Nat.le_add_right _ _)
  case last_lt =>
    simp only
    omega
  case isCase_first => exact ⟨first, hrest 0, hfirst⟩
  case isCase_above =>
    intro k hcursor hk line hline
    obtain ⟨i, rfl⟩ := Nat.exists_eq_add_of_le hcursor
    rw [hget, List.getElem?_append_left (Nat.lt_of_add_lt_add_left (Int.ofNat_lt.mp hk))] at hline
    exact hgap line (List.mem_of_getElem? hline)
  case continues =>
    intro k hk hlast line hline
    obtain ⟨i, rfl⟩ := Nat.exists_eq_add_of_le (Int.ofNat_le.mp hk)
    have hi : i ≤ body.length := Nat.le_of_add_le_add_left (Int.ofNat_le.mp hlast)
    rw [hrest] at hline
    cases i with
    | zero =>
      obtain rfl := Option.some.inj hline
      rw [Markers.continues, hfirst, Bool.true_or]
    | succ i =>
      rw [List.getElem?_cons_succ, List.getElem?_append_left hi] at hline
      exact hbody line (List.mem_of_getElem? hline)
  case ended =>
    intro line hline
    rw [Int.toNat_natCast, Nat.add_assoc, hrest, List.getElem?_cons_succ,
      List.getElem?_append_right (Nat.le_refl _), Nat.sub_self, ← List.head?_eq_getElem?] at hline
    exact hbelow line hline

/-- The block that is found is the first one, and a first block is found. -/
theorem locate?_eq_some_iff {m : Markers} {lines : List Line} {cursor : Nat} {b : Block} :
    locate? m lines cursor = some b ↔ b.IsFirst m lines cursor := by
  rcases m.exists_firstCase (lines.drop cursor) with
    hnone | ⟨gap, first, rest, hahead, hgap, hfirst⟩
  · rw [locate?_eq_none hnone]
    constructor
    · intro h
      contradiction
    · intro h
      obtain ⟨line, hline, hcase⟩ := h.isCase_first
      have hcursor := h.cursor_le
      rw [forall_mem_drop_iff.mp hnone _ (by omega) line hline] at hcase
      contradiction
  · rw [locate?_eq_some hahead hgap hfirst]
    rw [← List.takeWhile_append_dropWhile (p := m.continues) (l := rest)] at hahead
    have hbelow : ∀ line ∈ (rest.dropWhile m.continues).head?, m.continues line = false := by
      intro line hline
      simpa [Option.mem_def.mp hline] using List.head?_dropWhile_not m.continues rest
    have hfound := isFirst_of_drop_eq hahead hgap hfirst
      (fun line => List.mem_takeWhile_imp) hbelow
    constructor
    · intro h
      exact Option.some.inj h ▸ hfound
    · intro h
      rw [hfound.unique h]

/-- Nothing is found exactly if no line from the given one on is a case line. -/
theorem locate?_eq_none_iff {m : Markers} {lines : List Line} {cursor : Nat} :
    locate? m lines cursor = none ↔
      ∀ k, cursor ≤ k → ∀ line ∈ lines[k]?, line.isCase m = false := by
  rw [← forall_mem_drop_iff]
  simp [locate?]

/-- A search with settings finds the first block and nothing else. -/
theorem Settings.locate_eq_some_iff {s : Settings} {m : Markers} (hmarkers : s.markers = .ok m)
    {lines : List Line} {cursor : Nat} {b : Block} :
    s.locate lines cursor = .ok (some b) ↔ b.IsFirst m lines cursor := by
  rw [locate_of_markers hmarkers, Except.ok.injEq, locate?_eq_some_iff]

/-- A search with settings finds nothing exactly if no line from the given one on is a case line. -/
theorem Settings.locate_eq_none_iff {s : Settings} {lines : List Line} {cursor : Nat} :
    s.locate lines cursor = .ok none ↔ ∀ line ∈ lines.drop cursor, s.isCase line = .ok false := by
  rw [locate_eq_firstBlock, firstBlock_eq_none_iff]

/-- A search with options finds what it does with their markers. -/
theorem Options.locate_settings (o : Options) (lines : List Line) (cursor : Nat) :
    Settings.locate o lines cursor = .ok (locate? o.toMarkers lines cursor) :=
  Settings.locate_of_markers o.markers_settings lines cursor

/-- A search with options from a line whose number is not negative does not fail. -/
theorem Options.locateFrom_natCast (o : Options) (lines : List Line) (cursor : Nat) :
    Settings.locateFrom o lines cursor = .ok (locate? o.toMarkers lines cursor) := by
  have hlines : linesFrom? lines cursor = some (lines.drop cursor) := by
    rw [linesFrom?, if_pos (Int.natCast_nonneg _), Int.toNat_natCast]
  simp only [Settings.locateFrom, hlines, locate_settings, Except.map]
  rw [locate?, locate?, List.drop_zero, Option.map_map]
  congr 2
  funext k
  simp only [Function.comp_apply, Nat.zero_add, Int.natCast_add, Int.add_assoc]

/-- A search with options from a line whose number is not negative finds the first block. -/
theorem Options.locateFrom_eq_some_iff (o : Options) {lines : List Line} {cursor : Nat}
    {b : Block} :
    Settings.locateFrom o lines cursor = .ok (some b) ↔ b.IsFirst o.toMarkers lines cursor := by
  rw [locateFrom_natCast, Except.ok.injEq, locate?_eq_some_iff]

/-- The first block from a line on is found and nothing else, it has at least one line, and it is
the same block from every line of the gap above it. Nothing is found exactly if no line from there on
is a case line. -/
theorem locateFrom_finds_first_block (o : Options) (lines : List Line) (cursor : Nat) :
    (∃ found, Settings.locateFrom o lines cursor = .ok found) ∧
    (Settings.locateFrom o lines cursor = .ok none ↔
      ∀ k, cursor ≤ k → ∀ line ∈ lines[k]?, line.isCase o.toMarkers = false) ∧
    (∀ b, Settings.locateFrom o lines cursor = .ok (some b) ↔
      b.IsFirst o.toMarkers lines cursor) ∧
    ∀ b : Block, b.IsFirst o.toMarkers lines cursor →
      (∀ other, other.IsFirst o.toMarkers lines cursor → other = b) ∧
      (∃ n : Nat, 1 ≤ n ∧ n ≤ lines.length ∧ b.last + 1 = b.first + n ∧
        (n < 0x8000000000000000 → b.length = .ok n)) ∧
      ∀ later : Nat, cursor ≤ later → (later : Int) ≤ b.first →
        Settings.locateFrom o lines later = .ok (some b) := by
  refine ⟨⟨_, o.locateFrom_natCast lines cursor⟩, ?_, fun b => o.locateFrom_eq_some_iff,
    fun b hb => ⟨?_, ?_, ?_⟩⟩
  · rw [o.locateFrom_natCast, Except.ok.injEq, locate?_eq_none_iff]
  · intro other hother
    exact hother.unique hb
  · exact hb.exists_length
  · intro later hcursor hfirst
    exact o.locateFrom_eq_some_iff.mpr (hb.of_le hcursor hfirst)

/-- A block with a note in it is found from each of the two lines above it, and ends above a line
that is neither a case line nor a filler line. -/
theorem locateFrom_finds_first_block_behind_gap :
    let lines := ["import X", "enum E \x7b", "case a", " // note", "", "case b", "f()",
      "case c"].map String.toList
    Block.IsFirst Options.default.toMarkers lines 0 ⟨2, 5⟩ ∧
      Settings.locateFrom Options.default lines 1 = .ok (some ⟨2, 5⟩) ∧
      ∃ n : Nat, 1 ≤ n ∧ n ≤ 8 ∧ (5 : Int) + 1 = 2 + n ∧
        (n < 0x8000000000000000 → Block.length ⟨2, 5⟩ = .ok n) := by
  intro lines
  have hall := locateFrom_finds_first_block Options.default lines 0
  have hfirst : Block.IsFirst Options.default.toMarkers lines 0 ⟨2, 5⟩ :=
    (hall.2.2.1 ⟨2, 5⟩).mp (by rfl)
  have hblock := hall.2.2.2 ⟨2, 5⟩ hfirst
  exact ⟨hfirst, hblock.2.2 1 (by decide) (by decide), hblock.2.1⟩

end EnumLabels
