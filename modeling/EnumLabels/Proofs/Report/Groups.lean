import EnumLabels.Report
import Mathlib.Data.List.Infix

/-!
# Commas outside the groups of a line

Before a report looks for a comma in a line it removes the groups in round brackets, but only those
that hold no other bracket. A comma is left exactly if it does not stand in such a group. In a line
with balanced brackets these are the commas outside all brackets and those in a group that holds
another one.
-/

namespace EnumLabels.Line

/-- A text without quotes in front keeps its place when quoted values are removed. -/
theorem withoutQuoted_append {text : List Char} (h : ∀ c ∈ text, c ≠ '\'' ∧ c ≠ '"')
    (more : List Char) : withoutQuoted (text ++ more) = text ++ withoutQuoted more := by
  induction text with
  | nil => rfl
  | cons c rest ih =>
    obtain ⟨hc, hrest⟩ := List.forall_mem_cons.mp h
    rw [List.cons_append, withoutQuoted, if_neg (not_or.mpr hc), ih hrest, List.cons_append]

/-- A text without quotes has no quoted values. -/
theorem withoutQuoted_eq_self {text : List Char} (h : ∀ c ∈ text, c ≠ '\'' ∧ c ≠ '"') :
    withoutQuoted text = text := by
  have happend := withoutQuoted_append h []
  rwa [List.append_nil, withoutQuoted, List.append_nil] at happend

/-- A text without round brackets. -/
def IsFlat (text : List Char) : Prop := ∀ c ∈ text, c ≠ '(' ∧ c ≠ ')'

/-- A text without brackets that a closing bracket follows is a group behind its opening bracket. -/
theorem afterGroup?_append {inner : List Char} (h : IsFlat inner) (after : List Char) :
    afterGroup? (inner ++ ')' :: after) = some after := by
  induction inner with
  | nil => rfl
  | cons c inner ih =>
    obtain ⟨⟨hopen, hclose⟩, hinner⟩ := List.forall_mem_cons.mp h
    rw [List.cons_append, afterGroup?, if_neg hclose, if_neg hopen, ih hinner]

/-- A group ends at the first closing bracket, before which there is no other bracket. -/
theorem exists_of_afterGroup? {text after : List Char} (h : afterGroup? text = some after) :
    ∃ inner, IsFlat inner ∧ text = inner ++ ')' :: after := by
  induction text with
  | nil => contradiction
  | cons c rest ih =>
    rw [afterGroup?] at h
    split at h
    · next hclose =>
      obtain rfl := Option.some.inj h
      exact ⟨[], by simp [IsFlat], congrArg (· :: rest) hclose⟩
    · next hclose =>
      split at h
      · contradiction
      · next hopen =>
        obtain ⟨inner, hinner, rfl⟩ := ih h
        exact ⟨c :: inner, List.forall_mem_cons.mpr ⟨⟨hopen, hclose⟩, hinner⟩, rfl⟩

/-- A text that ends within a group: behind its last bracket, which is an opening one. -/
def OpensGroup (front : List Char) : Prop :=
  ∃ outer inner, IsFlat inner ∧ front = outer ++ '(' :: inner

/-- A text that begins within a group: before its first bracket, which is a closing one. -/
def ClosesGroup (back : List Char) : Prop :=
  ∃ inner after, IsFlat inner ∧ back = inner ++ ')' :: after

/-- The place between two parts of a text lies in a group that holds no other bracket. -/
def InGroup (front back : List Char) : Prop := OpensGroup front ∧ ClosesGroup back

/-- One more character in front of a text opens a group if it is an opening bracket before a text
without brackets. -/
theorem opensGroup_cons_iff {c : Char} {front : List Char} :
    OpensGroup (c :: front) ↔ OpensGroup front ∨ c = '(' ∧ IsFlat front := by
  constructor
  · rintro ⟨outer, inner, hinner, heq⟩
    cases outer with
    | nil =>
      obtain ⟨rfl, rfl⟩ := List.cons.inj heq
      exact .inr ⟨rfl, hinner⟩
    | cons d outer =>
      obtain ⟨rfl, rfl⟩ := List.cons.inj heq
      exact .inl ⟨outer, inner, hinner, rfl⟩
  · rintro (⟨outer, inner, hinner, rfl⟩ | ⟨rfl, hflat⟩)
    · exact ⟨c :: outer, inner, hinner, rfl⟩
    · exact ⟨[], front, hflat, rfl⟩

/-- Behind a closing bracket it makes no difference to a text which brackets stand before. -/
theorem opensGroup_append_close_iff (before front : List Char) :
    OpensGroup (before ++ ')' :: front) ↔ OpensGroup front := by
  induction before with
  | nil =>
    rw [List.nil_append, opensGroup_cons_iff]
    simp
  | cons c before ih =>
    have hbracket : ¬ IsFlat (before ++ ')' :: front) := fun hflat =>
      (hflat ')' (by simp)).2 rfl
    rw [List.cons_append, opensGroup_cons_iff, ih]
    simp [hbracket]

/-- The commas of a text at which a condition holds of what stands before and behind them are its
first character and those of the rest. -/
theorem exists_comma_cons_iff {p : List Char → List Char → Prop} {c : Char} {rest : List Char} :
    (∃ front back, c :: rest = front ++ ',' :: back ∧ p front back) ↔
      c = ',' ∧ p [] rest ∨ ∃ front back, rest = front ++ ',' :: back ∧ p (c :: front) back := by
  constructor
  · rintro ⟨front, back, heq, hp⟩
    cases front with
    | nil =>
      obtain ⟨rfl, rfl⟩ := List.cons.inj heq
      exact .inl ⟨rfl, hp⟩
    | cons d front =>
      obtain ⟨rfl, rfl⟩ := List.cons.inj heq
      exact .inr ⟨front, back, rfl, hp⟩
  · rintro (⟨rfl, hp⟩ | ⟨front, back, rfl, hp⟩)
    · exact ⟨[], rest, rfl, hp⟩
    · exact ⟨c :: front, back, rfl, hp⟩

/-- A comma in a group is not left, and behind the group it makes no difference which brackets stand
before. -/
theorem exists_comma_group_iff {inner : List Char} (hinner : IsFlat inner) (after : List Char) :
    (∃ front back, '(' :: (inner ++ ')' :: after) = front ++ ',' :: back ∧ ¬ InGroup front back) ↔
      ∃ front back, after = front ++ ',' :: back ∧ ¬ InGroup front back := by
  constructor
  · rintro ⟨front, back, heq, hleft⟩
    rw [← List.cons_append] at heq
    rcases List.append_eq_append_iff.mp heq with ⟨between, rfl, hbehind⟩ | ⟨between, hgroup, hback⟩
    · cases between with
      | nil => exact absurd (List.cons.inj hbehind).1 (by decide)
      | cons d front =>
        obtain ⟨rfl, rfl⟩ := List.cons.inj hbehind
        rw [InGroup, opensGroup_append_close_iff] at hleft
        exact ⟨front, back, rfl, hleft⟩
    · -- The comma stands between the two brackets of the group.
      cases between with
      | nil => exact absurd (List.cons.inj hback).1 (by decide)
      | cons d between =>
        obtain ⟨rfl, rfl⟩ := List.cons.inj hback
        cases front with
        | nil => exact absurd (List.cons.inj hgroup).1 (by decide)
        | cons d front =>
          obtain ⟨rfl, rfl⟩ := List.cons.inj hgroup
          have hparts := List.forall_mem_append.mp hinner
          exact absurd ⟨⟨[], front, hparts.1, rfl⟩,
            ⟨between, after, (List.forall_mem_cons.mp hparts.2).2, rfl⟩⟩ hleft
  · rintro ⟨front, back, rfl, hleft⟩
    refine ⟨'(' :: (inner ++ ')' :: front), back, by simp, ?_⟩
    rwa [InGroup, ← List.cons_append, opensGroup_append_close_iff]

/-- A comma is left of a text without its groups exactly if it stands outside of them. -/
theorem mem_withoutGroups_iff (text : List Char) :
    ',' ∈ withoutGroups text ↔
      ∃ front back, text = front ++ ',' :: back ∧ ¬ InGroup front back := by
  have hempty : ¬ OpensGroup [] := by simp [OpensGroup]
  fun_induction withoutGroups text with
  | case1 => simp
  | case2 rest after h hshorter ih =>
    obtain ⟨inner, hinner, rfl⟩ := exists_of_afterGroup? h
    exact ih.trans (exists_comma_group_iff hinner after).symm
  | case3 rest h ih =>
    rw [List.mem_cons, exists_comma_cons_iff]
    refine or_congr (by simp) (ih.trans (exists_congr fun front => exists_congr fun back =>
      and_congr_right fun hrest => not_congr ?_))
    rw [InGroup, InGroup, opensGroup_cons_iff]
    constructor
    · exact fun hin => ⟨.inl hin.1, hin.2⟩
    · rintro ⟨hopens | ⟨-, hfront⟩, hcloses⟩
      · exact ⟨hopens, hcloses⟩
      · -- Otherwise the opening bracket would begin a group.
        obtain ⟨inner, after, hinner, rfl⟩ := hcloses
        have hflat : IsFlat (front ++ ',' :: inner) :=
          List.forall_mem_append.mpr ⟨hfront, List.forall_mem_cons.mpr ⟨by decide, hinner⟩⟩
        rw [hrest, ← List.cons_append, ← List.append_assoc, afterGroup?_append hflat] at h
        contradiction
  | case4 c rest h ih =>
    rw [List.mem_cons, exists_comma_cons_iff]
    refine or_congr ?_ (ih.trans (exists_congr fun front => exists_congr fun back =>
      and_congr_right fun hrest => not_congr ?_))
    · simp [InGroup, hempty, eq_comm]
    · simp [InGroup, opensGroup_cons_iff, h]

/-- Characters that are no brackets neither end a group nor belong to one that is ended before. -/
theorem afterGroup?_append_flat {tail : List Char} (h : IsFlat tail) (text : List Char) :
    afterGroup? (text ++ tail) = (afterGroup? text).map (· ++ tail) := by
  induction text with
  | nil =>
    cases hafter : afterGroup? tail with
    | none => exact hafter
    | some after =>
      obtain ⟨inner, -, rfl⟩ := exists_of_afterGroup? hafter
      exact absurd rfl (h ')' (by simp)).2
  | cons c rest ih =>
    rw [List.cons_append, afterGroup?, afterGroup?]
    split
    · rfl
    · split
      · rfl
      · exact ih

/-- At an opening bracket a group is removed, unless none begins there. -/
theorem withoutGroups_open (rest : List Char) :
    withoutGroups ('(' :: rest) =
      match afterGroup? rest with
      | some after => withoutGroups after
      | none => '(' :: withoutGroups rest := by
  rw [withoutGroups, if_pos rfl]
  split
  · next after h => simp only [h]
  · next h => simp only [h]

/-- Characters that are no brackets keep their place behind a text whose groups are removed. -/
theorem withoutGroups_append_flat {tail : List Char} (h : IsFlat tail) (text : List Char) :
    withoutGroups (text ++ tail) = withoutGroups text ++ tail := by
  fun_induction withoutGroups text with
  | case1 =>
    induction tail with
    | nil => rw [List.append_nil, withoutGroups]
    | cons c tail ih =>
      obtain ⟨hc, htail⟩ := List.forall_mem_cons.mp h
      rw [List.nil_append, withoutGroups, if_neg hc.1]
      exact congrArg _ (ih htail)
  | case2 rest after hafter hshorter ih =>
    rw [List.cons_append, withoutGroups_open, afterGroup?_append_flat h, hafter]
    exact ih
  | case3 rest hafter ih =>
    rw [List.cons_append, withoutGroups_open, afterGroup?_append_flat h, hafter]
    exact congrArg _ ih
  | case4 c rest hc ih =>
    rw [List.cons_append, withoutGroups, if_neg hc]
    exact congrArg _ ih

end EnumLabels.Line
