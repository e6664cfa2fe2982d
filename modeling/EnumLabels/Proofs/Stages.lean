import Mathlib.Data.List.Forall2

/-!
# Stages that can fail

An operation that runs stages one after another succeeds when all of them do, and otherwise fails
where the first of them fails. The same holds of one stage that is run for every item of a list.
-/

namespace EnumLabels

variable {ε α β : Type}

/-- Two stages fail where the first one fails or the second one does. -/
theorem error_of_bind {stage : Except ε α} {next : α → Except ε β} {e : ε}
    (h : stage >>= next = .error e) :
    stage = .error e ∨ ∃ a, stage = .ok a ∧ next a = .error e := by
  cases stage with
  | error e' => exact .inl (congrArg _ (Except.error.inj h))
  | ok a => exact .inr ⟨a, rfl, h⟩

/-- Two stages succeed when both do. -/
theorem ok_of_bind {stage : Except ε α} {next : α → Except ε β} {b : β}
    (h : stage >>= next = .ok b) : ∃ a, stage = .ok a ∧ next a = .ok b := by
  cases stage with
  | error e => contradiction
  | ok a => exact ⟨a, rfl, h⟩

/-- A stage fails for the same cause when its result is used further. -/
theorem error_of_map {stage : Except ε α} {f : α → β} {e : ε} (h : stage.map f = .error e) :
    stage = .error e := by
  cases stage with
  | error e' => exact congrArg _ (Except.error.inj h)
  | ok a => contradiction

/-- A function fails on a list where it first fails on an item, and for the same cause. -/
theorem exists_first_of_mapM_error {f : α → Except ε β} {items : List α} {e : ε}
    (h : items.mapM f = .error e) :
    ∃ before x after, items = before ++ x :: after ∧ f x = .error e ∧
      ∀ y ∈ before, ∃ b, f y = .ok b := by
  induction items with
  | nil => contradiction
  | cons x items ih =>
    rw [List.mapM_cons] at h
    rcases error_of_bind h with hx | ⟨y, hy, hrest⟩
    · exact ⟨[], x, items, rfl, hx, by simp⟩
    · rcases error_of_bind hrest with hitems | ⟨ys, -, hdone⟩
      · obtain ⟨before, z, after, rfl, hz, hbefore⟩ := ih hitems
        exact ⟨x :: before, z, after, rfl, hz, List.forall_mem_cons.mpr ⟨⟨y, hy⟩, hbefore⟩⟩
      · contradiction

/-- A function fails on a list exactly where it first fails on an item. -/
theorem mapM_eq_error_iff {f : α → Except ε β} {items : List α} {e : ε} :
    items.mapM f = .error e ↔
      ∃ before x after, items = before ++ x :: after ∧ f x = .error e ∧
        ∀ y ∈ before, ∃ b, f y = .ok b := by
  refine ⟨exists_first_of_mapM_error, ?_⟩
  rintro ⟨before, x, after, rfl, hx, hbefore⟩
  induction before with
  | nil =>
    rw [List.nil_append, List.mapM_cons, hx]
    rfl
  | cons y before ih =>
    obtain ⟨⟨b, hy⟩, hbefore⟩ := List.forall_mem_cons.mp hbefore
    rw [List.cons_append, List.mapM_cons, hy]
    change ((before ++ x :: after).mapM f >>= fun bs => pure (b :: bs)) = _
    rw [ih hbefore]
    rfl

/-- If a function fails on a list, it fails on an item for the same cause. -/
theorem exists_of_mapM_error {f : α → Except ε β} {items : List α} {e : ε}
    (h : items.mapM f = .error e) : ∃ x ∈ items, f x = .error e := by
  obtain ⟨before, x, after, rfl, hx, -⟩ := exists_first_of_mapM_error h
  exact ⟨x, List.mem_append_right _ List.mem_cons_self, hx⟩

/-- Functions that agree on every item of a list agree on the list. -/
theorem mapM_congr {f g : α → Except ε β} {items : List α} (h : ∀ x ∈ items, f x = g x) :
    items.mapM f = items.mapM g := by
  induction items with
  | nil => rfl
  | cons x items ih =>
    obtain ⟨hx, hitems⟩ := List.forall_mem_cons.mp h
    rw [List.mapM_cons, List.mapM_cons, hx, ih hitems]

/-- A function succeeds on a list with the results that it gives for the items, in their order. -/
theorem mapM_eq_ok_iff_forall₂ {f : α → Except ε β} {items : List α} {results : List β} :
    items.mapM f = .ok results ↔ List.Forall₂ (fun x y => f x = .ok y) items results := by
  induction items generalizing results with
  | nil =>
    rw [List.forall₂_nil_left_iff]
    constructor
    · intro h
      exact (Except.ok.inj h).symm
    · rintro rfl
      rfl
  | cons x items ih =>
    rw [List.mapM_cons]
    constructor
    · intro h
      obtain ⟨y, hy, hrest⟩ := ok_of_bind h
      obtain ⟨ys, hys, hdone⟩ := ok_of_bind hrest
      obtain rfl := Except.ok.inj hdone
      exact .cons hy (ih.mp hys)
    · intro h
      cases h with
      | cons hy hys =>
        rw [hy, ih.mpr hys]
        rfl

/-- If a function succeeds on a list, it succeeds on every item of it. -/
theorem exists_of_mapM_ok {f : α → Except ε β} {items : List α} {results : List β}
    (h : items.mapM f = .ok results) {x : α} (hx : x ∈ items) : ∃ y, f x = .ok y := by
  rw [mapM_eq_ok_iff_forall₂] at h
  induction h with
  | nil => simp at hx
  | cons hy _ ih =>
    rcases List.mem_cons.mp hx with rfl | hrest
    · exact ⟨_, hy⟩
    · exact ih hrest

/-- A function succeeds on a list if and only if it does on every item. -/
theorem exists_mapM_eq_ok_iff_forall {f : α → Except ε β} {items : List α} :
    (∃ results, items.mapM f = .ok results) ↔ ∀ x ∈ items, ∃ y, f x = .ok y := by
  refine ⟨fun ⟨results, h⟩ x hx => exists_of_mapM_ok h hx, fun h => ?_⟩
  cases hmap : items.mapM f with
  | ok results => exact ⟨results, rfl⟩
  | error e =>
    obtain ⟨x, hx, herror⟩ := exists_of_mapM_error hmap
    obtain ⟨y, hy⟩ := h x hx
    rw [hy] at herror
    contradiction

/-- A function succeeds on a list with the results of another if it gives each of them. -/
theorem mapM_eq_ok_iff {f : α → Except ε β} {g : α → β} {items : List α} :
    items.mapM f = .ok (items.map g) ↔ ∀ x ∈ items, f x = .ok (g x) := by
  rw [mapM_eq_ok_iff_forall₂, List.forall₂_map_right_iff, List.forall₂_same]

end EnumLabels
