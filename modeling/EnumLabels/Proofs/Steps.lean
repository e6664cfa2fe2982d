import EnumLabels.Steps
import Mathlib.Data.List.Perm.Subperm

/-!
# Chains that end

A chain is what a step function leads to from a case, up to null. It is the only one from there, so
no case is in it twice: the chain would go on from both alike, and not end. The chain of a step
table therefore has no more cases than the table has rows, and walking one step more takes all of
it. If that step finds one case more, there is no chain.
-/

namespace EnumLabels

/-- The cases to which a step function leads from a case, up to null, which is no case. -/
inductive IsChain (step : Case → Case) : Case → List Case → Prop
  | done {previous : Case} : (step previous).isNull = true → IsChain step previous []
  | next {previous : Case} {cases : List Case} : (step previous).isNull = false →
      IsChain step (step previous) cases → IsChain step previous (step previous :: cases)

section Chains

variable {step : Case → Case} {previous : Case} {cases : List Case}

/-- A step function leads to one chain only. -/
theorem IsChain.unique {more : List Case} (h : IsChain step previous cases)
    (hmore : IsChain step previous more) : cases = more := by
  induction h generalizing more with
  | done hnull =>
    cases hmore with
    | done => rfl
    | next hcase => exact absurd hnull (by simp [hcase])
  | next hcase hrest ih =>
    cases hmore with
    | done hnull => exact absurd hnull (by simp [hcase])
    | next _ hmore => rw [ih hmore]

/-- From every case of a chain on, the rest of the chain is one. -/
theorem IsChain.of_append {before : List Case} {c : Case} {after : List Case}
    (h : IsChain step previous (before ++ c :: after)) : IsChain step c after := by
  induction before generalizing previous with
  | nil =>
    cases h with
    | next _ hrest => exact hrest
  | cons b before ih =>
    cases h with
    | next _ hrest => exact ih hrest

/-- No case is twice in a chain. -/
theorem IsChain.nodup (h : IsChain step previous cases) : cases.Nodup := by
  induction h with
  | done => exact List.nodup_nil
  | next hcase hrest ih =>
    refine List.nodup_cons.mpr ⟨fun hmem => ?_, ih⟩
    -- What follows the second place is a chain from the same case, and shorter.
    obtain ⟨before, after, heq⟩ := List.append_of_mem hmem
    rw [heq] at hrest
    have hsame := congrArg List.length (hrest.unique hrest.of_append)
    rw [List.length_append, List.length_cons] at hsame
    omega

/-- Walking more steps than a chain has cases takes all of the chain. -/
theorem walkSteps_of_isChain (h : IsChain step previous cases) {limit : Nat}
    (hlimit : cases.length < limit) : (walkSteps step limit previous).cases = cases := by
  induction h generalizing limit with
  | done hnull =>
    obtain ⟨limit, rfl⟩ := Nat.exists_eq_succ_of_ne_zero (Nat.ne_of_gt hlimit)
    simp [walkSteps, hnull]
  | next hcase _ ih =>
    obtain ⟨limit, rfl⟩ := Nat.exists_eq_succ_of_ne_zero (Nat.ne_of_gt (Nat.zero_lt_of_lt hlimit))
    simp [walkSteps, hcase, ih (Nat.lt_of_succ_lt_succ hlimit)]

/-- A walk that takes fewer cases than it may take has taken a chain. -/
theorem isChain_walkSteps {limit : Nat} (h : (walkSteps step limit previous).cases.length < limit) :
    IsChain step previous (walkSteps step limit previous).cases := by
  induction limit generalizing previous with
  | zero => contradiction
  | succ limit ih =>
    cases hnull : (step previous).isNull with
    | true =>
      simp only [walkSteps, hnull, if_true]
      exact .done hnull
    | false =>
      simp only [walkSteps, hnull, Bool.false_eq_true, if_false, List.length_cons] at h ⊢
      exact .next hnull (ih (Nat.lt_of_succ_lt_succ h))

end Chains

namespace StepTable

variable {rows : StepTable}

/-- A case to which a step table leads is in one of its rows. -/
theorem next_mem {previous : Case} (h : (rows.next previous).isNull = false) :
    rows.next previous ∈ rows.map (·.2) := by
  unfold next at h ⊢
  split
  · next row hrow => exact List.mem_map_of_mem (List.mem_of_find?_eq_some hrow)
  · next hnone =>
    rw [hnone] at h
    contradiction

/-- The cases of a chain are in the rows of its step table. -/
theorem subset_of_isChain {previous : Case} {cases : List Case}
    (h : IsChain rows.next previous cases) : cases ⊆ rows.map (·.2) := by
  induction h with
  | done => exact List.nil_subset _
  | next hcase _ ih => exact List.cons_subset.mpr ⟨next_mem hcase, ih⟩

/-- A chain has at most as many cases as its step table has rows. -/
theorem length_le_of_isChain {previous : Case} {cases : List Case}
    (h : IsChain rows.next previous cases) : cases.length ≤ rows.length := by
  rw [← rows.length_map (·.2)]
  exact (List.subperm_of_subset h.nodup (subset_of_isChain h)).length_le

/-- A chain that ends is the chain of its step table. -/
theorem chain_of_isChain {cases : List Case} (h : IsChain rows.next Case.null cases) :
    rows.chain = cases :=
  walkSteps_of_isChain h (Nat.lt_succ_of_le (length_le_of_isChain h))

/-- The chain of a step table is one unless it was cut off, behind one case too many. -/
theorem isChain_chain_iff :
    IsChain rows.next Case.null rows.chain ↔ rows.chain.length ≤ rows.length := by
  constructor
  · intro h
    exact length_le_of_isChain h
  · intro h
    exact isChain_walkSteps (Nat.lt_succ_of_le h)

end StepTable

end EnumLabels
