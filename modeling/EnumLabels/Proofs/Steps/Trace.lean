import EnumLabels.Steps
import Mathlib.Data.ENat.Lattice
import Mathlib.Data.List.Nodup

/-!
# What a walk takes and what it asks

Step by step a step function leads from null to the cases of its chain, which ends before the first
null and may not end at all. A walk takes the first cases of the chain, as many as it is told to or
as there are. It asks for the case after null and after each case that it took, except that it does
not ask for more once it has enough. Null is the only value that ends a chain: zero, false and the
empty string are cases like others.
-/

namespace EnumLabels

/-- Null is the one case that counts as null. -/
theorem Case.isNull_eq_true_iff {c : Case} : c.isNull = true ↔ c = Case.null := by
  constructor
  · intro h
    unfold isNull at h
    split at h
    · rfl
    · contradiction
  · rintro rfl
    rfl

/-- The number of cases in the chain behind a case. It is infinite if the chain does not end. -/
noncomputable def chainLength (step : Case → Case) (previous : Case) : ℕ∞ :=
  ⨅ m ∈ {m : ℕ | step^[m + 1] previous = Case.null}, (m : ℕ∞)

section Chains

variable {step : Case → Case} {previous : Case}

/-- A chain is as long as there are steps that do not lead to null. -/
theorem le_chainLength_iff {n : ℕ} :
    (n : ℕ∞) ≤ chainLength step previous ↔ ∀ i < n, step^[i + 1] previous ≠ Case.null := by
  simp only [chainLength, Set.mem_ofPred_eq, le_iInf_iff, Nat.cast_le]
  constructor
  · intro h i hi hnull
    exact absurd hi (Nat.not_lt.mpr (h i hnull))
  · intro h i hnull
    exact Nat.not_lt.mp fun hi => h i hi hnull

/-- A chain has no case if the first step leads to null. -/
theorem chainLength_of_null (h : step previous = Case.null) : chainLength step previous = 0 := by
  rw [← Order.lt_one_iff, ← not_le, ← Nat.cast_one, le_chainLength_iff]
  exact fun hall => hall 0 Nat.one_pos h

/-- A chain has one case more than the chain behind its first case. -/
theorem chainLength_of_ne_null (h : step previous ≠ Case.null) :
    chainLength step previous = chainLength step (step previous) + 1 := by
  refine ENat.eq_of_forall_natCast_le_iff fun n => ?_
  cases n with
  | zero => simp
  | succ n =>
    rw [Nat.cast_succ, ENat.add_le_add_iff_right ENat.one_ne_top, ← Nat.cast_succ,
      le_chainLength_iff, le_chainLength_iff]
    constructor
    · intro hall i hi
      exact hall (i + 1) (Nat.succ_lt_succ hi)
    · intro hall i hi
      cases i with
      | zero => exact h
      | succ i => exact hall i (Nat.lt_of_succ_lt_succ hi)

/-- A chain does not end if a case of it comes again. -/
theorem chainLength_eq_top {i j : ℕ} (hlt : i < j) (hj : (j : ℕ∞) ≤ chainLength step previous)
    (hagain : step^[i] previous = step^[j] previous) : chainLength step previous = ⊤ := by
  by_contra hends
  obtain ⟨m, hm⟩ := ENat.ne_top_iff_exists.mp hends
  rw [← hm, Nat.cast_le] at hj
  have hall := le_chainLength_iff.mp hm.le
  -- As many steps lead from the earlier place to a case as lead from the later one to null.
  have hnull : step^[m + 1] previous = Case.null := by
    by_contra hne
    have hlonger : ((m + 1 : ℕ) : ℕ∞) ≤ chainLength step previous := by
      rw [le_chainLength_iff]
      intro k hk
      rcases Nat.lt_succ_iff_lt_or_eq.mp hk with hk | rfl
      · exact hall k hk
      · exact hne
    rw [← hm, Nat.cast_le] at hlonger
    omega
  obtain ⟨rest, hrest⟩ := Nat.exists_eq_add_of_le hj
  have hplace : i + rest < m := by omega
  apply hall (i + rest) hplace
  calc step^[i + rest + 1] previous
      = step^[rest + 1] (step^[i] previous) := by
        rw [← Function.iterate_add_apply, Nat.add_comm (rest + 1), Nat.add_assoc]
    _ = step^[rest + 1] (step^[j] previous) := by rw [hagain]
    _ = step^[m + 1] previous := by
        rw [← Function.iterate_add_apply, Nat.add_comm (rest + 1), ← Nat.add_assoc, hrest]
    _ = Case.null := hnull

end Chains

/-- A limit of one more admits one more of what is more by one. -/
theorem toNat_min_succ (n : ℕ) (m : ℕ∞) :
    (min ((n + 1 : ℕ) : ℕ∞) (m + 1)).toNat = (min (n : ℕ∞) m).toNat + 1 := by
  rw [Nat.cast_succ, min_add_add_right]
  exact ENat.toNat_add (ne_top_of_le_ne_top (ENat.natCast_ne_top n) (min_le_left _ _))
    ENat.one_ne_top

section Walks

variable {step : Case → Case} {previous : Case}

/-- A walk that may take a case asks once if there is none. -/
theorem walkSteps_of_null (h : step previous = Case.null) (n : ℕ) :
    walkSteps step (n + 1) previous = ⟨[], [previous]⟩ := by
  rw [walkSteps, Case.isNull_eq_true_iff.mpr h]
  rfl

/-- A walk that may take a case takes it if there is one, and goes on from there. -/
theorem walkSteps_of_ne_null (h : step previous ≠ Case.null) (n : ℕ) :
    walkSteps step (n + 1) previous =
      ⟨step previous :: (walkSteps step n (step previous)).cases,
        previous :: (walkSteps step n (step previous)).calls⟩ := by
  have hcase : (step previous).isNull = false :=
    Bool.eq_false_iff.mpr fun hnull => h (Case.isNull_eq_true_iff.mp hnull)
  rw [walkSteps, hcase]
  rfl

variable (step previous)

/-- A walk takes the first cases of a chain, as many as it may or as there are, and asks for the
cases after the one before the chain and after the first cases of it, once more than there are if it
may. -/
theorem walkSteps_eq (n : ℕ) :
    walkSteps step n previous =
      ⟨(List.range (min (n : ℕ∞) (chainLength step previous)).toNat).map
          fun i => step^[i + 1] previous,
        (List.range (min (n : ℕ∞) (chainLength step previous + 1)).toNat).map
          fun i => step^[i] previous⟩ := by
  induction n generalizing previous with
  | zero => simp [walkSteps]
  | succ n ih =>
    by_cases h : step previous = Case.null
    · rw [walkSteps_of_null h, chainLength_of_null h]
      simp
    · rw [walkSteps_of_ne_null h, ih, chainLength_of_ne_null h, toNat_min_succ, toNat_min_succ,
        List.range_succ_eq_map, List.range_succ_eq_map, List.map_cons, List.map_cons, List.map_map,
        List.map_map]
      rfl

/-- A walk asks for nothing but what follows the case that it begins at and the cases that it took,
in their order. -/
theorem calls_walkSteps (n : ℕ) :
    (walkSteps step n previous).calls =
      (previous :: (walkSteps step n previous).cases).take n := by
  induction n generalizing previous with
  | zero => rfl
  | succ n ih =>
    by_cases h : step previous = Case.null
    · rw [walkSteps_of_null h, List.take_succ_cons, List.take_nil]
    · rw [walkSteps_of_ne_null h, List.take_succ_cons, ih]

/-- A walk that may take one case more takes the same cases before it. -/
theorem cases_walkSteps_prefix (n : ℕ) :
    (walkSteps step n previous).cases <+: (walkSteps step (n + 1) previous).cases := by
  induction n generalizing previous with
  | zero => exact List.nil_prefix
  | succ n ih =>
    by_cases h : step previous = Case.null
    · rw [walkSteps_of_null h, walkSteps_of_null h]
    · rw [walkSteps_of_ne_null h, walkSteps_of_ne_null h, List.prefix_cons_inj]
      exact ih (step previous)

/-- A walk never takes null. -/
theorem null_notMem_walkSteps (n : ℕ) : Case.null ∉ (walkSteps step n previous).cases := by
  induction n generalizing previous with
  | zero => exact List.not_mem_nil
  | succ n ih =>
    by_cases h : step previous = Case.null
    · rw [walkSteps_of_null h]
      exact List.not_mem_nil
    · rw [walkSteps_of_ne_null h, List.mem_cons, not_or]
      exact ⟨Ne.symm h, ih (step previous)⟩

end Walks

/-- A walk from null takes the first cases of the chain, as many as it may or as there are, and the
arguments of its steps are null and the first cases, one more than there are if it may. The chain
goes on up to the first null, for ever if a case comes again. So a walk never takes null, it takes
the same cases and one more if it may take one more, and it passes back each case that it takes at
most once. -/
theorem walkSteps_follows_chain (step : Case → Case) :
    let c (i : ℕ) : Case := step^[i] Case.null
    let m : ℕ∞ := chainLength step Case.null
    (∀ n : ℕ, (n : ℕ∞) ≤ m ↔ ∀ i < n, c (i + 1) ≠ Case.null) ∧
    (∀ i j : ℕ, i < j → (j : ℕ∞) ≤ m → c i = c j → m = ⊤) ∧
    ∀ n : ℕ,
      let walk := walkSteps step n Case.null
      walk.cases = (List.range (min (n : ℕ∞) m).toNat).map (fun i => c (i + 1)) ∧
      walk.calls = (List.range (min (n : ℕ∞) (m + 1)).toNat).map c ∧
      Case.null ∉ walk.cases ∧
      walk.cases <+: (walkSteps step (n + 1) Case.null).cases ∧
      walk.calls = (Case.null :: walk.cases).take n ∧
      (walk.cases.Nodup → walk.calls.Nodup) := by
  intro c m
  refine ⟨fun n => le_chainLength_iff, fun i j => chainLength_eq_top, fun n => ?_⟩
  intro walk
  have hwalk : walk = _ := walkSteps_eq step Case.null n
  have hnull : Case.null ∉ walk.cases := null_notMem_walkSteps step Case.null n
  have hcalls : walk.calls = (Case.null :: walk.cases).take n := calls_walkSteps step Case.null n
  refine ⟨congrArg Walk.cases hwalk, congrArg Walk.calls hwalk, hnull,
    cases_walkSteps_prefix step Case.null n, hcalls, fun hnodup => ?_⟩
  rw [hcalls]
  exact (List.nodup_cons.mpr ⟨hnull, hnodup⟩).sublist (List.take_sublist _ _)

/-- Zero, false and the empty string do not end a walk. -/
example :
    let rows : StepTable := [(Case.null, .value (.int 0)), (.value (.int 0), .value (.bool false)),
      (.value (.bool false), .value (.str ""))]
    walkSteps rows.next 4 Case.null =
      ⟨[.value (.int 0), .value (.bool false), .value (.str "")],
        [Case.null, .value (.int 0), .value (.bool false), .value (.str "")]⟩ := by rfl

end EnumLabels
