import Mathlib.Order.Bounds.Basic
import ScenarioSampling.Proofs.Faults

/-!
# Penalties are distances

How far a comparison is from holding is the least number of steps by which its left side has to
move, up or down. The penalty is that distance, cut at the largest 64-bit count
(`penalty_is_repair_distance`). Between 64-bit integers the cut is met in two cases only, where a
strict comparison has to cross the whole range and one step more (`gap_cut_iff`).
-/

namespace ScenarioSampling

namespace Comparison

/-- How far the left side can move, in either direction, for the comparison to hold. -/
def repairs (c : Comparison) (lhs rhs : Int) : Set Nat :=
  {n | ∃ k : Int, k.natAbs = n ∧ c.Holds (lhs + k) rhs}

variable (c : Comparison) {lhs rhs lhs' rhs' : Int}

theorem holds_iff : c.holds lhs rhs = true ↔ c.Holds lhs rhs := by
  cases c <;> simp [holds, Holds]

/-- Moving the left side by the gap, down or up, mends a comparison. -/
theorem gap_mem_repairs (lhs rhs : Int) : c.gap lhs rhs ∈ c.repairs lhs rhs := by
  cases c with
  | eq => exact ⟨rhs - lhs, by simp only [gap]; omega, by simp only [Holds]; omega⟩
  | ne =>
    by_cases h : lhs = rhs
    · exact ⟨1, by simp [gap, h], by simp [Holds, h]⟩
    · exact ⟨0, by simp [gap, h], by simpa [Holds] using h⟩
  | lt => exact ⟨-(gap lt lhs rhs : Int), by simp, by simp only [gap, Holds]; omega⟩
  | le => exact ⟨-(gap le lhs rhs : Int), by simp, by simp only [gap, Holds]; omega⟩
  | gt => exact ⟨gap gt lhs rhs, by simp, by simp only [gap, Holds]; omega⟩
  | ge => exact ⟨gap ge lhs rhs, by simp, by simp only [gap, Holds]; omega⟩

theorem gap_le_of_repairs {n : Nat} (h : n ∈ c.repairs lhs rhs) : c.gap lhs rhs ≤ n := by
  obtain ⟨k, rfl, hk⟩ := h
  cases c with
  | ne =>
    simp only [Holds] at hk
    simp only [gap]
    split_ifs <;> omega
  | eq | lt | le | gt | ge =>
    simp only [Holds] at hk
    simp only [gap]
    omega

theorem gap_isLeast (lhs rhs : Int) : IsLeast (c.repairs lhs rhs) (c.gap lhs rhs) :=
  ⟨c.gap_mem_repairs lhs rhs, fun _ h => c.gap_le_of_repairs h⟩

/-- Of two violations, the one with its sides further apart is further from holding. -/
theorem gap_mono (h : ¬ c.Holds lhs rhs) (h' : ¬ c.Holds lhs' rhs')
    (hle : (lhs - rhs).natAbs ≤ (lhs' - rhs').natAbs) : c.gap lhs rhs ≤ c.gap lhs' rhs' := by
  cases c with
  | ne =>
    simp only [Holds, Decidable.not_not] at h h'
    simp [gap, h, h']
  | eq | lt | le | gt | ge =>
    simp only [Holds] at h h'
    simp only [gap]
    omega

/-- Two 64-bit integers are too far apart at the two ends of their range only, and by one step. -/
theorem gap_cut_iff (hl : IntFormat.int64.Fits lhs) (hr : IntFormat.int64.Fits rhs) :
    maxCount < c.gap lhs rhs
      ↔ (c = .lt ∧ lhs = IntFormat.int64.greatest ∧ rhs = IntFormat.int64.least)
        ∨ (c = .gt ∧ lhs = IntFormat.int64.least ∧ rhs = IntFormat.int64.greatest) := by
  simp only [IntFormat.Fits, IntFormat.least, IntFormat.greatest, IntFormat.int64, Width.half,
    if_true] at hl hr ⊢
  simp only [maxCount]
  cases c with
  | ne =>
    simp only [gap]
    split_ifs <;> simp
  | eq | lt | le | gt | ge =>
    simp only [gap, reduceCtorEq, false_and, true_and, false_or, or_false, iff_false]
    omega

/-- The penalty of a comparison is the least distance by which its left side has to move for it to
hold in unbounded integers, cut at the largest 64-bit count. So there is none exactly if the
comparison holds, of two violations the one with its sides further apart costs no less, and between
64-bit integers the cut is met by a strict comparison of the two extremes only. -/
theorem penalty_is_repair_distance (lhs rhs : Int) :
    (∃ d, IsLeast {n | ∃ k : Int, k.natAbs = n ∧ c.Holds (lhs + k) rhs} d
        ∧ c.penalty lhs rhs = min d maxCount)
      ∧ (c.penalty lhs rhs = 0 ↔ c.holds lhs rhs = true)
      ∧ (∀ lhs' rhs', c.holds lhs rhs = false → c.holds lhs' rhs' = false →
        (lhs - rhs).natAbs ≤ (lhs' - rhs').natAbs → c.penalty lhs rhs ≤ c.penalty lhs' rhs')
      ∧ (IntFormat.int64.Fits lhs → IntFormat.int64.Fits rhs →
        (c.penalty lhs rhs < c.gap lhs rhs
          ↔ (c = .lt ∧ lhs = IntFormat.int64.greatest ∧ rhs = IntFormat.int64.least)
            ∨ (c = .gt ∧ lhs = IntFormat.int64.least ∧ rhs = IntFormat.int64.greatest))) := by
  have hmax : 0 < maxCount := by decide
  refine ⟨⟨_, c.gap_isLeast lhs rhs, c.penalty_eq lhs rhs⟩, ?_, fun lhs' rhs' h h' hle => ?_,
    fun hl hr => ?_⟩
  · rw [penalty_eq, holds_iff, ← gap_eq_zero]
    omega
  · rw [← Bool.not_eq_true, holds_iff] at h h'
    have hgap := c.gap_mono h h' hle
    rw [penalty_eq, penalty_eq]
    omega
  · rw [← c.gap_cut_iff hl hr, penalty_eq]
    omega

/-- From one end of the range to the other: the greatest and the least 64-bit integer are one step
further from the wrong order than a penalty can say, and cost no less than their neighbours. -/
theorem penalty_is_repair_distance_at_extremes :
    IntFormat.int64.Fits 9223372036854775807 ∧ IntFormat.int64.Fits (-9223372036854775808)
      ∧ penalty .lt 9223372036854775807 (-9223372036854775808) = maxCount
      ∧ penalty .lt 9223372036854775807 (-9223372036854775808)
        < gap .lt 9223372036854775807 (-9223372036854775808)
      ∧ holds .lt 9223372036854775806 (-9223372036854775808) = false
      ∧ holds .lt 9223372036854775807 (-9223372036854775808) = false
      ∧ penalty .lt 9223372036854775806 (-9223372036854775808)
        ≤ penalty .lt 9223372036854775807 (-9223372036854775808) := by
  have hl : IntFormat.int64.Fits 9223372036854775807 := by decide
  have hr : IntFormat.int64.Fits (-9223372036854775808) := by decide
  obtain ⟨-, -, -, hcut⟩ :=
    penalty_is_repair_distance .lt 9223372036854775807 (-9223372036854775808)
  obtain ⟨-, -, hmono, -⟩ :=
    penalty_is_repair_distance .lt 9223372036854775806 (-9223372036854775808)
  exact ⟨hl, hr, by decide, (hcut hl hr).2 (by decide), by decide, by decide,
    hmono _ _ (by decide) (by decide) (by decide)⟩

end Comparison

end ScenarioSampling
