import Mathlib.Algebra.GroupWithZero.Nat
import Mathlib.Algebra.Ring.Int.Defs
import ScenarioSampling.Scoring

/-!
# Scores are exact

Evaluation works in 64-bit integers and gives up where it has no room. What it does not give up on
is exact: `exactLhs` and `exactRhs` are the sides of a constraint in unbounded integers, `gap` is
how far one side is from where the comparison holds, and a score is the sum of the gaps, each cut at
the largest 64-bit count (`score_exact`). So only a solution has the score zero
(`exactScore_eq_zero`).
-/

namespace ScenarioSampling

namespace Comparison

/-- The comparison holds between these two integers. -/
def Holds (c : Comparison) (lhs rhs : Int) : Prop :=
  match c with
  | eq => lhs = rhs
  | ne => lhs ≠ rhs
  | lt => lhs < rhs
  | le => lhs ≤ rhs
  | gt => lhs > rhs
  | ge => lhs ≥ rhs

/-- How far one side has to move for the comparison to hold. -/
def gap (c : Comparison) (lhs rhs : Int) : Nat :=
  match c with
  | eq => (lhs - rhs).natAbs
  | ne => if lhs = rhs then 1 else 0
  | lt => (lhs + 1 - rhs).toNat
  | le => (lhs - rhs).toNat
  | gt => (rhs + 1 - lhs).toNat
  | ge => (rhs - lhs).toNat

theorem gap_eq_zero (c : Comparison) (lhs rhs : Int) : c.gap lhs rhs = 0 ↔ c.Holds lhs rhs := by
  cases c with
  | ne =>
    simp only [gap, Holds]
    split <;> simp_all
  | eq | lt | le | gt | ge =>
    simp only [gap, Holds]
    omega

theorem penalty_eq (c : Comparison) (lhs rhs : Int) :
    c.penalty lhs rhs = min (c.gap lhs rhs) maxCount := by
  have hmax : 0 < maxCount := by decide
  cases c with
  | ne =>
    by_cases h : lhs = rhs
    · simp only [penalty, gap, holds, h, bne_self_eq_false, Bool.false_eq_true, if_true, if_false]
      omega
    · simp only [penalty, gap, holds, h, bne_iff_ne, ne_eq, not_false_iff, if_true, if_false]
      omega
  | eq | lt | le | gt | ge =>
    simp only [penalty, saturate, gap, holds, beq_iff_eq, decide_eq_true_eq]
    split <;> omega

end Comparison

/-- The value of a variable; one that is not there counts as zero. -/
def exactValue (values : List Int) (x : VarIndex) : Int := values.getD x.val 0

namespace Constraint

/-- The left side in unbounded integers. -/
def exactLhs (c : Constraint) (values : List Int) : Int :=
  match c with
  | linear c => (c.terms.map fun t => t.coefficient * exactValue values t.var).sum
  | product c => c.factor * exactValue values c.left * exactValue values c.right

/-- The right side. -/
def exactRhs (c : Constraint) (values : List Int) : Int := exactValue values c.target

/-- Every variable that is mentioned has a value. -/
def Covered (c : Constraint) (values : List Int) : Prop := ∀ x ∈ c.vars, x.val < values.length

/-- The constraint holds, with its left side in unbounded integers. -/
def Holds (c : Constraint) (values : List Int) : Prop :=
  c.comparison.Holds (c.exactLhs values) (c.exactRhs values)

/-- How far the sides of the constraint are from a pair for which it holds. -/
def gap (c : Constraint) (values : List Int) : Nat :=
  c.comparison.gap (c.exactLhs values) (c.exactRhs values)

end Constraint

/-- The sum of all gaps, each cut at the largest 64-bit count. -/
def Model.exactScore (m : Model) (values : List Int) : Nat :=
  (m.constraints.map fun c => min (c.gap values) maxCount).sum

theorem Model.exactScore_eq_zero (m : Model) (values : List Int) :
    m.exactScore values = 0 ↔ ∀ c ∈ m.constraints, c.Holds values := by
  have hmax : 0 < maxCount := by decide
  have hcut : ∀ c : Constraint, min (c.gap values) maxCount = 0 ↔ c.Holds values := by
    intro c
    rw [Constraint.Holds, ← Comparison.gap_eq_zero, ← Constraint.gap]
    omega
  simp only [exactScore, List.sum_eq_zero_iff_forall_eq_nat, List.forall_mem_map, hcut]

theorem of_bind_ok {ε α β : Type} {x : Except ε α} {f : α → Except ε β} {b : β}
    (h : x >>= f = .ok b) : ∃ a, x = .ok a ∧ f a = .ok b := by
  rcases x with e | a
  · cases h
  · exact ⟨a, rfl, h⟩

theorem exactValue_of_valueAt {values : List Int} {x : VarIndex} {v : Int}
    (h : valueAt values x = .ok v) : x.val < values.length ∧ exactValue values x = v := by
  unfold valueAt at h
  split at h
  · rename_i u hu
    cases h
    refine ⟨(List.getElem?_eq_some_iff.mp hu).1, ?_⟩
    rw [exactValue, List.getD_eq_getElem?_getD, hu, Option.getD_some]
  · cases h

theorem checked_eq_some {f : IntFormat} {v u : Int} (h : f.checked v = some u) : u = v := by
  unfold IntFormat.checked at h
  split at h
  · exact (Option.some.inj h).symm
  · cases h

theorem sumFrom_exact (values : List Int) : ∀ (ts : List Term) (acc s : Int),
    LinearRelation.sumFrom values ts acc = .ok (some s) →
      (∀ x ∈ ts.map Term.var, x.val < values.length)
        ∧ s = acc + (ts.map fun t => t.coefficient * exactValue values t.var).sum
  | [], acc, s, h => by
    simp only [LinearRelation.sumFrom, Except.ok.injEq, Option.some.injEq] at h
    simp [h]
  | t :: ts, acc, s, h => by
    unfold LinearRelation.sumFrom at h
    obtain ⟨v, hv, h⟩ := of_bind_ok h
    obtain ⟨hlt, hval⟩ := exactValue_of_valueAt hv
    split at h
    · cases h
    · rename_i product hp
      split at h
      · cases h
      · rename_i acc' ha
        obtain ⟨hcov, hsum⟩ := sumFrom_exact values ts acc' s h
        refine ⟨List.forall_mem_cons.mpr ⟨hlt, hcov⟩, ?_⟩
        rw [hsum, checked_eq_some ha, checked_eq_some hp, ← hval, List.map_cons, List.sum_cons,
          Int.add_assoc]

/-- A left side is only ever given where all that it is made of has a value. -/
theorem lhsValue_exact {c : Constraint} {values : List Int} {lhs : Int}
    (h : c.lhsValue values = .ok (some lhs)) :
    (c.target.val < values.length → c.Covered values) ∧ lhs = c.exactLhs values := by
  cases c with
  | linear c =>
    obtain ⟨hcov, hsum⟩ := sumFrom_exact values c.terms 0 lhs h
    refine ⟨fun ht => List.forall_mem_append.mpr ⟨hcov, List.forall_mem_singleton.mpr ht⟩, ?_⟩
    rw [hsum, Int.zero_add]
    rfl
  | product c =>
    obtain ⟨left, hleft, h⟩ := of_bind_ok h
    obtain ⟨hx, hxv⟩ := exactValue_of_valueAt hleft
    split at h
    · cases h
    · rename_i scaled hs
      obtain ⟨right, hright, h⟩ := of_bind_ok h
      obtain ⟨hy, hyv⟩ := exactValue_of_valueAt hright
      refine ⟨fun ht => ?_, ?_⟩
      · simpa [Constraint.Covered, Constraint.vars] using ⟨hx, hy, ht⟩
      · rw [checked_eq_some (Except.ok.inj h), checked_eq_some hs, ← hxv, ← hyv]
        rfl

theorem sides_exact {c : Constraint} {values : List Int} {lhs rhs : Int}
    (h : c.sides values = .ok (some (lhs, rhs))) :
    c.Covered values ∧ lhs = c.exactLhs values ∧ rhs = c.exactRhs values := by
  obtain ⟨l, hl, h⟩ := of_bind_ok h
  split at h
  · cases h
  · obtain ⟨r, hr, h⟩ := of_bind_ok h
    obtain ⟨htarget, hrhs⟩ := exactValue_of_valueAt hr
    cases h
    obtain ⟨hcov, hlhs⟩ := lhsValue_exact hl
    exact ⟨hcov htarget, hlhs, hrhs.symm⟩

theorem penaltyOf_exact {i : ConstraintIndex} {c : Constraint} {values : List Int} {penalty : Nat}
    (h : penaltyOf i c values = .ok (.ok penalty)) :
    c.Covered values ∧ penalty = min (c.gap values) maxCount := by
  obtain ⟨sides, hsides, h⟩ := of_bind_ok h
  split at h
  · cases h
  · rename_i lhs rhs
    obtain ⟨hcov, hl, hr⟩ := sides_exact hsides
    refine ⟨hcov, ?_⟩
    rw [← Except.ok.inj (Except.ok.inj h), Comparison.penalty_eq, hl, hr]
    rfl

theorem scoreFrom_exact (values : List Int) : ∀ (cs : List Constraint) (i total s : Nat),
    scoreFrom values i cs total = .ok (.ok s) →
      (∀ c ∈ cs, c.Covered values)
        ∧ s = total + (cs.map fun c => min (c.gap values) maxCount).sum
  | [], i, total, s, h => by
    simp only [scoreFrom, Except.ok.injEq] at h
    simp [h]
  | c :: cs, i, total, s, h => by
    unfold scoreFrom at h
    obtain ⟨p, hp, h⟩ := of_bind_ok h
    split at h
    · cases h
    · rename_i penalty
      split at h
      · obtain ⟨hc, hpen⟩ := penaltyOf_exact hp
        obtain ⟨hcs, hsum⟩ := scoreFrom_exact values cs (i + 1) (total + penalty) s h
        refine ⟨List.forall_mem_cons.mpr ⟨hc, hcs⟩, ?_⟩
        rw [hsum, hpen, List.map_cons, List.sum_cons, Nat.add_assoc]
      · cases h

/-- A candidate that gets a score has a value for every variable, and its score is exact. -/
theorem score_exact {m : Model} {c : Candidate} {s : Nat}
    (h : ConstraintScorer.score m c = .ok (.ok s)) :
    c.values.length = m.numVariables ∧ (∀ k ∈ m.constraints, k.Covered c.values)
      ∧ s = m.exactScore c.values := by
  unfold ConstraintScorer.score at h
  split at h
  · rename_i hlen
    obtain ⟨hcov, hsum⟩ := scoreFrom_exact c.values m.constraints 0 0 s h
    exact ⟨hlen, hcov, by rw [hsum, Nat.zero_add]; rfl⟩
  · cases h

end ScenarioSampling
