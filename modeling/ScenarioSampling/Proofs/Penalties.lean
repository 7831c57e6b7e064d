import Mathlib.Algebra.Order.BigOperators.Group.List
import Mathlib.Algebra.Order.Ring.Nat
import Mathlib.Order.Bounds.Basic
import ScenarioSampling.Proofs.Faults

/-!
# Penalties one by one and in sum

A breakdown lists the penalties of all constraints and a score adds them up, with a check at every
step. Both stop at the first fault they meet, and they look for different ones: a sum can be too
large before a constraint is reached whose left side has no room. `Itemised` and `Totalled` say
what there is to find in a list of penalties, some of them undefined, without going through it, and
that is what the scorer finds (`score_agrees_with_breakdown`).

Penalties are never negative, so a sum is too large somewhere on the way exactly if it is too large
in the end. The order of the constraints therefore matters to the fault only, never to a score.
-/

namespace ScenarioSampling

/-- The penalty of a constraint, undefined if its left side has no room. -/
def Constraint.penalty? (c : Constraint) (values : List Int) : Option Nat :=
  match c.lhsValue values with
  | .ok (some lhs) => some (c.comparison.penalty lhs (c.exactRhs values))
  | _ => none

/-- The penalties of all constraints, in registration order. -/
def Model.penalties (m : Model) (c : Candidate) : List (Option Nat) :=
  m.constraints.map fun k => k.penalty? c.values

/-- The penalty at this place has no value. -/
def Undefined (ps : List (Option Nat)) (i : Nat) : Prop := ps[i]? = some none

/-- The penalties up to the `j`-th are defined, and their sum is too large. -/
def Overruns (ps : List (Option Nat)) (j : Nat) : Prop :=
  ∃ qs : List Nat, ps.take (j + 1) = qs.map some ∧ qs.length = j + 1 ∧ maxCount < qs.sum

/-- What a breakdown says about these penalties. -/
inductive Itemised (ps : List (Option Nat)) : Except Fault (List Nat) → Prop where
  | all {qs : List Nat} : ps = qs.map some → Itemised ps (.ok qs)
  | overflow {i : Nat} : IsLeast {i | Undefined ps i} i → Itemised ps (.error (.overflow ⟨i⟩))

/-- What a score says about these penalties: a sum that is too large comes first, whichever
penalties after it are undefined. -/
inductive Totalled (ps : List (Option Nat)) : Except Fault Nat → Prop where
  | sum {qs : List Nat} : ps = qs.map some → qs.sum ≤ maxCount → Totalled ps (.ok qs.sum)
  | overrun {j : Nat} : IsLeast {j | Overruns ps j} j → Totalled ps (.error (.scoreOverflow ⟨j⟩))
  | overflow {i : Nat} : (∀ j, ¬ Overruns ps j) → IsLeast {i | Undefined ps i} i →
      Totalled ps (.error (.overflow ⟨i⟩))

section Itemised

variable {ps : List (Option Nat)} {qs : List Nat} {i j : Nat}

theorem not_undefined_map_some (qs : List Nat) (i : Nat) : ¬ Undefined (qs.map some) i := by
  intro h
  rw [Undefined, List.getElem?_map] at h
  rcases hi : qs[i]? with _ | q <;> simp [hi] at h

/-- Where a sum is too large, so is every longer one. -/
theorem not_overruns_map_some (h : qs.sum ≤ maxCount) (j : Nat) : ¬ Overruns (qs.map some) j := by
  rintro ⟨rs, hrs, -, hlarge⟩
  rw [← List.map_take] at hrs
  obtain rfl := List.map_injective_iff.2 (Option.some_injective Nat) hrs
  have hle : (qs.take (j + 1)).sum ≤ qs.sum := (List.take_sublist _ _).sum_le_sum (by simp)
  omega

theorem Overruns.not_undefined (h : Overruns ps j) (hi : i ≤ j) : ¬ Undefined ps i := by
  obtain ⟨rs, hrs, -, -⟩ := h
  intro hu
  refine not_undefined_map_some rs i ?_
  rw [Undefined, ← hrs, List.getElem?_take_of_lt (by omega)]
  exact hu

/-- Defined penalties whose sum is small enough hold nothing to find. -/
theorem le_of_undefined (h : Undefined (qs.map some ++ ps) i) : qs.length ≤ i := by
  by_contra hlt
  refine not_undefined_map_some qs i ?_
  rwa [Undefined, List.getElem?_append_left (by simpa using hlt)] at h

theorem le_of_overruns (hsum : qs.sum ≤ maxCount) (h : Overruns (qs.map some ++ ps) j) :
    qs.length ≤ j := by
  by_contra hlt
  obtain ⟨rs, hrs, hlen, hlarge⟩ := h
  refine not_overruns_map_some hsum j ⟨rs, ?_, hlen, hlarge⟩
  rwa [List.take_append_of_le_length (by rw [List.length_map]; omega)] at hrs

theorem isLeast_undefined (qs : List Nat) (ps : List (Option Nat)) :
    IsLeast {i | Undefined (qs.map some ++ none :: ps) i} qs.length := by
  constructor
  · show (qs.map some ++ none :: ps)[qs.length]? = some none
    rw [List.getElem?_append_right (by simp)]
    simp
  · intro i hi
    exact le_of_undefined hi

/-- Behind an undefined penalty, no sum is too large. -/
theorem not_overruns_of_none (hsum : qs.sum ≤ maxCount) (ps : List (Option Nat)) (j : Nat) :
    ¬ Overruns (qs.map some ++ none :: ps) j := by
  intro h
  exact h.not_undefined (le_of_overruns hsum h) (isLeast_undefined qs ps).1

theorem isLeast_overruns {p : Nat} (hsum : qs.sum ≤ maxCount) (hp : maxCount < qs.sum + p)
    (ps : List (Option Nat)) :
    IsLeast {j | Overruns (qs.map some ++ some p :: ps) j} qs.length := by
  constructor
  · refine ⟨qs ++ [p], ?_, by simp, by simpa using hp⟩
    rw [List.take_append]
    simp
  · intro j hj
    exact le_of_overruns hsum hj

theorem Itemised.unique {r r' : Except Fault (List Nat)} (h : Itemised ps r)
    (h' : Itemised ps r') : r = r' := by
  cases h with
  | all hall =>
    cases h' with
    | all hall' =>
      rw [List.map_injective_iff.2 (Option.some_injective Nat) (hall.symm.trans hall')]
    | overflow hi => exact (not_undefined_map_some _ _ (hall ▸ hi.1)).elim
  | overflow hi =>
    cases h' with
    | all hall => exact (not_undefined_map_some _ _ (hall ▸ hi.1)).elim
    | overflow hi' => rw [hi.unique hi']

theorem Totalled.unique {r r' : Except Fault Nat} (h : Totalled ps r) (h' : Totalled ps r') :
    r = r' := by
  cases h with
  | sum hall hle =>
    cases h' with
    | sum hall' =>
      rw [List.map_injective_iff.2 (Option.some_injective Nat) (hall.symm.trans hall')]
    | overrun hj => exact (not_overruns_map_some hle _ (hall ▸ hj.1)).elim
    | overflow _ hi => exact (not_undefined_map_some _ _ (hall ▸ hi.1)).elim
  | overrun hj =>
    cases h' with
    | sum hall hle => exact (not_overruns_map_some hle _ (hall ▸ hj.1)).elim
    | overrun hj' => rw [hj.unique hj']
    | overflow hnone => exact (hnone _ hj.1).elim
  | overflow hnone hi =>
    cases h' with
    | sum hall => exact (not_undefined_map_some _ _ (hall ▸ hi.1)).elim
    | overrun hj => exact (hnone _ hj.1).elim
    | overflow _ hi' => rw [hi.unique hi']

end Itemised

section Loops

variable {values : List Int}

theorem penaltyOf_eq {c : Constraint} (h : c.Covered values) (i : ConstraintIndex) :
    penaltyOf i c values = .ok (match c.penalty? values with
      | some p => .ok p
      | none => .error (.overflow i)) := by
  obtain ⟨lhs, hlhs⟩ := c.lhsValue_returns h
  obtain ⟨rhs, hrhs⟩ := valueAt_returns (h _ c.target_mem_vars)
  have hexact : c.exactRhs values = rhs := (exactValue_of_valueAt hrhs).2
  unfold penaltyOf Constraint.sides Constraint.penalty?
  rw [hlhs]
  rcases lhs with _ | lhs
  · rfl
  · rw [hexact, hrhs]
    rfl

/-- The penalties in `qs` come first and have been added. -/
theorem scoreFrom_totalled : ∀ (cs : List Constraint) (qs : List Nat),
    (∀ c ∈ cs, c.Covered values) → qs.sum ≤ maxCount →
      ∃ r, scoreFrom values qs.length cs qs.sum = .ok r
        ∧ Totalled (qs.map some ++ cs.map fun c => c.penalty? values) r
  | [], qs, _, hsum => ⟨_, rfl, .sum (List.append_nil _) hsum⟩
  | c :: cs, qs, hcs, hsum => by
    obtain ⟨hc, hcs⟩ := List.forall_mem_cons.1 hcs
    unfold scoreFrom
    rw [penaltyOf_eq hc, List.map_cons]
    rcases c.penalty? values with _ | p
    · exact ⟨_, rfl, .overflow (not_overruns_of_none hsum _) (isLeast_undefined qs _)⟩
    · show ∃ r, (if qs.sum + p ≤ maxCount then scoreFrom values (qs.length + 1) cs (qs.sum + p)
        else .ok (.error (.scoreOverflow ⟨qs.length⟩))) = .ok r ∧ _
      split_ifs with hle
      · have hrest := scoreFrom_totalled cs (qs ++ [p]) hcs (by simpa using hle)
        simpa using hrest
      · exact ⟨_, rfl, .overrun (isLeast_overruns hsum (Nat.lt_of_not_le hle) _)⟩

/-- The penalties in `qs` come first and are in the list already. -/
theorem breakdownFrom_itemised : ∀ (cs : List Constraint) (qs : List Nat),
    (∀ c ∈ cs, c.Covered values) →
      ∃ r, breakdownFrom values qs.length cs = .ok r
        ∧ Itemised (qs.map some ++ cs.map fun c => c.penalty? values) (r.map (qs ++ ·))
  | [], qs, _ => ⟨_, rfl, .all (by simp)⟩
  | c :: cs, qs, hcs => by
    obtain ⟨hc, hcs⟩ := List.forall_mem_cons.1 hcs
    unfold breakdownFrom
    rw [penaltyOf_eq hc, List.map_cons]
    rcases c.penalty? values with _ | p
    · exact ⟨_, rfl, .overflow (isLeast_undefined qs _)⟩
    · obtain ⟨r, hr, hrest⟩ := breakdownFrom_itemised cs (qs ++ [p]) hcs
      rw [List.length_append, List.length_singleton] at hr
      simp only [hr]
      rcases r with fault | rs
      · exact ⟨_, rfl, by simpa [Except.map] using hrest⟩
      · exact ⟨_, rfl, by simpa [Except.map] using hrest⟩

end Loops

variable {m : Model} {c : Candidate}

theorem breakdown_itemised (hlen : c.length = m.numVariables)
    (hcov : ∀ k ∈ m.constraints, k.Covered c.values) (r : Except Fault (List Nat)) :
    ConstraintScorer.breakdown m c = .ok r ↔ Itemised (m.penalties c) r := by
  obtain ⟨r₀, hr₀, hitems⟩ := breakdownFrom_itemised m.constraints [] hcov
  have hsame : r₀.map ([] ++ ·) = r₀ := by
    cases r₀ <;> rfl
  rw [hsame] at hitems
  have hbreakdown : ConstraintScorer.breakdown m c = .ok r₀ := by
    rw [ConstraintScorer.breakdown, if_pos hlen]
    exact hr₀
  rw [hbreakdown, Except.ok.injEq]
  constructor
  · rintro rfl
    exact hitems
  · exact hitems.unique

theorem score_totalled (hlen : c.length = m.numVariables)
    (hcov : ∀ k ∈ m.constraints, k.Covered c.values) (r : Except Fault Nat) :
    ConstraintScorer.score m c = .ok r ↔ Totalled (m.penalties c) r := by
  obtain ⟨r₀, hr₀, htotal⟩ := scoreFrom_totalled m.constraints [] hcov (Nat.zero_le _)
  have hscore : ConstraintScorer.score m c = .ok r₀ := by
    rw [ConstraintScorer.score, if_pos hlen]
    exact hr₀
  rw [hscore, Except.ok.injEq]
  constructor
  · rintro rfl
    exact htotal
  · exact htotal.unique

section Scores

theorem eq_map_some_iff {ps : List (Option Nat)} {qs : List Nat} :
    ps = qs.map some ↔ none ∉ ps ∧ ps.filterMap id = qs := by
  induction ps generalizing qs with
  | nil => cases qs <;> simp
  | cons p ps ih =>
    rcases p with _ | p
    · cases qs <;> simp
    · cases qs with
      | nil => simp
      | cons q qs => simp [ih, and_left_comm]

/-- A score is the sum of the penalties, all of which are defined. -/
theorem score_eq_sum (hlen : c.length = m.numVariables)
    (hcov : ∀ k ∈ m.constraints, k.Covered c.values) (s : Nat) :
    ConstraintScorer.score m c = .ok (.ok s)
      ↔ none ∉ m.penalties c ∧ ((m.penalties c).filterMap id).sum = s ∧ s ≤ maxCount := by
  rw [score_totalled hlen hcov]
  constructor
  · intro h
    cases h with
    | sum hall hle =>
      obtain ⟨hdefined, rfl⟩ := eq_map_some_iff.1 hall
      exact ⟨hdefined, rfl, hle⟩
  · rintro ⟨hdefined, rfl, hle⟩
    exact .sum (eq_map_some_iff.2 ⟨hdefined, rfl⟩) hle

/-- With fewer constraints, whatever their order, there is a score too, and it is no higher. -/
theorem score_of_subperm {m' : Model} (hvars : m'.numVariables = m.numVariables)
    (hsub : m'.constraints.Subperm m.constraints) {s : Nat}
    (h : ConstraintScorer.score m c = .ok (.ok s)) :
    ∃ s', ConstraintScorer.score m' c = .ok (.ok s') ∧ s' ≤ s := by
  obtain ⟨hlen, hcov, -⟩ := score_exact h
  have hcov' : ∀ k ∈ m'.constraints, k.Covered c.values := fun k hk => hcov k (hsub.subset hk)
  obtain ⟨hdefined, rfl, hle⟩ := (score_eq_sum hlen hcov s).1 h
  obtain ⟨cs, hperm, hcs⟩ := hsub
  have hsum : ((m'.penalties c).filterMap id).sum ≤ ((m.penalties c).filterMap id).sum := by
    calc ((m'.penalties c).filterMap id).sum
        = ((cs.map fun k => k.penalty? c.values).filterMap id).sum :=
          ((hperm.symm.map _).filterMap id).sum_eq
      _ ≤ ((m.penalties c).filterMap id).sum :=
          ((hcs.map _).filterMap id).sum_le_sum (by simp)
  refine ⟨_, (score_eq_sum (hlen.trans hvars.symm) hcov' _).2 ⟨fun hnone => ?_, rfl, ?_⟩, hsum⟩
  · exact hdefined ((hcs.map _).subset ((hperm.symm.map _).subset hnone))
  · exact hsum.trans hle

theorem score_of_perm {m' : Model} (hvars : m'.numVariables = m.numVariables)
    (hperm : m'.constraints.Perm m.constraints) {s : Nat}
    (h : ConstraintScorer.score m c = .ok (.ok s)) :
    ConstraintScorer.score m' c = .ok (.ok s) := by
  obtain ⟨s', hs', hle⟩ := score_of_subperm hvars hperm.subperm h
  obtain ⟨s'', hs'', hle'⟩ := score_of_subperm hvars.symm hperm.symm.subperm hs'
  rw [h] at hs''
  cases hs''
  rw [hs', Nat.le_antisymm hle hle']

/-- Whatever was registered, a candidate of the right length has a breakdown into all penalties, or
the first constraint whose penalty is undefined is at fault. It has a score if the penalties are all
defined and their sum is not too large, and the score is that sum; else the first constraint at
which the sum is too large is at fault, or, if it never is, the first one whose penalty is
undefined. Another order of the constraints changes no score, and with more constraints no score
gets lower. -/
theorem score_agrees_with_breakdown (es : List Edit) (c : Candidate)
    (hlen : c.length = (Model.empty.afterAll es).numVariables) :
    let m := Model.empty.afterAll es
    (∀ r, ConstraintScorer.breakdown m c = .ok r ↔ Itemised (m.penalties c) r)
      ∧ (∀ r, ConstraintScorer.score m c = .ok r ↔ Totalled (m.penalties c) r)
      ∧ (∀ s, ConstraintScorer.score m c = .ok (.ok s)
        ↔ ∃ qs, ConstraintScorer.breakdown m c = .ok (.ok qs) ∧ qs.sum = s ∧ s ≤ maxCount)
      ∧ ∀ m' : Model, m'.numVariables = m.numVariables →
        (m'.constraints.Perm m.constraints → ∀ s,
            ConstraintScorer.score m' c = .ok (.ok s) ↔ ConstraintScorer.score m c = .ok (.ok s))
          ∧ (m.constraints.Subperm m'.constraints → ∀ s',
            ConstraintScorer.score m' c = .ok (.ok s') →
              ∃ s, ConstraintScorer.score m c = .ok (.ok s) ∧ s ≤ s') := by
  intro m
  have hcov : ∀ k ∈ m.constraints, k.Covered c.values :=
    (Model.afterAll_records es Model.coherent_empty Model.records_empty).2.covered hlen
  refine ⟨breakdown_itemised hlen hcov, score_totalled hlen hcov, fun s => ?_,
    fun m' hvars => ⟨fun hperm s => ⟨score_of_perm hvars.symm hperm.symm,
      score_of_perm hvars hperm⟩, fun hsub s' => score_of_subperm hvars.symm hsub⟩⟩
  rw [score_totalled hlen hcov]
  constructor
  · intro h
    cases h with
    | sum hall hle => exact ⟨_, (breakdown_itemised hlen hcov _).2 (.all hall), rfl, hle⟩
  · rintro ⟨qs, hqs, rfl, hle⟩
    cases (breakdown_itemised hlen hcov _).1 hqs with
    | all hall => exact .sum hall hle

/-- The second constraint is one too much for the sum, and the third has no penalty at all. -/
theorem score_agrees_with_breakdown_two_faults :
    let es : List Edit := [.register (.decision "x" .existential .int (-9223372036854775808) 0),
      .register (.decision "y" .existential .int 0 9223372036854775807),
      .register (.linear [(1, "x")] .eq "y"), .register (.linear [(1, "x")] .ne "x"),
      .register (.linear [(-1, "x")] .le "x")]
    let m := Model.empty.afterAll es
    let c : Candidate := ⟨[-9223372036854775808, 9223372036854775807]⟩
    c.length = m.numVariables ∧ m.penalties c = [some maxCount, some 1, none]
      ∧ ConstraintScorer.breakdown m c = .ok (.error (.overflow ⟨2⟩))
      ∧ ConstraintScorer.score m c = .ok (.error (.scoreOverflow ⟨1⟩)) := by
  intro es m c
  have hlen : c.length = m.numVariables := by decide +kernel
  have hps : m.penalties c = [some maxCount, some 1, none] := by decide +kernel
  obtain ⟨hbreakdown, hscore, -⟩ := score_agrees_with_breakdown es c hlen
  refine ⟨hlen, hps, (hbreakdown _).2 ?_, (hscore _).2 ?_⟩
  · rw [hps]
    exact .overflow (isLeast_undefined [maxCount, 1] [])
  · rw [hps]
    exact .overrun (isLeast_overruns (by decide : [maxCount].sum ≤ maxCount) (by decide) [none])

end Scores

end ScenarioSampling
