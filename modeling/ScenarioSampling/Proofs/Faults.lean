import ScenarioSampling.Proofs.Registry

/-!
# Scoring does not crash

Evaluation reads the values without looking whether they are there. In a model that was built by
registration every index is that of a variable, and a candidate of the right length has a value for
each: no read is out of range (`Constraint.sides_returns`), and a number without room in its format
is a fault of the constraint it comes up in. So a candidate gets a score or one fault
(`scoring_settles`).
-/

namespace ScenarioSampling

theorem bind_returns {ε α β : Type} {x : Except ε α} {f : α → Except ε β} (hx : ∃ a, x = .ok a)
    (hf : ∀ a, ∃ b, f a = .ok b) : ∃ b, x >>= f = .ok b := by
  obtain ⟨a, rfl⟩ := hx
  exact hf a

section Sides

variable {values : List Int} {x : VarIndex}

theorem valueAt_returns (h : x.val < values.length) : ∃ v, valueAt values x = .ok v := by
  rw [valueAt, List.getElem?_eq_getElem h]
  exact ⟨_, rfl⟩

theorem sumFrom_returns : ∀ (ts : List Term) (acc : Int),
    (∀ x ∈ ts.map Term.var, x.val < values.length) →
      ∃ s, LinearRelation.sumFrom values ts acc = .ok s
  | [], acc, _ => ⟨some acc, rfl⟩
  | t :: ts, acc, h => by
    obtain ⟨ht, hts⟩ := List.forall_mem_cons.1 h
    unfold LinearRelation.sumFrom
    refine bind_returns (valueAt_returns ht) fun v => ?_
    split
    · exact ⟨none, rfl⟩
    · split
      · exact ⟨none, rfl⟩
      · exact sumFrom_returns ts _ hts

namespace Constraint

variable {c : Constraint}

theorem lhsValue_returns (h : c.Covered values) : ∃ s, c.lhsValue values = .ok s := by
  cases c with
  | linear c => exact sumFrom_returns c.terms 0 (List.forall_mem_append.1 h).1
  | product c =>
    refine bind_returns (valueAt_returns (h c.left (by simp [vars]))) fun left => ?_
    split
    · exact ⟨none, rfl⟩
    · exact bind_returns (valueAt_returns (h c.right (by simp [vars]))) fun right => ⟨_, rfl⟩

theorem target_mem_vars (c : Constraint) : c.target ∈ c.vars := by
  cases c with
  | linear | product => simp [target, vars]

theorem sides_returns (h : c.Covered values) : ∃ s, c.sides values = .ok s := by
  refine bind_returns (lhsValue_returns h) fun lhs => ?_
  cases lhs with
  | none => exact ⟨none, rfl⟩
  | some lhs => exact bind_returns (valueAt_returns (h _ c.target_mem_vars)) fun rhs => ⟨_, rfl⟩

end Constraint

theorem checked_fits {f : IntFormat} {v u : Int} (h : f.checked v = some u) : f.Fits u := by
  unfold IntFormat.checked at h
  split_ifs at h with hv
  rw [← Option.some.inj h]
  exact hv

theorem sumFrom_fits : ∀ (ts : List Term) (acc s : Int), IntFormat.int64.Fits acc →
    LinearRelation.sumFrom values ts acc = .ok (some s) → IntFormat.int64.Fits s
  | [], acc, s, hacc, h => by
    simp only [LinearRelation.sumFrom, Except.ok.injEq, Option.some.injEq] at h
    exact h ▸ hacc
  | t :: ts, acc, s, hacc, h => by
    unfold LinearRelation.sumFrom at h
    obtain ⟨v, -, h⟩ := of_bind_ok h
    split at h
    · cases h
    · split at h
      · cases h
      · rename_i acc' hacc'
        exact sumFrom_fits ts acc' s (checked_fits hacc') h

theorem Constraint.lhsValue_fits {c : Constraint} {lhs : Int}
    (h : c.lhsValue values = .ok (some lhs)) : IntFormat.int64.Fits lhs := by
  cases c with
  | linear c => exact sumFrom_fits c.terms 0 lhs (by decide) h
  | product c =>
    obtain ⟨left, -, h⟩ := of_bind_ok h
    split at h
    · cases h
    · obtain ⟨right, -, h⟩ := of_bind_ok h
      exact checked_fits (Except.ok.inj h)

theorem mem_of_valueAt {v : Int} (h : valueAt values x = .ok v) : v ∈ values := by
  unfold valueAt at h
  split at h
  · cases h
    exact List.mem_of_getElem? ‹_›
  · cases h

/-- Two 64-bit integers are never further apart than a 64-bit count can say. -/
theorem natAbs_sub_le {a b : Int} (ha : IntFormat.int64.Fits a) (hb : IntFormat.int64.Fits b) :
    (a - b).natAbs ≤ maxCount := by
  simp only [IntFormat.Fits, IntFormat.least, IntFormat.greatest, IntFormat.int64, Width.half,
    if_true] at ha hb
  simp only [maxCount]
  omega

theorem Constraint.sides_fit {c : Constraint} {lhs rhs : Int}
    (hvalues : ∀ v ∈ values, IntFormat.int64.Fits v)
    (h : c.sides values = .ok (some (lhs, rhs))) :
    IntFormat.int64.Fits lhs ∧ IntFormat.int64.Fits rhs := by
  obtain ⟨l, hl, h⟩ := of_bind_ok h
  split at h
  · cases h
  · obtain ⟨r, hr, h⟩ := of_bind_ok h
    cases h
    exact ⟨lhsValue_fits hl, hvalues _ (mem_of_valueAt hr)⟩

end Sides

/-- The fault lies with one of the constraints `i, …, j - 1`. -/
def Fault.Within (i j : Nat) : Fault → Prop
  | .overflow k | .scoreOverflow k => i ≤ k.val ∧ k.val < j
  | .sizeMismatch .. => False

theorem Fault.Within.mono {i i' j j' : Nat} {f : Fault} (hi : i' ≤ i) (hj : j ≤ j')
    (h : f.Within i j) : f.Within i' j' := by
  cases f with
  | overflow | scoreOverflow => exact ⟨Nat.le_trans hi h.1, Nat.lt_of_lt_of_le h.2 hj⟩
  | sizeMismatch => exact h

/-- There is a result, which is as `P` says, or a fault of one of the constraints `i, …, j - 1`. -/
inductive EndsWithin {α : Type} (i j : Nat) (P : α → Prop) : Except Crash (Except Fault α) → Prop
  | result {a : α} : P a → EndsWithin i j P (.ok (.ok a))
  | fault {f : Fault} : f.Within i j → EndsWithin i j P (.ok (.error f))

theorem EndsWithin.mono {α : Type} {i i' j j' : Nat} {P : α → Prop}
    {r : Except Crash (Except Fault α)} (hi : i' ≤ i) (hj : j ≤ j') (h : EndsWithin i j P r) :
    EndsWithin i' j' P r := by
  cases h with
  | result ha => exact .result ha
  | fault hf => exact .fault (hf.mono hi hj)

theorem penaltyOf_ends {values : List Int} {c : Constraint} (i : Nat) (h : c.Covered values) :
    EndsWithin i (i + 1) (· ≤ maxCount) (penaltyOf ⟨i⟩ c values) := by
  obtain ⟨s, hs⟩ := c.sides_returns h
  rw [penaltyOf, hs]
  rcases s with _ | ⟨lhs, rhs⟩
  · exact .fault ⟨Nat.le_refl i, Nat.lt_succ_self i⟩
  · refine .result ?_
    rw [Comparison.penalty_eq]
    exact Nat.min_le_right ..

theorem scoreFrom_ends (values : List Int) : ∀ (cs : List Constraint) (i total : Nat),
    (∀ c ∈ cs, c.Covered values) → total ≤ maxCount →
      EndsWithin i (i + cs.length) (· ≤ maxCount) (scoreFrom values i cs total)
  | [], i, total, _, htotal => .result htotal
  | c :: cs, i, total, hcs, htotal => by
    obtain ⟨hc, hcs⟩ := List.forall_mem_cons.1 hcs
    have hpenalty := penaltyOf_ends i hc
    rw [List.length_cons]
    unfold scoreFrom
    generalize penaltyOf ⟨i⟩ c values = p at hpenalty
    cases hpenalty with
    | fault hf => exact .fault (hf.mono (Nat.le_refl i) (by omega))
    | @result penalty _ =>
      change EndsWithin _ _ _ (if total + penalty ≤ maxCount
        then scoreFrom values (i + 1) cs (total + penalty) else .ok (.error (.scoreOverflow ⟨i⟩)))
      split_ifs with hle
      · have hrest := scoreFrom_ends values cs (i + 1) (total + penalty) hcs hle
        exact hrest.mono (by omega) (by omega)
      · exact .fault ⟨Nat.le_refl i, by simp⟩

theorem breakdownFrom_ends (values : List Int) : ∀ (cs : List Constraint) (i : Nat),
    (∀ c ∈ cs, c.Covered values) →
      EndsWithin i (i + cs.length) (fun ps => ps.length = cs.length ∧ ∀ p ∈ ps, p ≤ maxCount)
        (breakdownFrom values i cs)
  | [], i, _ => .result ⟨rfl, by simp⟩
  | c :: cs, i, hcs => by
    obtain ⟨hc, hcs⟩ := List.forall_mem_cons.1 hcs
    have hpenalty := penaltyOf_ends i hc
    have hrest := breakdownFrom_ends values cs (i + 1) hcs
    rw [List.length_cons]
    unfold breakdownFrom
    generalize penaltyOf ⟨i⟩ c values = p at hpenalty
    generalize breakdownFrom values (i + 1) cs = r at hrest
    cases hpenalty with
    | fault hf => exact .fault (hf.mono (Nat.le_refl i) (by omega))
    | result hp =>
      cases hrest with
      | fault hf => exact .fault (hf.mono (by omega) (by omega))
      | result hps => exact .result ⟨by simp [hps.1], List.forall_mem_cons.2 ⟨hp, hps.2⟩⟩

/-- A question to a scorer is settled: by the lengths, if they differ, and else by a result that is
as `P` says or a fault of one of the constraints. -/
structure Settles {α : Type} (m : Model) (c : Candidate) (P : α → Prop)
    (r : Except Crash (Except Fault α)) : Prop where
  returns : ∃ a, r = .ok a
  mismatch : ∀ expected actual, r = .ok (.error (.sizeMismatch expected actual))
    ↔ c.length ≠ m.numVariables ∧ expected = m.numVariables ∧ actual = c.length
  fault : c.length = m.numVariables → ∀ f, r = .ok (.error f) → f.Within 0 m.numConstraints
  result : ∀ a, r = .ok (.ok a) → P a

theorem settles_of_ends {α : Type} {m : Model} {c : Candidate} {P : α → Prop}
    {r : Except Crash (Except Fault α)}
    (h : c.length = m.numVariables → EndsWithin 0 m.numConstraints P r) :
    Settles m c P (if c.length = m.numVariables then r
      else .ok (.error (.sizeMismatch m.numVariables c.length))) := by
  by_cases hlen : c.length = m.numVariables
  · rw [if_pos hlen]
    have hends := h hlen
    cases hends with
    | result ha => exact ⟨⟨_, rfl⟩, by simp [hlen], by simp, fun a h => by cases h; exact ha⟩
    | @fault f hf =>
      refine ⟨⟨_, rfl⟩, fun expected actual => ?_, fun _ f' h => by cases h; exact hf, by simp⟩
      constructor
      · rintro ⟨⟩
        exact hf.elim
      · exact fun h => absurd hlen h.1
  · rw [if_neg hlen]
    exact ⟨⟨_, rfl⟩, by simp [hlen, eq_comm], fun h => absurd h hlen, by simp⟩

theorem Model.Records.covered {m : Model} {rs : List Registration} (hr : m.Records rs)
    {c : Candidate} (h : c.length = m.numVariables) : ∀ k ∈ m.constraints, k.Covered c.values := by
  intro k hk x hx
  obtain ⟨i, hi, rfl⟩ := List.getElem_of_mem hk
  have hrestates := hr.constraints.get hi (hr.constraints.length_eq ▸ hi)
  have hlt := Model.vars_lt_of_restates hrestates x hx
  rwa [← h] at hlt

/-- Whatever was registered, in whatever order and with whatever answers, no candidate makes the
scorer crash. With 64-bit values the sides of a constraint are no further apart than a 64-bit count
can say. -/
theorem scoring_settles (es : List Edit) (c : Candidate) :
    let m := Model.empty.afterAll es
    Settles m c (· ≤ maxCount) (ConstraintScorer.score m c)
      ∧ Settles m c (fun ps => ps.length = m.numConstraints ∧ ∀ p ∈ ps, p ≤ maxCount)
        (ConstraintScorer.breakdown m c)
      ∧ ((∀ v ∈ c.values, IntFormat.int64.Fits v) → ∀ k ∈ m.constraints, ∀ lhs rhs,
        k.sides c.values = .ok (some (lhs, rhs)) →
          IntFormat.int64.Fits lhs ∧ IntFormat.int64.Fits rhs ∧ (lhs - rhs).natAbs ≤ maxCount) := by
  intro m
  have hr := (Model.afterAll_records es Model.coherent_empty Model.records_empty).2
  have hcount : 0 + m.constraints.length ≤ m.numConstraints := Nat.le_of_eq (Nat.zero_add _)
  refine ⟨settles_of_ends fun h => ?_, settles_of_ends fun h => ?_, fun hvalues k _ lhs rhs h => ?_⟩
  · exact (scoreFrom_ends c.values m.constraints 0 0 (hr.covered h) (by decide)).mono
      (Nat.le_refl 0) hcount
  · exact (breakdownFrom_ends c.values m.constraints 0 (hr.covered h)).mono (Nat.le_refl 0) hcount
  · obtain ⟨hl, hr⟩ := Constraint.sides_fit hvalues h
    exact ⟨hl, hr, natAbs_sub_le hl hr⟩

/-- The least 64-bit integer has no opposite, so the product is a fault of the only constraint, and
a fault is all that it is. -/
theorem scoring_settles_least_times_minus_one :
    let es : List Edit := [.register (.decision "x" .existential .int (-9223372036854775808) 0),
      .register (.linear [(-1, "x")] .le "x")]
    let m := Model.empty.afterAll es
    let c : Candidate := ⟨[-9223372036854775808]⟩
    ConstraintScorer.score m c = .ok (.error (.overflow ⟨0⟩))
      ∧ Fault.Within 0 m.numConstraints (.overflow ⟨0⟩)
      ∧ (∀ v ∈ (Candidate.mk [5]).values, IntFormat.int64.Fits v)
      ∧ Constraint.sides (.linear ⟨[⟨-1, ⟨0⟩⟩], .le, ⟨0⟩⟩) [5] = .ok (some (-5, 5))
      ∧ ((-5 : Int) - 5).natAbs ≤ maxCount := by
  intro es m c
  have hscore : ConstraintScorer.score m c = .ok (.error (.overflow ⟨0⟩)) := by decide +kernel
  have hfits : ∀ v ∈ (Candidate.mk [5]).values, IntFormat.int64.Fits v := by decide
  have hsides : Constraint.sides (.linear ⟨[⟨-1, ⟨0⟩⟩], .le, ⟨0⟩⟩) [5] = .ok (some (-5, 5)) := by
    decide +kernel
  have hmem : Constraint.linear ⟨[⟨-1, ⟨0⟩⟩], .le, ⟨0⟩⟩ ∈ m.constraints := by decide +kernel
  exact ⟨hscore, (scoring_settles es c).1.fault (by decide +kernel) _ hscore, hfits, hsides,
    ((scoring_settles es ⟨[5]⟩).2.2 hfits _ hmem _ _ hsides).2.2⟩

end ScenarioSampling
