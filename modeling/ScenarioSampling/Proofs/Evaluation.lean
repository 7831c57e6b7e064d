import ScenarioSampling.Proofs.Faults

/-!
# Evaluation is exact or refused

The left side of a constraint is worked out from left to right in 64-bit integers. There is room for
it (`Constraint.HasRoom`) if every product and every sum on the way, in unbounded integers, is a
64-bit integer. Then evaluation gives the exact left side, and else it refuses
(`evaluation_exact_or_refused`): room for the end of a sum is not enough, but a term that adds
nothing changes nothing.
-/

namespace ScenarioSampling

section Steps

variable {f : IntFormat} {v : Int}

theorem checked_of_fits (h : f.Fits v) : f.checked v = some v := if_pos h

theorem checked_of_not_fits (h : ¬ f.Fits v) : f.checked v = none := if_neg h

theorem valueAt_of_lt {values : List Int} {x : VarIndex} (h : x.val < values.length) :
    valueAt values x = .ok (exactValue values x) := by
  obtain ⟨v, hv⟩ := valueAt_returns h
  rw [hv, (exactValue_of_valueAt hv).2]

end Steps

/-- The value of a term in unbounded integers. -/
def Term.exactProduct (values : List Int) (t : Term) : Int :=
  t.coefficient * exactValue values t.var

/-- The sum of the first `n` products. -/
def exactPartialSum (values : List Int) (ts : List Term) (n : Nat) : Int :=
  ((ts.take n).map (Term.exactProduct values)).sum

namespace LinearRelation

/-- Every product is a 64-bit integer, and so is `acc` with any number of the first ones added. -/
def RoomFrom (values : List Int) (ts : List Term) (acc : Int) : Prop :=
  (∀ t ∈ ts, IntFormat.int64.Fits (t.exactProduct values))
    ∧ ∀ n ≤ ts.length, IntFormat.int64.Fits (acc + exactPartialSum values ts n)

end LinearRelation

/-- Both steps of the product fit the format of values. -/
def ProductRelation.HasRoom (c : ProductRelation) (values : List Int) : Prop :=
  IntFormat.int64.Fits (c.factor * exactValue values c.left)
    ∧ IntFormat.int64.Fits (c.factor * exactValue values c.left * exactValue values c.right)

/-- Whatever is worked out on the way to the left side is a 64-bit integer. -/
def Constraint.HasRoom (c : Constraint) (values : List Int) : Prop :=
  match c with
  | linear c => LinearRelation.RoomFrom values c.terms 0
  | product c => c.HasRoom values

instance (c : Constraint) (values : List Int) : Decidable (c.Covered values) :=
  inferInstanceAs (Decidable (∀ x ∈ c.vars, x.val < values.length))

instance (c : Constraint) (values : List Int) : Decidable (c.HasRoom values) :=
  match c with
  | .linear _ => inferInstanceAs (Decidable (_ ∧ _))
  | .product _ => inferInstanceAs (Decidable (_ ∧ _))

namespace LinearRelation

variable {values : List Int} {t : Term} {ts : List Term} {acc : Int}

theorem roomFrom_nil : RoomFrom values [] acc ↔ IntFormat.int64.Fits acc := by
  simp [RoomFrom, exactPartialSum]

/-- The sums over `t :: ts` are the one without terms and those over `ts` with the product of `t`
added before. -/
theorem roomFrom_cons : RoomFrom values (t :: ts) acc ↔ IntFormat.int64.Fits acc
    ∧ IntFormat.int64.Fits (t.exactProduct values)
    ∧ RoomFrom values ts (acc + t.exactProduct values) := by
  have hsucc : ∀ n, acc + exactPartialSum values (t :: ts) (n + 1)
      = acc + t.exactProduct values + exactPartialSum values ts n := by
    intro n
    simp [exactPartialSum, Int.add_assoc]
  constructor
  · rintro ⟨hproducts, hsums⟩
    obtain ⟨ht, hts⟩ := List.forall_mem_cons.1 hproducts
    refine ⟨by simpa [exactPartialSum] using hsums 0 (Nat.zero_le _), ht, hts, fun n hn => ?_⟩
    rw [← hsucc]
    exact hsums (n + 1) (Nat.succ_le_succ hn)
  · rintro ⟨hacc, ht, hts, hsums⟩
    refine ⟨List.forall_mem_cons.2 ⟨ht, hts⟩, fun n hn => ?_⟩
    cases n with
    | zero => simpa [exactPartialSum] using hacc
    | succ n =>
      rw [hsucc]
      exact hsums n (Nat.le_of_succ_le_succ hn)

theorem sumFrom_cons (ht : t.var.val < values.length) :
    sumFrom values (t :: ts) acc = match IntFormat.int64.checked (t.exactProduct values) with
      | none => .ok none
      | some product =>
        match IntFormat.int64.checked (acc + product) with
        | none => .ok none
        | some acc => sumFrom values ts acc := by
  rw [sumFrom, valueAt_of_lt ht]
  rfl

/-- Where there is room the sum is exact, and else there is none. -/
theorem sumFrom_settles : ∀ (ts : List Term) (acc : Int), IntFormat.int64.Fits acc →
    (∀ x ∈ ts.map Term.var, x.val < values.length) →
      (RoomFrom values ts acc →
        sumFrom values ts acc = .ok (some (acc + (ts.map (Term.exactProduct values)).sum)))
      ∧ (¬ RoomFrom values ts acc → sumFrom values ts acc = .ok none)
  | [], acc, hacc, _ => by simp [roomFrom_nil, sumFrom, hacc]
  | t :: ts, acc, hacc, h => by
    obtain ⟨ht, hts⟩ := List.forall_mem_cons.1 h
    rw [sumFrom_cons ht, roomFrom_cons]
    by_cases hp : IntFormat.int64.Fits (t.exactProduct values)
    · simp only [checked_of_fits hp, hp, hacc, true_and]
      by_cases hs : IntFormat.int64.Fits (acc + t.exactProduct values)
      · have ih := sumFrom_settles ts (acc + t.exactProduct values) hs hts
        simpa [checked_of_fits hs, Int.add_assoc] using ih
      · have hroom : ¬ RoomFrom values ts (acc + t.exactProduct values) := fun hroom =>
          hs (by simpa [exactPartialSum] using hroom.2 0 (Nat.zero_le _))
        simp [checked_of_not_fits hs, hroom]
    · simp [checked_of_not_fits hp, hp]

/-- A term that adds zero leaves the rest as it was, crashes included. -/
theorem sumFrom_insert {x : VarIndex} (hx : x.val < values.length) (after : List Term) :
    ∀ (before : List Term) (acc : Int), IntFormat.int64.Fits acc →
      sumFrom values (before ++ ⟨0, x⟩ :: after) acc = sumFrom values (before ++ after) acc
  | [], acc, hacc => by
    have hproduct : Term.exactProduct values ⟨0, x⟩ = 0 := Int.zero_mul _
    have hzero : IntFormat.int64.Fits 0 := by decide
    simp [sumFrom_cons (t := ⟨0, x⟩) hx, hproduct, checked_of_fits hzero, checked_of_fits hacc]
  | t :: before, acc, hacc => by
    simp only [List.cons_append]
    unfold sumFrom
    refine congrArg (valueAt values t.var >>= ·) (funext fun v => ?_)
    split
    · rfl
    · split
      · rfl
      · rename_i acc' hacc'
        exact sumFrom_insert hx after before acc' (checked_fits hacc')

end LinearRelation

theorem ProductRelation.lhsValue_settles {c : ProductRelation} {values : List Int}
    (hleft : c.left.val < values.length) (hright : c.right.val < values.length) :
    (c.HasRoom values → c.lhsValue values
        = .ok (some (c.factor * exactValue values c.left * exactValue values c.right)))
      ∧ (¬ c.HasRoom values → c.lhsValue values = .ok none) := by
  have heq : c.lhsValue values =
      match IntFormat.int64.checked (c.factor * exactValue values c.left) with
      | none => .ok none
      | some scaled => .ok (IntFormat.int64.checked (scaled * exactValue values c.right)) := by
    rw [lhsValue, valueAt_of_lt hleft, valueAt_of_lt hright]
    rfl
  rw [heq, HasRoom]
  by_cases hs : IntFormat.int64.Fits (c.factor * exactValue values c.left)
  · by_cases hp : IntFormat.int64.Fits
      (c.factor * exactValue values c.left * exactValue values c.right)
    · simp [checked_of_fits hs, checked_of_fits hp, hs, hp]
    · simp [checked_of_fits hs, checked_of_not_fits hp, hp]
  · simp [checked_of_not_fits hs, hs]

namespace Constraint

variable {c : Constraint} {values : List Int}

theorem lhsValue_settles (h : c.Covered values) :
    (c.HasRoom values → c.lhsValue values = .ok (some (c.exactLhs values)))
      ∧ (¬ c.HasRoom values → c.lhsValue values = .ok none) := by
  cases c with
  | linear c =>
    have hterms := (List.forall_mem_append.1 h).1
    have hsum := LinearRelation.sumFrom_settles c.terms 0 (by decide) hterms
    rwa [Int.zero_add] at hsum
  | product c =>
    exact ProductRelation.lhsValue_settles (h c.left (by simp [vars])) (h c.right (by simp [vars]))

theorem lhsValue_eq_some_iff (h : c.Covered values) (v : Int) :
    c.lhsValue values = .ok (some v) ↔ c.HasRoom values ∧ v = c.exactLhs values := by
  obtain ⟨hroom, hnone⟩ := lhsValue_settles h
  by_cases hr : c.HasRoom values
  · simp [hroom hr, hr, eq_comm]
  · simp [hnone hr, hr]

theorem lhsValue_eq_none_iff (h : c.Covered values) :
    c.lhsValue values = .ok none ↔ ¬ c.HasRoom values := by
  obtain ⟨hroom, hnone⟩ := lhsValue_settles h
  by_cases hr : c.HasRoom values
  · simp [hroom hr, hr]
  · simp [hnone hr, hr]

end Constraint

/-- With a value for every variable, evaluation gives a left side exactly if there is room for it,
which is then the exact one, and else it refuses. Whatever values there are, a left side that is
given is exact and a 64-bit integer. A term with the coefficient zero, wherever it is put into a
linear relation, changes neither what is given nor whether it is refused. -/
theorem evaluation_exact_or_refused (values : List Int) :
    (∀ c : Constraint, c.Covered values →
        (∀ v, c.lhsValue values = .ok (some v) ↔ c.HasRoom values ∧ v = c.exactLhs values)
          ∧ (c.lhsValue values = .ok none ↔ ¬ c.HasRoom values))
      ∧ (∀ (c : Constraint) (v : Int), c.lhsValue values = .ok (some v) →
        v = c.exactLhs values ∧ IntFormat.int64.Fits v)
      ∧ ∀ (before after : List Term) (comparison : Comparison) (x rhs : VarIndex),
        x.val < values.length →
          (LinearRelation.mk (before ++ ⟨0, x⟩ :: after) comparison rhs).lhsValue values
            = (LinearRelation.mk (before ++ after) comparison rhs).lhsValue values := by
  refine ⟨fun c h => ⟨c.lhsValue_eq_some_iff h, c.lhsValue_eq_none_iff h⟩, fun c v h => ?_,
    fun before after _ x _ hx => ?_⟩
  · exact ⟨(lhsValue_exact h).2, Constraint.lhsValue_fits h⟩
  · exact LinearRelation.sumFrom_insert hx after before 0 (by decide)

/-- The greatest value twice and then once less has no room on the way, although it would at the
end; once less in between, it has. -/
theorem evaluation_exact_or_refused_on_the_way :
    let values : List Int := [9223372036854775807]
    let c : Constraint := .linear ⟨[⟨1, ⟨0⟩⟩, ⟨1, ⟨0⟩⟩, ⟨-1, ⟨0⟩⟩], .eq, ⟨0⟩⟩
    let c' : Constraint := .linear ⟨[⟨1, ⟨0⟩⟩, ⟨-1, ⟨0⟩⟩, ⟨1, ⟨0⟩⟩], .eq, ⟨0⟩⟩
    c.Covered values ∧ c.exactLhs values = 9223372036854775807 ∧ c.lhsValue values = .ok none
      ∧ c'.Covered values ∧ c'.lhsValue values = .ok (some 9223372036854775807)
      ∧ IntFormat.int64.Fits 9223372036854775807
      ∧ LinearRelation.lhsValue ⟨[⟨1, ⟨0⟩⟩, ⟨0, ⟨0⟩⟩, ⟨-1, ⟨0⟩⟩, ⟨1, ⟨0⟩⟩], .eq, ⟨0⟩⟩ values
        = .ok (some 9223372036854775807) := by
  intro values c c'
  obtain ⟨hsettles, hexact, hinsert⟩ := evaluation_exact_or_refused values
  have hc : c.Covered values := by decide
  have hc' : c'.Covered values := by decide
  have hgiven : c'.lhsValue values = .ok (some 9223372036854775807) :=
    ((hsettles c' hc').1 _).2 (by decide)
  refine ⟨hc, by decide, (hsettles c hc).2.2 (by decide), hc', hgiven, (hexact c' _ hgiven).2, ?_⟩
  exact (hinsert [⟨1, ⟨0⟩⟩] [⟨-1, ⟨0⟩⟩, ⟨1, ⟨0⟩⟩] .eq ⟨0⟩ ⟨0⟩ (by decide)).trans hgiven

end ScenarioSampling
