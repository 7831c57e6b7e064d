import ScenarioSampling.Proofs.Evaluation

/-!
# Which values a constraint reads

Both sides of a constraint are worked out while its variables are read, in reading order. With a
value for its greatest variable there is one for every variable, and no read is out of range. Else
some variable is the first without a value: if there is room for what is worked out before it is
read (`Constraint.HasRoomUpTo`), reading it is a crash, and if there is none evaluation has been
refused by then (`Constraint.sides_of_uncovered`). Either way there are no two sides
(`greatest_variable_guards`).
-/

namespace ScenarioSampling

/-- The greater of two variables, the later one of equals. -/
def keepGreater (best : Option VarIndex) (x : VarIndex) : Option VarIndex :=
  match best with
  | none => some x
  | some y => if y.val ≤ x.val then some x else some y

theorem keepGreater_some (y x : VarIndex) :
    ∃ b, keepGreater (some y) x = some b ∧ (b = y ∨ b = x) ∧ y.val ≤ b.val ∧ x.val ≤ b.val := by
  by_cases h : y.val ≤ x.val
  · exact ⟨x, if_pos h, .inr rfl, h, Nat.le_refl _⟩
  · exact ⟨y, if_neg h, .inl rfl, Nat.le_refl _, Nat.le_of_not_le h⟩

theorem foldl_keepGreater : ∀ (xs : List VarIndex) (y : VarIndex),
    ∃ m ∈ y :: xs, xs.foldl keepGreater (some y) = some m ∧ ∀ x ∈ y :: xs, x.val ≤ m.val
  | [], y => ⟨y, by simp⟩
  | x :: xs, y => by
    obtain ⟨b, hstep, hb, hyb, hxb⟩ := keepGreater_some y x
    obtain ⟨m, hm, hfold, hge⟩ := foldl_keepGreater xs b
    obtain ⟨hbm, hxs⟩ := List.forall_mem_cons.1 hge
    refine ⟨m, ?_, by rw [List.foldl_cons, hstep, hfold], ?_⟩
    · rcases List.mem_cons.1 hm with rfl | hm
      · rcases hb with rfl | rfl
        · exact List.mem_cons_self
        · exact List.mem_cons_of_mem y List.mem_cons_self
      · exact List.mem_cons_of_mem y (List.mem_cons_of_mem x hm)
    · exact List.forall_mem_cons.2 ⟨Nat.le_trans hyb hbm,
        List.forall_mem_cons.2 ⟨Nat.le_trans hxb hbm, hxs⟩⟩

theorem Constraint.maxVariable_spec (c : Constraint) :
    ∃ m ∈ c.vars, c.maxVariable = some m ∧ ∀ x ∈ c.vars, x.val ≤ m.val := by
  have hfold : c.maxVariable = c.vars.foldl keepGreater none := rfl
  rw [hfold]
  rcases hvars : c.vars with _ | ⟨y, xs⟩
  · exact absurd (hvars ▸ c.target_mem_vars) List.not_mem_nil
  · exact foldl_keepGreater xs y

section Reads

variable {values : List Int} {x : VarIndex}

theorem valueAt_of_le (h : values.length ≤ x.val) :
    valueAt values x = .error (.outOfRange values.length x.val) := by
  rw [valueAt, List.getElem?_eq_none h]

namespace LinearRelation

/-- The later terms are added to what the earlier ones come to, if they come to anything. -/
theorem sumFrom_append (us : List Term) : ∀ (ts : List Term) (acc : Int),
    sumFrom values (ts ++ us) acc = sumFrom values ts acc >>= fun
      | none => .ok none
      | some s => sumFrom values us s
  | [], _ => rfl
  | t :: ts, acc => by
    rw [List.cons_append, sumFrom, sumFrom, bind_assoc]
    refine congrArg (valueAt values t.var >>= ·) (funext fun v => ?_)
    split
    · rfl
    · split
      · rfl
      · exact sumFrom_append us ts _

theorem sumFrom_of_uncovered {ts : List Term} {t : Term} (us : List Term)
    (hts : ∀ x ∈ ts.map Term.var, x.val < values.length) (ht : values.length ≤ t.var.val) :
    (RoomFrom values ts 0 → sumFrom values (ts ++ t :: us) 0
        = .error (.outOfRange values.length t.var.val))
      ∧ (¬ RoomFrom values ts 0 → sumFrom values (ts ++ t :: us) 0 = .ok none) := by
  obtain ⟨hroom, hnone⟩ := sumFrom_settles ts 0 (by decide) hts
  rw [sumFrom_append]
  refine ⟨fun h => ?_, fun h => ?_⟩
  · rw [hroom h]
    change sumFrom values (t :: us) _ = _
    rw [sumFrom, valueAt_of_le ht]
    rfl
  · rw [hnone h]
    rfl

end LinearRelation

/-- The left factor is read before the first product is worked out, the right one before the other.
-/
def ProductRelation.HasRoomUpTo (c : ProductRelation) (values : List Int) : Nat → Prop
  | 0 => True
  | 1 => IntFormat.int64.Fits (c.factor * exactValue values c.left)
  | _ + 2 => c.HasRoom values

namespace Constraint

/-- What is worked out from the first `k` variables that are read is all 64-bit integers. -/
def HasRoomUpTo (c : Constraint) (values : List Int) (k : Nat) : Prop :=
  match c with
  | linear c => LinearRelation.RoomFrom values (c.terms.take k) 0
  | product c => c.HasRoomUpTo values k

theorem sides_of_error {c : Constraint} {crash : Crash} (h : c.lhsValue values = .error crash) :
    c.sides values = .error crash := by
  rw [sides, h]
  rfl

theorem sides_of_none {c : Constraint} (h : c.lhsValue values = .ok none) :
    c.sides values = .ok none := by
  rw [sides, h]
  rfl

theorem sides_of_some {c : Constraint} {lhs : Int} (h : c.lhsValue values = .ok (some lhs))
    (ht : values.length ≤ c.target.val) :
    c.sides values = .error (.outOfRange values.length c.target.val) := by
  rw [sides, h]
  change (valueAt values c.target >>= _) = _
  rw [valueAt_of_le ht]
  rfl

end Constraint

/-- A variable of a linear relation is that of a term, or the right side. -/
theorem LinearRelation.vars_split {ts : List Term} {rhs : VarIndex} {before after : List VarIndex}
    (h : ts.map Term.var ++ [rhs] = before ++ x :: after) :
    (∃ us t vs, ts = us ++ t :: vs ∧ us.map Term.var = before ∧ t.var = x)
      ∨ (ts.map Term.var = before ∧ rhs = x) := by
  rcases List.append_eq_append_iff.1 h with ⟨as, rfl, hlast⟩ | ⟨as, hts, hlast⟩
  · rcases as with _ | ⟨y, as⟩
    · exact .inr ⟨(List.append_nil _).symm, (List.cons.inj hlast).1⟩
    · simp at hlast
  · rcases as with _ | ⟨y, as⟩
    · exact .inr ⟨hts.trans (List.append_nil _), (List.cons.inj hlast).1.symm⟩
    · obtain ⟨rfl, -⟩ := List.cons.inj hlast
      obtain ⟨us, vs, rfl, hus, hvs⟩ := List.map_eq_append_iff.1 hts
      obtain ⟨t, vs, rfl, ht, -⟩ := List.map_eq_cons_iff.1 hvs
      exact .inl ⟨us, t, vs, rfl, hus, ht⟩

theorem LinearRelation.sides_of_uncovered {c : LinearRelation} {before after : List VarIndex}
    (hvars : c.terms.map Term.var ++ [c.rhs] = before ++ x :: after)
    (hbefore : ∀ y ∈ before, y.val < values.length) (hx : values.length ≤ x.val) :
    (RoomFrom values (c.terms.take before.length) 0
        → (Constraint.linear c).sides values = .error (.outOfRange values.length x.val))
      ∧ (¬ RoomFrom values (c.terms.take before.length) 0
        → (Constraint.linear c).sides values = .ok none) := by
  rcases vars_split hvars with ⟨us, t, vs, hterms, rfl, rfl⟩ | ⟨rfl, rfl⟩
  · have hl : c.lhsValue values = sumFrom values (us ++ t :: vs) 0 := by rw [lhsValue, hterms]
    obtain ⟨hroom, hnone⟩ := sumFrom_of_uncovered vs hbefore hx
    rw [List.length_map, hterms, List.take_left]
    exact ⟨fun h => Constraint.sides_of_error (hl.trans (hroom h)),
      fun h => Constraint.sides_of_none (hl.trans (hnone h))⟩
  · obtain ⟨hroom, hnone⟩ := sumFrom_settles c.terms 0 (by decide) hbefore
    rw [List.length_map, List.take_length]
    exact ⟨fun h => Constraint.sides_of_some (c := .linear c) (hroom h) hx,
      fun h => Constraint.sides_of_none (c := .linear c) (hnone h)⟩

theorem ProductRelation.sides_of_uncovered {c : ProductRelation} {before after : List VarIndex}
    (hvars : [c.left, c.right, c.result] = before ++ x :: after)
    (hbefore : ∀ y ∈ before, y.val < values.length) (hx : values.length ≤ x.val) :
    (c.HasRoomUpTo values before.length
        → (Constraint.product c).sides values = .error (.outOfRange values.length x.val))
      ∧ (¬ c.HasRoomUpTo values before.length
        → (Constraint.product c).sides values = .ok none) := by
  rcases before with _ | ⟨left, _ | ⟨right, _ | ⟨result, before⟩⟩⟩
  · obtain ⟨rfl, -⟩ := List.cons.inj hvars
    have hl : c.lhsValue values = .error (.outOfRange values.length c.left.val) := by
      rw [lhsValue, valueAt_of_le hx]
      rfl
    exact ⟨fun _ => Constraint.sides_of_error hl, fun h => (h trivial).elim⟩
  · obtain ⟨rfl, hrest⟩ := List.cons.inj hvars
    obtain ⟨rfl, -⟩ := List.cons.inj hrest
    have hl : c.lhsValue values =
        match IntFormat.int64.checked (c.factor * exactValue values c.left) with
        | none => .ok none
        | some _ => .error (.outOfRange values.length c.right.val) := by
      rw [lhsValue, valueAt_of_lt (hbefore _ List.mem_cons_self), valueAt_of_le hx]
      rfl
    refine ⟨fun h => Constraint.sides_of_error ?_, fun h => Constraint.sides_of_none ?_⟩
    · exact hl.trans (by rw [checked_of_fits h])
    · exact hl.trans (by rw [checked_of_not_fits h])
  · obtain ⟨rfl, hrest⟩ := List.cons.inj hvars
    obtain ⟨rfl, hlast⟩ := List.cons.inj hrest
    obtain ⟨rfl, -⟩ := List.cons.inj hlast
    obtain ⟨hleft, hright⟩ := List.forall_mem_cons.1 hbefore
    obtain ⟨hroom, hnone⟩ := lhsValue_settles hleft (hright _ List.mem_cons_self)
    exact ⟨fun h => Constraint.sides_of_some (c := .product c) (hroom h) hx,
      fun h => Constraint.sides_of_none (c := .product c) (hnone h)⟩
  · simp at hvars

/-- Where `x` is the first variable without a value, reading it is a crash, unless there was no room
for what had to be worked out before. -/
theorem Constraint.sides_of_uncovered {c : Constraint} {before after : List VarIndex}
    (hvars : c.vars = before ++ x :: after) (hbefore : ∀ y ∈ before, y.val < values.length)
    (hx : values.length ≤ x.val) :
    (c.HasRoomUpTo values before.length
        → c.sides values = .error (.outOfRange values.length x.val))
      ∧ (¬ c.HasRoomUpTo values before.length → c.sides values = .ok none) := by
  cases c with
  | linear c => exact c.sides_of_uncovered hvars hbefore hx
  | product c => exact c.sides_of_uncovered hvars hbefore hx

theorem exists_first_uncovered {xs : List VarIndex} (hx : x ∈ xs) (h : values.length ≤ x.val) :
    ∃ before y after, xs = before ++ y :: after ∧ (∀ z ∈ before, z.val < values.length)
      ∧ values.length ≤ y.val := by
  have hsome : (xs.find? fun y => values.length ≤ y.val).isSome = true :=
    List.find?_isSome.2 ⟨x, hx, decide_eq_true h⟩
  obtain ⟨y, hy⟩ := Option.isSome_iff_exists.1 hsome
  obtain ⟨huncovered, before, after, hsplit, hbefore⟩ := List.find?_eq_some_iff_append.1 hy
  refine ⟨before, y, after, hsplit, fun z hz => ?_, of_decide_eq_true huncovered⟩
  simpa using hbefore z hz

end Reads

/-- Every constraint has a greatest variable. If that has a value, neither working out the left side
nor both sides reads out of range. If not, there is a variable that is the first to be read without
a value: either reading it is the crash that the two sides end in, or what had to be worked out
before had no room and evaluation was refused. So both sides are only ever given with a value for
every variable. -/
theorem greatest_variable_guards (c : Constraint) (values : List Int) :
    ∃ m, c.maxVariable = some m ∧ (m ∈ c.vars ∧ ∀ x ∈ c.vars, x.val ≤ m.val)
      ∧ (m.val < values.length →
        (∃ lhs, c.lhsValue values = .ok lhs) ∧ ∃ sides, c.sides values = .ok sides)
      ∧ (values.length ≤ m.val → ∃ before x after, c.vars = before ++ x :: after
        ∧ (∀ y ∈ before, y.val < values.length) ∧ values.length ≤ x.val
        ∧ ((c.HasRoomUpTo values before.length
            ∧ c.sides values = .error (.outOfRange values.length x.val))
          ∨ (¬ c.HasRoomUpTo values before.length ∧ c.sides values = .ok none)))
      ∧ ∀ lhs rhs, c.sides values = .ok (some (lhs, rhs)) →
        ∀ x ∈ c.vars, x.val < values.length := by
  obtain ⟨m, hm, hmax, hge⟩ := c.maxVariable_spec
  refine ⟨m, hmax, ⟨hm, hge⟩, fun hlt => ?_, fun hle => ?_, fun lhs rhs h => (sides_exact h).1⟩
  · have hcovered : c.Covered values := fun x hx => Nat.lt_of_le_of_lt (hge x hx) hlt
    exact ⟨Constraint.lhsValue_returns hcovered, Constraint.sides_returns hcovered⟩
  · obtain ⟨before, x, after, hvars, hbefore, hx⟩ := exists_first_uncovered hm hle
    obtain ⟨hcrash, hnone⟩ := Constraint.sides_of_uncovered hvars hbefore hx
    refine ⟨before, x, after, hvars, hbefore, hx, ?_⟩
    by_cases hroom : c.HasRoomUpTo values before.length
    · exact .inl ⟨hroom, hcrash hroom⟩
    · exact .inr ⟨hroom, hnone hroom⟩

/-- Twice the greatest 64-bit integer has no room, and that is found before the second term is read.
The product has a value for each of its variables. -/
theorem greatest_variable_guards_after_overflow :
    let values : List Int := [9223372036854775807]
    let c : Constraint := .linear ⟨[⟨2, ⟨0⟩⟩, ⟨1, ⟨3⟩⟩], .eq, ⟨1⟩⟩
    let values' : List Int := [10, -10, 0, -1]
    let c' : Constraint := .product ⟨1, ⟨0⟩, ⟨3⟩, .eq, ⟨1⟩⟩
    (c.maxVariable = some ⟨3⟩ ∧ values.length ≤ 3
        ∧ ∃ before x after, c.vars = before ++ x :: after ∧ values.length ≤ x.val
          ∧ ¬ c.HasRoomUpTo values before.length ∧ c.sides values = .ok none)
      ∧ (c'.maxVariable = some ⟨3⟩ ∧ 3 < values'.length ∧ ∃ sides, c'.sides values' = .ok sides)
      ∧ (c'.sides values' = .ok (some (-10, -10)) ∧ ∀ x ∈ c'.vars, x.val < values'.length) := by
  intro values c values' c'
  have hc : c.maxVariable = some ⟨3⟩ := by decide
  have hc' : c'.maxVariable = some ⟨3⟩ := by decide
  have hnone : c.sides values = .ok none := by decide
  have hsides : c'.sides values' = .ok (some (-10, -10)) := by decide
  obtain ⟨m, hm, -, -, hfirst, -⟩ := greatest_variable_guards c values
  obtain ⟨m', hm', -, hreturns, -, hcovered⟩ := greatest_variable_guards c' values'
  obtain rfl : ⟨3⟩ = m := Option.some.inj (hc.symm.trans hm)
  obtain rfl : ⟨3⟩ = m' := Option.some.inj (hc'.symm.trans hm')
  obtain ⟨before, x, after, hvars, -, hx, ⟨-, hcrash⟩ | ⟨hroom, -⟩⟩ := hfirst (by decide)
  · cases hnone.symm.trans hcrash
  · exact ⟨⟨hc, by decide, before, x, after, hvars, hx, hroom, hnone⟩,
      ⟨hc', by decide, (hreturns (by decide)).2⟩, hsides, hcovered _ _ hsides⟩

end ScenarioSampling
