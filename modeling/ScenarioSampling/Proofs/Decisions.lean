import Mathlib.Data.List.TakeWhile
import Mathlib.Data.List.Nodup
import ScenarioSampling.Sampling.Region

/-!
# The region as a stack and a map

A region is what its declared domains, a stack of choices and a map of pins make it: a variable is
held at its pin, else it has the domain chosen for it, else the declared one. `Decisions` keeps the
stack and the map only, and every operation of a region is one on these two.

A choice that patches a single domain relies on two facts: no variable is pinned then, and no two
entries of the stack are on one variable, so the order they are applied in does not matter.
-/

namespace ScenarioSampling

namespace Interval

variable {f : IntFormat} {a d : Interval f} {lo hi : Int}

/-- What `a` has of the values from `lo` to `hi`. -/
def within? (a : Interval f) (lo hi : Int) : Option (Interval f) :=
  if h : f.Fits lo ∧ f.Fits hi ∧ max lo a.lo ≤ min hi a.hi then
    some ⟨max lo a.lo, min hi a.hi, Int.le_trans h.1.1 (Int.le_max_left ..), h.2.2,
      Int.le_trans (Int.min_le_left ..) h.2.1.2⟩
  else none

theorem contains_within (h : a.within? lo hi = some d) (v : Int) :
    d.contains v = true ↔ lo ≤ v ∧ v ≤ hi ∧ a.contains v = true := by
  unfold within? at h
  split at h
  · obtain rfl := Option.some.inj h
    simp only [contains_iff]
    omega
  · cases h

theorem contains_singleton {v u : Int} (h : f.Fits v) :
    (singleton v h).contains u = true ↔ u = v := by
  rw [contains_iff]
  change v ≤ u ∧ u ≤ v ↔ u = v
  omega

theorem isSubsetOf_iff : d.isSubsetOf a = true ↔ ∀ v, d.contains v = true → a.contains v = true := by
  have hd := d.lo_le_hi
  simp only [isSubsetOf, contains_iff, Bool.and_eq_true, decide_eq_true_eq]
  constructor
  · intro h v hv
    omega
  · intro h
    exact ⟨(h d.lo ⟨Int.le_refl _, hd⟩).1, (h d.hi ⟨hd, Int.le_refl _⟩).2⟩

theorem within_isSubsetOf (h : a.within? lo hi = some d) : d.isSubsetOf a = true := by
  rw [isSubsetOf_iff]
  exact fun v hv => ((contains_within h v).mp hv).2.2

theorem of_bind_intersection (a : Interval f) (lo hi : Int) :
    ((of? f lo hi).bind fun b => b.intersection a) = a.within? lo hi := by
  by_cases h : f.Fits lo ∧ f.Fits hi ∧ max lo a.lo ≤ min hi a.hi
  · have hl : f.least ≤ lo ∧ lo ≤ hi ∧ hi ≤ f.greatest := by
      obtain ⟨⟨h1, -⟩, ⟨-, h2⟩, h3⟩ := h
      omega
    have hm : f.least ≤ max lo a.lo ∧ max lo a.lo ≤ min hi a.hi ∧ min hi a.hi ≤ f.greatest := by
      obtain ⟨-, -, h3⟩ := h
      omega
    rw [within?, dif_pos h, of?, dif_pos hl, Option.bind_some, intersection, of?, dif_pos hm]
  · rw [within?, dif_neg h]
    unfold of?
    split
    · rename_i hl
      have hf : f.Fits lo ∧ f.Fits hi := by
        unfold IntFormat.Fits
        omega
      rw [Option.bind_some, intersection, of?]
      exact dif_neg fun hd => h ⟨hf.1, hf.2, hd.2.1⟩
    · rfl

end Interval

/-- An operation on a region. -/
inductive Region.Operation where
  | choose (x : VarIndex) (lo hi : Int)
  | fail
  | share (s : Scenario)
  | reset
  | apply (e : Event)

/-- What a region makes of an operation; a choice that is refused leaves it alone. -/
def Region.perform (d : Region) : Operation → Region
  | .choose x lo hi =>
    match d.choose x lo hi with
    | .ok d => d
    | .error _ => d
  | .fail => d.fail.1
  | .share s => (d.share s).1
  | .reset => d.reset
  | .apply e => d.apply e

/-- What the search has decided: its choices, oldest first, and the values it shared since. -/
@[ext]
structure Decisions where
  stack : List Choice
  pins : VarIndex → Option {v : Int // IntFormat.int64.Fits v}

namespace Decisions

variable (declared : List Domain)

/-- Choices alone, without pins. -/
def ofStack (cs : List Choice) : Decisions := ⟨cs, fun _ => none⟩

/-- The choices below the one on `x`, or all of them. -/
def below (n : Decisions) (x : VarIndex) : List Choice := n.stack.takeWhile fun c => c.var ≠ x

/-- A choice that leaves nothing of a declared domain, or is on no variable, is ignored. -/
def choose (n : Decisions) (x : VarIndex) (lo hi : Int) : Decisions :=
  match declared[x.val]?.bind fun a => a.within? lo hi with
  | none => n
  | some domain => ofStack (n.below x ++ [⟨x, domain⟩])

/-- Drops the latest choice and all pins. -/
def fail (n : Decisions) : Decisions := ofStack n.stack.dropLast

/-- The pin of `x` at `v`, if that is in its declared domain. -/
def pin? (x : VarIndex) (v : Int) : Option {v : Int // IntFormat.int64.Fits v} :=
  declared[x.val]?.bind fun a =>
    if h : a.contains v = true then some ⟨v, Interval.fits_of_contains h⟩ else none

/-- Overrides the pins of all variables that `s` assigns a value of the declared domain. -/
def share (n : Decisions) (s : Scenario) : Decisions :=
  { n with pins := fun x => ((s.get? x).bind (pin? declared x)).or (n.pins x) }

/-- Follows an event; one that ends the search decides nothing. -/
def apply (n : Decisions) : Event → Decisions
  | .choice x lo hi => n.choose declared x lo hi
  | .failure => n.fail
  | .shared s => n.share declared s
  | .globalFailure | .strategyFound => n

/-- Follows an operation on a region. -/
def perform (n : Decisions) : Region.Operation → Decisions
  | .choose x lo hi => n.choose declared x lo hi
  | .fail => n.fail
  | .share s => n.share declared s
  | .reset => ofStack []
  | .apply e => n.apply declared e

/-- The domain of the choice on `x`. -/
def chosen? (n : Decisions) (x : VarIndex) : Option Domain :=
  (n.stack.find? fun c => c.var = x).map Choice.domain

/-- The current domain of a variable with the declared domain `a`. -/
def domainOf (n : Decisions) (x : VarIndex) (a : Domain) : Domain :=
  match n.pins x with
  | some v => .singleton v.1 v.2
  | none => (n.chosen? x).getD a

/-- Which variables are pinned, in index order. -/
def flags (n : Decisions) : List Bool := declared.mapIdx fun i _ => (n.pins ⟨i⟩).isSome

/-- The region that has followed these decisions. -/
def region (n : Decisions) : Region where
  declared := declared
  current := declared.mapIdx fun i a => n.domainOf ⟨i⟩ a
  choices := n.stack
  pinned := n.flags declared
  numPinned := (n.flags declared).count true

/-- No variable is on the stack twice, and neither a choice nor a pin leaves a declared domain. -/
structure Valid (n : Decisions) : Prop where
  distinct : (n.stack.map Choice.var).Nodup
  chosen : ∀ c ∈ n.stack, ∃ a, declared[c.var.val]? = some a ∧ c.domain.isSubsetOf a = true
  pinned : ∀ x v, n.pins x = some v → ∃ a, declared[x.val]? = some a ∧ a.contains v.1 = true

variable {declared} {n : Decisions}

section Stack

/-- The entries are on different variables, so each domain is set once at most. -/
theorem narrow_getElem? : ∀ (cs : List Choice) (declared : List Domain),
    (cs.map Choice.var).Nodup → ∀ i : Nat, (Region.narrow declared cs)[i]? =
      declared[i]?.map fun a => ((cs.find? fun c => c.var = ⟨i⟩).map Choice.domain).getD a
  | [], declared, _, i => by simp [Region.narrow]
  | c :: cs, declared, h, i => by
    obtain ⟨hc, hcs⟩ := List.nodup_cons.mp h
    have ih := narrow_getElem? cs (declared.set c.var.val c.domain) hcs i
    rw [Region.narrow, List.foldl_cons]
    refine ih.trans ?_
    by_cases hi : c.var = ⟨i⟩
    · have hno : cs.find? (fun e => e.var = ⟨i⟩) = none := by
        rw [List.find?_eq_none]
        intro e he
        simp only [decide_eq_true_eq]
        exact fun heq => hc (List.mem_map.mpr ⟨e, he, heq.trans hi.symm⟩)
      rw [hno, List.find?_cons_of_pos (by simpa using hi), hi, List.getElem?_set_self']
      rcases declared[i]? with _ | a <;> rfl
    · rw [List.find?_cons_of_neg (by simpa using hi), List.getElem?_set_ne]
      rintro rfl
      exact hi rfl

theorem narrow_eq {cs : List Choice} (h : (cs.map Choice.var).Nodup) :
    Region.narrow declared cs = ((ofStack cs).region declared).current := by
  apply List.ext_getElem?
  intro i
  rw [narrow_getElem? cs declared h, region, List.getElem?_mapIdx]
  rfl

theorem rebuild_region (n : Decisions) (cs : List Choice) (h : (cs.map Choice.var).Nodup) :
    Region.rebuild { n.region declared with choices := cs } = (ofStack cs).region declared := by
  have hpin : (n.flags declared).map (fun _ => false) = (ofStack cs).flags declared := by
    apply List.ext_getElem?
    intro i
    simp only [flags, List.getElem?_map, List.getElem?_mapIdx, Option.map_map]
    rfl
  have hnum : ((ofStack cs).flags declared).count true = 0 := by
    rw [← hpin, List.map_const', List.count_replicate]
    rfl
  simp only [Region.rebuild, region, narrow_eq h, hpin, hnum]
  rfl

theorem take_eq_below {n : Decisions} {x : VarIndex} {k : Nat}
    (h : (n.stack.findIdx? fun c => c.var == x) = some k) : n.stack.take k = n.below x := by
  obtain ⟨-, hk⟩ := List.findIdx?_eq_some_iff_findIdx_eq.mp h
  rw [below, List.takeWhile_eq_take_findIdx_not, ← hk]
  simp only [ne_eq, decide_not, Bool.not_not]
  rfl

theorem below_eq_stack {n : Decisions} {x : VarIndex} :
    n.below x = n.stack ↔ ∀ c ∈ n.stack, c.var ≠ x := by
  simp [below, List.takeWhile_eq_self_iff]

theorem ne_of_mem_below {x : VarIndex} {c : Choice} (h : c ∈ n.below x) : c.var ≠ x := by
  simpa using List.mem_takeWhile_imp h

theorem nodup_above (h : (n.stack.map Choice.var).Nodup) (x : VarIndex) (d : Domain) :
    ((n.below x ++ [Choice.mk x d]).map Choice.var).Nodup := by
  have hx : x ∉ (n.below x).map Choice.var := by
    intro hmem
    obtain ⟨c, hc, hcx⟩ := List.mem_map.mp hmem
    exact ne_of_mem_below hc hcx
  rw [List.map_append, List.map_singleton, ← List.concat_eq_append]
  exact List.Nodup.concat hx (h.sublist ((List.takeWhile_sublist _).map _))

/-- Where nothing is counted as pinned, nothing is pinned. -/
theorem eq_ofStack (hn : n.Valid declared) (h : (n.region declared).numPinned = 0) :
    n = ofStack n.stack := by
  have hpins : n.pins = fun _ => none := by
    funext x
    rcases hx : n.pins x with _ | v
    · rfl
    · obtain ⟨a, ha, -⟩ := hn.pinned x v hx
      have hflag : (n.flags declared)[x.val]? = some true := by
        rw [flags, List.getElem?_mapIdx, ha, Option.map_some, hx]
        rfl
      exact absurd (List.mem_of_getElem? hflag) (List.count_eq_zero.mp h)
  rw [ofStack, ← hpins]

/-- Without pins the domains are those of the stack, so a new entry need only set its own. -/
theorem push_region (hn : n.Valid declared) (x : VarIndex) (d : Domain) :
    (n.region declared).push ⟨x, d⟩ = (ofStack (n.below x ++ [⟨x, d⟩])).region declared := by
  have hnodup := nodup_above hn.distinct x d
  unfold Region.push
  split
  · rename_i k hk
    rw [← take_eq_below hk] at hnodup ⊢
    exact rebuild_region n _ hnodup
  · rename_i hnone
    have hstack : n.below x = n.stack := by
      rw [below_eq_stack]
      intro c hc
      simpa using List.findIdx?_eq_none_iff.mp hnone c hc
    rw [hstack] at hnodup ⊢
    split
    · exact rebuild_region n _ hnodup
    · rename_i hpins
      have hn' := eq_ofStack hn (Nat.eq_zero_of_not_pos hpins)
      have hcur : (n.region declared).current.set x.val d =
          ((ofStack (n.stack ++ [⟨x, d⟩])).region declared).current := by
        rw [← narrow_eq hnodup, hn', ← narrow_eq hn.distinct, Region.narrow, Region.narrow,
          List.foldl_append]
        rfl
      rw [hcur, hn']
      rfl

theorem restrict_region (n : Decisions) (x : VarIndex) (lo hi : Int) :
    ((n.region declared).restrict x lo hi).toOption =
      declared[x.val]?.bind fun a => a.within? lo hi := by
  unfold Region.restrict
  rw [show (n.region declared).declared = declared from rfl]
  rcases declared[x.val]? with _ | a
  · rfl
  · simp only [Interval.of_bind_intersection, Option.bind_some]
    rcases a.within? lo hi with _ | d <;> rfl

theorem choose_region (hn : n.Valid declared) (x : VarIndex) (lo hi : Int) :
    ((n.region declared).choose x lo hi).toOption =
      (declared[x.val]?.bind fun a => a.within? lo hi).map fun d =>
        (ofStack (n.below x ++ [⟨x, d⟩])).region declared := by
  rw [← restrict_region n x lo hi]
  unfold Region.choose
  rcases (n.region declared).restrict x lo hi with _ | d
  · rfl
  · exact congrArg some (push_region hn x d)

theorem fail_region (hn : n.Valid declared) :
    (n.region declared).fail.1 = n.fail.region declared :=
  rebuild_region n _ (hn.distinct.sublist ((List.dropLast_sublist _).map _))

theorem reset_region (n : Decisions) : (n.region declared).reset = (ofStack []).region declared :=
  rebuild_region n [] List.nodup_nil

end Stack

section Pins

/-- The pin of `x` alone, overridden by one that may not be there. -/
def override (n : Decisions) (x : VarIndex) (p : Option {v : Int // IntFormat.int64.Fits v}) :
    Decisions :=
  { n with pins := fun y => if y = x then p.or (n.pins y) else n.pins y }

theorem mapIdx_eq_set {α β : Type} {f g : Nat → α → β} {as : List α} {i : Nat} {b : β}
    (hi : ∀ a, g i a = b) (hne : ∀ j a, j ≠ i → g j a = f j a) :
    as.mapIdx g = (as.mapIdx f).set i b := by
  apply List.ext_getElem?
  intro j
  rw [List.getElem?_set', List.getElem?_mapIdx, List.getElem?_mapIdx]
  split
  · rename_i hij
    rw [← hij]
    rcases as[i]? with _ | a
    · rfl
    · exact congrArg some (hi a)
  · rename_i hij
    rcases as[j]? with _ | a
    · rfl
    · exact congrArg some (hne j a (Ne.symm hij))

theorem ne_of_val_ne {x : VarIndex} {i : Nat} (h : i ≠ x.val) : (⟨i⟩ : VarIndex) ≠ x := by
  rintro rfl
  exact h rfl

theorem override_none (n : Decisions) (x : VarIndex) : n.override x none = n := by
  simp [override]

section Override

variable (declared : List Domain) (n : Decisions) (x : VarIndex) {v : Int}
  (hv : IntFormat.int64.Fits v)

theorem override_current :
    ((n.override x (some ⟨v, hv⟩)).region declared).current =
      (n.region declared).current.set x.val (.singleton v hv) := by
  refine mapIdx_eq_set ?_ ?_
  · intro a
    simp only [override, domainOf, if_true, Option.some_or]
  · intro i a hi
    simp only [override, domainOf, if_neg (ne_of_val_ne hi)]
    rfl

theorem override_pinned :
    ((n.override x (some ⟨v, hv⟩)).region declared).pinned =
      (n.region declared).pinned.set x.val true := by
  refine mapIdx_eq_set ?_ ?_
  · intro a
    simp only [override, if_true, Option.some_or]
    rfl
  · intro i a hi
    simp only [override, if_neg (ne_of_val_ne hi)]

/-- A pin that takes the place of another is not counted again. -/
theorem override_numPinned {a : Domain} (ha : declared[x.val]? = some a) :
    ((n.override x (some ⟨v, hv⟩)).region declared).numPinned =
      if (n.region declared).pinned[x.val]? = some false then (n.region declared).numPinned + 1
      else (n.region declared).numPinned := by
  have hx : x.val < (n.region declared).pinned.length := by
    rw [region, flags, List.length_mapIdx]
    exact (List.getElem?_eq_some_iff.mp ha).1
  have hcount : ∀ n : Decisions, (n.region declared).numPinned =
      (n.region declared).pinned.count true := fun _ => rfl
  rw [hcount, override_pinned, List.count_set hx, hcount, List.getElem?_eq_getElem hx]
  rcases hflag : (n.region declared).pinned[x.val] with _ | _
  · simp
  · have hpos : 0 < (n.region declared).pinned.count true := by
      rw [List.count_pos_iff, ← hflag]
      exact List.getElem_mem hx
    simp only [beq_self_eq_true, Option.some.injEq, reduceCtorEq, if_true, if_false]
    omega

end Override

theorem pin_region (n : Decisions) (x : VarIndex) (v : Int) :
    (n.region declared).pin x v =
      (pin? declared x v).map fun p => (n.override x (some p)).region declared := by
  unfold Region.pin pin?
  rw [show (n.region declared).declared = declared from rfl]
  rcases ha : declared[x.val]? with _ | a
  · rfl
  · rw [Option.bind_some]
    by_cases h : a.contains v = true
    · simp only [dif_pos h, Option.map_some, Option.some.injEq]
      rw [← override_current, ← override_pinned, ← override_numPinned declared n x _ ha]
      rfl
    · simp only [dif_neg h, Option.map_none]

/-- Overrides one pin after the other. -/
def overrideAll (declared : List Domain) : Decisions → List (VarIndex × Int) → Decisions
  | n, [] => n
  | n, (x, v) :: rest => (n.override x (pin? declared x v)).overrideAll declared rest

theorem pinAll_region : ∀ (entries : List (VarIndex × Int)) (n : Decisions),
    ((n.region declared).pinAll entries).1 = (n.overrideAll declared entries).region declared
  | [], n => rfl
  | (x, v) :: rest, n => by
    rw [Region.pinAll, pin_region, overrideAll]
    rcases pin? declared x v with _ | p
    · rw [override_none]
      exact pinAll_region rest n
    · exact pinAll_region rest (n.override x (some p))

theorem overrideAll_stack : ∀ (entries : List (VarIndex × Int)) (n : Decisions),
    (n.overrideAll declared entries).stack = n.stack
  | [], _ => rfl
  | _ :: rest, _ => overrideAll_stack rest _

theorem getElem?_cons_sub {α : Type} {a : α} {as : List α} {i k : Nat} (h : i < k) :
    (a :: as)[k - i]? = as[k - (i + 1)]? := by
  rw [show k - i = k - (i + 1) + 1 by omega, List.getElem?_cons_succ]

/-- The entries of a scenario are on different variables, so each meets the pins as they were. -/
theorem overrideAll_pins (x : VarIndex) : ∀ (vs : List (Option Int)) (i : Nat) (n : Decisions),
    (n.overrideAll declared (Scenario.assignedFrom i vs)).pins x =
      if x.val < i then n.pins x
      else (vs[x.val - i]?.join.bind (pin? declared x)).or (n.pins x)
  | [], i, n => by simp [Scenario.assignedFrom, overrideAll]
  | none :: vs, i, n => by
    rw [Scenario.assignedFrom, overrideAll_pins x vs (i + 1) n]
    rcases Nat.lt_trichotomy x.val i with hlt | heq | hgt
    · rw [if_pos (Nat.lt_succ_of_lt hlt), if_pos hlt]
    · simp [heq]
    · rw [if_neg (by omega), if_neg (by omega), getElem?_cons_sub hgt]
  | some v :: vs, i, n => by
    rw [Scenario.assignedFrom, overrideAll, overrideAll_pins x vs (i + 1)]
    have hpins : (n.override ⟨i⟩ (pin? declared ⟨i⟩ v)).pins x =
      if x = ⟨i⟩ then (pin? declared ⟨i⟩ v).or (n.pins x) else n.pins x := rfl
    rw [hpins]
    by_cases hx : x = ⟨i⟩
    · rw [if_pos hx, hx]
      simp
    · rw [if_neg hx]
      rcases Nat.lt_trichotomy x.val i with hlt | heq | hgt
      · rw [if_pos (Nat.lt_succ_of_lt hlt), if_pos hlt]
      · exact absurd (by rw [← heq]) hx
      · rw [if_neg (by omega), if_neg (by omega), getElem?_cons_sub hgt]

theorem share_region (n : Decisions) (s : Scenario) :
    ((n.region declared).share s).1 = (n.share declared s).region declared := by
  have hpins : (n.overrideAll declared s.assigned).pins = (n.share declared s).pins := by
    funext x
    rw [Scenario.assigned, overrideAll_pins, if_neg (Nat.not_lt_zero _)]
    rfl
  have hsame : n.overrideAll declared s.assigned = n.share declared s :=
    Decisions.ext (overrideAll_stack _ n) hpins
  rw [Region.share, pinAll_region, hsame]

end Pins

section Invariant

theorem ofStack_valid {cs : List Choice} (h : (cs.map Choice.var).Nodup)
    (hcs : ∀ c ∈ cs, ∃ a, declared[c.var.val]? = some a ∧ c.domain.isSubsetOf a = true) :
    (ofStack cs).Valid declared where
  distinct := h
  chosen := hcs
  pinned _ _ hv := by cases hv

theorem initial_valid : (ofStack []).Valid declared := ofStack_valid List.nodup_nil (by simp)

theorem choose_valid (hn : n.Valid declared) (x : VarIndex) (lo hi : Int) :
    (n.choose declared x lo hi).Valid declared := by
  unfold choose
  split
  · exact hn
  · rename_i d hd
    obtain ⟨a, ha, had⟩ := Option.bind_eq_some_iff.mp hd
    refine ofStack_valid (nodup_above hn.distinct x d) ?_
    intro c hc
    rcases List.mem_append.mp hc with hc | hc
    · exact hn.chosen c (List.takeWhile_subset _ hc)
    · obtain rfl := List.mem_singleton.mp hc
      exact ⟨a, ha, Interval.within_isSubsetOf had⟩

theorem fail_valid (hn : n.Valid declared) : n.fail.Valid declared :=
  ofStack_valid (hn.distinct.sublist ((List.dropLast_sublist _).map _))
    fun c hc => hn.chosen c (List.dropLast_subset _ hc)

theorem share_valid (hn : n.Valid declared) (s : Scenario) : (n.share declared s).Valid declared where
  distinct := hn.distinct
  chosen := hn.chosen
  pinned x v hv := by
    rcases Option.or_eq_some_iff.mp hv with hv | ⟨-, hv⟩
    · obtain ⟨u, -, hu⟩ := Option.bind_eq_some_iff.mp hv
      obtain ⟨a, ha, hau⟩ := Option.bind_eq_some_iff.mp hu
      split at hau
      · rename_i hmem
        obtain rfl := Option.some.inj hau
        exact ⟨a, ha, hmem⟩
      · cases hau
    · exact hn.pinned x v hv

theorem apply_valid (hn : n.Valid declared) (e : Event) : (n.apply declared e).Valid declared := by
  cases e with
  | choice x lo hi => exact choose_valid hn x lo hi
  | failure => exact fail_valid hn
  | shared s => exact share_valid hn s
  | globalFailure => exact hn
  | strategyFound => exact hn

theorem perform_valid (hn : n.Valid declared) (op : Region.Operation) :
    (n.perform declared op).Valid declared := by
  cases op with
  | choose x lo hi => exact choose_valid hn x lo hi
  | fail => exact fail_valid hn
  | share s => exact share_valid hn s
  | reset => exact initial_valid
  | apply e => exact apply_valid hn e

end Invariant

section Operations

/-- A choice, be it ignored or not. -/
theorem follow_choice (hn : n.Valid declared) (x : VarIndex) (lo hi : Int) :
    ((n.region declared).choose x lo hi).toOption.getD (n.region declared) =
      (n.choose declared x lo hi).region declared := by
  rw [choose_region hn, choose]
  rcases declared[x.val]?.bind fun a => a.within? lo hi with _ | d <;> rfl

theorem apply_region (hn : n.Valid declared) (e : Event) :
    (n.region declared).apply e = (n.apply declared e).region declared := by
  cases e with
  | choice x lo hi =>
    rw [apply, ← follow_choice hn x lo hi, Region.apply]
    rcases (n.region declared).choose x lo hi with _ | d <;> rfl
  | failure => exact fail_region hn
  | shared s => exact share_region n s
  | globalFailure => rfl
  | strategyFound => rfl

theorem perform_region (hn : n.Valid declared) (op : Region.Operation) :
    (n.region declared).perform op = (n.perform declared op).region declared := by
  cases op with
  | choose x lo hi => exact apply_region hn (.choice x lo hi)
  | fail => exact fail_region hn
  | share s => exact share_region n s
  | reset => exact reset_region n
  | apply e => exact apply_region hn e

theorem ofDeclared_region (declared : List Domain) :
    Region.ofDeclared declared = (ofStack []).region declared := by
  rw [← reset_region (ofStack [])]
  simp [Region.reset, Region.rebuild, Region.ofDeclared, region, Region.narrow, flags]

theorem performAll_region : ∀ (ops : List Region.Operation) (n : Decisions), n.Valid declared →
    ops.foldl Region.perform (n.region declared) =
        (ops.foldl (perform declared) n).region declared ∧
      (ops.foldl (perform declared) n).Valid declared
  | [], _, hn => ⟨rfl, hn⟩
  | op :: ops, n, hn => by
    rw [List.foldl_cons, List.foldl_cons, perform_region hn op]
    exact performAll_region ops _ (perform_valid hn op)

theorem applyAll_region (es : List Event) (hn : n.Valid declared) :
    es.foldl Region.apply (n.region declared) = (es.foldl (apply declared) n).region declared ∧
      (es.foldl (apply declared) n).Valid declared := by
  have h := performAll_region (es.map Region.Operation.apply) n hn
  rw [List.foldl_map, List.foldl_map] at h
  exact h

theorem applyAll_ofDeclared (declared : List Domain) (es : List Event) :
    es.foldl Region.apply (.ofDeclared declared)
        = (es.foldl (apply declared) (ofStack [])).region declared
      ∧ (es.foldl (apply declared) (ofStack [])).Valid declared := by
  rw [ofDeclared_region]
  exact applyAll_region es initial_valid

/-- A region never draws from outside a declared domain. -/
theorem domainOf_isSubsetOf (hn : n.Valid declared) {x : VarIndex} {a : Domain}
    (ha : declared[x.val]? = some a) : (n.domainOf x a).isSubsetOf a = true := by
  rw [Interval.isSubsetOf_iff]
  intro v hv
  unfold domainOf at hv
  split at hv
  · rename_i p hp
    obtain ⟨b, hb, hpb⟩ := hn.pinned x p hp
    rw [ha] at hb
    obtain rfl := Option.some.inj hb
    rw [Interval.contains_singleton] at hv
    rw [hv]
    exact hpb
  · rcases hc : n.stack.find? fun c => c.var = x with _ | c
    · simpa [chosen?, hc] using hv
    · obtain ⟨b, hb, hcb⟩ := hn.chosen c (List.mem_of_find?_eq_some hc)
      have hx : c.var = x := by simpa using List.find?_some hc
      rw [hx, ha] at hb
      obtain rfl := Option.some.inj hb
      have hv' : c.domain.contains v = true := by simpa [chosen?, hc] using hv
      exact Interval.isSubsetOf_iff.mp hcb v hv'

end Operations

end Decisions

namespace Region

/-- The region is what some decisions make of the declared domains. -/
def Follows (d : Region) (declared : List Domain) : Prop :=
  ∃ n : Decisions, n.Valid declared ∧ d = n.region declared

variable {declared : List Domain} {d : Region}

theorem ofDeclared_follows (declared : List Domain) : (ofDeclared declared).Follows declared :=
  ⟨.ofStack [], Decisions.initial_valid, Decisions.ofDeclared_region declared⟩

theorem Follows.apply (h : d.Follows declared) (e : Event) : (d.apply e).Follows declared := by
  obtain ⟨n, hn, rfl⟩ := h
  exact ⟨n.apply declared e, Decisions.apply_valid hn e, Decisions.apply_region hn e⟩

theorem Follows.length_eq (h : d.Follows declared) : d.length = declared.length := by
  obtain ⟨n, -, rfl⟩ := h
  rfl

theorem Follows.current_length (h : d.Follows declared) : d.current.length = declared.length := by
  obtain ⟨n, -, rfl⟩ := h
  exact List.length_mapIdx

theorem Follows.current_isSubsetOf (h : d.Follows declared) {i : Nat} {a : Domain}
    (ha : declared[i]? = some a) : ∃ b, d.current[i]? = some b ∧ b.isSubsetOf a = true := by
  obtain ⟨n, hn, rfl⟩ := h
  refine ⟨n.domainOf ⟨i⟩ a, ?_, Decisions.domainOf_isSubsetOf hn ha⟩
  rw [Decisions.region, List.getElem?_mapIdx, ha, Option.map_some]

/-- Whatever is asked of a region, it is what a stack and a map of pins make of the declared
domains. -/
theorem follows_decisions (declared : List Domain) (ops : List Operation) :
    let decisions := ops.foldl (Decisions.perform declared) (.ofStack [])
    ops.foldl perform (ofDeclared declared) = decisions.region declared ∧
      decisions.Valid declared := by
  rw [Decisions.ofDeclared_region]
  exact Decisions.performAll_region ops _ Decisions.initial_valid

end Region

end ScenarioSampling
