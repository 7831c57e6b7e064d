import Mathlib.Data.Set.Basic
import ScenarioSampling.Proofs.Decisions

/-!
# Intervals as sets

An interval is the set of its values, and `none` is the empty set: two that have the same values are
the same (`values_injective`). So the laws of intersection are those of sets, and what compares only
bounds speaks about values (`operations_agree_with_sets`).
-/

namespace ScenarioSampling

namespace Interval

variable {f : IntFormat} {a b c : Interval f} {lo hi v : Int}

/-- What is in an interval; nothing is in `none`. -/
def values : Option (Interval f) → Set Int
  | none => ∅
  | some a => {v | a.contains v = true}

theorem mem_values_some : v ∈ values (some a) ↔ a.lo ≤ v ∧ v ≤ a.hi :=
  contains_iff

theorem lo_mem_values (a : Interval f) : a.lo ∈ values (some a) :=
  mem_values_some.2 ⟨Int.le_refl a.lo, a.lo_le_hi⟩

theorem hi_mem_values (a : Interval f) : a.hi ∈ values (some a) :=
  mem_values_some.2 ⟨a.lo_le_hi, Int.le_refl a.hi⟩

/-- The bounds are the least and the greatest value. -/
theorem values_injective : Function.Injective (values (f := f)) := by
  rintro (_ | a) (_ | b) h
  · rfl
  · exact absurd b.lo_mem_values (h ▸ Set.notMem_empty b.lo)
  · exact absurd a.lo_mem_values (h ▸ Set.notMem_empty a.lo)
  · have halo := mem_values_some.1 (h ▸ a.lo_mem_values)
    have hahi := mem_values_some.1 (h ▸ a.hi_mem_values)
    have hblo := mem_values_some.1 (h ▸ b.lo_mem_values)
    have hbhi := mem_values_some.1 (h ▸ b.hi_mem_values)
    have hlo : a.lo = b.lo := Int.le_antisymm hblo.1 halo.1
    have hhi : a.hi = b.hi := Int.le_antisymm hahi.2 hbhi.2
    have ha : of? f b.lo b.hi = some a := of?_eq_some_iff.2 ⟨hlo, hhi⟩
    exact ha.symm.trans (of?_eq_some_iff.2 ⟨rfl, rfl⟩)

section Building

variable (hlo : f.Fits lo) (hhi : f.Fits hi)
include hlo hhi

theorem of?_eq_none_iff : of? f lo hi = none ↔ hi < lo := by
  rw [of?, dite_eq_right_iff]
  constructor
  · intro h
    by_contra hle
    cases h ⟨hlo.1, Int.not_lt.1 hle, hhi.2⟩
  · intro hlt h
    exact absurd h.2.1 (Int.not_le.2 hlt)

/-- Bounds in their order make an interval, and others none. -/
theorem of_settles :
    (∃ c, of? f lo hi = some c ∧ of f lo hi = .ok c ∧ c.lo = lo ∧ c.hi = hi ∧ lo ≤ hi)
      ∨ (of? f lo hi = none ∧ of f lo hi = .error .emptyInterval ∧ hi < lo) := by
  rcases h : of? f lo hi with _ | c
  · exact .inr ⟨rfl, by rw [of, h], (of?_eq_none_iff hlo hhi).1 h⟩
  · obtain ⟨rfl, rfl⟩ := of?_eq_some_iff.1 h
    exact .inl ⟨c, rfl, by rw [of, h], rfl, rfl, c.lo_le_hi⟩

end Building

section Intersection

theorem intersection_eq_some_iff :
    a.intersection b = some c ↔ c.lo = max a.lo b.lo ∧ c.hi = min a.hi b.hi :=
  of?_eq_some_iff

theorem intersection_eq_none_iff : a.intersection b = none ↔ min a.hi b.hi < max a.lo b.lo := by
  have ha := And.intro a.least_le (And.intro a.lo_le_hi a.le_greatest)
  have hb := And.intro b.least_le (And.intro b.lo_le_hi b.le_greatest)
  exact of?_eq_none_iff ⟨by omega, by omega⟩ ⟨by omega, by omega⟩

theorem values_intersection (a b : Interval f) :
    values (a.intersection b) = values (some a) ∩ values (some b) := by
  ext v
  rw [Set.mem_inter_iff, mem_values_some, mem_values_some]
  rcases h : a.intersection b with _ | c
  · have hlt := intersection_eq_none_iff.1 h
    simp only [values, Set.mem_empty_iff_false, false_iff]
    omega
  · obtain ⟨hlo, hhi⟩ := intersection_eq_some_iff.1 h
    rw [mem_values_some, hlo, hhi]
    omega

theorem intersection_comm (a b : Interval f) : a.intersection b = b.intersection a :=
  values_injective (by rw [values_intersection, values_intersection, Set.inter_comm])

theorem intersection_self (a : Interval f) : a.intersection a = some a :=
  values_injective (by rw [values_intersection, Set.inter_self])

theorem values_bind_intersection (a : Interval f) (x : Option (Interval f)) :
    values (x.bind a.intersection) = values (some a) ∩ values x := by
  cases x with
  | none => exact (Set.inter_empty _).symm
  | some b => exact values_intersection a b

theorem intersection_assoc (a b c : Interval f) :
    ((a.intersection b).bind fun d => d.intersection c)
      = (b.intersection c).bind a.intersection := by
  have hcomm : (fun d : Interval f => d.intersection c) = c.intersection :=
    funext fun d => intersection_comm d c
  refine values_injective ?_
  rw [hcomm, values_bind_intersection, values_bind_intersection, values_intersection,
    values_intersection, Set.inter_comm, Set.inter_assoc]

theorem isSubsetOf_iff_intersection : a.isSubsetOf b = true ↔ a.intersection b = some a := by
  rw [← values_injective.eq_iff, values_intersection, Set.inter_eq_left]
  exact isSubsetOf_iff

end Intersection

section Clamping

theorem contains_clamp (a : Interval f) (v : Int) : a.contains (a.clamp v) = true := by
  have ha := a.lo_le_hi
  rw [contains_iff, clamp]
  omega

theorem clamp_eq_iff (a : Interval f) (v : Int) : a.clamp v = v ↔ a.contains v = true := by
  have ha := a.lo_le_hi
  rw [contains_iff, clamp]
  omega

theorem clamp_nearest {u : Int} (hu : a.contains u = true) (hne : u ≠ a.clamp v) :
    (a.clamp v - v).natAbs < (u - v).natAbs := by
  rw [contains_iff] at hu
  rw [clamp] at hne ⊢
  omega

/-- What two intervals have in common is the interval that is their intersection, and if that is
nothing there is none; it does not matter in which order intervals are intersected. One interval is
a subset of another if its values are, which is to say that it is its own intersection with the
other. Clamping gives a value that is nearer than every other, and the number itself only if it is
one of the values. Of two numbers of the format an interval is made exactly if they are in order,
and the bounds of an intersection are. -/
theorem operations_agree_with_sets (a b : Interval f) :
    ((∀ c, a.intersection b = some c → ∀ v,
          c.contains v = true ↔ a.contains v = true ∧ b.contains v = true)
        ∧ (a.intersection b = none ↔ ∀ v, ¬ (a.contains v = true ∧ b.contains v = true)))
      ∧ (a.intersection b = b.intersection a ∧ a.intersection a = some a
        ∧ ∀ c, ((a.intersection b).bind fun d => d.intersection c)
          = (b.intersection c).bind a.intersection)
      ∧ ((a.isSubsetOf b = true ↔ ∀ v, a.contains v = true → b.contains v = true)
        ∧ (a.isSubsetOf b = true ↔ a.intersection b = some a))
      ∧ (∀ v, a.contains (a.clamp v) = true ∧ (a.clamp v = v ↔ a.contains v = true)
        ∧ ∀ u, a.contains u = true → u ≠ a.clamp v → (a.clamp v - v).natAbs < (u - v).natAbs)
      ∧ (∀ lo hi, f.Fits lo → f.Fits hi →
        (∃ c, of? f lo hi = some c ∧ of f lo hi = .ok c ∧ c.lo = lo ∧ c.hi = hi ∧ lo ≤ hi)
          ∨ (of? f lo hi = none ∧ of f lo hi = .error .emptyInterval ∧ hi < lo))
      ∧ (∀ v (hv : f.Fits v), of? f v v = some (singleton v hv))
      ∧ ∀ c, a.intersection b = some c →
        c.lo = max a.lo b.lo ∧ c.hi = min a.hi b.hi ∧ max a.lo b.lo ≤ min a.hi b.hi := by
  refine ⟨⟨fun c hc v => ?_, ?_⟩,
    ⟨intersection_comm a b, intersection_self a, intersection_assoc a b⟩,
    ⟨isSubsetOf_iff, isSubsetOf_iff_intersection⟩,
    fun v => ⟨a.contains_clamp v, a.clamp_eq_iff v, fun u => clamp_nearest⟩,
    fun lo hi => of_settles,
    fun v hv => of?_eq_some_iff.2 ⟨rfl, rfl⟩,
    fun c hc => ?_⟩
  · exact Set.ext_iff.1 (hc ▸ values_intersection a b) v
  · rw [← values_injective.eq_iff, values_intersection]
    exact Set.eq_empty_iff_forall_notMem
  · obtain ⟨hlo, hhi⟩ := intersection_eq_some_iff.1 hc
    exact ⟨hlo, hhi, hlo ▸ hhi ▸ c.lo_le_hi⟩

/-- Two intervals that share one bound and reach to both ends of the narrowest signed format. -/
theorem operations_agree_with_sets_at_ends :
    let f : IntFormat := ⟨true, .w8⟩
    let a : Interval f := ⟨-128, 5, by decide, by decide, by decide⟩
    let b : Interval f := ⟨5, 127, by decide, by decide, by decide⟩
    let c : Interval f := singleton 5 (by decide)
    (a.intersection b = some c ∧ a.contains 5 = true ∧ b.contains 5 = true)
      ∧ (a.contains 4 = true ∧ (4 : Int) ≠ a.clamp 127
        ∧ (a.clamp 127 - 127).natAbs < ((4 : Int) - 127).natAbs)
      ∧ (f.Fits 127 ∧ f.Fits (-128) ∧ of f 127 (-128) = .error .emptyInterval) := by
  intro f a b c
  obtain ⟨⟨hcommon, -⟩, -, -, hclamp, hbuilt, -, -⟩ := operations_agree_with_sets a b
  have hc : a.intersection b = some c := by decide
  have hfits : f.Fits 127 ∧ f.Fits (-128) := by decide
  refine ⟨⟨hc, (hcommon c hc 5).1 (by decide)⟩, ⟨by decide, by decide,
    (hclamp 127).2.2 4 (by decide) (by decide)⟩, hfits.1, hfits.2, ?_⟩
  rcases hbuilt 127 (-128) hfits.1 hfits.2 with ⟨_, -, -, -, -, hle⟩ | ⟨-, herror, -⟩
  · exact absurd hle (by decide)
  · exact herror

end Clamping

end Interval

end ScenarioSampling
