import ScenarioSampling.Crash
import ScenarioSampling.Number

/-!
# Closed intervals of machine integers

An `Interval f` is a non-empty range `[lo, hi]` of numbers that the format `f` can hold; both facts
are part of the type, so an operation that returns an interval cannot leave the format. Counting
goes through the widest signed format and walking takes checked steps of `f`, and either can crash
where that arithmetic has no room.
-/

namespace ScenarioSampling

/-- A non-empty range of numbers that fit the format `f`, both bounds included. -/
structure Interval (f : IntFormat) where
  lo : Int
  hi : Int
  least_le : f.least ≤ lo
  lo_le_hi : lo ≤ hi
  le_greatest : hi ≤ f.greatest
  deriving DecidableEq, Repr

/-- The values that a variable may have. -/
abbrev Domain := Interval .int64

namespace Interval

variable {f : IntFormat}

/-- The interval from `lo` to `hi`, if it is not empty and both bounds fit. -/
def of? (f : IntFormat) (lo hi : Int) : Option (Interval f) :=
  if h : f.least ≤ lo ∧ lo ≤ hi ∧ hi ≤ f.greatest then some ⟨lo, hi, h.1, h.2.1, h.2.2⟩ else none

theorem of?_eq_some_iff {lo hi : Int} {a : Interval f} :
    of? f lo hi = some a ↔ a.lo = lo ∧ a.hi = hi := by
  constructor
  · intro h
    unfold of? at h
    split at h
    · cases h
      exact ⟨rfl, rfl⟩
    · cases h
  · rintro ⟨rfl, rfl⟩
    exact dif_pos ⟨a.least_le, a.lo_le_hi, a.le_greatest⟩

/-- The interval `[lo, hi]`; an empty one is a crash. -/
def of (f : IntFormat) (lo hi : Int) : Except Crash (Interval f) :=
  match of? f lo hi with
  | some a => .ok a
  | none => .error .emptyInterval

/-- The interval of one number that fits. -/
def singleton (v : Int) (h : f.Fits v) : Interval f := ⟨v, v, h.1, Int.le_refl v, h.2⟩

/-- There is exactly one value. -/
def isSingleton (a : Interval f) : Bool := a.lo == a.hi

/-- The number is between the bounds, or one of them. -/
def contains (a : Interval f) (v : Int) : Bool := a.lo ≤ v && v ≤ a.hi

/-- Every value of `a` lies in `b`. -/
def isSubsetOf (a b : Interval f) : Bool := b.lo ≤ a.lo && a.hi ≤ b.hi

theorem contains_iff {a : Interval f} {v : Int} : a.contains v = true ↔ a.lo ≤ v ∧ v ≤ a.hi := by
  rw [contains, Bool.and_eq_true, decide_eq_true_eq, decide_eq_true_eq]

theorem fits_of_contains {a : Interval f} {v : Int} (h : a.contains v = true) : f.Fits v := by
  rw [contains_iff] at h
  exact ⟨Int.le_trans a.least_le h.1, Int.le_trans h.2 a.le_greatest⟩

/-- The number of values, if it fits a 64-bit count. The bounds are first moved to the widest
signed format, which an interval of the widest unsigned format may not fit. -/
def cardinality (a : Interval f) : Except Crash (Option Nat) :=
  if IntFormat.int128.Fits a.lo ∧ IntFormat.int128.Fits a.hi then
    match IntFormat.int128.checked (a.hi - a.lo) with
    | none => .error .overflow
    | some gap =>
      match IntFormat.int128.checked (gap + 1) with
      | none => .error .overflow
      | some count => .ok (if count ≤ maxCount then some count.toNat else none)
  else .ok none

/-- The values that both intervals have, if there are any. -/
def intersection (a b : Interval f) : Option (Interval f) := of? f (max a.lo b.lo) (min a.hi b.hi)

/-- The member nearest to `v`. -/
def clamp (a : Interval f) (v : Int) : Int := min (max v a.lo) a.hi

/-- Intervals are ordered by their lower bounds, then by their upper ones. -/
def order (a b : Interval f) : Ordering := (compare a.lo b.lo).then (compare a.hi b.hi)

/-- The bounds in brackets. -/
def text (a : Interval f) : String := s!"[{a.lo}, {a.hi}]"

/-- The bounds in brackets, behind the name of the type. -/
def longText (a : Interval f) : String := s!"ClosedInterval[{a.lo}, {a.hi}]"

/-- A walk through the rest of an interval: the value to give next, if any, and the last one. -/
structure Cursor (f : IntFormat) where
  next? : Option Int
  last : Int
  deriving DecidableEq, Repr

/-- The walk that has all values before it. -/
def cursor (a : Interval f) : Cursor f := ⟨some a.lo, a.hi⟩

/-- Gives a value and moves on; the step beyond `last` is never taken, since it may not fit. -/
def Cursor.advance (c : Cursor f) : Except Crash (Option Int × Cursor f) :=
  match c.next? with
  | none => .ok (none, c)
  | some v =>
    if v < c.last then
      match f.checked (v + 1) with
      | some w => .ok (some v, { c with next? := some w })
      | none => .error .overflow
    else .ok (some v, { c with next? := none })

/-- At most `n` values of the walk, and where it stands then. -/
def Cursor.take : Nat → Cursor f → Except Crash (List Int × Cursor f)
  | 0, c => .ok ([], c)
  | n + 1, c =>
    match c.advance with
    | .error e => .error e
    | .ok (none, c) => .ok ([], c)
    | .ok (some v, c) =>
      match c.take n with
      | .error e => .error e
      | .ok (vs, c) => .ok (v :: vs, c)

end Interval

end ScenarioSampling
