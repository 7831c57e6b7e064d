import Mathlib.Data.List.Basic
import ScenarioSampling.Interval

/-!
# How many values an interval has

A walk through an interval gives its values one by one, in order and without leaving the format, and
then nothing more (`take_walk`). Their number is counted on the widest signed format, where not every
interval has room: there the count is refused or crashes, although the number itself is clear
(`cardinality_is_size_iff`). Only formats of the greatest width come that far.
-/

namespace ScenarioSampling

namespace IntFormat

theorem int128_least_le (f : IntFormat) : int128.least ≤ f.least := by
  rcases f with ⟨_ | _, _ | _ | _ | _ | _⟩ <;> decide

/-- The narrower formats have room for their bounds, and for how many numbers there are. -/
theorem greatest_le_of_narrow {f : IntFormat} (h : f.width ≠ .w128) :
    f.greatest ≤ int128.greatest ∧ f.greatest - f.least + 1 ≤ int128.greatest := by
  rcases f with ⟨_ | _, _ | _ | _ | _ | _⟩
  all_goals first
    | exact absurd rfl h
    | decide

end IntFormat

namespace Interval

variable {f : IntFormat}

/-- How many values an interval has. -/
def size (a : Interval f) : Nat := (a.hi - a.lo + 1).toNat

/-- The number of values, unless it is too large for a 64-bit count. -/
def size? (a : Interval f) : Option Nat := if a.size ≤ maxCount then some a.size else none

theorem size_eq (a : Interval f) : (a.size : Int) = a.hi - a.lo + 1 := by
  have h := a.lo_le_hi
  rw [size]
  omega

theorem size_of_isSingleton {a : Interval f} (h : a.isSingleton = true) : a.size = 1 := by
  have hbounds : a.lo = a.hi := by simpa [isSingleton] using h
  have hsize := a.size_eq
  omega

namespace Cursor

/-- The values that are still to come. -/
def rest (c : Cursor f) : List Int :=
  match c.next? with
  | none => []
  | some v => (List.range (c.last - v + 1).toNat).map fun i : Nat => v + i

/-- What comes next is not beyond the last value, and both are numbers of the format. -/
def Sound (c : Cursor f) : Prop := ∀ v ∈ c.next?, f.least ≤ v ∧ v ≤ c.last ∧ c.last ≤ f.greatest

theorem rest_some {v last : Int} (h : v < last) :
    (⟨some v, last⟩ : Cursor f).rest = v :: (⟨some (v + 1), last⟩ : Cursor f).rest := by
  have hlength : (last - v + 1).toNat = (last - (v + 1) + 1).toNat + 1 := by omega
  simp only [rest, hlength, List.range_succ_eq_map, List.map_cons, List.map_map]
  congr 1
  · simp
  · refine List.map_congr_left fun i _ => ?_
    simp only [Function.comp_apply, Nat.succ_eq_add_one]
    omega

theorem rest_last (v : Int) : (⟨some v, v⟩ : Cursor f).rest = [v] := by
  simp [rest]

/-- A step gives the first of the values to come and leaves the others. -/
theorem advance_walk {c : Cursor f} (hc : c.Sound) :
    ∃ c', c.advance = .ok (c.rest.head?, c') ∧ c'.Sound ∧ c'.rest = c.rest.tail := by
  obtain ⟨_ | v, last⟩ := c
  · exact ⟨_, rfl, hc, rfl⟩
  · have hv : f.least ≤ v ∧ v ≤ last ∧ last ≤ f.greatest := hc v rfl
    by_cases hlt : v < last
    · have hstep : f.checked (v + 1) = some (v + 1) := if_pos (by omega)
      refine ⟨⟨some (v + 1), last⟩, ?_, ?_, ?_⟩
      · simp only [advance, if_pos hlt, hstep, rest_some hlt, List.head?_cons]
      · rintro w hw
        obtain rfl : v + 1 = w := by simpa using hw
        exact ⟨by omega, hlt, hv.2.2⟩
      · rw [rest_some hlt, List.tail_cons]
    · obtain rfl : v = last := by omega
      refine ⟨⟨none, v⟩, ?_, by simp [Sound], ?_⟩
      · simp only [advance, if_neg hlt, rest_last, List.head?_cons]
      · rw [rest_last]
        rfl

/-- Of the values to come, a walk of at most `n` steps gives the first `n` and leaves the others. -/
theorem take_walk : ∀ (n : Nat) {c : Cursor f}, c.Sound →
    ∃ c', c.take n = .ok (c.rest.take n, c') ∧ c'.Sound ∧ c'.rest = c.rest.drop n
  | 0, c, hc => ⟨c, rfl, hc, rfl⟩
  | n + 1, c, hc => by
    obtain ⟨c₁, hstep, hc₁, hrest⟩ := advance_walk hc
    rw [take, hstep]
    rcases hr : c.rest with _ | ⟨v, vs⟩
    · rw [hr] at hrest
      exact ⟨c₁, rfl, hc₁, hrest⟩
    · rw [hr, List.tail_cons] at hrest
      obtain ⟨c₂, htake, hc₂, hdrop⟩ := take_walk n hc₁
      rw [hrest] at htake hdrop
      refine ⟨c₂, ?_, hc₂, hdrop⟩
      simp only [List.head?_cons, htake, List.take_succ_cons]

theorem next?_of_rest_nil {c : Cursor f} (hc : c.Sound) (h : c.rest = []) : c.next? = none := by
  obtain ⟨_ | v, last⟩ := c
  · rfl
  · have hle : v ≤ last := (hc v rfl).2.1
    have hlength := congrArg List.length h
    simp only [rest, List.length_map, List.length_range, List.length_nil] at hlength
    omega

end Cursor

theorem cursor_sound (a : Interval f) : a.cursor.Sound := by
  rintro v hv
  obtain rfl : a.lo = v := by simpa [cursor] using hv
  exact ⟨a.least_le, a.lo_le_hi, a.le_greatest⟩

/-- After as many values as the interval has, the walk is over. -/
theorem take_size (a : Interval f) :
    ∃ items c, a.cursor.take a.size = .ok (items, c) ∧ items.length = a.size
      ∧ c.advance = .ok (none, c) := by
  have hlength : a.cursor.rest.length = a.size := by simp [Cursor.rest, cursor, size]
  obtain ⟨c, htake, hc, hrest⟩ := Cursor.take_walk a.size a.cursor_sound
  rw [List.drop_of_length_le (Nat.le_of_eq hlength)] at hrest
  have hover := Cursor.next?_of_rest_nil hc hrest
  refine ⟨_, c, htake, ?_, ?_⟩
  · rw [List.length_take, hlength, Nat.min_self]
  · rw [Cursor.advance, hover]

theorem cardinality_of_beyond {a : Interval f} (h : IntFormat.int128.greatest < a.hi) :
    a.cardinality = .ok none :=
  if_neg fun hfits => Int.not_lt.mpr hfits.2.2 h

section Counting

variable {a : Interval f} (h : a.hi ≤ IntFormat.int128.greatest)
include h

theorem fits_of_hi_le : IntFormat.int128.Fits a.lo ∧ IntFormat.int128.Fits a.hi := by
  have hleast : IntFormat.int128.least ≤ a.lo :=
    Int.le_trans (IntFormat.int128_least_le f) a.least_le
  have hle := a.lo_le_hi
  exact ⟨⟨hleast, by omega⟩, by omega, h⟩

theorem cardinality_of_roomy (hroom : (a.size : Int) ≤ IntFormat.int128.greatest) :
    a.cardinality = .ok a.size? := by
  have hle := a.lo_le_hi
  have hsize := a.size_eq
  have hlow : IntFormat.int128.least ≤ 0 := by decide
  have hgap : IntFormat.int128.checked (a.hi - a.lo) = some (a.hi - a.lo) := if_pos (by omega)
  have hcount : IntFormat.int128.checked (a.hi - a.lo + 1) = some (a.size : Int) := by
    rw [← hsize]
    exact if_pos (by omega)
  rw [cardinality, if_pos (fits_of_hi_le h)]
  simp only [hgap, hcount, size?, Int.toNat_natCast, Int.ofNat_le]

/-- The bounds may be so far apart that their difference has no room, or only that and one more. -/
theorem cardinality_of_cramped (hcramped : IntFormat.int128.greatest < a.size) :
    a.cardinality = .error .overflow := by
  have hsize := a.size_eq
  rw [cardinality, if_pos (fits_of_hi_le h)]
  by_cases hgap : a.hi - a.lo ≤ IntFormat.int128.greatest
  · have hlow : IntFormat.int128.least ≤ 0 := by decide
    have hle := a.lo_le_hi
    have hgap' : IntFormat.int128.checked (a.hi - a.lo) = some (a.hi - a.lo) :=
      if_pos (by omega)
    have hcount : IntFormat.int128.checked (a.hi - a.lo + 1) = none := if_neg (by omega)
    simp only [hgap', hcount]
  · have hgap' : IntFormat.int128.checked (a.hi - a.lo) = none := if_neg (by omega)
    simp only [hgap']

end Counting

theorem cardinality_cases (a : Interval f) :
    (IntFormat.int128.greatest < a.hi ∧ a.cardinality = .ok none)
      ∨ (a.hi ≤ IntFormat.int128.greatest ∧ IntFormat.int128.greatest < a.size
        ∧ a.cardinality = .error .overflow)
      ∨ (a.hi ≤ IntFormat.int128.greatest ∧ (a.size : Int) ≤ IntFormat.int128.greatest
        ∧ a.cardinality = .ok a.size?) := by
  rcases Int.lt_or_le IntFormat.int128.greatest a.hi with hhi | hhi
  · exact .inl ⟨hhi, cardinality_of_beyond hhi⟩
  · rcases Int.lt_or_le IntFormat.int128.greatest a.size with hsize | hsize
    · exact .inr (.inl ⟨hhi, hsize, cardinality_of_cramped hhi hsize⟩)
    · exact .inr (.inr ⟨hhi, hsize, cardinality_of_roomy hhi hsize⟩)

theorem size_of_cardinality {a : Interval f} {n : Nat} (h : a.cardinality = .ok (some n)) :
    n = a.size := by
  rcases a.cardinality_cases with ⟨-, hc⟩ | ⟨-, -, hc⟩ | ⟨-, -, hc⟩ <;> rw [hc] at h
  · cases h
  · cases h
  · rw [Except.ok.injEq, size?] at h
    split at h
    · exact (Option.some.inj h).symm
    · cases h

/-- The answer is right, the number of values or none if that is no 64-bit count, exactly in two
cases: the upper bound and the number of values are numbers of the widest signed format, or the
bound is none and the number is no 64-bit count either. Otherwise it crashes or gives no count. That
takes a format of the greatest width; a single value is counted unless it is beyond the widest
signed format. A count that is given is the number of values of a walk. -/
theorem cardinality_is_size_iff (a : Interval f) :
    (a.cardinality = .ok a.size? ↔
        if a.hi ≤ IntFormat.int128.greatest then (a.size : Int) ≤ IntFormat.int128.greatest
        else maxCount < a.size)
      ∧ (a.cardinality = .error .overflow ↔
        a.hi ≤ IntFormat.int128.greatest ∧ IntFormat.int128.greatest < a.size)
      ∧ (IntFormat.int128.greatest < a.hi → a.cardinality = .ok none)
      ∧ (f.width ≠ .w128 → a.cardinality = .ok a.size?)
      ∧ (a.isSingleton = true →
        (a.cardinality = .ok (some 1) ↔ a.hi ≤ IntFormat.int128.greatest))
      ∧ ∀ n, a.cardinality = .ok (some n) → n = a.size
        ∧ ∃ items c, a.cursor.take n = .ok (items, c) ∧ items.length = n
          ∧ c.advance = .ok (none, c) := by
  refine ⟨?_, ?_, cardinality_of_beyond, fun hnarrow => ?_, fun hsingle => ?_, fun n hn => ?_⟩
  · rcases a.cardinality_cases with ⟨hhi, hc⟩ | ⟨hhi, hsize, hc⟩ | ⟨hhi, hsize, hc⟩
    · simp [hc, Int.not_le.mpr hhi, size?]
    · simp [hc, hhi, hsize]
    · simp [hc, hhi, hsize]
  · rcases a.cardinality_cases with ⟨hhi, hc⟩ | ⟨hhi, hsize, hc⟩ | ⟨hhi, hsize, hc⟩
    · simp [hc, Int.not_le.mpr hhi]
    · simp [hc, hhi, hsize]
    · simp [hc, Int.not_lt.mpr hsize]
  · obtain ⟨hgreatest, hroom⟩ := IntFormat.greatest_le_of_narrow hnarrow
    have hlo := a.least_le
    have hhi := a.le_greatest
    have hsize := a.size_eq
    exact cardinality_of_roomy (by omega) (by omega)
  · have hone := size_of_isSingleton hsingle
    have hcount : a.size? = some 1 := by
      rw [size?, hone]
      rfl
    rcases a.cardinality_cases with ⟨hhi, hc⟩ | ⟨-, hsize, -⟩ | ⟨hhi, -, hc⟩
    · simp [hc, Int.not_le.mpr hhi]
    · rw [hone] at hsize
      exact absurd hsize (by decide)
    · simp [hc, hcount, hhi]
  · have hsize := size_of_cardinality hn
    exact ⟨hsize, hsize ▸ a.take_size⟩

/-- The values at the upper end of the narrowest signed format, the only one at the end of the
widest signed format, and as many as a 64-bit count can say. -/
theorem cardinality_is_size_iff_at_ends :
    let top : Interval ⟨true, .w8⟩ := ⟨125, 127, by decide, by decide, by decide⟩
    let edge : Interval ⟨false, .w128⟩ :=
      singleton 0x7fffffffffffffffffffffffffffffff (by decide)
    let wide : Interval ⟨false, .w64⟩ := ⟨1, 0xffffffffffffffff, by decide, by decide, by decide⟩
    (top.cardinality = .ok (some 3)
        ∧ ∃ items c, top.cursor.take 3 = .ok (items, c) ∧ items.length = 3
          ∧ c.advance = .ok (none, c))
      ∧ (edge.isSingleton = true ∧ edge.cardinality = .ok (some 1))
      ∧ wide.cardinality = .ok (some maxCount) := by
  intro top edge wide
  have htop : top.cardinality = .ok (some 3) := by decide
  have hedge : edge.isSingleton = true := by decide
  obtain ⟨-, -, -, -, -, hwalk⟩ := cardinality_is_size_iff top
  obtain ⟨-, -, -, -, hsingle, -⟩ := cardinality_is_size_iff edge
  obtain ⟨-, -, -, hnarrow, -, -⟩ := cardinality_is_size_iff wide
  exact ⟨⟨htop, (hwalk 3 htop).2⟩, ⟨hedge, (hsingle hedge).2 (by decide)⟩,
    (hnarrow (by decide)).trans (by decide)⟩

/-- A single value beyond the widest signed format is not counted, and counting too many values,
which should only give no count, crashes where the number has no room in that format. -/
theorem large_singleton_not_counted :
    let last : Interval ⟨false, .w128⟩ :=
      singleton 0xffffffffffffffffffffffffffffffff (by decide)
    let half : Interval ⟨false, .w128⟩ :=
      ⟨0, 0x7fffffffffffffffffffffffffffffff, by decide, by decide, by decide⟩
    (last.size? = some 1 ∧ last.cardinality = .ok none)
      ∧ (half.size? = none ∧ half.cardinality = .error .overflow) := by
  decide

end Interval

end ScenarioSampling
