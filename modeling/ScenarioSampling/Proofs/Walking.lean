import ScenarioSampling.Proofs.Counting

/-!
# Walking through an interval

The step after the last value would leave the format where an interval reaches to its end, so a walk
ends in a state without a next value and stays there. Whatever the bounds, it gives each value once,
the least one first and after each the next greater one, and then nothing, as often as it is asked
(`walk_complete`).
-/

namespace ScenarioSampling

namespace Interval

variable {f : IntFormat}

namespace Cursor

/-- The answers to `n` steps, whether a value was left or not. -/
def answers : Nat → Cursor f → Except Crash (List (Option Int) × Cursor f)
  | 0, c => .ok ([], c)
  | n + 1, c => do
    let (v, c) ← c.advance
    let (vs, c) ← c.answers n
    return (v :: vs, c)

theorem answers_succ {n : Nat} {c c₁ c₂ : Cursor f} {v : Option Int} {vs : List (Option Int)}
    (hstep : c.advance = .ok (v, c₁)) (h : c₁.answers n = .ok (vs, c₂)) :
    c.answers (n + 1) = .ok (v :: vs, c₂) := by
  rw [answers, hstep]
  change (c₁.answers n >>= _) = _
  rw [h]
  rfl

/-- No step crashes, and the answers are the values to come, one by one. -/
theorem answers_walk : ∀ (n : Nat) {c : Cursor f}, c.Sound →
    ∃ c', c.answers n = .ok ((List.range n).map fun i => c.rest[i]?, c') ∧ c'.Sound
      ∧ c'.rest = c.rest.drop n
  | 0, c, hc => ⟨c, rfl, hc, rfl⟩
  | n + 1, c, hc => by
    obtain ⟨c₁, hstep, hc₁, hrest⟩ := advance_walk hc
    obtain ⟨c₂, hanswers, hc₂, hdrop⟩ := answers_walk n hc₁
    refine ⟨c₂, (answers_succ hstep hanswers).trans ?_, hc₂, by rw [hdrop, hrest, List.drop_tail]⟩
    rw [hrest, List.range_succ_eq_map, List.map_cons, List.map_map]
    simp [List.head?_eq_getElem?]

end Cursor

/-- The values of an interval, the least one first. -/
def items (a : Interval f) : List Int := (List.range a.size).map fun i : Nat => a.lo + i

theorem rest_cursor (a : Interval f) : a.cursor.rest = a.items := rfl

theorem items_increase (a : Interval f) : a.items.Pairwise (· < ·) := by
  refine List.pairwise_map.2 (List.pairwise_lt_range.imp fun hlt => ?_)
  omega

theorem mem_items (a : Interval f) (v : Int) : v ∈ a.items ↔ a.contains v = true := by
  have hsize := a.size_eq
  simp only [items, List.mem_map, List.mem_range, contains_iff]
  constructor
  · rintro ⟨i, hi, rfl⟩
    omega
  · rintro ⟨hlo, hhi⟩
    exact ⟨(v - a.lo).toNat, by omega, by omega⟩

theorem getElem?_items (a : Interval f) (i : Nat) :
    a.items[i]? = if i < a.size then some (a.lo + i) else none := by
  rw [items, List.getElem?_map]
  split_ifs with hi
  · rw [List.getElem?_range hi, Option.map_some]
  · rw [List.getElem?_eq_none (by simpa using hi), Option.map_none]

/-- However often a walk is asked, it does not crash: it gives the least value, then the one after
it and so on up to the greatest, and then none. So it ends after as many values as the interval has,
one more than its bounds are apart, and has given each of them once and in increasing order. -/
theorem walk_complete (a : Interval f) :
    (∀ n, ∃ c, a.cursor.answers n = .ok ((List.range n).map fun i => a.items[i]?, c))
      ∧ (∀ i, a.items[i]? = if i < a.size then some (a.lo + i) else none)
      ∧ (a.size : Int) = a.hi - a.lo + 1
      ∧ a.items.Pairwise (· < ·)
      ∧ ∀ v, v ∈ a.items ↔ a.contains v = true := by
  refine ⟨fun n => ?_, a.getElem?_items, a.size_eq, a.items_increase, a.mem_items⟩
  obtain ⟨c, h, -, -⟩ := Cursor.answers_walk n a.cursor_sound
  rw [rest_cursor] at h
  exact ⟨c, h⟩

/-- At the end of the narrowest signed format, where there is no step beyond the last value. -/
example :
    let top : Interval ⟨true, .w8⟩ := ⟨125, 127, by decide, by decide, by decide⟩
    top.cursor.answers 5 = .ok ([some 125, some 126, some 127, none, none], ⟨none, 127⟩) := by
  decide

end Interval

end ScenarioSampling
