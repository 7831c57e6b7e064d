import ScenarioSampling.Sampling.Uniform
import ScenarioSampling.Proofs.Decisions

/-!
# Draws stay in their domains

Whatever the words, a number drawn below `range` is below `range`: the second word raises the first
result only where that was not the largest one. A drawn value is therefore in the domain it is drawn
from, and a drawn candidate in the declared domains.
-/

namespace ScenarioSampling

variable {ρ : Type} [WordSource ρ]

theorem word_lt (w : UInt64) : w.toNat < wordRange := w.toNat_lt

/-- The second word raises the high half only if the low half is close to overflow, and then the
high half is not the largest number. -/
theorem drawBelow_lt {range : Nat} (hpos : 0 < range) (hr : range < wordRange) (source : ρ) :
    (drawBelow range source).1 < range := by
  unfold drawBelow
  rcases WordSource.next source with ⟨w, source⟩
  simp only []
  have hw : w.toNat * range + range ≤ wordRange * range := by
    rw [← Nat.succ_mul]
    exact Nat.mul_le_mul_right range (word_lt w)
  have hsplit := Nat.div_add_mod (w.toNat * range) wordRange
  have hhigh : w.toNat * range / wordRange < range :=
    Nat.div_lt_of_lt_mul (by omega)
  split
  · rename_i hlow
    have hstep : wordRange * (w.toNat * range / wordRange + 1) < wordRange * range := by
      rw [Nat.mul_add, Nat.mul_one]
      omega
    have hnext := Nat.lt_of_mul_lt_mul_left hstep
    simp only []
    split <;> assumption
  · exact hhigh

theorem int64_fits_iff {v : Int} :
    IntFormat.int64.Fits v ↔ -9223372036854775808 ≤ v ∧ v ≤ 9223372036854775807 :=
  .rfl

theorem signedWord_fits (w : UInt64) : IntFormat.int64.Fits (signedWord w) := by
  have hlo := w.toInt64.le_toInt
  have hhi := w.toInt64.toInt_lt
  rw [int64_fits_iff, signedWord]
  omega

/-- Only the widest domain has as many values as there are words. -/
theorem contains_of_widest {d : Domain} (h : (d.hi - d.lo + 1).toNat = wordRange) {v : Int}
    (hv : IntFormat.int64.Fits v) : d.contains v = true := by
  have hlo := d.least_le
  have hhi := d.le_greatest
  change -9223372036854775808 ≤ d.lo at hlo
  change d.hi ≤ 9223372036854775807 at hhi
  rw [int64_fits_iff] at hv
  rw [wordRange] at h
  rw [Interval.contains_iff]
  omega

theorem drawFrom_contains (d : Domain) (source : ρ) :
    d.contains (drawFrom d source).1 = true := by
  have hle := d.lo_le_hi
  unfold drawFrom
  split
  · rw [Interval.contains_iff]
    exact ⟨Int.le_refl _, hle⟩
  · simp only []
    split
    · rename_i hr
      exact contains_of_widest hr (signedWord_fits _)
    · rename_i hr
      have hlo : (-9223372036854775808 : Int) ≤ d.lo := d.least_le
      have hhi : d.hi ≤ (9223372036854775807 : Int) := d.le_greatest
      have hlt : (d.hi - d.lo + 1).toNat < wordRange := by
        rw [wordRange] at hr ⊢
        omega
      have hoff := drawBelow_lt (by omega) hlt source
      rw [Interval.contains_iff]
      omega

theorem overwrite_length : ∀ (vs : List Int) (ds : List Domain) (source : ρ),
    (overwrite vs ds source).1.length = vs.length
  | [], _, _ => rfl
  | _ :: _, [], _ => rfl
  | _ :: vs, d :: ds, source => by
    simp only [overwrite, List.length_cons, overwrite_length vs ds]

theorem overwrite_contains : ∀ (vs : List Int) (ds : List Domain) (source : ρ) (i : Nat) {d : Domain}
    {v : Int}, ds[i]? = some d → (overwrite vs ds source).1[i]? = some v → d.contains v = true
  | [], _, _, _, _, _, _, hv => by simp [overwrite] at hv
  | _ :: _, [], _, _, _, _, hd, _ => by simp at hd
  | _ :: vs, d :: ds, source, 0, _, _, hd, hv => by
    cases hd
    cases hv
    exact drawFrom_contains d source
  | _ :: vs, d :: ds, source, i + 1, _, _, hd, hv =>
    overwrite_contains vs ds (drawFrom d source).2 i hd hv

theorem overwrite_forall₂ {vs : List Int} {ds : List Domain} (h : vs.length = ds.length)
    (source : ρ) : List.Forall₂ (fun v d => d.contains v = true) (overwrite vs ds source).1 ds := by
  induction vs generalizing ds source with
  | nil =>
    obtain rfl := List.eq_nil_of_length_eq_zero h.symm
    exact .nil
  | cons v vs ih =>
    obtain ⟨d, ds, rfl⟩ := List.exists_cons_of_length_eq_add_one h.symm
    exact .cons (drawFrom_contains d source) (ih (Nat.succ.inj h) _)

theorem resize_length (c : Candidate) (len : Nat) : (c.resize len).values.length = len := by
  simp only [Candidate.resize, Candidate.length, List.length_append, List.length_take,
    List.length_replicate]
  omega

/-- A drawn candidate has a value for every variable, and each is in the current domain. -/
theorem sampleInto_current {declared : List Domain} {d : Region} (h : d.Follows declared)
    (source : ρ) (c : Candidate) :
    List.Forall₂ (fun v a => a.contains v = true) (UniformSampler.sampleInto d source c).1.values
      d.current := by
  refine overwrite_forall₂ ?_ source
  rw [h.current_length, ← h.length_eq]
  split
  · assumption
  · exact resize_length c d.length

/-- A drawn candidate has a value for every variable, and each is in the declared domain. -/
theorem sampleInto_declared {declared : List Domain} {d : Region} (h : d.Follows declared)
    (source : ρ) (c : Candidate) :
    (UniformSampler.sampleInto d source c).1.values.length = declared.length
      ∧ ∀ (i : Nat) (a : Domain) (v : Int), declared[i]? = some a →
        (UniformSampler.sampleInto d source c).1.values[i]? = some v → a.contains v = true := by
  unfold UniformSampler.sampleInto
  simp only []
  refine ⟨?_, fun i a v ha hv => ?_⟩
  · rw [overwrite_length, ← h.length_eq]
    split
    · assumption
    · exact resize_length c d.length
  · obtain ⟨b, hb, hba⟩ := h.current_isSubsetOf ha
    exact Interval.isSubsetOf_iff.mp hba v (overwrite_contains _ _ source i hb hv)

end ScenarioSampling
