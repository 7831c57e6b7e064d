import Mathlib.Order.Bounds.Basic
import ScenarioSampling.Proofs.Bookkeeping

/-!
# The best candidate of a run

A run remembers its best score twice, in its statistics and beside the candidate that has it. Both
change only where a candidate gets a score, and then only to a lower one. So they always agree, and
the candidate is the first one with the lowest score of all that were drawn (`Draw.Best`), whether
or not it was reported (`outcome_holds_first_best`).
-/

namespace ScenarioSampling

open Entry

namespace Draw

/-- The score of a draw that came to one. -/
def score? (d : Draw) : Option Nat := d.scored?.bind fun x => x.2.toOption

/-- The best candidate of these draws is the first one with the lowest score. -/
inductive Best (ds : List Draw) : Option (Candidate × Nat) → Prop where
  | unscored : (∀ d ∈ ds, d.score? = none) → Best ds none
  | first {before d after c s} : ds = before ++ d :: after → d.scored? = some (c, .ok s) →
      (∀ d' ∈ before, ∀ t, d'.score? = some t → s < t) →
      (∀ d' ∈ after, ∀ t, d'.score? = some t → s ≤ t) → Best ds (some (c, s))

variable {ds : List Draw} {d : Draw} {best : Option (Candidate × Nat)} {c : Candidate} {s t : Nat}

theorem score?_of_scored (h : d.scored? = some (c, .ok s)) : d.score? = some s := by
  rw [score?, h]
  rfl

theorem Best.le (h : Best ds (some (c, s))) (hd : d ∈ ds) (ht : d.score? = some t) : s ≤ t := by
  cases h with
  | @first before d' after _ _ hsplit hd' hbefore hafter =>
    rw [hsplit, List.mem_append, List.mem_cons] at hd
    rcases hd with hd | rfl | hd
    · exact Nat.le_of_lt (hbefore d hd t ht)
    · rw [score?_of_scored hd'] at ht
      exact Nat.le_of_eq (Option.some.inj ht)
    · exact hafter d hd t ht

/-- A draw without a score, or with one that is no lower, leaves the best candidate. -/
theorem Best.keep (h : Best ds best) (hd : ∀ t, d.score? = some t → ∃ b ∈ best, b.2 ≤ t) :
    Best (ds ++ [d]) best := by
  cases h with
  | unscored hnone =>
    refine .unscored fun d' hd' => ?_
    rw [List.mem_append, List.mem_singleton] at hd'
    rcases hd' with hd' | rfl
    · exact hnone d' hd'
    · by_contra hne
      obtain ⟨t, ht⟩ := Option.ne_none_iff_exists'.1 hne
      obtain ⟨b, hb, -⟩ := hd t ht
      cases hb
  | @first before d' after c s hsplit hd' hbefore hafter =>
    have hsplit' : ds ++ [d] = before ++ d' :: (after ++ [d]) := by simp [hsplit]
    refine .first hsplit' hd' hbefore fun e he t ht => ?_
    rw [List.mem_append, List.mem_singleton] at he
    rcases he with he | rfl
    · exact hafter e he t ht
    · obtain ⟨b, hb, hle⟩ := hd t ht
      cases hb
      exact hle

/-- A draw with a score becomes the best one if that is lower than all before. -/
theorem Best.judge (h : Best ds best) (hd : d.scored? = some (c, .ok s)) :
    Best (ds ++ [d]) (if improves (best.map Prod.snd) s then some (c, s) else best) := by
  split_ifs with hi
  · refine .first rfl hd (fun d' hd' t ht => ?_) (by simp)
    rcases best with _ | ⟨c', s'⟩
    · cases h with
      | unscored hnone => simp [hnone d' hd'] at ht
    · have hle := h.le hd' ht
      have hlt : s < s' := by simpa [improves] using hi
      omega
  · refine h.keep fun t ht => ?_
    rw [score?_of_scored hd] at ht
    cases ht
    rcases best with _ | b
    · simp [improves] at hi
    · exact ⟨b, rfl, by simpa [improves] using hi⟩

theorem Best.eq_none_iff (h : Best ds best) : best = none ↔ ∀ d ∈ ds, d.score? = none := by
  cases h with
  | unscored hnone => exact iff_of_true rfl hnone
  | @first before d after c s hsplit hd =>
    refine iff_of_false nofun fun hnone => ?_
    have hd' := hnone d (by simp [hsplit])
    rw [score?_of_scored hd] at hd'
    cases hd'

theorem Best.isLeast (h : Best ds (some (c, s))) : IsLeast {t | t ∈ ds.filterMap score?} s := by
  refine ⟨?_, fun t ht => ?_⟩
  · cases h with
    | first hsplit hd =>
      exact List.mem_filterMap.2 ⟨_, by simp [hsplit], score?_of_scored hd⟩
  · obtain ⟨d, hd, hscore⟩ := List.mem_filterMap.1 ht
    exact h.le hd hscore

end Draw

theorem Entry.scores_eq (es : List Entry) : scores es = (draws es).filterMap Draw.score? := by
  rw [scores, scored, List.filterMap_filterMap]
  rfl

theorem Draw.Best.eq_none_iff_scores {es : List Entry} {best : Option (Candidate × Nat)}
    (h : Draw.Best (draws es) best) : best = none ↔ scores es = [] := by
  rw [scores_eq, List.filterMap_eq_nil_iff]
  exact h.eq_none_iff

namespace Run

variable {σ ρ ν μ : Type}

/-- After `es`, the run remembers the best candidate of its draws, and its score twice. -/
structure Remembers (es : List Entry) (r : Run σ ρ ν μ) : Prop where
  best : Draw.Best (draws es) r.best
  score : r.sink.statistics.best = r.best.map Prod.snd

variable {x y : World × Run σ ρ ν μ} {es es' : List Entry}

theorem Remembers.quiet {r r' : Run σ ρ ν μ} (hx : Remembers es r) (hdraws : draws es' = [])
    (hbest : r'.best = r.best) (hscore : r'.sink.statistics.best = r.sink.statistics.best) :
    Remembers (es ++ es') r' := by
  refine ⟨?_, by rw [hscore, hbest, hx.score]⟩
  rw [draws_append, hdraws, List.append_nil, hbest]
  exact hx.best

/-- A draw that came to no score is not remembered. -/
theorem Remembers.unscored {r r' : Run σ ρ ν μ} {d : Draw} (hx : Remembers es r)
    (hd : d.score? = none) (hbest : r'.best = r.best)
    (hscore : r'.sink.statistics.best = r.sink.statistics.best) :
    Remembers (es ++ [.drew d]) r' := by
  refine ⟨?_, by rw [hscore, hbest, hx.score]⟩
  rw [draws_append, hbest]
  exact hx.best.keep (by simp [hd])

theorem afterEmission_best [SamplingMonitor μ] (r : Run σ ρ ν μ) (score : Nat)
    (a : Emission × World × Sink) : (afterEmission r score a).2.best = r.best := by
  obtain ⟨(_ | reason) | v | q, w, sink⟩ := a <;> rfl

section Memory

variable [SamplingMonitor μ] [Sampler σ ρ]

theorem Answered.remembers {q : Report} {a : Emission × World × Sink} (h : Answered x q a)
    (hx : Remembers es x.2) :
    Remembers (es ++ attemptEntries x q.score a.1) (afterEmission x.2 q.score a).2 := by
  obtain ⟨rest, heq, -, hdraws⟩ := attemptEntries_eq x q.score a.1
  have hundrawn : draws (attemptEntries x q.score a.1) = [] := by
    rw [heq]
    exact hdraws
  obtain ⟨ts, hbooks⟩ := h.advances
  refine hx.quiet hundrawn (afterEmission_best _ _ _) ?_
  rw [hbooks.tallied.best, scores_eq, hundrawn]
  rfl

variable [Scorer ν]

theorem remembers_judged {c : Candidate × σ × ρ} {score : Nat} (hd : drawn x = .ok c)
    (hs : rated x c.1 = .ok (.ok score)) (hx : Remembers es x.2) :
    Remembers (es ++ [.drew (drawing x)]) (judged (withDrawn x c) score).2 := by
  have hjudged := hx.best.judge (drawing_scored hd hs).2
  have hstat : (withDrawn x c).2.sink.statistics.best = x.2.best.map Prod.snd := hx.score
  rw [judged_run]
  simp only [hstat]
  refine ⟨?_, ?_⟩
  · rw [draws_append]
    exact hjudged
  · show lower (x.2.best.map Prod.snd) score = _
    unfold lower
    split_ifs <;> rfl

theorem DrawCourse.remembers (h : DrawCourse x es' y) (hl : x.1.channel.stopped = none)
    (hx : Remembers es x.2) : Remembers (es ++ es') y.2 := by
  cases h with
  | undrawn hd => exact hx.unscored (by simp [Draw.score?, (drawing_undrawn hd).2]) rfl rfl
  | unscored hd hs => exact hx.unscored (by simp [Draw.score?, (drawing_unscored hd hs).2]) rfl rfl
  | discarded hd hs =>
    refine hx.unscored ?_ rfl rfl
    rw [Draw.score?, (drawing_scored hd hs).2]
    rfl
  | passed hd hs => exact remembers_judged hd hs hx
  | @reported c score z hd hs _ hz =>
    have hjudged := remembers_judged hd hs hx
    rw [hz] at hjudged
    have hlisten : z.1.channel.stopped = none := by
      rw [← hz]
      exact (quiet_judged x c score).disturbed.stopped.trans hl
    obtain ⟨q, rfl, hq⟩ := emission_answered hlisten score
    rw [List.append_cons]
    exact hq.remembers hjudged

theorem Course.remembers (h : Course x es' y) (hready : Ready x) (hx : Remembers es x.2) :
    Remembers (es ++ es') y.2 := by
  cases h with
  | idle => rwa [List.append_nil]
  | stopped _ hp | aborted _ hp =>
    obtain ⟨ts, hpoll⟩ := poll_advances hp
    exact hx.quiet rfl rfl hpoll.tallied.best
  | @drew z _ _ ho hd =>
    obtain ⟨ts, hpoll⟩ := poll_advances ho.polled
    rw [← ho.rest] at hpoll
    have hz : Remembers (es ++ []) z.2 :=
      hx.quiet rfl (by rw [ho.rest]; rfl) hpoll.tallied.best
    rw [List.append_nil] at hz
    exact hd.remembers ho.listens hz
  | resumed hq => exact (hready.answered hq).remembers hx

theorem play_remembers : ∀ (vs : List Move) {x : World × Run σ ρ ν μ} {es : List Entry}, Ready x →
    Remembers es x.2 → Remembers (es ++ chronicle x vs) (play x vs).2
  | [], _, _, _, hx => by rwa [chronicle, List.append_nil]
  | v :: vs, x, es, hready, hx => by
    have hnext : Remembers (es ++ moveEntries x v) (next x v).2 := by
      cases v with
      | act | plan => rwa [moveEntries, List.append_nil]
      | step => exact (step_course x).remembers hready hx
    rw [chronicle, ← List.append_assoc]
    exact play_remembers vs (next_ready hready v).1 hnext

omit [Sampler σ ρ] [Scorer ν] in
theorem remembers_begin {w₀ w : World} {policy : ReportPolicy} {m : Model} {sampler : σ}
    {source : ρ} {scorer : ν} {monitor : μ} {r : Run σ ρ ν μ}
    (h : begin w₀ policy m sampler source scorer monitor = .ok (w, r)) : Remembers [] r := by
  unfold begin at h
  split at h
  · cases h
    exact ⟨.unscored (by simp [draws]), rfl⟩
  · cases h

/-- In every run that has an outcome, whatever the sampler, the scorer, the monitor and the others
do and whatever is to be reported: the outcome and the statistics have the same best score, and they
have none exactly if no candidate got a score. Otherwise it is the least score of the run, and the
best candidate is the first one that was drawn with it. -/
theorem outcome_holds_first_best {w₀ w : World} {policy : ReportPolicy} {m : Model} {sampler : σ}
    {source : ρ} {scorer : ν} {monitor : μ} {r : Run σ ρ ν μ}
    (h : begin w₀ policy m sampler source scorer monitor = .ok (w, r)) (vs : List Move)
    {o : Outcome} (ho : (play (w, r) vs).2.outcome? = some o) :
    let es := chronicle (w, r) vs
    o.bestScore? = o.statistics.best
      ∧ (o.bestScore? = none ↔ scores es = [])
      ∧ (o.bestCandidate? = none ↔ scores es = [])
      ∧ ∀ s, o.bestScore? = some s → IsLeast {t | t ∈ scores es} s
        ∧ ∃ before d after c, draws es = before ++ d :: after ∧ d.scored? = some (c, .ok s)
          ∧ o.bestCandidate? = some c ∧ ∀ d' ∈ before, d'.score? ≠ some s := by
  intro es
  have hready := Ready.of_looping (begun h).looping
  have hx := play_remembers vs hready (remembers_begin h)
  rw [List.nil_append] at hx
  obtain ⟨-, hbest, hstat⟩ := of_outcome ho
  have hscore : o.bestScore? = o.statistics.best := by
    rw [hstat, hx.score, Outcome.bestScore?, hbest]
  have hfirst : Draw.Best (draws es) o.best := hbest.symm ▸ hx.best
  have hnone : o.best = none ↔ scores es = [] := hfirst.eq_none_iff_scores
  refine ⟨hscore, Option.map_eq_none_iff.trans hnone, Option.map_eq_none_iff.trans hnone,
    fun s hs => ?_⟩
  obtain ⟨⟨c, s⟩, hcs, rfl⟩ := Option.map_eq_some_iff.1 hs
  rw [hcs] at hfirst
  refine ⟨?_, ?_⟩
  · rw [scores_eq]
    exact hfirst.isLeast
  · cases hfirst with
    | @first before d after _ _ hsplit hd hbefore _ =>
      refine ⟨before, d, after, c, hsplit, hd, by rw [Outcome.bestCandidate?, hcs]; rfl, ?_⟩
      exact fun d' hd' ht => Nat.lt_irrefl _ (hbefore d' hd' _ ht)

end Memory

/-- Of the candidates `(3, 0)`, `(0, 1)` for `2 * x == y`, the second one is to be reported to a
search that takes no reports, and is discarded when the search ends. It is the best one still. -/
theorem outcome_holds_first_best_discarded :
    let domain : Domain := ⟨0, 3, by decide, by decide, by decide⟩
    let m : Model :=
      ⟨.closed,
        [⟨"x", ⟨0⟩, .decision .existential, .int, domain⟩,
          ⟨"y", ⟨1⟩, .decision .existential, .int, domain⟩],
        [.linear ⟨[⟨2, ⟨0⟩⟩], .eq, ⟨1⟩⟩], [("y", ⟨1⟩), ("x", ⟨0⟩)], 0⟩
    let source : WordCycle := ⟨#[13835058055282163712, 0, 0, 4611686018427387904], 0⟩
    let vs : List Move := [.step, .step, .act (.notify .globalFailure), .step]
    ∃ w r o, begin (.ofCapacity 0) ⟨1, false⟩ m UniformSampler.mk source ConstraintScorer.mk
        (Monitor.recorder "all") = .ok (w, r)
      ∧ (play (w, r) vs).2.outcome? = some o
      ∧ accepted (chronicle (w, r) vs) = [] ∧ o.bestCandidate? = some ⟨[0, 1]⟩
      ∧ o.statistics.best = some 1 ∧ IsLeast {t | t ∈ scores (chronicle (w, r) vs)} 1 := by
  intro domain m source vs
  have h : begin (.ofCapacity 0) ⟨1, false⟩ m UniformSampler.mk source ConstraintScorer.mk
    (Monitor.recorder "all") = .ok (_, _) := rfl
  refine ⟨_, _, _, h, (Option.some_get (by decide +kernel)).symm, by decide +kernel,
    by decide +kernel, by decide +kernel, ?_⟩
  obtain ⟨-, -, -, hleast⟩ :=
    outcome_holds_first_best h vs (Option.some_get (by decide +kernel)).symm
  exact (hleast 1 (by decide +kernel)).1

end Run

end ScenarioSampling
