import ScenarioSampling.Proofs.Accounts
import ScenarioSampling.Proofs.BestCandidate

/-!
# Reports of improvements

A report is of the candidate that was scored last, which had a score within the threshold or lower
than all before (`Prompt`). Where improvements count, the best candidate is reported at the latest
by the end of the run, unless that cuts it off. With the threshold zero, each score that is reported
is lower than the one before, until it is zero and stays so (`reports_of_improvements`).
-/

namespace ScenarioSampling

open Transfer Entry

/-- Each score is lower than all before, unless it and all those between are zero. -/
def Falling (ss : List Nat) : Prop := ss.Pairwise fun a b => b < a ∨ (a = 0 ∧ b = 0)

theorem Falling.split : ∀ {ss : List Nat}, Falling ss →
    ∃ ds n, ss = ds ++ List.replicate n 0 ∧ ds.Pairwise (· > ·) ∧ ∀ s ∈ ds, 0 < s
  | [], _ => ⟨[], 0, rfl, .nil, by simp⟩
  | s :: ss, h => by
    obtain ⟨hs, hss⟩ := List.pairwise_cons.1 h
    obtain ⟨ds, n, rfl, hds, hpos⟩ := split hss
    by_cases h0 : s = 0
    · have hnone : ds = [] := by
        rw [List.eq_nil_iff_forall_not_mem]
        intro d hd
        have hlow := hs d (List.mem_append_left _ hd)
        have hd0 := hpos d hd
        omega
      exact ⟨[], n + 1, by simp [hnone, h0, List.replicate_succ], .nil, by simp⟩
    · refine ⟨s :: ds, n, rfl, List.pairwise_cons.2 ⟨fun d hd => ?_, hds⟩, ?_⟩
      · have hlow := hs d (List.mem_append_left _ hd)
        omega
      · exact List.forall_mem_cons.2 ⟨Nat.pos_of_ne_zero h0, hpos⟩

theorem Falling.last_le {ss : List Nat} {s t : Nat} (h : Falling ss) (hs : ss.getLast? = some s)
    (ht : t ∈ ss) : s ≤ t := by
  obtain ⟨rest, rfl⟩ := List.getLast?_eq_some_iff.1 hs
  rw [List.mem_append, List.mem_singleton] at ht
  rcases ht with ht | rfl
  · have hlow := (List.pairwise_append.1 h).2.2 t ht s List.mem_cons_self
    omega
  · exact Nat.le_refl t

theorem Falling.getLast?_eq {ss : List Nat} {s : Nat} (h : Falling ss)
    (hs : IsLeast {t | t ∈ ss} s) : ss.getLast? = some s := by
  rcases hlast : ss.getLast? with _ | t
  · rw [List.getLast?_eq_none_iff] at hlast
    simpa [hlast] using hs.1
  · have hle : t ≤ s := h.last_le hlast hs.1
    have hge : s ≤ t := hs.2 (List.mem_of_getLast? hlast)
    rw [Nat.le_antisymm hle hge]

namespace ReportPolicy

variable {p : ReportPolicy} {c : Candidate} {s : Nat}

/-- What is promising was scored, and is within the threshold or an improvement. -/
theorem of_mem_promising : ∀ (xs : List (Candidate × Except Fault Nat)) {earlier : List Nat},
    (c, s) ∈ p.promising earlier xs →
      (c, .ok s) ∈ xs ∧ (s ≤ p.threshold ∨ ∀ t ∈ earlier, s < t)
  | (_, .error _) :: xs, earlier, h => by
    obtain ⟨hmem, hlow⟩ := of_mem_promising xs h
    exact ⟨List.mem_cons_of_mem _ hmem, hlow⟩
  | (c', .ok score) :: xs, earlier, h => by
    have hrest : (c, s) ∈ p.promising (earlier ++ [score]) xs →
        (c, .ok s) ∈ (c', .ok score) :: xs ∧ (s ≤ p.threshold ∨ ∀ t ∈ earlier, s < t) := by
      intro h
      obtain ⟨hmem, hlow⟩ := of_mem_promising xs h
      refine ⟨List.mem_cons_of_mem _ hmem, hlow.imp_right fun hlow t ht => ?_⟩
      exact hlow t (List.mem_append_left _ ht)
    rw [promising] at h
    split_ifs at h with hp
    · rcases List.mem_cons.1 h with heq | h
      · cases heq
        exact ⟨List.mem_cons_self, hp.imp_right And.right⟩
      · exact hrest h
    · exact hrest h

/-- With the threshold zero, a score that comes later is zero or lower than this one. -/
theorem promising_falling (h0 : p.threshold = 0) :
    ∀ (xs : List (Candidate × Except Fault Nat)) (earlier : List Nat),
      Falling ((p.promising earlier xs).map Prod.snd)
  | [], _ => .nil
  | (_, .error _) :: xs, earlier => promising_falling h0 xs earlier
  | (c, .ok score) :: xs, earlier => by
    have ih := promising_falling h0 xs (earlier ++ [score])
    rw [promising]
    split_ifs with hp
    · rw [List.map_cons]
      refine List.pairwise_cons.2 ⟨fun t ht => ?_, ih⟩
      obtain ⟨⟨c', t⟩, hmem, rfl⟩ := List.mem_map.1 ht
      rcases (of_mem_promising xs hmem).2 with hle | hlow
      · show t < score ∨ score = 0 ∧ t = 0
        omega
      · exact .inl (hlow score (by simp))
    · exact ih

/-- Where improvements count, the first candidate with the lowest score is promising. -/
theorem best_promising (hi : p.improvements = true) {es : List Entry}
    (h : Draw.Best (draws es) (some (c, s))) : (c, s) ∈ p.promising [] (scored es) := by
  cases h with
  | @first before d after _ _ hsplit hd hbefore _ =>
    have hscored : scored es = before.filterMap Draw.scored?
        ++ (c, .ok s) :: after.filterMap Draw.scored? := by
      simp [scored, hsplit, hd]
    have hlow : ∀ t ∈ (before.filterMap Draw.scored?).filterMap fun x => x.2.toOption, s < t := by
      intro t ht
      rw [List.filterMap_filterMap] at ht
      obtain ⟨d', hd', ht⟩ := List.mem_filterMap.1 ht
      exact hbefore d' hd' t ht
    have hcons : ∀ earlier : List Nat, (∀ t ∈ earlier, s < t) →
        (c, s) ∈ p.promising earlier ((c, .ok s) :: after.filterMap Draw.scored?) := by
      intro earlier hlow
      rw [promising, if_pos (.inr ⟨hi, hlow⟩)]
      exact List.mem_cons_self
    rw [hscored, promising_append, List.nil_append]
    exact List.mem_append_right _ (hcons _ hlow)

theorem promising_isLeast (hi : p.improvements = true) {es : List Entry}
    (h : Draw.Best (draws es) (some (c, s))) :
    IsLeast {t | t ∈ (p.promising [] (scored es)).map Prod.snd} s := by
  refine ⟨List.mem_map.2 ⟨(c, s), best_promising hi h, rfl⟩, fun t ht => ?_⟩
  obtain ⟨⟨c', t⟩, hmem, rfl⟩ := List.mem_map.1 ht
  have hscore : t ∈ scores es := List.mem_filterMap.2 ⟨_, (of_mem_promising _ hmem).1, rfl⟩
  rw [scores_eq] at hscore
  exact h.isLeast.2 hscore

theorem promising_last (hi : p.improvements = true) (h0 : p.threshold = 0) {es : List Entry}
    {best : Option (Candidate × Nat)} (h : Draw.Best (draws es) best) :
    ((p.promising [] (scored es)).map Prod.snd).getLast? = best.map Prod.snd := by
  rcases best with _ | ⟨c, s⟩
  · have hnone : p.promising [] (scored es) = [] := by
      rw [List.eq_nil_iff_forall_not_mem]
      rintro ⟨c, s⟩ hmem
      have hscore : s ∈ scores es := List.mem_filterMap.2 ⟨_, (of_mem_promising _ hmem).1, rfl⟩
      simp [h.eq_none_iff_scores.1 rfl] at hscore
    simp [hnone]
  · exact (promising_falling h0 _ _).getLast?_eq (promising_isLeast hi h)

end ReportPolicy

/-- After `es`, `x` was scored last and is to be reported. -/
def Due (p : ReportPolicy) (es : List Entry) (x : Candidate × Nat) : Prop :=
  ∃ earlier, scored es = earlier ++ [(x.1, .ok x.2)] ∧ (x.2 ≤ p.threshold
    ∨ (p.improvements = true ∧ ∀ c t, (c, .ok t) ∈ earlier → x.2 < t))

/-- Each attempt is about what was due just before. -/
def Prompt (p : ReportPolicy) (es : List Entry) : Prop :=
  ∀ pre a post, es = pre ++ .attempted a :: post → Due p pre a.content

section Prompt

variable {p : ReportPolicy} {es es' rest : List Entry} {a : Attempt} {x : Candidate × Nat}

theorem Due.extend (h : Due p es x) (hdraws : draws es' = []) : Due p (es ++ es') x := by
  obtain ⟨earlier, hscored, hp⟩ := h
  refine ⟨earlier, ?_, hp⟩
  rw [scored_append, hscored, scored, hdraws]
  exact List.append_nil _

theorem Prompt.append (h : Prompt p es)
    (h' : ∀ pre a post, es' = pre ++ .attempted a :: post → Due p (es ++ pre) a.content) :
    Prompt p (es ++ es') := by
  intro pre a post heq
  rcases List.append_eq_append_iff.1 heq with ⟨mid, rfl, hmid⟩ | ⟨mid, hmid, hrest⟩
  · exact h' mid a post hmid
  · cases mid with
    | nil =>
      rw [List.append_nil] at hmid
      rw [← hmid, ← List.append_nil es]
      exact h' [] a post hrest.symm
    | cons e mid =>
      cases hrest
      exact h pre a mid hmid

theorem Prompt.quiet (h : Prompt p es) (hnone : attempts es' = []) : Prompt p (es ++ es') := by
  refine h.append fun pre a post heq => ?_
  simp [heq] at hnone

theorem Prompt.attempt (h : Prompt p es) (hdue : Due p es a.content) (hnone : attempts rest = []) :
    Prompt p (es ++ .attempted a :: rest) := by
  refine h.append fun pre a' post heq => ?_
  cases pre with
  | nil =>
    cases heq
    rwa [List.append_nil]
  | cons e pre =>
    cases heq
    simp at hnone

end Prompt

namespace Run

variable {σ ρ ν μ : Type} {p : ReportPolicy} {x y : World × Run σ ρ ν μ} {es es' : List Entry}

/-- What a run with the chronicle `es` has attempted was due, and so is what it waits with. -/
structure Timely (p : ReportPolicy) (es : List Entry) (r : Run σ ρ ν μ) : Prop where
  prompt : Prompt p es
  waiting : ∀ q, r.stage = .reporting q → Due p es (r.candidate, q.score)

theorem Answered.timely [SamplingMonitor μ] {q : Report} {a : Emission × World × Sink}
    (h : Answered x q a) (hx : Prompt p es) (hdue : Due p es (x.2.candidate, q.score)) :
    Timely p (es ++ attemptEntries x q.score a.1) (afterEmission x.2 q.score a).2 := by
  obtain ⟨rest, heq, hrest, hdraws⟩ := attemptEntries_eq x q.score a.1
  rw [heq]
  refine ⟨hx.attempt hdue hrest, ?_⟩
  obtain ⟨(_ | reason) | v | q', w, sink⟩ := a
  · nofun
  · nofun
  · exact h.fits.elim
  · obtain rfl : q' = q := h.fits.1
    rintro _ ⟨⟩
    exact hdue.extend hdraws

variable [Sampler σ ρ] [Scorer ν] [SamplingMonitor μ]

omit [SamplingMonitor μ] in
theorem due_drawing {c : Candidate × σ × ρ} {score : Nat} (hd : drawn x = .ok c)
    (hs : rated x c.1 = .ok (.ok score)) (hr : reportable x.2 score = true)
    (hpolicy : x.2.policy = p)
    (hbest : x.2.sink.statistics.best = (scores es).foldl lower none) :
    Due p (es ++ [.drew (drawing x)]) (c.1, score) := by
  refine ⟨scored es, ?_, ?_⟩
  · rw [scored_append, scored_drew, (drawing_scored hd hs).2]
    rfl
  · refine ((reportable_iff hpolicy hbest score).1 hr).imp_right (And.imp_right ?_)
    exact fun hlow c' t ht => hlow t (List.mem_filterMap.2 ⟨_, ht, rfl⟩)

theorem DrawCourse.timely (h : DrawCourse x es' y) (hl : x.2.stage = .looping)
    (hs : x.1.channel.stopped = none) (hpolicy : x.2.policy = p)
    (hbest : x.2.sink.statistics.best = (scores es).foldl lower none) (hx : Prompt p es) :
    Timely p (es ++ es') y.2 := by
  cases h with
  | undrawn => exact ⟨hx.quiet rfl, nofun⟩
  | unscored => exact ⟨hx.quiet rfl, nofun⟩
  | discarded => exact ⟨hx.quiet rfl, fun q hq => nomatch hl.symm.trans hq⟩
  | passed =>
    refine ⟨hx.quiet rfl, fun q hq => ?_⟩
    rw [judged_run] at hq
    cases hl.symm.trans hq
  | @reported c score z hd hsc hr hz =>
    have hrun := judged_run (withDrawn x c) score
    rw [hz] at hrun
    have hlisten : z.1.channel.stopped = none := by
      rw [← hz]
      exact (quiet_judged x c score).disturbed.stopped.trans hs
    have hdue : Due p (es ++ [.drew (drawing x)]) (z.2.candidate, score) := by
      rw [hrun]
      exact due_drawing hd hsc hr hpolicy hbest
    obtain ⟨q, rfl, hq⟩ := emission_answered hlisten score
    rw [List.append_cons]
    exact hq.timely (hx.quiet rfl) hdue

theorem Course.timely (h : Course x es' y) (hready : Ready x) (hpolicy : x.2.policy = p)
    (hbest : x.2.sink.statistics.best = (scores es).foldl lower none) (hx : Timely p es x.2) :
    Timely p (es ++ es') y.2 := by
  cases h with
  | idle => rwa [List.append_nil]
  | stopped => exact ⟨hx.prompt.quiet rfl, nofun⟩
  | aborted => exact ⟨hx.prompt.quiet rfl, nofun⟩
  | drew ho hd =>
    obtain ⟨ts, hpoll⟩ := poll_advances ho.polled
    rw [← ho.rest] at hpoll
    exact hd.timely ho.looping_after ho.listens (hpoll.policy.trans hpolicy)
      (hpoll.tallied.best.trans hbest) hx.prompt
  | resumed hq => exact (hready.answered hq).timely hx.prompt (hx.waiting _ hq)

theorem play_timely : ∀ (vs : List Move) {x : World × Run σ ρ ν μ} {es : List Entry}, Ready x →
    x.2.policy = p → x.2.sink.statistics.best = (scores es).foldl lower none → Timely p es x.2 →
    Timely p (es ++ chronicle x vs) (play x vs).2
  | [], _, _, _, _, _, hx => by rwa [chronicle, List.append_nil]
  | v :: vs, x, es, hready, hpolicy, hbest, hx => by
    have hnext : Timely p (es ++ moveEntries x v) (next x v).2 := by
      cases v with
      | act | plan => rwa [moveEntries, List.append_nil]
      | step => exact (step_course x).timely hready hpolicy hbest hx
    obtain ⟨ts, hbooks⟩ := next_advances hready v
    rw [chronicle, ← List.append_assoc]
    refine play_timely vs (next_ready hready v).1 (hbooks.policy.trans hpolicy) ?_ hnext
    rw [hbooks.tallied.best, hbest, scores_append, List.foldl_append]

/-- In every run in which improvements count, the reports are the attempts that were accepted, each
about the candidate that was scored last, and a score above the threshold is lower than all that
were scored before it. With the threshold zero the reported scores fall while they are positive, and
only zeros follow. If the run has an outcome, and its last attempt was not cut off, the lowest score
that was reported is that of the best candidate, provided there is one; with the threshold zero that
is the last score reported. -/
theorem reports_of_improvements {w₀ w : World} {policy : ReportPolicy} {m : Model} {sampler : σ}
    {source : ρ} {scorer : ν} {monitor : μ} {r : Run σ ρ ν μ}
    (h : begin w₀ policy m sampler source scorer monitor = .ok (w, r))
    (hi : policy.improvements = true) (vs : List Move) :
    let x := play (w, r) vs
    let es := chronicle (w, r) vs
    let reports := sends (w₀.since x.1)
    reports.map Report.content
        = (accepted es).map (fun a => (Scenario.mk (a.1.values.map some), a.2))
      ∧ (∀ pre a post, es = pre ++ .attempted a :: post →
        ∃ earlier, scored pre = earlier ++ [(a.candidate, .ok a.score)]
          ∧ (policy.threshold < a.score → ∀ c t, (c, .ok t) ∈ earlier → a.score < t))
      ∧ (policy.threshold = 0 → ∃ ds n, reports.map Report.score = ds ++ List.replicate n 0
        ∧ ds.Pairwise (· > ·) ∧ ∀ s ∈ ds, 0 < s)
      ∧ ∀ o, x.2.outcome? = some o → cutOff es = [] →
        (scores es ≠ [] →
            ∃ s, o.bestScore? = some s ∧ IsLeast {t | t ∈ reports.map Report.score} s)
          ∧ (policy.threshold = 0 → (reports.map Report.score).getLast? = o.bestScore?) := by
  intro x es reports
  have hb := begun h
  have hready := Ready.of_looping hb.looping
  have hstart : r.sink.statistics.best = (scores []).foldl lower none := by
    rw [show r.sink = _ from hb.sink]
    rfl
  have hnothing : Timely policy [] r :=
    ⟨by simp [Prompt], by simp [show r.stage = _ from hb.looping]⟩
  have htimely := play_timely vs hready hb.policy hstart hnothing
  have hsettled := play_settled vs hready hb.settled hstart
  have hremembers := play_remembers vs hready (remembers_begin h)
  rw [List.nil_append] at htimely hsettled hremembers
  obtain ⟨ts, hbooks⟩ := play_advances vs hready
  have hsent : reports.map Report.content
      = (accepted es).map fun a => (Scenario.mk (a.1.values.map some), a.2) := by
    rw [show reports = sends ts from congrArg sends (hb.since_eq hbooks)]
    exact hbooks.sent
  have hscores : reports.map Report.score = (accepted es).map Prod.snd := by
    have hsnd := congrArg (List.map Prod.snd) hsent
    simpa [Report.content, Function.comp_def] using hsnd
  rw [hscores]
  refine ⟨hsent, fun pre a post heq => ?_, fun h0 => ?_, fun o ho hcut => ?_⟩
  · obtain ⟨earlier, hscored, hp⟩ := htimely.prompt pre a post heq
    refine ⟨earlier, hscored, fun hlt => ?_⟩
    rcases hp with hle | ⟨-, hlow⟩
    · exact absurd hle (Nat.not_le_of_lt hlt)
    · exact hlow
  · have hfalling := ReportPolicy.promising_falling h0 (scored es) []
    rw [hsettled.complete, List.map_append] at hfalling
    exact Falling.split (List.pairwise_append.1 hfalling).1
  · obtain ⟨hend, hbest, -⟩ := of_outcome ho
    have hall : accepted es = policy.promising [] (scored es) := by
      rw [hsettled.complete, hsettled.ended _ hend, hcut, List.append_nil]
    have hfirst : Draw.Best (draws es) o.best := hbest.symm ▸ hremembers.best
    rw [hall]
    refine ⟨fun hne => ?_, fun h0 => ReportPolicy.promising_last hi h0 hfirst⟩
    obtain ⟨⟨c, s⟩, hcs⟩ := Option.ne_none_iff_exists'.1 (hfirst.eq_none_iff_scores.not.2 hne)
    rw [hcs] at hfirst
    exact ⟨s, by rw [Outcome.bestScore?, hcs]; rfl, ReportPolicy.promising_isLeast hi hfirst⟩

/-- Of five candidates for `2 * x == y`, with the scores 6, 3, 3, 0 and 0, all but the second one
with the score 3 are reported. -/
theorem reports_of_improvements_to_zero :
    let domain : Domain := ⟨0, 3, by decide, by decide, by decide⟩
    let m : Model :=
      ⟨.closed,
        [⟨"x", ⟨0⟩, .decision .existential, .int, domain⟩,
          ⟨"y", ⟨1⟩, .decision .existential, .int, domain⟩],
        [.linear ⟨[⟨2, ⟨0⟩⟩], .eq, ⟨1⟩⟩], [("y", ⟨1⟩), ("x", ⟨0⟩)], 0⟩
    let source : WordCycle := ⟨#[13835058055282163712, 0, 0, 13835058055282163712,
      13835058055282163712, 13835058055282163712, 4611686018427387904, 9223372036854775808, 0, 0],
      0⟩
    let vs : List Move := [.step, .step, .step, .step, .step, .step]
    ∃ w r o, begin (.ofCapacity 4) ⟨0, true⟩ m UniformSampler.mk source ConstraintScorer.mk
        (Monitor.sampleLimit (.ofLimit 5)) = .ok (w, r)
      ∧ (play (w, r) vs).2.outcome? = some o ∧ cutOff (chronicle (w, r) vs) = []
      ∧ scores (chronicle (w, r) vs) = [6, 3, 3, 0, 0]
      ∧ (attempts (chronicle (w, r) vs)).map Attempt.score = [6, 3, 0, 0]
      ∧ (∀ pre a post, chronicle (w, r) vs = pre ++ .attempted a :: post → 0 < a.score →
        ∃ earlier, scored pre = earlier ++ [(a.candidate, .ok a.score)]
          ∧ ∀ c t, (c, .ok t) ∈ earlier → a.score < t)
      ∧ (sends ((World.ofCapacity 4).since (play (w, r) vs).1)).map Report.score = [6, 3, 0, 0]
      ∧ o.bestScore? = some 0 := by
  intro domain m source vs
  have h : begin (.ofCapacity 4) ⟨0, true⟩ m UniformSampler.mk source ConstraintScorer.mk
    (Monitor.sampleLimit (.ofLimit 5)) = .ok (_, _) := rfl
  obtain ⟨-, hdue, -, hend⟩ := reports_of_improvements h rfl vs
  refine ⟨_, _, _, h, (Option.some_get (by decide +kernel)).symm, by decide +kernel,
    by decide +kernel, by decide +kernel, fun pre a post heq hlt => ?_, by decide +kernel, ?_⟩
  · obtain ⟨earlier, hscored, hlow⟩ := hdue pre a post heq
    exact ⟨earlier, hscored, hlow hlt⟩
  · refine ((hend _ (Option.some_get _).symm (by decide +kernel)).2 rfl).symm.trans ?_
    decide +kernel

end Run

end ScenarioSampling
