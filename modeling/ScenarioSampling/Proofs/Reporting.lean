import ScenarioSampling.Proofs.Accounts
import ScenarioSampling.Proofs.Trial

/-!
# Reporting does not disturb sampling

A run polls once more for every report, so what it reports could change what it draws. Where a run
is left alone it does not (`LeftAlone.follows`): whatever the policy, the run follows one and the
same trial, and reports what is promising in it. Of two policies, the one that is content with less
reports all that the other one does, in the same order (`reports_do_not_disturb`).
-/

namespace ScenarioSampling

open Transfer Entry

/-- Whatever `p` reports, `p'` reports. -/
structure ReportPolicy.Within (p p' : ReportPolicy) : Prop where
  threshold : p.threshold ≤ p'.threshold
  improvements : p.improvements = true → p'.improvements = true

theorem ReportPolicy.Within.promising_sublist {p p' : ReportPolicy} (h : p.Within p') :
    ∀ (xs : List (Candidate × Except Fault Nat)) (earlier : List Nat),
      (p.promising earlier xs).Sublist (p'.promising earlier xs)
  | [], _ => List.nil_sublist _
  | (_, .error _) :: xs, earlier => h.promising_sublist xs earlier
  | (c, .ok score) :: xs, earlier => by
    have ih := h.promising_sublist xs (earlier ++ [score])
    simp only [promising]
    split_ifs with hp hp'
    · exact ih.cons_cons _
    · exact (hp' (hp.imp h.threshold.trans' (And.imp_left h.improvements))).elim
    · exact ih.cons _
    · exact ih

/-- The candidate with its score or fault, unless something crashed. -/
def Finding.scored? : Finding → Option (Candidate × Except Fault Nat)
  | (.ok c, .ok result) => some (c, result)
  | _ => none

/-- What came to a result can be told from what was found. -/
theorem scored_findings (es : List Entry) :
    scored es = ((draws es).map Draw.finding).filterMap Finding.scored? := by
  rw [List.filterMap_map, scored]
  congr 1
  funext d
  rcases d with ⟨w, region, _ | c, _ | result⟩ <;> rfl

theorem unsettled_of_answers {es : List Entry}
    (h : ∀ a ∈ attempts es, a.answer = .flow .proceed) : unsettled es = [] := by
  unfold unsettled
  split
  · rename_i a ha
    exact if_pos (h a (List.mem_of_getLast? ha))
  · rfl

namespace Run

variable {σ ρ ν : Type}

section Alone

variable {p : ReportPolicy} {m : Model} {sampler : σ} {source : ρ} {scorer : ν}

theorem begin_trial {μ : Type} [SamplingMonitor μ] {w : World} {monitor : μ}
    {x : World × Run σ ρ ν μ} (h : begin w p m sampler source scorer monitor = .ok x) :
    caughtUp x = .opening m sampler source scorer w.channel.inbound := by
  unfold begin at h
  split at h
  · cases h
    rw [caughtUp, tell, World.noteAll_channel]
    rfl
  · cases h

theorem begin_going {s : Setting} {before : List Action} {x : World × Run σ ρ ν Monitor}
    (hin : ((World.ofCapacity s.capacity).actAll before).channel.inbound = s.events)
    (h : begin ((World.ofCapacity s.capacity).actAll before) p m sampler source scorer
      (Monitor.sampleLimit (.ofLimit s.limit)) = .ok x) :
    Going s x ∧ sends x.1.history.toList = [] := by
  obtain ⟨w, r⟩ := x
  have hb := begun h
  have hd := World.actAll_disturbed before (.ofCapacity s.capacity)
  obtain ⟨told, hin', hhist, -⟩ := hd.pushes
  obtain rfl : told = s.events := hin'.symm.trans hin
  have hhist' : w.history.toList = s.events.map .pushed :=
    (congrArg Array.toList hb.history).trans hhist
  have htrace : Trace (OwnStep Sink.handle) (.ofCapacity s.capacity) before w :=
    trace_begin h (Trace.actAll before .start)
  have ho : Orderly w :=
    (World.fresh_actAll s.capacity before).1.disturbed (.of_eq hb.channel hb.history hb.delivered)
  have hsink : r.sink = ⟨.ofModel m, .zero⟩ := hb.sink
  have hlooping : r.stage = .looping := hb.looping
  have hemitted : w.channel.emitted = 0 :=
    (congrArg Channel.emitted hb.channel).trans hd.emitted
  have hkept : World.Kept s w :=
    ⟨ho, (World.lasting_warranted _).trace htrace (.ofCapacity _),
      by rw [hhist', pushes_map_pushed],
      (World.lasting_roomy _ _).trace htrace ⟨rfl, Nat.le_refl _⟩⟩
  have hcounted : Counted s.limit (w, r) :=
    ⟨by rw [hsink]; exact hb.entered, hemitted.trans_le (Nat.zero_le _)⟩
  have hon : r.stage.OnCourse := by
    rw [hlooping]
    trivial
  exact ⟨⟨hkept, hon, fun _ => hcounted, fun hne => (hne hlooping).elim⟩,
    by rw [hhist', sends_map_pushed]⟩

variable [Sampler σ ρ] [Scorer ν]

/-- A run with a sample limit, between whose beginning and the end of these moves the search says
nothing, holds on to its end and does not ask for a stop. It has room for a report of each draw, and
turns enough to come to its limit. -/
structure LeftAlone (events : List Event) (limit : Nat) (p : ReportPolicy) (m : Model) (sampler : σ)
    (source : ρ) (scorer : ν) (x : World × Run σ ρ ν Monitor) (vs : List Move) : Prop where
  begins : ∃ capacity before, limit ≤ capacity
    ∧ ((World.ofCapacity capacity).actAll before).channel.inbound = events
    ∧ begin ((World.ofCapacity capacity).actAll before) p m sampler source scorer
      (Monitor.sampleLimit (.ofLimit limit)) = .ok x
  turns : limit < vs.countP Move.isStep
  peaceful : World.Peaceful events (play x vs).1

/-- A run that is left alone ends as its trial does, has drawn what the trial draws, and has sent
what is promising in that. -/
theorem LeftAlone.follows {events : List Event} {limit : Nat} {x : World × Run σ ρ ν Monitor}
    {vs : List Move} (h : LeftAlone events limit p m sampler source scorer x vs)
    (hevents : ∀ e ∈ events, e.isTerminal = false) (hbatch : events.length ≤ World.pollBatch)
    (hlimit : limit ≤ maxCount) :
    let t : Trial σ ρ ν := .opening m sampler source scorer events
    let es := chronicle x vs
    (play x vs).2.trial = (Trial.turn limit)^[limit + 1] t
      ∧ (play x vs).2.stage ≠ .looping ∧ (play x vs).2.stage.OnCourse
      ∧ (draws es).map Draw.finding = t.findings limit (limit + 1)
      ∧ (sends (play x vs).1.history.toList).map Report.content
        = (p.promising [] (scored es)).map fun a => (Scenario.mk (a.1.values.map some), a.2) := by
  intro t es
  obtain ⟨capacity, before, hroom, hin, hbegin⟩ := h.begins
  let s : Setting := ⟨events, capacity, limit, hevents, hbatch, hroom, hlimit⟩
  obtain ⟨hgoing, hunsent⟩ := begin_going (s := s) hin hbegin
  have ht : caughtUp x = t := (begin_trial hbegin).trans (by rw [hin])
  obtain ⟨hend, htrial, hdrawn, hanswers⟩ := play_trial vs hgoing h.peaceful
  rw [ht] at htrial hdrawn
  obtain ⟨hover, hturns, hfindings⟩ := Trial.turns_over hlimit t h.turns
  rw [← htrial] at hover hturns
  have hread : (play x vs).1.channel.inbound = [] := hend.read hover
  rw [caughtUp_of_read hread] at hturns
  have hb := begun (r := x.2) hbegin
  refine ⟨hturns, hover, hend.onCourse, hdrawn.trans hfindings, ?_⟩
  have hsettled := play_settled vs hgoing.ready hb.settled (by rw [hb.sink]; rfl)
  rw [List.nil_append] at hsettled
  obtain ⟨ts, hbooks⟩ := play_advances vs hgoing.ready
  rw [hsettled.complete, unsettled_of_answers hanswers, List.append_nil, ← hbooks.sent,
    hbooks.intake.history, sends_append, hunsent, List.nil_append]

/-- Two runs that are left alone and share their model, sampler, random words, scorer, sample limit
and events, and of which the second one reports whatever the first one does: both come to the limit
or to the same crash, with the same best candidate and the same statistics but for reports and time.
They draw the same candidates with the same results, and what the first one sends, the second one
sends in the same order. -/
theorem reports_do_not_disturb {events : List Event} {limit : Nat} {p p' : ReportPolicy}
    {x x' : World × Run σ ρ ν Monitor} {vs vs' : List Move}
    (hevents : ∀ e ∈ events, e.isTerminal = false) (hbatch : events.length ≤ World.pollBatch)
    (hlimit : limit ≤ maxCount) (hp : p.Within p')
    (h : LeftAlone events limit p m sampler source scorer x vs)
    (h' : LeftAlone events limit p' m sampler source scorer x' vs') :
    let y := play x vs
    let y' := play x' vs'
    (y.2.stage = .ended (.aborted "sample limit reached") ∨ ∃ crash, y.2.stage = .crashed crash)
      ∧ y'.2.stage = y.2.stage ∧ y'.2.best = y.2.best
      ∧ y'.2.sink.statistics.unreported = y.2.sink.statistics.unreported
      ∧ (draws (chronicle x' vs')).map Draw.finding = (draws (chronicle x vs)).map Draw.finding
      ∧ ((sends y.1.history.toList).map Report.content).Sublist
        ((sends y'.1.history.toList).map Report.content) := by
  intro y y'
  obtain ⟨htrial, hover, hon, hdrawn, hsent⟩ := h.follows hevents hbatch hlimit
  obtain ⟨htrial', -, -, hdrawn', hsent'⟩ := h'.follows hevents hbatch hlimit
  have hsame : y'.2.trial = y.2.trial := htrial'.trans htrial.symm
  have hfindings := hdrawn'.trans hdrawn.symm
  have hscored : scored (chronicle x' vs') = scored (chronicle x vs) := by
    rw [scored_findings, scored_findings, hfindings]
  refine ⟨?_, congrArg Trial.stage hsame, congrArg Trial.best hsame,
    congrArg Trial.statistics hsame, hfindings, ?_⟩
  · cases hstage : (play x vs).2.stage with
    | looping => exact (hover hstage).elim
    | crashed crash => exact .inr ⟨crash, rfl⟩
    | ended reason =>
      rw [hstage] at hon
      exact .inl (congrArg Stage.ended hon)
    | reporting | violated =>
      rw [hstage] at hon
      exact hon.elim
  · rw [hsent, hsent', hscored]
    exact (hp.promising_sublist _ _).map _

end Alone

/-- Of the candidates `(0, 3)`, `(3, 0)` and `(1, 2)` for `2 * x == y`, one run reports the last
one, and another one, whose reports are read meanwhile, the first one too. -/
theorem reports_do_not_disturb_reader :
    let domain : Domain := ⟨0, 3, by decide, by decide, by decide⟩
    let m : Model :=
      ⟨.closed,
        [⟨"x", ⟨0⟩, .decision .existential, .int, domain⟩,
          ⟨"y", ⟨1⟩, .decision .existential, .int, domain⟩],
        [.linear ⟨[⟨2, ⟨0⟩⟩], .eq, ⟨1⟩⟩], [("y", ⟨1⟩), ("x", ⟨0⟩)], 0⟩
    let source : WordCycle := ⟨#[0, 13835058055282163712, 13835058055282163712, 0,
      4611686018427387904, 9223372036854775808], 0⟩
    let vs : List Move := [.step, .step, .step, .step]
    let vs' : List Move := [.step, .act .readReport, .act (.tick 7), .step, .step, .step]
    ∃ x x' : World × Run UniformSampler WordCycle ConstraintScorer Monitor,
      LeftAlone [.failure] 3 ⟨0, false⟩ m .mk source .mk x vs
        ∧ LeftAlone [.failure] 3 ⟨0, true⟩ m .mk source .mk x' vs'
        ∧ (sends (play x vs).1.history.toList).map Report.content = [(⟨[some 1, some 2]⟩, 0)]
        ∧ (sends (play x' vs').1.history.toList).map Report.content
          = [(⟨[some 0, some 3]⟩, 3), (⟨[some 1, some 2]⟩, 0)]
        ∧ (play x' vs').2.best = (play x vs).2.best := by
  intro domain m source vs vs'
  have hbegin : begin ((World.ofCapacity 3).actAll [.notify .failure]) ⟨0, false⟩ m
    UniformSampler.mk source ConstraintScorer.mk (Monitor.sampleLimit (.ofLimit 3)) = .ok (_, _) :=
    rfl
  have hbegin' : begin ((World.ofCapacity 4).actAll [.tick 5, .notify .failure]) ⟨0, true⟩ m
    UniformSampler.mk source ConstraintScorer.mk (Monitor.sampleLimit (.ofLimit 3)) = .ok (_, _) :=
    rfl
  have hx : LeftAlone [.failure] 3 ⟨0, false⟩ m UniformSampler.mk source ConstraintScorer.mk _ vs :=
    ⟨⟨_, _, by decide, rfl, hbegin⟩, by decide,
      ⟨by decide +kernel, by decide +kernel, by decide +kernel, by decide +kernel⟩⟩
  have hx' : LeftAlone [.failure] 3 ⟨0, true⟩ m UniformSampler.mk source ConstraintScorer.mk _
      vs' :=
    ⟨⟨_, _, by decide, rfl, hbegin'⟩, by decide,
      ⟨by decide +kernel, by decide +kernel, by decide +kernel, by decide +kernel⟩⟩
  obtain ⟨-, -, hbest, -⟩ := reports_do_not_disturb (by decide) (by decide) (by decide)
    ⟨Nat.le_refl 0, fun _ => rfl⟩ hx hx'
  exact ⟨_, _, hx, hx', by decide +kernel, by decide +kernel, hbest⟩

end Run

end ScenarioSampling
