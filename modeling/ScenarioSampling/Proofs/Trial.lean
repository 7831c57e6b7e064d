import Mathlib.Logic.Function.Iterate
import ScenarioSampling.Proofs.Bookkeeping
import ScenarioSampling.Proofs.Peaceful
import ScenarioSampling.Proofs.Rounds

/-!
# Trials

What a run draws depends on what others do: each poll may read events that change the domains and
the statistics, or stop the run. Where the search speaks only before the run begins, and says no
more than the first poll can read, the other polls find nothing, whether a turn makes one or, to
report, two. What the run draws and finds is then a `Trial`, a matter of its sampler, its scorer and
its limit: one turn of the run is one turn of the trial (`Going.step`), and so it goes on
(`play_trial`).
-/

namespace ScenarioSampling

open Transfer Entry

/-- A run without its reports and its surroundings. -/
structure Trial (σ ρ ν : Type) where
  model : Model
  scorer : ν
  sampler : σ
  source : ρ
  candidate : Candidate
  best : Option (Candidate × Nat)
  region : Region
  statistics : Statistics
  stage : Stage

/-- The statistics without the count of the reports and the time. -/
def Statistics.unreported (s : Statistics) : Statistics := { s with emitted := 0, time := .zero }

/-- What was drawn, and what the scorer says about it. -/
abbrev Finding := Except Crash Candidate × Except Crash (Except Fault Nat)

/-- What became of a draw, without the world it was made in. -/
def Draw.finding (d : Draw) : Finding := (d.candidate, d.result)

/-- A stage of a run that is not stopped and that no report keeps waiting. -/
def Stage.OnCourse : Stage → Prop
  | .looping | .crashed _ => True
  | .ended reason => reason = .aborted "sample limit reached"
  | .reporting _ | .violated _ => False

namespace Trial

variable {σ ρ ν : Type}

/-- A trial that begins when these events have been read. -/
def opening (m : Model) (sampler : σ) (source : ρ) (scorer : ν) (es : List Event) : Trial σ ρ ν :=
  let sink := World.handleAll Sink.handle es ⟨.ofModel m, .zero⟩
  { model := m
    scorer := scorer
    sampler := sampler
    source := source
    candidate := .zeroed m.numVariables
    best := none
    region := sink.region
    statistics := sink.statistics.unreported
    stage := .looping }

/-- The trial after a draw. -/
def withDrawn (t : Trial σ ρ ν) (c : Candidate × σ × ρ) : Trial σ ρ ν :=
  { t with
    candidate := c.1
    sampler := c.2.1
    source := c.2.2
    statistics := t.statistics.onSample }

/-- The trial after the scorer has spoken. -/
def withResult (t : Trial σ ρ ν) : Except Fault Nat → Trial σ ρ ν
  | .error _ => { t with statistics := t.statistics.onFault }
  | .ok score => { t with
    statistics := { t.statistics with best := Run.lower t.statistics.best score }
    best := if improves t.statistics.best score then some (t.candidate, score) else t.best }

variable [Sampler σ ρ] [Scorer ν]

/-- What the sampler gives. -/
def drawn (t : Trial σ ρ ν) : Except Crash (Candidate × σ × ρ) :=
  Sampler.draw t.sampler t.region t.source t.candidate

/-- What the scorer says about a candidate. -/
def rated (t : Trial σ ρ ν) (c : Candidate) : Except Crash (Except Fault Nat) :=
  Scorer.score t.scorer t.model c

/-- One turn of a trial that ends after `limit` draws. -/
def turn (limit : Nat) (t : Trial σ ρ ν) : Trial σ ρ ν :=
  match t.stage with
  | .looping =>
    if limit ≤ t.statistics.samples then
      { t with stage := .ended (.aborted "sample limit reached") }
    else
      match t.drawn with
      | .error crash => { t with stage := .crashed crash }
      | .ok c =>
        match t.rated c.1 with
        | .error crash => { t.withDrawn c with stage := .crashed crash }
        | .ok result => (t.withDrawn c).withResult result
  | _ => t

/-- What the next turn draws, if it does. -/
def finding? (limit : Nat) (t : Trial σ ρ ν) : Option Finding :=
  if t.stage = .looping ∧ t.statistics.samples < limit then
    let c := t.drawn.map Prod.fst
    some (c, c.bind t.rated)
  else none

/-- What the next turns draw. -/
def findings (limit : Nat) : Nat → Trial σ ρ ν → List Finding
  | 0, _ => []
  | k + 1, t => (t.finding? limit).toList ++ findings limit k (t.turn limit)

section Turn

variable {limit : Nat} {t : Trial σ ρ ν}

theorem turn_reached (hl : t.stage = .looping) (hn : limit ≤ t.statistics.samples) :
    t.turn limit = { t with stage := .ended (.aborted "sample limit reached") } := by
  unfold turn
  rw [hl]
  exact if_pos hn

theorem turn_draws (hl : t.stage = .looping) (hn : t.statistics.samples < limit) :
    t.turn limit = match t.drawn with
      | .error crash => { t with stage := .crashed crash }
      | .ok c =>
        match t.rated c.1 with
        | .error crash => { t.withDrawn c with stage := .crashed crash }
        | .ok result => (t.withDrawn c).withResult result := by
  unfold turn
  rw [hl]
  exact if_neg (Nat.not_le.2 hn)

theorem turn_over (h : t.stage ≠ .looping) : t.turn limit = t := by
  unfold turn
  split
  · contradiction
  · rfl

theorem finding_reached (hn : limit ≤ t.statistics.samples) : t.finding? limit = none :=
  if_neg fun h => Nat.not_lt.2 hn h.2

theorem finding_over (h : t.stage ≠ .looping) : t.finding? limit = none := if_neg fun hl => h hl.1

theorem turn_onCourse (h : t.stage.OnCourse) : (t.turn limit).stage.OnCourse := by
  by_cases hl : t.stage = .looping
  · rcases Nat.lt_or_ge t.statistics.samples limit with hn | hn
    · rw [turn_draws hl hn]
      split
      · trivial
      · split
        · trivial
        · rename_i result _
          cases result <;> exact h
    · rw [turn_reached hl hn]
      exact rfl
  · rwa [turn_over hl]

/-- A trial goes on only after a turn that draws. -/
theorem samples_of_turn (h : (t.turn limit).stage = .looping) : t.statistics.samples < limit
    ∧ (t.turn limit).statistics.samples = countSucc t.statistics.samples := by
  have hl : t.stage = .looping := by
    by_contra hne
    rw [turn_over hne] at h
    exact hne h
  rcases Nat.lt_or_ge t.statistics.samples limit with hn | hn
  · refine ⟨hn, ?_⟩
    rw [turn_draws hl hn] at h ⊢
    split at h
    · cases h
    · simp only []
      split at h
      · cases h
      · rename_i result _
        cases result <;> rfl
  · rw [turn_reached hl hn] at h
    cases h

theorem samples_of_turns (hlimit : limit ≤ maxCount) : ∀ (k : Nat) {t : Trial σ ρ ν},
    ((turn limit)^[k + 1] t).stage = .looping → t.statistics.samples + k < limit
  | 0, _, h => (samples_of_turn h).1
  | k + 1, t, h => by
    rw [Function.iterate_succ_apply] at h
    have hrest := samples_of_turns hlimit k h
    have hl : (t.turn limit).stage = .looping := by
      by_contra hne
      rw [Function.iterate_fixed (turn_over hne)] at h
      exact hne h
    obtain ⟨hn, hsamples⟩ := samples_of_turn hl
    rw [hsamples, countSucc_of_lt (Nat.lt_of_lt_of_le hn hlimit)] at hrest
    omega

theorem findings_add : ∀ (j k : Nat) (t : Trial σ ρ ν),
    t.findings limit (j + k) = t.findings limit j ++ ((turn limit)^[j] t).findings limit k
  | 0, k, t => by rw [Nat.zero_add, findings, List.nil_append, Function.iterate_zero, id]
  | j + 1, k, t => by
    rw [Nat.succ_add, findings, findings, findings_add j k, List.append_assoc,
      Function.iterate_succ_apply]

theorem findings_over (h : t.stage ≠ .looping) : ∀ k, t.findings limit k = []
  | 0 => rfl
  | k + 1 => by
    rw [findings, finding_over h, turn_over h, findings_over h k]
    rfl

/-- One turn after its last draw a trial is over. -/
theorem turns_over (hlimit : limit ≤ maxCount) (t : Trial σ ρ ν) {k : Nat} (hk : limit < k) :
    ((turn limit)^[k] t).stage ≠ .looping
      ∧ (turn limit)^[k] t = (turn limit)^[limit + 1] t
      ∧ t.findings limit k = t.findings limit (limit + 1) := by
  have hover : ((turn limit)^[limit + 1] t).stage ≠ .looping := by
    intro hl
    have hlt := samples_of_turns hlimit limit hl
    omega
  obtain ⟨j, rfl⟩ := Nat.exists_eq_add_of_le hk
  have hsame : (turn limit)^[limit + 1 + j] t = (turn limit)^[limit + 1] t := by
    rw [Nat.add_comm, Function.iterate_add_apply, Function.iterate_fixed (turn_over hover)]
  refine ⟨hsame ▸ hover, hsame, ?_⟩
  rw [findings_add, findings_over hover, List.append_nil]

end Turn

end Trial

/-- Events that one poll can read, a limit, and room for a report of each draw. -/
structure Setting where
  events : List Event
  capacity : Nat
  limit : Nat
  harmless : ∀ e ∈ events, e.isTerminal = false
  oneBatch : events.length ≤ World.pollBatch
  room : limit ≤ capacity
  countable : limit ≤ maxCount

namespace World

variable {s : Setting} {w w' : World}

/-- What a worker that is left alone keeps of its world. -/
structure Kept (s : Setting) (w : World) : Prop where
  orderly : Orderly w
  warranted : Warranted w
  pushed : s.events <+: pushes w.history.toList
  roomy : Roomy s.capacity w

theorem Kept.later {η : Type} {handle : Handler η} (h : Kept s w) (hbefore : Precedes handle w w')
    (ho : Orderly w') : Kept s w' :=
  ⟨ho, hbefore (lasting_warranted handle) h.warranted, hbefore (lasting_pushed handle _) h.pushed,
    hbefore (lasting_roomy handle _) h.roomy⟩

/-- In peace nothing comes to wait. -/
theorem Kept.unread (h : Kept s w) (hw : Peaceful s.events w) (hw' : Peaceful s.events w')
    {ts : List Transfer} (hts : Intake ts w w') (ho' : Orderly w') :
    w'.channel.inbound <:+ w.channel.inbound :=
  ⟨_, (hw.unread hw' s.harmless h.orderly ho' hts).1.symm⟩

theorem Kept.all_read (h : Kept s w) (hw : Peaceful s.events w) (hw' : Peaceful s.events w')
    {ts : List Transfer} (hts : Intake ts w w') (ho' : Orderly w')
    (hread : w.channel.inbound = []) : w'.channel.inbound = [] := by
  have hsuffix := h.unread hw hw' hts ho'
  rw [hread] at hsuffix
  exact List.suffix_nil.1 hsuffix

end World

namespace Run

variable {σ ρ ν μ : Type}

/-- What a run shares with any other run that reports otherwise. -/
def trial (r : Run σ ρ ν μ) : Trial σ ρ ν :=
  { model := r.model
    scorer := r.scorer
    sampler := r.sampler
    source := r.source
    candidate := r.candidate
    best := r.best
    region := r.sink.region
    statistics := r.sink.statistics.unreported
    stage := r.stage }

/-- The trial that a run is when it has read what waits. -/
def caughtUp (x : World × Run σ ρ ν μ) : Trial σ ρ ν :=
  (x.2.withSink (World.handleAll Sink.handle x.1.channel.inbound x.2.sink)).trial

theorem caughtUp_of_read {x : World × Run σ ρ ν μ} (h : x.1.channel.inbound = []) :
    caughtUp x = x.2.trial := by
  rw [caughtUp, h]
  rfl

theorem handleAll_samples (es : List Event) (sink : Sink) :
    (World.handleAll Sink.handle es sink).statistics.samples = sink.statistics.samples := by
  rw [Sink.handleAll_eq]
  exact (Tallied.of_events es sink.statistics).samples

/-- The monitor has counted the draws, and no more was sent than drawn. -/
structure Counted (limit : Nat) (x : World × Run σ ρ ν Monitor) : Prop where
  monitor : x.2.monitor = .sampleLimit ⟨limit, x.2.sink.statistics.samples⟩
  emitted : x.1.channel.emitted ≤ x.2.sink.statistics.samples

/-- What holds of a run that is left alone, between its turns. -/
structure Going (s : Setting) (x : World × Run σ ρ ν Monitor) : Prop where
  kept : World.Kept s x.1
  onCourse : x.2.stage.OnCourse
  counted : x.2.stage = .looping → Counted s.limit x
  read : x.2.stage ≠ .looping → x.1.channel.inbound = []

section Going

variable {s : Setting} {x : World × Run σ ρ ν Monitor}

theorem Going.ready (h : Going s x) : Ready x := by
  have hon := h.onCourse
  refine ⟨fun q hq => ?_, fun v hv => ?_⟩
  · rw [hq] at hon
    exact hon.elim
  · rw [hv] at hon
    exact hon

theorem Going.over (h : Going s x) (hl : x.2.stage ≠ .looping) : x.2.isOver = true := by
  have hon := h.onCourse
  unfold isOver
  cases hstage : x.2.stage with
  | looping => exact (hl hstage).elim
  | reporting q =>
    rw [hstage] at hon
    exact hon.elim
  | ended | violated | crashed => rfl

end Going

section Draws

variable {s : Setting} {x y z : World × Run σ ρ ν Monitor} {es : List Entry}

/-- A run that has read everything and has room reports without more ado. -/
theorem emission_calm {score : Nat} (hy : World.Kept s y.1)
    (hz : World.Peaceful s.events (afterEmission y.2 score (emission y score)).1) :
    World.Peaceful s.events y.1 ∧ (y.1.channel.inbound = [] → y.1.channel.emitted < s.limit →
      ∃ w, emission y score = (.flow .proceed, w, y.2.sink)
        ∧ w.channel.emitted = y.1.channel.emitted + 1) := by
  have hemit : World.Precedes Sink.handle y.1 (emission y score).2.1 :=
    fun _ hI => hI.unbroken.emit _ _ _
  have hafter : World.Precedes Sink.handle (emission y score).2.1
      (afterEmission y.2 score (emission y score)).1 :=
    fun _ hI => hI.unbroken.afterEmission score
  have hw := hz.earlier hafter (hemit (World.lasting_pushed _ _) hy.pushed)
  have hpeace := hw.earlier hemit hy.pushed
  refine ⟨hpeace, fun hread hroom => ?_⟩
  obtain ⟨w, heq, -, hcount⟩ := hpeace.emit hw s.harmless hy.orderly hy.warranted hread hy.roomy
    (Nat.lt_of_lt_of_le hroom s.room)
  exact ⟨w, heq, hcount⟩

/-- A run that has counted and scored a draw. -/
theorem Counted.judged {limit : Nat} (h : Counted limit x)
    (hn : x.2.sink.statistics.samples < maxCount) (c : Candidate × σ × ρ) (score : Nat) :
    (judged (withDrawn x c) score).2.trial = (x.2.trial.withDrawn c).withResult (.ok score)
      ∧ (judged (withDrawn x c) score).2.monitor
        = .sampleLimit ⟨limit, (judged (withDrawn x c) score).2.sink.statistics.samples⟩
      ∧ (judged (withDrawn x c) score).2.sink.statistics.samples
        = x.2.sink.statistics.samples + 1
      ∧ (judged (withDrawn x c) score).1.channel.emitted = x.1.channel.emitted := by
  refine ⟨?_, ?_, ?_, (quiet_judged x c score).disturbed.emitted⟩ <;> rw [judged_run]
  · rfl
  · change (Monitor.hear _ (.sampled (some score)) x.2.monitor).1 = _
    rw [h.monitor]
    rfl
  · exact countSucc_of_lt hn

theorem Counted.discarded {limit : Nat} (h : Counted limit x)
    (hn : x.2.sink.statistics.samples < maxCount) (c : Candidate × σ × ρ) (fault : Fault) :
    Counted limit (afterScore (withDrawn x c).1 (withDrawn x c).2 (.error fault)) := by
  set z := afterScore (withDrawn x c).1 (withDrawn x c).2 (.error fault)
  have hquiet : Quiet x.1 z.1 := ((quiet_withDrawn x c).trans (.note _ _)).trans (.noteAll _ _)
  have hsamples : z.2.sink.statistics.samples = x.2.sink.statistics.samples + 1 :=
    countSucc_of_lt hn
  constructor
  · change (Monitor.hear _ (.sampled none) x.2.monitor).1 = _
    rw [h.monitor]
    rfl
  · rw [hsamples, hquiet.disturbed.emitted]
    exact Nat.le_succ_of_le h.emitted

/-- A report that is sent changes nothing but the counts of reports. -/
theorem afterEmission_sent {limit score : Nat} {w : World} (hl : y.2.stage = .looping)
    (heq : emission y score = (.flow .proceed, w, y.2.sink))
    (hmonitor : y.2.monitor = .sampleLimit ⟨limit, y.2.sink.statistics.samples⟩)
    (hcount : w.channel.emitted ≤ y.2.sink.statistics.samples) :
    (afterEmission y.2 score (emission y score)).2.trial = y.2.trial
      ∧ (∀ a ∈ attempts (attemptEntries y score (emission y score).1), a.answer = .flow .proceed)
      ∧ Counted limit (afterEmission y.2 score (emission y score)) := by
  obtain ⟨rest, hentries, hrest, -⟩ := attemptEntries_eq y score (emission y score).1
  rw [hentries, attempts_attempted, hrest, heq]
  refine ⟨?_, by simp, ?_, ?_⟩
  · change { y.2.trial with stage := .looping } = y.2.trial
    rw [← hl]
    rfl
  · change (Monitor.hear _ (.reported _ score) y.2.monitor).1 = _
    rw [hmonitor]
    rfl
  · have hchannel : (afterEmission y.2 score (.flow .proceed, w, y.2.sink)).1.channel = w.channel :=
      World.noteAll_channel w _
    rw [hchannel]
    exact hcount

variable [Sampler σ ρ] [Scorer ν]

theorem trial_draws {x : World × Run σ ρ ν μ} {limit : Nat} (hl : x.2.stage = .looping)
    (hn : x.2.sink.statistics.samples < limit) :
    x.2.trial.turn limit = match drawn x with
      | .error crash => { x.2.trial with stage := .crashed crash }
      | .ok c =>
        match rated x c.1 with
        | .error crash => { x.2.trial.withDrawn c with stage := .crashed crash }
        | .ok result => (x.2.trial.withDrawn c).withResult result :=
  Trial.turn_draws (t := x.2.trial) hl hn

/-- A draw of a run that has read everything. -/
theorem DrawCourse.turned (h : DrawCourse x es z) (hx : Going s x) (hl : x.2.stage = .looping)
    (hread : x.1.channel.inbound = []) (hn : x.2.sink.statistics.samples < s.limit)
    (hz : World.Peaceful s.events z.1) :
    z.2.trial = x.2.trial.turn s.limit ∧ (∀ a ∈ attempts es, a.answer = .flow .proceed)
      ∧ (z.2.stage = .looping → Counted s.limit z) := by
  have hcounted := hx.counted hl
  have hmax : x.2.sink.statistics.samples < maxCount := Nat.lt_of_lt_of_le hn s.countable
  rw [trial_draws hl hn]
  cases h with
  | undrawn hd =>
    rw [hd]
    exact ⟨rfl, by simp, nofun⟩
  | unscored hd hs =>
    simp only [hd, hs]
    exact ⟨rfl, by simp, nofun⟩
  | discarded hd hs =>
    simp only [hd, hs]
    exact ⟨rfl, by simp, fun _ => hcounted.discarded hmax _ _⟩
  | @passed c score hd hs =>
    simp only [hd, hs]
    obtain ⟨htrial, hmonitor, hsamples, hemitted⟩ := hcounted.judged hmax c score
    refine ⟨htrial, by simp, fun _ => ⟨hmonitor, ?_⟩⟩
    rw [hsamples, hemitted]
    exact Nat.le_succ_of_le hcounted.emitted
  | @reported c score y hd hs _ hy =>
    simp only [hd, hs]
    have hquiet := quiet_judged x c score
    have hbefore : World.Precedes Sink.handle x.1 (Run.judged (withDrawn x c) score).1 :=
      fun _ hI => hI.unbroken.judged c score
    obtain ⟨htrial, hmonitor, hsamples, hemitted⟩ := hcounted.judged hmax c score
    rw [hy] at hquiet hbefore htrial hmonitor hsamples hemitted
    have ho : Orderly y.1 := hx.kept.orderly.disturbed hquiet.disturbed
    obtain ⟨hpeace, hcalm⟩ := emission_calm (hx.kept.later hbefore ho) hz
    obtain ⟨ts, hts, -⟩ := hquiet.disturbed.intake
    have hyread := hx.kept.all_read (hpeace.earlier hbefore hx.kept.pushed) hpeace hts ho hread
    have hroom : y.1.channel.emitted < s.limit := by
      rw [hemitted]
      exact Nat.lt_of_le_of_lt hcounted.emitted hn
    obtain ⟨w, heq, hcount⟩ := hcalm hyread hroom
    have hstage : y.2.stage = .looping := (congrArg Trial.stage htrial).trans hl
    have hsent : w.channel.emitted ≤ y.2.sink.statistics.samples := by
      rw [hcount, hemitted, hsamples]
      exact Nat.succ_le_succ hcounted.emitted
    obtain ⟨hsame, hanswers, hcounted'⟩ := afterEmission_sent hstage heq hmonitor hsent
    rw [attempts_drew]
    exact ⟨hsame.trans htrial, hanswers, fun _ => hcounted'⟩

theorem drawing_finding {x : World × Run σ ρ ν μ} {limit : Nat} (hl : x.2.stage = .looping)
    (hn : x.2.sink.statistics.samples < limit) :
    x.2.trial.finding? limit = some (drawing x).finding :=
  if_pos ⟨hl, hn⟩

omit [Sampler σ ρ] [Scorer ν] in
theorem Counted.command {limit : Nat} (h : Counted limit x) (s : Surroundings) :
    SamplingMonitor.command s x.2.monitor
      = if limit ≤ x.2.sink.statistics.samples then .terminate "sample limit reached"
        else .proceed := by
  rw [h.monitor]
  rfl

omit [Scorer ν] in
/-- The poll of a turn reads all that waits. -/
theorem Going.polled (hx : Going s x) (hl : x.2.stage = .looping) {f : Flow} {w w' : World}
    {sink : Sink} (hp : x.1.poll Sink.handle x.2.sink = (f, w, sink))
    (hbefore : World.Precedes Sink.handle w w') (hw' : World.Peaceful s.events w') :
    World.Peaceful s.events w ∧ f = .proceed ∧ w.channel.inbound = []
      ∧ (x.2.withSink sink).trial = caughtUp x ∧ Going s (w, x.2.withSink sink) := by
  have hpoll : World.Precedes Sink.handle x.1 w := by
    intro I hI hI₀
    have hI₁ := hI.unbroken.poll x.2.sink hI₀
    rwa [hp] at hI₁
  have hw := hw'.earlier hbefore (hpoll (World.lasting_pushed _ _) hx.kept.pushed)
  obtain ⟨w₁, heq, hread⟩ := (hw.earlier hpoll hx.kept.pushed).poll (h := x.2.sink)
    (by rw [hp]; exact hw) s.harmless s.oneBatch hx.kept.orderly hx.kept.warranted
  obtain ⟨rfl, rfl, rfl⟩ : f = .proceed ∧ w = w₁ ∧ sink = _ := by
    simpa [hp] using heq
  obtain ⟨ts, hadvances⟩ := poll_advances hp
  have hcounted := hx.counted hl
  have hposted := World.poll_posted Sink.handle x.1 x.2.sink
  rw [hp] at hposted
  have hsamples := handleAll_samples x.1.channel.inbound x.2.sink
  exact ⟨hw, rfl, hread, rfl, hx.kept.later hpoll (hadvances.orderly hx.kept.orderly), hx.onCourse,
    fun _ => ⟨hcounted.monitor.trans (by rw [← hsamples]; rfl),
      hposted.emitted_eq.trans_le (hcounted.emitted.trans_eq hsamples.symm)⟩, fun _ => hread⟩

theorem Going.finished (hy : Going s y) (hl : y.2.stage = .looping)
    (hread : y.1.channel.inbound = []) (hn : s.limit ≤ y.2.sink.statistics.samples) :
    Going s (finish y.1 y.2 (.aborted "sample limit reached"))
      ∧ caughtUp (finish y.1 y.2 (.aborted "sample limit reached")) = y.2.trial.turn s.limit := by
  set z := finish y.1 y.2 (.aborted "sample limit reached")
  have hfinish : World.Precedes Sink.handle y.1 z.1 := fun _ hI => hI.unbroken.noteAll _
  have hread' : z.1.channel.inbound = [] :=
    (congrArg Channel.inbound (World.noteAll_channel y.1 _)).trans hread
  obtain ⟨ts, hadvances⟩ := finish_advances y (.aborted "sample limit reached")
  refine ⟨⟨hy.kept.later hfinish (hadvances.orderly hy.kept.orderly), rfl, nofun,
    fun _ => hread'⟩, ?_⟩
  rw [caughtUp_of_read hread', Trial.turn_reached hl hn]
  rfl

theorem Going.drew (hy : Going s y) (hd : DrawCourse y es z) (hl : y.2.stage = .looping)
    (hs : y.1.channel.stopped = none) (hread : y.1.channel.inbound = [])
    (hn : y.2.sink.statistics.samples < s.limit) (hpeace : World.Peaceful s.events y.1)
    (hz : World.Peaceful s.events z.1) :
    Going s z ∧ caughtUp z = y.2.trial.turn s.limit
      ∧ (draws es).map Draw.finding = (y.2.trial.finding? s.limit).toList
      ∧ ∀ a ∈ attempts es, a.answer = .flow .proceed := by
  obtain ⟨hturn, hanswers, hcounted⟩ := hd.turned hy hl hread hn hz
  obtain ⟨ts, hadvances⟩ := hd.advances hs
  have ho := hadvances.orderly hy.kept.orderly
  have hread' := hy.kept.all_read hpeace hz hadvances.intake ho hread
  have hon : z.2.trial.stage.OnCourse := hturn ▸ Trial.turn_onCourse hy.onCourse
  refine ⟨⟨hy.kept.later (fun _ hI => hI.unbroken.drawCourse hd) ho, hon, hcounted,
    fun _ => hread'⟩, (caughtUp_of_read hread').trans hturn, ?_, hanswers⟩
  rw [hd.draws_eq, drawing_finding hl hn]
  rfl

/-- One turn of a run that is left alone is one turn of its trial. -/
theorem Going.step (hx : Going s x) (hz : World.Peaceful s.events (step x.1 x.2).1) :
    Going s (Run.step x.1 x.2)
      ∧ caughtUp (Run.step x.1 x.2) = (caughtUp x).turn s.limit
      ∧ (draws (entries x)).map Draw.finding = ((caughtUp x).finding? s.limit).toList
      ∧ ∀ a ∈ attempts (entries x), a.answer = .flow .proceed := by
  by_cases hl : x.2.stage = .looping
  · have hcourse := step_course x
    generalize Run.step x.1 x.2 = z at hz hcourse ⊢
    generalize entries x = es at hcourse ⊢
    cases hcourse with
    | idle hover => simp [isOver, hl] at hover
    | resumed hq => cases hl.symm.trans hq
    | stopped _ hp =>
      obtain ⟨-, hproceed, -⟩ := hx.polled hl hp (fun _ hI => hI.unbroken.noteAll _) hz
      cases hproceed
    | @aborted w sink cause _ hp hc =>
      obtain ⟨-, -, hread, htrial, hy⟩ := hx.polled hl hp (fun _ hI => hI.unbroken.noteAll _) hz
      have hcommand := ((hy.counted hl).command w.surroundings).symm.trans hc
      split_ifs at hcommand with hn
      obtain rfl := Command.terminate.inj hcommand
      obtain ⟨hgoing, hturn⟩ := hy.finished hl hread hn
      rw [← htrial, Trial.finding_reached hn]
      exact ⟨hgoing, hturn, rfl, by simp⟩
    | @drew y _ _ ho hd =>
      obtain ⟨hpeace, -, hread, htrial, hy⟩ :=
        hx.polled hl ho.polled (fun _ hI => hI.unbroken.drawCourse hd) hz
      rw [← ho.rest] at htrial hy
      have hn : y.2.sink.statistics.samples < s.limit := by
        have hcommand := ((hy.counted ho.looping_after).command y.1.surroundings).symm.trans ho.goes
        split_ifs at hcommand with hn
        exact Nat.not_le.1 hn
      rw [← htrial]
      exact hy.drew hd ho.looping_after ho.listens hread hn hpeace hz
  · obtain ⟨hnone, hsame⟩ := entries_of_over (hx.over hl)
    rw [hnone, hsame, Trial.turn_over hl, Trial.finding_over hl]
    exact ⟨hx, rfl, rfl, by simp⟩

omit [Sampler σ ρ] [Scorer ν] in
/-- In peace, what others do between the turns changes nothing. -/
theorem Going.quiet {w : World} (hx : Going s x) (hq : Quiet x.1 w)
    (hbefore : World.Precedes Sink.handle x.1 w) (hw : World.Peaceful s.events w) :
    Going s (w, x.2) ∧ caughtUp (w, x.2) = caughtUp x := by
  obtain ⟨ts, hts, -⟩ := hq.disturbed.intake
  obtain ⟨told, hin, -, -⟩ := hq.disturbed.pushes
  have ho := hx.kept.orderly.disturbed hq.disturbed
  have hsuffix := hx.kept.unread (hw.earlier hbefore hx.kept.pushed) hw hts ho
  have hsame : w.channel.inbound = x.1.channel.inbound := by
    have hlen := hsuffix.length_le
    rw [hin, List.length_append] at hlen
    have htold : told = [] := List.eq_nil_of_length_eq_zero (by omega)
    rw [hin, htold, List.append_nil]
  refine ⟨⟨hx.kept.later hbefore ho, hx.onCourse, fun hl => ?_, fun hl => hsame.trans (hx.read hl)⟩,
    by rw [caughtUp, hsame]; rfl⟩
  exact ⟨(hx.counted hl).monitor, hq.disturbed.emitted.trans_le (hx.counted hl).emitted⟩

/-- A run that is left alone follows its trial: it draws what the trial draws, and every attempt to
report is answered with going on. -/
theorem play_trial : ∀ (vs : List Move) {x : World × Run σ ρ ν Monitor}, Going s x →
    World.Peaceful s.events (play x vs).1 →
    Going s (play x vs)
      ∧ caughtUp (play x vs) = (Trial.turn s.limit)^[vs.countP Move.isStep] (caughtUp x)
      ∧ (draws (chronicle x vs)).map Draw.finding
        = (caughtUp x).findings s.limit (vs.countP Move.isStep)
      ∧ ∀ a ∈ attempts (chronicle x vs), a.answer = .flow .proceed
  | [], _, hx, _ => ⟨hx, rfl, rfl, by simp [chronicle]⟩
  | v :: vs, x, hx, hz => by
    have hstart : World.Precedes Sink.handle x.1 (next x v).1 := fun _ hI => hI.next v
    have hnext : World.Peaceful s.events (next x v).1 :=
      hz.earlier (fun _ hI => hI.play vs) (hstart (World.lasting_pushed _ _) hx.kept.pushed)
    cases v with
    | act a =>
      obtain ⟨hgoing, hsame⟩ := hx.quiet (.act x.1 a) hstart hnext
      rw [← hsame]
      exact play_trial vs hgoing hz
    | plan script =>
      obtain ⟨hgoing, hsame⟩ := hx.quiet (.plan x.1 script) hstart hnext
      rw [← hsame]
      exact play_trial vs hgoing hz
    | step =>
      obtain ⟨hgoing, hturn, hdrawn, hanswers⟩ := hx.step hnext
      obtain ⟨hgoing', hturns, hrest, hanswers'⟩ := play_trial vs hgoing hz
      have hcount : (Move.step :: vs).countP Move.isStep = vs.countP Move.isStep + 1 :=
        List.countP_cons_of_pos rfl
      rw [hcount, Function.iterate_succ_apply, Trial.findings, ← hturn, ← hdrawn, ← hrest,
        chronicle_step, draws_append, List.map_append, attempts_append]
      exact ⟨hgoing', hturns, rfl, List.forall_mem_append.2 ⟨hanswers, hanswers'⟩⟩

end Draws

end Run

end ScenarioSampling
