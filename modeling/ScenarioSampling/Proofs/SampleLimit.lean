import Mathlib.Data.List.Induction
import ScenarioSampling.Proofs.Listeners
import ScenarioSampling.Worker.Lifecycle

/-!
# Runs with a sample limit

A worker installs a monitor that counts the samples of a run, next to others, and ends the run when
its limit is reached. It is asked before every draw and told after every one, of a discarded
candidate too, so a run draws up to its limit and not beyond (`sample_limit_exact`).
-/

namespace ScenarioSampling

open Entry

namespace Monitor

/-- A leaf that a worker with this configuration installs. -/
def Installed (config : WorkerConfig) : Monitor → Prop
  | interrupt => config.interrupt = true
  | sampleLimit l => config.sampleLimit = some l.limit
  | timeLimit t => config.timeLimit = some t.limit
  | progressLog _ => True
  | recorder _ | composite _ => False

/-- The leaf knows when the run began and how many samples it has had. -/
def Abreast (start samples : Nat) : Monitor → Prop
  | sampleLimit l => l.samples = samples
  | timeLimit t => t.start = start
  | _ => True

variable {config : WorkerConfig} {b m m' : Monitor} {cs : List Call} {start samples : Nat}

theorem Installed.hear (h : b.Installed config) (s : Surroundings) (c : Call) :
    (b.hear s c).1.Installed config := by
  cases b with
  | composite | recorder => exact h.elim
  | interrupt => exact h
  | progressLog => trivial
  | sampleLimit | timeLimit => cases c <;> exact h

theorem Installed.abreast_entered (h : b.Installed config) (s : Surroundings) (model : Model) :
    (b.hear s (.entered model)).1.Abreast s.now 0 := by
  cases b with
  | composite | recorder => exact h.elim
  | interrupt | progressLog => trivial
  | sampleLimit | timeLimit => rfl

/-- The leaves follow the calls of a run. -/
theorem Abreast.hear (h : b.Abreast start (countSucc^[(sampledIn cs).length] 0)) (s : Surroundings)
    {c : Call} (hc : ∀ model, c ≠ .entered model) :
    (b.hear s c).1.Abreast start (countSucc^[(sampledIn (cs ++ [c])).length] 0) := by
  rw [sampledIn_concat, List.length_append]
  cases b with
  | composite | recorder | interrupt | progressLog => trivial
  | timeLimit =>
    cases c with
    | entered model => exact (hc model rfl).elim
    | left | reported | sampled => exact h
  | sampleLimit l =>
    cases c with
    | entered model => exact (hc model rfl).elim
    | left | reported => exact h
    | sampled score =>
      show countSucc l.samples = _
      rw [show l.samples = _ from h]
      exact (Function.iterate_succ_apply' countSucc _ 0).symm

/-- The monitor of a worker with this configuration, in whatever state. -/
structure Equipped (config : WorkerConfig) (m : Monitor) : Prop where
  installed : ∀ b ∈ m.leaves, b.Installed config
  limited : ∀ n, config.sampleLimit = some n → ∃ l, .sampleLimit l ∈ m.leaves

theorem mem_monitors {now : Nat} : b ∈ Worker.monitors config now
    ↔ (config.interrupt = true ∧ b = interrupt)
      ∨ (∃ n, config.sampleLimit = some n ∧ b = sampleLimit (.ofLimit n))
      ∨ (∃ d, config.timeLimit = some d
        ∧ b = timeLimit (.ofLimit d TimeLimit.standardMask now))
      ∨ ∃ d, config.logInterval = some d
        ∧ b = progressLog (.ofInterval d ProgressLog.standardMask now) := by
  simp only [Worker.monitors, List.mem_append, Option.mem_toList, Option.map_eq_some_iff,
    List.mem_ite_nil_right, List.mem_singleton, or_assoc, eq_comm (a := b)]

theorem leaves_monitors (config : WorkerConfig) (now : Nat) :
    (composite (Worker.monitors config now)).leaves = Worker.monitors config now := by
  have hall : ∀ ms : List Monitor, (∀ m ∈ ms, m.leaves = [m]) → leavesOfAll ms = ms := by
    intro ms
    induction ms with
    | nil => exact fun _ => rfl
    | cons m ms ih =>
      intro h
      obtain ⟨hm, hms⟩ := List.forall_mem_cons.1 h
      rw [leavesOfAll, hm, ih hms]
      rfl
  refine hall _ fun m hm => ?_
  rcases mem_monitors.1 hm with ⟨-, rfl⟩ | ⟨n, -, rfl⟩ | ⟨d, -, rfl⟩ | ⟨d, -, rfl⟩ <;> rfl

theorem equipped_monitors (config : WorkerConfig) (now : Nat) :
    Equipped config (.composite (Worker.monitors config now)) := by
  refine ⟨fun b hb => ?_, fun n hn => ⟨.ofLimit n, ?_⟩⟩ <;> rw [leaves_monitors] at *
  · rcases mem_monitors.1 hb with ⟨hi, rfl⟩ | ⟨n, hn, rfl⟩ | ⟨d, hd, rfl⟩ | ⟨d, -, rfl⟩
    · exact hi
    · exact hn
    · exact hd
    · trivial
  · exact mem_monitors.2 (.inr (.inl ⟨n, hn, rfl⟩))

theorem Equipped.hear (h : Equipped config m) (s : Surroundings) (c : Call) :
    Equipped config (m.hear s c).1 := by
  have hleaves := (m.hear_leaves s c).1
  refine ⟨?_, fun n hn => ?_⟩
  · rw [hleaves, List.forall_mem_map]
    exact fun b hb => (h.installed b hb).hear s c
  · obtain ⟨l, hl⟩ := h.limited n hn
    rw [hleaves]
    exact ⟨_, List.mem_map_of_mem hl⟩

theorem Equipped.hears (h : Equipped config m) (hears : Hears m cs m') : Equipped config m' := by
  induction hears with
  | nil => exact h
  | snoc s c _ ih => exact ih.hear s c

/-- Which of its leaves ends the run, and why. -/
theorem Equipped.cause (h : Equipped config m) (ha : ∀ b ∈ m.leaves, b.Abreast start samples)
    {s : Surroundings} {cause : String} (hc : m.command s = .terminate cause) :
    (cause = "sample limit reached" ∧ ∃ n, config.sampleLimit = some n ∧ n ≤ samples)
      ∨ (cause = "time limit reached"
        ∧ ∃ d, config.timeLimit = some d ∧ d.nanos ≤ s.now - start)
      ∨ (cause = "Interrupt signal received" ∧ config.interrupt = true
        ∧ s.interrupted = true) := by
  obtain ⟨before, b, after, hsplit, -, hb⟩ := ((m.command_leaves s).2 cause).1 hc
  have hmem : b ∈ m.leaves := by simp [hsplit]
  have hinstalled := h.installed b hmem
  have habreast := ha b hmem
  cases b with
  | recorder | composite => exact hinstalled.elim
  | progressLog => cases hb
  | interrupt =>
    simp only [command, Interrupt.command] at hb
    split_ifs at hb with hi
    exact .inr (.inr ⟨(Command.terminate.inj hb).symm, hinstalled, hi⟩)
  | sampleLimit l =>
    simp only [command, SampleLimit.command] at hb
    split_ifs at hb with hl
    exact .inl ⟨(Command.terminate.inj hb).symm, l.limit, hinstalled, habreast ▸ hl⟩
  | timeLimit t =>
    simp only [command, TimeLimit.command] at hb
    split_ifs at hb with ht
    simp only [Bool.and_eq_true, decide_eq_true_eq] at ht
    exact .inr (.inl ⟨(Command.terminate.inj hb).symm, t.limit, hinstalled, habreast ▸ ht.2⟩)

/-- While it lets the run go on, the limit is not reached. -/
theorem Equipped.lt_limit (h : Equipped config m) (ha : ∀ b ∈ m.leaves, b.Abreast start samples)
    {s : Surroundings} {n : Nat} (hn : config.sampleLimit = some n)
    (hc : m.command s = .proceed) : samples < n := by
  obtain ⟨l, hl⟩ := h.limited n hn
  have hlimit : l.limit = n := Option.some.inj ((h.installed _ hl).symm.trans hn)
  have hgo := (m.command_leaves s).1.1 hc _ hl
  have hsamples : l.samples = samples := ha _ hl
  simp only [command, SampleLimit.command] at hgo
  split_ifs at hgo with hreached
  omega

end Monitor

namespace Run

variable {σ ρ ν : Type} {config : WorkerConfig} {x : World × Run σ ρ ν Monitor}

/-- The run begins with the monitors of this configuration, which may have heard of other runs. -/
def Watched (config : WorkerConfig) (x : World × Run σ ρ ν Monitor) : Prop :=
  ∃ now earlier monitor w₀ policy m sampler source scorer,
    Hears (.composite (Worker.monitors config now)) earlier monitor
      ∧ begin w₀ policy m sampler source scorer monitor = .ok x

theorem begin_start {w₀ : World} {policy : ReportPolicy} {m : Model} {sampler : σ} {source : ρ}
    {scorer : ν} {monitor : Monitor}
    (h : begin w₀ policy m sampler source scorer monitor = .ok x) :
    x.2.start = w₀.surroundings.now := by
  unfold begin at h
  split at h
  · rw [← Except.ok.inj h]
    rfl
  · cases h

theorem Watched.looping (hx : Watched config x) : x.2.stage = .looping := by
  obtain ⟨_, _, _, _, _, _, _, _, _, _, h⟩ := hx
  exact (begun h).looping

/-- The monitor begins to count with the run. -/
theorem Watched.monitor (hx : Watched config x) :
    x.2.monitor.Equipped config ∧ ∀ b ∈ x.2.monitor.leaves, b.Abreast x.2.start 0 := by
  obtain ⟨now, _, monitor, w₀, _, m, _, _, _, hears, h⟩ := hx
  have hequipped := (Monitor.equipped_monitors config now).hears hears
  have hb := begun h
  refine ⟨hb.entered ▸ hequipped.hear _ _, ?_⟩
  rw [hb.leaves, begin_start h, List.forall_mem_map]
  exact fun b hb => (hequipped.installed b hb).abreast_entered _ _

variable [Sampler σ ρ] [Scorer ν]

/-- All along, the monitor has counted the candidates that came to a result. -/
theorem Watched.counted (hx : Watched config x) (vs : List Move) :
    (play x vs).2.monitor.Equipped config
      ∧ ∀ b ∈ (play x vs).2.monitor.leaves,
        b.Abreast x.2.start (countSucc^[(scored (chronicle x vs)).length] 0) := by
  obtain ⟨hequipped, habreast⟩ := hx.monitor
  obtain ⟨ts, hbooks⟩ := play_advances vs (.of_looping hx.looping)
  refine ⟨hequipped.hears hbooks.heard, fun b hb => ?_⟩
  have hkeep := hbooks.heard.forall_leaves (I := fun cs b => WithinRun cs →
      b.Abreast x.2.start (countSucc^[(sampledIn cs).length] 0)) (fun s c hcs hwithin => ?_)
    (fun b hb _ => habreast b hb) b hb (withinRun_calls _)
  · rwa [sampledIn, calls_sampled, List.length_map] at hkeep
  · obtain ⟨hbefore, hc⟩ := List.forall_mem_append.1 hwithin
    exact (hcs hbefore).hear s (hc c List.mem_cons_self)

theorem Watched.settled (hx : Watched config x) (vs : List Move) :
    ∃ p events, Settled p (chronicle x vs) (play x vs).2
      ∧ Tallied events (chronicle x vs) .zero (play x vs).2.sink.statistics := by
  obtain ⟨_, _, _, _, policy, _, _, _, _, _, h⟩ := hx
  obtain ⟨hsettled, ts, -, htallied⟩ := (begun h).settles vs
  exact ⟨policy, _, hsettled, htallied⟩

section Watched

variable {n : Nat} (hx : Watched config x) (hn : config.sampleLimit = some n) (hmax : n ≤ maxCount)
include hx

/-- As long as no sampler or scorer has crashed, the monitor has counted the draws. -/
theorem Watched.results (vs : List Move) (hcrash : ∀ crash, (play x vs).2.stage ≠ .crashed crash) :
    (draws (chronicle x vs)).map Draw.scored? = (scored (chronicle x vs)).map some := by
  obtain ⟨_, _, hsettled, -⟩ := hx.settled vs
  exact hsettled.results hcrash

include hn hmax

/-- A run whose monitor lets it go on has not reached its limit. -/
theorem Watched.draws_lt (vs : List Move) (hl : (play x vs).2.stage = .looping)
    (hle : (draws (chronicle x vs)).length ≤ n) {s : Surroundings}
    (hc : (play x vs).2.monitor.command s = .proceed) : (draws (chronicle x vs)).length < n := by
  obtain ⟨hequipped, habreast⟩ := hx.counted vs
  have hlt := hequipped.lt_limit habreast hn hc
  have hscored := scored_length (hx.results vs (by simp [hl]))
  rwa [hscored, iterate_countSucc_zero (hle.trans hmax)] at hlt

theorem Watched.draws_le (vs : List Move) : (draws (chronicle x vs)).length ≤ n := by
  induction vs using List.reverseRecOn with
  | nil => exact Nat.zero_le n
  | append_singleton vs v ih =>
    rw [chronicle_append, draws_append, List.length_append]
    cases v with
    | act | plan => exact ih
    | step =>
      rw [chronicle_step, draws_append, List.length_append]
      rcases (step_course (play x vs)).draws_cases with hnone | ⟨hone, y, ho⟩
      · rw [hnone]
        exact ih
      · have hgoes := ho.goes
        rw [ho.rest] at hgoes
        have hlt := hx.draws_lt hn hmax vs ho.looping ih hgoes
        rw [hone]
        exact hlt

theorem Watched.samples_eq (vs : List Move)
    (hcrash : ∀ crash, (play x vs).2.stage ≠ .crashed crash) :
    (play x vs).2.sink.statistics.samples = (draws (chronicle x vs)).length := by
  obtain ⟨_, _, -, htallied⟩ := hx.settled vs
  exact htallied.samples_eq (hx.results vs hcrash) ((hx.draws_le hn hmax vs).trans hmax)

theorem Watched.samples_le (vs : List Move) : (play x vs).2.sink.statistics.samples ≤ n := by
  obtain ⟨_, _, -, htallied⟩ := hx.settled vs
  have hle : (draws (chronicle x vs)).countP (fun d => d.candidate.isOk) ≤ n :=
    List.countP_le_length.trans (hx.draws_le hn hmax vs)
  rwa [htallied.samples, show Statistics.zero.samples = 0 from rfl,
    iterate_countSucc_zero (hle.trans hmax)]

theorem Watched.emitted_le (vs : List Move) : (play x vs).2.sink.statistics.emitted ≤ n := by
  obtain ⟨_, _, hsettled, htallied⟩ := hx.settled vs
  have hle : (accepted (chronicle x vs)).length ≤ n :=
    (hsettled.accepted_length_le.trans (scored_length_le _)).trans (hx.draws_le hn hmax vs)
  rwa [htallied.emitted_eq (hle.trans hmax)]

/-- A run that its limit ends has reached it. -/
theorem Watched.samples_of_reached (vs : List Move)
    (hend : (play x vs).2.stage = .ended (.aborted "sample limit reached")) :
    (play x vs).2.sink.statistics.samples = n := by
  have hlooping := hx.looping
  obtain ⟨pre, post, rfl, hl, w, sink, -, hc⟩ :=
    exists_abandons vs (by simp [isOver, hlooping]) hend
  obtain ⟨hequipped, habreast⟩ := hx.counted pre
  have hpre := hx.draws_le hn hmax pre
  have hscored := scored_length (hx.results pre (by simp [hl]))
  have hreached : n ≤ (draws (chronicle x pre)).length := by
    rcases hequipped.cause habreast hc with ⟨-, n', hn', hle⟩ | ⟨hne, -⟩ | ⟨hne, -⟩
    · rw [hscored, iterate_countSucc_zero (hpre.trans hmax)] at hle
      rwa [Option.some.inj (hn.symm.trans hn')]
    · exact absurd hne (by decide)
    · exact absurd hne (by decide)
  have hle := hx.draws_le hn hmax (pre ++ .step :: post)
  rw [hx.samples_eq hn hmax _ (by simp [hend])]
  rw [chronicle_append, draws_append, List.length_append] at hle ⊢
  omega

omit hn hmax

/-- Whenever the monitor is asked, the interrupt flag is down and the time limit has not elapsed. -/
def Unhindered (config : WorkerConfig) (x : World × Run σ ρ ν Monitor) (vs : List Move) : Prop :=
  ∀ pre post w sink, vs = pre ++ .step :: post → (play x pre).2.stage = .looping →
    (play x pre).1.poll Sink.handle (play x pre).2.sink = (.proceed, w, sink) →
    (config.interrupt = true → w.surroundings.interrupted = false)
      ∧ ∀ d, config.timeLimit = some d → w.surroundings.now - x.2.start < d.nanos

/-- Only its limit can abort a run that nothing else hinders. -/
theorem Watched.reached_of_unhindered {vs : List Move} (hfree : Unhindered config x vs)
    {cause : String} (hend : (play x vs).2.stage = .ended (.aborted cause)) :
    cause = "sample limit reached" := by
  have hlooping := hx.looping
  obtain ⟨pre, post, hsplit, hl, w, sink, hp, hc⟩ :=
    exists_abandons vs (by simp [isOver, hlooping]) hend
  obtain ⟨hinterrupt, htime⟩ := hfree pre post w sink hsplit hl hp
  obtain ⟨hequipped, habreast⟩ := hx.counted pre
  rcases hequipped.cause habreast hc with ⟨hcause, -⟩ | ⟨-, d, hd, hle⟩ | ⟨-, hi, hup⟩
  · exact hcause
  · exact (Nat.not_lt.2 hle (htime d hd)).elim
  · exact (Bool.false_ne_true ((hinterrupt hi).symm.trans hup)).elim

include hn hmax

/-- A run that nothing else ends reaches its limit, in one turn more than there are samples. -/
theorem Watched.reaches {vs : List Move} (hv : n < vs.countP Move.isStep)
    (hs : (play x vs).1.channel.stopped = none)
    (hcrash : ∀ crash, (play x vs).2.stage ≠ .crashed crash) (hes : Unwaiting (chronicle x vs))
    (hfree : Unhindered config x vs) :
    (play x vs).2.stage = .ended (.aborted "sample limit reached") := by
  have hready := Ready.of_looping hx.looping
  have hover : (play x vs).2.isOver = true := by
    rcases play_rounds vs hx.looping hes with hover | ⟨-, hcount⟩
    · exact hover
    · have hle := hx.draws_le hn hmax vs
      omega
  have hcandid := play_candid vs hready (.of_unended (by simp [hx.looping]))
  have hunviolated := (play_ready vs hready).1.unviolated
  cases hstage : (play x vs).2.stage with
  | looping | reporting => simp [isOver, hstage] at hover
  | violated v => exact (hunviolated v hstage).elim
  | crashed crash => exact (hcrash crash hstage).elim
  | ended reason =>
    cases reason with
    | stopped reason =>
      rw [hcandid.stopped reason hstage] at hs
      cases hs
    | aborted cause => rw [hx.reached_of_unhindered hfree hstage]

end Watched

/-- In every run that is watched by the monitors of a worker with a sample limit, whichever others
there are and whatever they have heard of earlier runs: the run neither draws nor reports more than
the limit, begins at most one round more than that, and if the limit ends it, it has drawn exactly
that often. It does so unless something else ends it: a stop of the bridge, a crash, a report that
waits, the interrupt flag or the time limit. -/
theorem sample_limit_exact {n : Nat} (hx : Watched config x) (hn : config.sampleLimit = some n)
    (hmax : n ≤ maxCount) (vs : List Move) :
    let y := play x vs
    y.2.sink.statistics.samples ≤ n
      ∧ y.2.sink.statistics.emitted ≤ n
      ∧ rounds x vs ≤ n + 1
      ∧ (∀ o, y.2.outcome? = some o → o.reason = .aborted "sample limit reached" →
        o.statistics.samples = n)
      ∧ (n < vs.countP Move.isStep → y.1.channel.stopped = none →
        (∀ crash, y.2.stage ≠ .crashed crash) → Unwaiting (chronicle x vs) →
        Unhindered config x vs → ∃ o, y.2.outcome? = some o
          ∧ o.reason = .aborted "sample limit reached" ∧ o.statistics.samples = n) := by
  intro y
  have hrounds := rounds_le vs x
  have hdraws := hx.draws_le hn hmax vs
  refine ⟨hx.samples_le hn hmax vs, hx.emitted_le hn hmax vs, by omega, fun o ho hr => ?_,
    fun hv hs hcrash hes hfree => ?_⟩
  · obtain ⟨hend, -, hstatistics⟩ := of_outcome ho
    rw [hstatistics]
    exact hx.samples_of_reached hn hmax vs (hr ▸ hend)
  · have hend := hx.reaches hn hmax hv hs hcrash hes hfree
    exact ⟨_, by rw [outcome?, show y.2.stage = _ from hend], rfl,
      hx.samples_of_reached hn hmax vs hend⟩

/-- Two samples, with monitors that have counted two in an earlier run. For `2 ^ 62 * x == y` the
candidate `(3, 0)` is discarded for an overflow, and `(0, 1)` is reported. -/
theorem sample_limit_exact_again :
    let domain : Domain := ⟨0, 3, by decide, by decide, by decide⟩
    let m : Model :=
      ⟨.closed,
        [⟨"x", ⟨0⟩, .decision .existential, .int, domain⟩,
          ⟨"y", ⟨1⟩, .decision .existential, .int, domain⟩],
        [.linear ⟨[⟨4611686018427387904, ⟨0⟩⟩], .eq, ⟨1⟩⟩], [("y", ⟨1⟩), ("x", ⟨0⟩)], 0⟩
    let source : WordCycle := ⟨#[13835058055282163712, 0, 0, 4611686018427387904], 0⟩
    let config : WorkerConfig :=
      ⟨.join, none, some 2, none, 1, false, 1, some (.ofParts 1 0), false⟩
    let hear (c : Call) (monitor : Monitor) := (monitor.hear ⟨5, false⟩ c).1
    let monitor := hear (.sampled (some 1)) (hear (.sampled none) (hear (.entered m)
      (.composite (Worker.monitors config 3))))
    let vs : List Move := [.step, .step, .step]
    ∃ w r o, begin (.ofCapacity 1) ⟨1, false⟩ m UniformSampler.mk source ConstraintScorer.mk monitor
        = .ok (w, r)
      ∧ (play (w, r) vs).2.outcome? = some o
      ∧ o.reason = .aborted "sample limit reached"
      ∧ (o.statistics.samples, o.statistics.faults, o.statistics.emitted) = (2, 1, 1) := by
  intro domain m source config hear monitor vs
  obtain ⟨w, r, h, hlisten, hstage, hanswers, hcounts⟩ : ∃ w r,
      begin (.ofCapacity 1) ⟨1, false⟩ m UniformSampler.mk source ConstraintScorer.mk monitor
        = .ok (w, r)
      ∧ (play (w, r) vs).1.channel.stopped = none
      ∧ (play (w, r) vs).2.stage = .ended (.aborted "sample limit reached")
      ∧ (attempts (chronicle (w, r) vs)).map (·.answer) = [.flow .proceed]
      ∧ (let s := (play (w, r) vs).2.sink.statistics
        (s.faults, s.emitted) = (1, 1)) :=
    ⟨_, _, rfl, by decide +kernel, by decide +kernel, by decide +kernel, by decide +kernel⟩
  have hears : Hears (.composite (Worker.monitors config 3))
      ([] ++ [.entered m] ++ [.sampled none] ++ [.sampled (some 1)]) monitor :=
    .snoc ⟨5, false⟩ _ (.snoc ⟨5, false⟩ _ (.snoc ⟨5, false⟩ _ .nil))
  have hunwaiting : Unwaiting (chronicle (w, r) vs) := fun a ha q hq => by
    have hmem := List.mem_map_of_mem (f := (·.answer)) ha
    rw [hanswers, hq] at hmem
    simp at hmem
  obtain ⟨-, -, -, -, hreaches⟩ := sample_limit_exact (n := 2)
    ⟨_, _, _, _, _, _, _, _, _, hears, h⟩ rfl (by decide) vs
  obtain ⟨o, ho, hr, hsamples⟩ := hreaches (by decide) hlisten (by rw [hstage]; exact nofun)
    hunwaiting fun _ _ _ _ _ _ _ => ⟨nofun, nofun⟩
  refine ⟨w, r, o, h, ho, hr, ?_⟩
  rw [hsamples, (of_outcome ho).2.2]
  simpa using hcounts

end Run

/-- A worker that starts begins a run that is watched by the monitors of its configuration. -/
theorem Worker.start_watched {σ : Type} [Sampler σ ChaCha] {worker worker' : Worker σ}
    {m : Model} {world : World} {sampler : σ} {freshSeed : Nat}
    (h : worker.start m world sampler freshSeed = .ok worker') :
    ∃ t r, worker'.thread = some t ∧ t.stage = .sampling r
      ∧ Run.Watched worker.config (t.world, r) := by
  unfold Worker.start at h
  split_ifs at h with hopen
  simp only [Bool.not_eq_true', Bool.not_eq_false] at hopen
  simp only [Run.begin, if_pos hopen] at h
  obtain rfl := Except.ok.inj h
  exact ⟨_, _, rfl, rfl, _, [], _, _, _, m, sampler, _, _, .nil, by rw [Run.begin, if_pos hopen]⟩

end ScenarioSampling
