import ScenarioSampling.Proofs.Chronicle
import ScenarioSampling.Proofs.Intake

/-!
# What a run keeps of its chronicle

The books of a run agree with its chronicle and with the events it has read: the region follows the
events, the statistics count both, the monitor is told of every entry, and what is sent is what was
accepted. Each turn adds to all of them at once (`Advances`), so that a whole run does.
-/

namespace ScenarioSampling

open Transfer Entry

/-- The search branched. -/
def Event.isChoice : Event → Bool
  | choice .. => true
  | _ => false

/-- The search failed at a node. -/
def Event.isFailure : Event → Bool
  | failure => true
  | _ => false

/-- The search shared a scenario. -/
def Event.isShared : Event → Bool
  | shared _ => true
  | _ => false

/-- From `s` to `s'` the events and the entries are counted. -/
structure Tallied (events : List Event) (es : List Entry) (s s' : Statistics) : Prop where
  samples : s'.samples = countSucc^[(draws es).countP fun d => d.candidate.isOk] s.samples
  faults : s'.faults = countSucc^[(scored es).countP fun x => !x.2.isOk] s.faults
  emitted : s'.emitted = countSucc^[(accepted es).length] s.emitted
  choices : s'.choices = countSucc^[events.countP Event.isChoice] s.choices
  failures : s'.failures = countSucc^[events.countP Event.isFailure] s.failures
  shared : s'.shared = countSucc^[events.countP Event.isShared] s.shared
  best : s'.best = (scores es).foldl Run.lower s.best

/-- What an event changes by `g` if `p` holds of it, some events change by `g` as often as `p`
holds. -/
theorem Statistics.foldl_onEvent {α : Type} (f : Statistics → α) (g : α → α) (p : Event → Bool)
    (h : ∀ s e, f (s.onEvent e) = if p e then g (f s) else f s) :
    ∀ (events : List Event) (s : Statistics),
      f (events.foldl Statistics.onEvent s) = g^[events.countP p] (f s)
  | [], _ => rfl
  | e :: events, s => by
    rw [List.foldl_cons, foldl_onEvent f g p h events, h, List.countP_cons]
    cases p e
    · rfl
    · exact (Function.iterate_succ_apply g _ _).symm

namespace Tallied

variable {events events' : List Event} {es es' : List Entry} {s s' s'' : Statistics}

theorem refl (s : Statistics) : Tallied [] [] s s := ⟨rfl, rfl, rfl, rfl, rfl, rfl, rfl⟩

theorem trans (h : Tallied events es s s') (h' : Tallied events' es' s' s'') :
    Tallied (events ++ events') (es ++ es') s s'' := by
  have hadd : ∀ (a b : Nat) (n : Nat), countSucc^[b] (countSucc^[a] n) = countSucc^[a + b] n := by
    intro a b n
    rw [Nat.add_comm, Function.iterate_add_apply]
  refine ⟨?_, ?_, ?_, ?_, ?_, ?_, ?_⟩
  · rw [h'.samples, h.samples, hadd, draws_append, List.countP_append]
  · rw [h'.faults, h.faults, hadd, scored_append, List.countP_append]
  · rw [h'.emitted, h.emitted, hadd, accepted_append, List.length_append]
  · rw [h'.choices, h.choices, hadd, List.countP_append]
  · rw [h'.failures, h.failures, hadd, List.countP_append]
  · rw [h'.shared, h.shared, hadd, List.countP_append]
  · rw [h'.best, h.best, scores_append, List.foldl_append]

/-- An event leaves alone what counts entries. -/
theorem of_events (events : List Event) (s : Statistics) :
    Tallied events [] s (events.foldl Statistics.onEvent s) := by
  have hkeeps : ∀ {α : Type} (f : Statistics → α), (∀ s e, f (s.onEvent e) = f s) →
      f (events.foldl Statistics.onEvent s) = f s := by
    intro α f hf
    rw [Statistics.foldl_onEvent f id (fun _ => false) (fun s e => hf s e), Function.iterate_id]
    rfl
  refine ⟨?_, ?_, ?_, ?_, ?_, ?_, ?_⟩
  · exact hkeeps _ fun s e => by cases e <;> rfl
  · exact hkeeps _ fun s e => by cases e <;> rfl
  · exact hkeeps _ fun s e => by cases e <;> rfl
  · exact Statistics.foldl_onEvent _ _ _ (fun s e => by cases e <;> rfl) events s
  · exact Statistics.foldl_onEvent _ _ _ (fun s e => by cases e <;> rfl) events s
  · exact Statistics.foldl_onEvent _ _ _ (fun s e => by cases e <;> rfl) events s
  · exact hkeeps _ fun s e => by cases e <;> rfl

theorem of_quiet (h : Tallied events [] s s') (hd : draws es = []) (ha : accepted es = []) :
    Tallied events es s s' := by
  have hs : scored es = [] := by rw [scored, hd]; rfl
  have hn : scores es = [] := by rw [scores, hs]; rfl
  refine ⟨?_, ?_, ?_, h.choices, h.failures, h.shared, ?_⟩
  · rw [hd, h.samples]; rfl
  · rw [hs, h.faults]; rfl
  · rw [ha, h.emitted]; rfl
  · rw [hn, h.best]; rfl

/-- A draw is counted with what the scorer says about it. -/
theorem of_draw {d : Draw} {candidate : Except Crash Candidate}
    {result : Option (Candidate × Except Fault Nat)} (hc : d.candidate = candidate)
    (hr : d.scored? = result)
    (hsamples : s'.samples = if candidate.isOk then countSucc s.samples else s.samples)
    (hscored : match result with
      | none => s'.faults = s.faults ∧ s'.best = s.best
      | some (_, .error _) => s'.faults = countSucc s.faults ∧ s'.best = s.best
      | some (_, .ok score) => s'.faults = s.faults ∧ s'.best = Run.lower s.best score)
    (hemitted : s'.emitted = s.emitted) (hchoices : s'.choices = s.choices)
    (hfailures : s'.failures = s.failures) (hshared : s'.shared = s.shared) :
    Tallied [] [.drew d] s s' := by
  have hone : scored [.drew d] = result.toList := by rw [scored_drew, hr]
  refine ⟨?_, ?_, hemitted, hchoices, hfailures, hshared, ?_⟩
  · rw [hsamples, ← hc]
    simp only [draws, List.filterMap_cons, draw?, List.filterMap_nil, List.countP_cons]
    cases d.candidate.isOk <;> rfl
  · rw [hone]
    rcases result with _ | ⟨c, fault | score⟩ <;> exact hscored.1
  · rw [scores, hone]
    rcases result with _ | ⟨c, fault | score⟩ <;> exact hscored.2

end Tallied

section Hearing

variable {μ : Type} [SamplingMonitor μ]

/-- A monitor that is told of these calls, in whatever surroundings, becomes `m'`. -/
inductive Hears (m : μ) : List Call → μ → Prop where
  | nil : Hears m [] m
  | snoc {cs m'} (s : Surroundings) (c : Call) : Hears m cs m' →
      Hears m (cs ++ [c]) (SamplingMonitor.hear s c m').1

theorem Hears.one (m : μ) (s : Surroundings) (c : Call) :
    Hears m [c] (SamplingMonitor.hear s c m).1 := .snoc s c .nil

/-- A monitor that keeps a log has exactly these calls in it. -/
theorem Hears.log_eq {m m' : μ} {cs : List Call} (h : Hears m cs m') (log : μ → List Call)
    (hlog : ∀ s c m, log (SamplingMonitor.hear s c m).1 = log m ++ [c]) :
    log m' = log m ++ cs := by
  induction h with
  | nil => rw [List.append_nil]
  | snoc s c _ ih => rw [hlog, ih, List.append_assoc]

theorem Hears.trans {m m' m'' : μ} {cs cs' : List Call} (h : Hears m cs m')
    (h' : Hears m' cs' m'') : Hears m (cs ++ cs') m'' := by
  induction h' with
  | nil => rwa [List.append_nil]
  | snoc s c _ ih =>
    rw [← List.append_assoc]
    exact .snoc s c ih

end Hearing

theorem Sink.handleAll_eq (events : List Event) (sink : Sink) :
    World.handleAll Sink.handle events sink =
      ⟨events.foldl Region.apply sink.region,
        events.foldl Statistics.onEvent sink.statistics⟩ := by
  induction events generalizing sink with
  | nil => rfl
  | cons e events ih => exact ih _

/-- While `ts` happens at the queues, the sink takes in what is read. -/
structure Taken (ts : List Transfer) (a b : World × Sink) : Prop where
  intake : Intake ts a.1 b.1
  orderly : Orderly a.1 → Orderly b.1
  posted : Posted a.1 (sends ts) b.1
  region : b.2.region = (handed ts).foldl Region.apply a.2.region
  statistics : b.2.statistics = (handed ts).foldl Statistics.onEvent a.2.statistics

theorem Accesses.taken {P : Report → Prop} {a b : World × Sink} {rs : List Report}
    (h : Accesses Sink.handle P a b) (hp : Posted a.1 rs b.1) :
    ∃ ts, Taken ts a b ∧ sends ts = rs := by
  obtain ⟨ts, hts, hsink⟩ := h.intake
  have hsends : sends ts = rs := by
    have hsent := hp.sent
    rw [hts.history, sends_append] at hsent
    exact List.append_cancel_left hsent
  rw [Sink.handleAll_eq] at hsink
  exact ⟨ts, ⟨hts, fun ha => ha.accesses h, by rwa [hsends], by rw [hsink], by rw [hsink]⟩, hsends⟩

section Turns

variable {σ ρ ν μ : Type} [Sampler σ ρ]

/-- What the draw is from is what the events read since `x` have made of the region. -/
structure Draw.Since (x : World × Run σ ρ ν μ) (d : Draw) : Prop where
  region : ∃ ts, Intake ts x.1 d.world ∧ d.region = (handed ts).foldl Region.apply x.2.sink.region
  orderly : Orderly x.1 → Orderly d.world
  drawn : ∃ (s : σ) (source : ρ) (c : Candidate),
    d.candidate = (Sampler.draw s d.region source c).map Prod.fst

theorem Run.drawing_since [Scorer ν] (x : World × Run σ ρ ν μ) : (Run.drawing x).Since x := by
  have hd := World.visit_disturbed x.1 .draw
  obtain ⟨ts, hts, hreads⟩ := hd.intake
  refine ⟨⟨ts, hts, ?_⟩, fun hx => hx.disturbed hd, x.2.sampler, x.2.source, x.2.candidate, rfl⟩
  rw [handed, hreads]
  rfl

variable [SamplingMonitor μ]

/-- From `x` to `y` a run adds `es` to its chronicle, while `ts` happens at the queues. -/
structure Advances (x : World × Run σ ρ ν μ) (ts : List Transfer) (es : List Entry)
    (y : World × Run σ ρ ν μ) : Prop where
  intake : Intake ts x.1 y.1
  orderly : Orderly x.1 → Orderly y.1
  posted : Posted x.1 (sends ts) y.1
  sent : (sends ts).map Report.content
    = (accepted es).map fun a => (Scenario.mk (a.1.values.map some), a.2)
  policy : y.2.policy = x.2.policy
  model : y.2.model = x.2.model
  heard : Hears x.2.monitor (es.flatMap calls) y.2.monitor
  region : y.2.sink.region = (handed ts).foldl Region.apply x.2.sink.region
  tallied : Tallied (handed ts) es x.2.sink.statistics y.2.sink.statistics
  drawn : ∀ d ∈ draws es, d.Since x

namespace Advances

variable {x y z : World × Run σ ρ ν μ} {ts ts' : List Transfer} {es es' : List Entry}

theorem refl (x : World × Run σ ρ ν μ) : Advances x [] [] x :=
  ⟨.refl _, id, .refl _, rfl, rfl, rfl, .nil, rfl, .refl _, by simp [draws]⟩

theorem trans (h : Advances x ts es y) (h' : Advances y ts' es' z) :
    Advances x (ts ++ ts') (es ++ es') z where
  intake := h.intake.trans h'.intake
  orderly := h'.orderly ∘ h.orderly
  posted := by
    rw [sends_append]
    exact h.posted.trans h'.posted
  sent := by rw [sends_append, accepted_append, List.map_append, List.map_append, h.sent, h'.sent]
  policy := h'.policy.trans h.policy
  model := h'.model.trans h.model
  heard := by
    rw [List.flatMap_append]
    exact h.heard.trans h'.heard
  region := by rw [h'.region, h.region, handed_append, List.foldl_append]
  tallied := by
    rw [handed_append]
    exact h.tallied.trans h'.tallied
  drawn d hd := by
    rw [draws_append, List.mem_append] at hd
    rcases hd with hd | hd
    · exact h.drawn d hd
    · have hsince := h'.drawn d hd
      obtain ⟨us, hus, hregion⟩ := hsince.region
      refine ⟨⟨ts ++ us, h.intake.trans hus, ?_⟩, hsince.orderly ∘ h.orderly, hsince.drawn⟩
      rw [hregion, h.region, handed_append, List.foldl_append]

theorem of_quiet (hq : Quiet x.1 y.1) (haccepted : accepted es = [])
    (hpolicy : y.2.policy = x.2.policy) (hmodel : y.2.model = x.2.model)
    (hheard : Hears x.2.monitor (es.flatMap calls) y.2.monitor)
    (hregion : y.2.sink.region = x.2.sink.region)
    (htallied : Tallied [] es x.2.sink.statistics y.2.sink.statistics)
    (hdrawn : ∀ d ∈ draws es, d.Since x) : ∃ ts, Advances x ts es y := by
  obtain ⟨ts, hts, hreads⟩ := hq.disturbed.intake
  have hhanded : handed ts = [] := by rw [handed, hreads]; rfl
  have hsends : sends ts = [] := by
    have hsent := hq.posted.sent
    rw [hts.history, sends_append, List.append_nil] at hsent
    exact List.append_cancel_left (hsent.trans (List.append_nil _).symm)
  refine ⟨ts, hts, fun hx => hx.disturbed hq.disturbed, by rw [hsends]; exact hq.posted,
    by rw [hsends, haccepted]; rfl, hpolicy, hmodel, hheard, ?_, ?_, hdrawn⟩ <;> rw [hhanded]
  · exact hregion
  · exact htallied

/-- What stage the run is in is not in its books. -/
theorem restage {w : World} {r : Run σ ρ ν μ} (h : Advances x ts es (w, r)) (stage : Stage) :
    Advances x ts es (w, { r with stage := stage }) :=
  ⟨h.intake, h.orderly, h.posted, h.sent, h.policy, h.model, h.heard, h.region, h.tallied,
    h.drawn⟩

end Advances

/-- Entries that are neither draws nor accepted leave the books but for what was read. -/
theorem Taken.advances {x : World × Run σ ρ ν μ} {ts : List Transfer} {es : List Entry} {w : World}
    {sink : Sink} (h : Taken ts (x.1, x.2.sink) (w, sink)) (hsends : sends ts = [])
    (hdraws : draws es = []) (haccepted : accepted es = []) (hcalls : es.flatMap calls = []) :
    Advances x ts es (w, x.2.withSink sink) where
  intake := h.intake
  orderly := h.orderly
  posted := h.posted
  sent := by rw [hsends, haccepted]; rfl
  policy := rfl
  model := rfl
  heard := by
    rw [hcalls]
    exact .nil
  region := h.region
  tallied := by
    have htallied := Tallied.of_events (handed ts) x.2.sink.statistics
    rw [← h.statistics] at htallied
    exact htallied.of_quiet hdraws haccepted
  drawn := by simp [hdraws]

namespace Run

variable {x y : World × Run σ ρ ν μ} {es : List Entry}

theorem poll_advances {f : Flow} {w : World} {sink : Sink}
    (h : x.1.poll Sink.handle x.2.sink = (f, w, sink)) :
    ∃ ts, Advances x ts [] (w, x.2.withSink sink) := by
  have hacc := World.poll_accesses_always Sink.handle (P := fun _ => True) x.1 x.2.sink
  have hposted := World.poll_posted Sink.handle x.1 x.2.sink
  rw [h] at hacc hposted
  obtain ⟨ts, htaken, hsends⟩ := hacc.taken hposted
  exact ⟨ts, htaken.advances hsends rfl rfl rfl⟩

theorem finish_advances (x : World × Run σ ρ ν μ) (reason : TerminationReason) :
    ∃ ts, Advances x ts [.ended reason] (finish x.1 x.2 reason) :=
  Advances.of_quiet (.noteAll _ _) rfl rfl rfl (.one _ _ _) rfl
    ⟨rfl, rfl, rfl, rfl, rfl, rfl, rfl⟩ (by simp [draws, draw?])

theorem Answered.advances {q : Report} {a : Emission × World × Sink} (h : Answered x q a) :
    ∃ ts, Advances x ts (attemptEntries x q.score a.1) (afterEmission x.2 q.score a) := by
  obtain ⟨ts, htaken, hsends⟩ := h.accesses.taken h.posted
  obtain ⟨(_ | reason) | v | q', w, sink⟩ := a
  · set told := tell w { x.2 with
        sink := { sink with statistics := sink.statistics.onEmitted }
        stage := .looping } (.reported x.2.candidate q.score) with htold
    have hw : Disturbed w told.1 := World.noteAll_disturbed _ _
    have hpw : Posted w [] told.1 := World.noteAll_posted _ _
    have hiw : Intake [] w told.1 :=
      .of_eq (World.noteAll_channel _ _) (World.noteAll_history _ _)
    change ∃ ts, Advances x ts [.attempted ⟨x.1, x.2.candidate, q.score, .flow .proceed⟩] told
    refine ⟨ts, ?_, fun hx => (htaken.orderly hx).disturbed hw, ?_, ?_, rfl, rfl, .one _ _ _,
      htaken.region, ?_, by simp [draws, draw?]⟩
    · simpa using htaken.intake.trans hiw
    · simpa using htaken.posted.trans hpw
    · rw [hsends]
      simp [Emission.sent, Report.content, h.scenario, Scenario.ofCandidate, accepted,
        Attempt.content]
    · have hread := Tallied.of_events (handed ts) x.2.sink.statistics
      have hone : Tallied [] [.attempted ⟨x.1, x.2.candidate, q.score, .flow .proceed⟩]
          sink.statistics told.2.sink.statistics := ⟨rfl, rfl, rfl, rfl, rfl, rfl, rfl⟩
      rw [← htaken.statistics] at hread
      simpa using hread.trans hone
  · have hread : Advances x ts [.attempted ⟨x.1, x.2.candidate, q.score, .flow (.halt reason)⟩]
        (w, x.2.withSink sink) := htaken.advances hsends rfl rfl rfl
    obtain ⟨ts', hend⟩ := finish_advances (w, x.2.withSink sink) (.stopped reason)
    exact ⟨_, hread.trans hend⟩
  · exact h.fits.elim
  · have hread : Advances x ts [.attempted ⟨x.1, x.2.candidate, q.score, .waiting q'⟩]
        (w, x.2.withSink sink) := htaken.advances hsends rfl rfl rfl
    exact ⟨ts, hread.restage _⟩

variable [Scorer ν]

/-- A draw goes into the books with what the scorer says about it. -/
theorem drew_advances {result : Option (Candidate × Except Fault Nat)}
    (hr : (drawing x).scored? = result) (hq : Quiet x.1 y.1) (hpolicy : y.2.policy = x.2.policy)
    (hmodel : y.2.model = x.2.model)
    (hheard : Hears x.2.monitor (result.toList.map fun s => .sampled s.2.toOption) y.2.monitor)
    (hregion : y.2.sink.region = x.2.sink.region)
    (htallied : Tallied [] [.drew (drawing x)] x.2.sink.statistics y.2.sink.statistics) :
    ∃ ts, Advances x ts [.drew (drawing x)] y := by
  refine Advances.of_quiet hq rfl hpolicy hmodel ?_ hregion htallied ?_
  · rw [List.flatMap_singleton, calls, hr]
    exact hheard
  · intro d hd
    rw [List.mem_singleton.1 hd]
    exact drawing_since x

theorem judged_advances {c : Candidate × σ × ρ} {score : Nat}
    (hd : drawn x = .ok c) (hs : rated x c.1 = .ok (.ok score)) :
    ∃ ts, Advances x ts [.drew (drawing x)] (judged (withDrawn x c) score) := by
  obtain ⟨hc, hr⟩ := drawing_scored hd hs
  have hrun := judged_run (withDrawn x c) score
  refine drew_advances hr (quiet_judged x c score) ?_ ?_ ?_ ?_ ?_ <;> rw [hrun]
  · rfl
  · rfl
  · exact .one _ _ _
  · rfl
  · exact .of_draw hc hr rfl ⟨rfl, rfl⟩ rfl rfl rfl rfl

theorem DrawCourse.advances (h : DrawCourse x es y) (hl : x.1.channel.stopped = none) :
    ∃ ts, Advances x ts es y := by
  cases h with
  | @undrawn crash hd =>
    obtain ⟨hc, hr⟩ := drawing_undrawn hd
    exact drew_advances hr (.visit x.1 .draw) rfl rfl .nil rfl
      (.of_draw hc hr rfl ⟨rfl, rfl⟩ rfl rfl rfl rfl)
  | @unscored c crash hd hs =>
    obtain ⟨hc, hr⟩ := drawing_unscored hd hs
    exact drew_advances hr (quiet_withDrawn x c) rfl rfl .nil rfl
      (.of_draw hc hr rfl ⟨rfl, rfl⟩ rfl rfl rfl rfl)
  | @discarded c fault hd hs =>
    obtain ⟨hc, hr⟩ := drawing_scored hd hs
    have hnoted := (quiet_withDrawn x c).trans (.note _ (.candidateDiscarded fault
      (countSucc x.2.sink.statistics.samples)))
    exact drew_advances hr (hnoted.trans (.noteAll _ _)) rfl rfl (.one _ _ _) rfl
      (.of_draw hc hr rfl ⟨rfl, rfl⟩ rfl rfl rfl rfl)
  | passed hd hs => exact judged_advances hd hs
  | @reported c score z hd hs _ hz =>
    obtain ⟨ts, hjudged⟩ := judged_advances hd hs
    rw [hz] at hjudged
    have hlisten : z.1.channel.stopped = none := by
      rw [← hz]
      exact (quiet_judged x c score).disturbed.stopped.trans hl
    obtain ⟨q, rfl, hq⟩ := emission_answered hlisten score
    obtain ⟨ts', hreport⟩ := hq.advances
    exact ⟨_, hjudged.trans hreport⟩

theorem Course.advances (h : Course x es y) (hx : Ready x) : ∃ ts, Advances x ts es y := by
  cases h with
  | idle => exact ⟨[], .refl x⟩
  | stopped _ hp =>
    obtain ⟨ts, hpoll⟩ := poll_advances hp
    obtain ⟨ts', hend⟩ := finish_advances (_, x.2.withSink _) _
    exact ⟨_, hpoll.trans hend⟩
  | aborted _ hp =>
    obtain ⟨ts, hpoll⟩ := poll_advances hp
    obtain ⟨ts', hend⟩ := finish_advances (_, x.2.withSink _) _
    exact ⟨_, hpoll.trans hend⟩
  | drew ho hd =>
    obtain ⟨ts, hpoll⟩ := poll_advances ho.polled
    rw [← ho.rest] at hpoll
    obtain ⟨ts', hdraw⟩ := hd.advances ho.listens
    exact ⟨_, hpoll.trans hdraw⟩
  | resumed hq => exact (hx.answered hq).advances

theorem next_advances (hx : Ready x) (v : Move) :
    ∃ ts, Advances x ts (moveEntries x v) (next x v) := by
  cases v with
  | act a =>
    exact Advances.of_quiet (.act x.1 a) rfl rfl rfl .nil rfl (.refl _)
      (by simp [draws, moveEntries])
  | plan script =>
    exact Advances.of_quiet (.plan x.1 script) rfl rfl rfl .nil rfl (.refl _)
      (by simp [draws, moveEntries])
  | step => exact (step_course x).advances hx

/-- The books of a run agree with its chronicle. -/
theorem play_advances : ∀ (vs : List Move) {x : World × Run σ ρ ν μ}, Ready x →
    ∃ ts, Advances x ts (chronicle x vs) (play x vs)
  | [], x, _ => ⟨[], .refl x⟩
  | v :: vs, x, hx => by
    obtain ⟨ts, hnext⟩ := next_advances hx v
    obtain ⟨ts', hrest⟩ := play_advances vs (next_ready hx v).1
    exact ⟨ts ++ ts', hnext.trans hrest⟩

end Run

end Turns

end ScenarioSampling
