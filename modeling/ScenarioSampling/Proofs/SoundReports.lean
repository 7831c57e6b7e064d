import ScenarioSampling.Run
import ScenarioSampling.Proofs.Access
import ScenarioSampling.Proofs.Draw
import ScenarioSampling.Proofs.ExactScore

/-!
# Reports are sound

What a run with the uniform sampler and the penalty scorer reports can be relied on: every variable
has a value of its declared domain, and the score is exact, so that it is zero for solutions only.
The choices and shared scenarios that the run reads cannot change this, since the region always
follows some decisions. It holds whatever the random words are, whatever the monitor says, and
whatever others do between any two accesses of the run (`reports_sound`).
-/

namespace ScenarioSampling

open Transfer

/-- What a report promises about a model, in unbounded integers. -/
structure Report.Sound (m : Model) (r : Report) (values : List Int) : Prop where
  /-- Every variable is assigned. -/
  scenario : r.scenario.values = values.map some
  length : values.length = m.numVariables
  declared : ∀ (i : Nat) (d : Domain) (v : Int), m.domains[i]? = some d → values[i]? = some v →
    d.contains v = true
  covered : ∀ c ∈ m.constraints, c.Covered values
  score : r.score = m.exactScore values
  solution : r.score = 0 ↔ ∀ c ∈ m.constraints, c.Holds values

/-- The model bears out the report. -/
def Model.Vouches (m : Model) (r : Report) : Prop := ∃ values, r.Sound m values

/-- Since the world was `w₀`, only reports that `m` bears out have entered the outbound queue. -/
structure SoundSince (m : Model) (w₀ w : World) : Prop where
  sent : ∃ ts, w.history.toList = w₀.history.toList ++ ts ∧ ∀ r ∈ sends ts, m.Vouches r
  outbound : ∀ r ∈ w.channel.outbound, r ∈ w₀.channel.outbound ∨ m.Vouches r
  delivered : ∀ r ∈ w.delivered, r ∈ w₀.delivered ∨ r ∈ w₀.channel.outbound ∨ m.Vouches r

namespace SoundSince

variable {m : Model} {w₀ w w' : World}

theorem refl (m : Model) (w : World) : SoundSince m w w :=
  ⟨⟨[], by simp, by simp [sends]⟩, fun _ => .inl, fun _ => .inl⟩

/-- An access that hands over at most one report. -/
theorem extend (h : SoundSince m w₀ w) (t : Option Transfer)
    (hh : w'.history.toList = w.history.toList ++ t.toList)
    (ho : w'.channel.outbound = w.channel.outbound ++ sends t.toList)
    (hd : w'.delivered = w.delivered) (ht : ∀ r ∈ sends t.toList, m.Vouches r) :
    SoundSince m w₀ w' := by
  obtain ⟨ts, hts, hsound⟩ := h.sent
  refine ⟨⟨ts ++ t.toList, by rw [hh, hts, List.append_assoc], fun r hr => ?_⟩, fun r hr => ?_,
    by rw [hd]; exact h.delivered⟩
  · rw [sends_append, List.mem_append] at hr
    exact hr.elim (hsound r) (ht r)
  · rw [ho, List.mem_append] at hr
    exact hr.elim (h.outbound r) fun hr => .inr (ht r hr)

theorem disturbed (h : SoundSince m w₀ w) (hd : Disturbed w w') : SoundSince m w₀ w' := by
  obtain ⟨ts, hts, hsound⟩ := h.sent
  obtain ⟨es, -, hhist, -⟩ := hd.pushes
  obtain ⟨taken, kept, hout, hdel, hsub⟩ := hd.takes
  have hw : ∀ r ∈ taken ++ w'.channel.outbound, r ∈ w₀.channel.outbound ∨ m.Vouches r :=
    hout ▸ h.outbound
  refine ⟨⟨ts ++ es.map .pushed, by rw [hhist, hts, List.append_assoc], ?_⟩,
    fun r hr => hw r (List.mem_append_right taken hr), fun r hr => ?_⟩
  · rw [sends_append, sends_map_pushed, List.append_nil]
    exact hsound
  · rw [hdel, List.mem_append] at hr
    exact hr.elim (h.delivered r) fun hr => .inr (hw r (List.mem_append_left _ (hsub.subset hr)))

/-- An access of a run sends only what `m` bears out. -/
theorem access {η : Type} {handle : Handler η} {a b : World × η}
    (hab : Access handle m.Vouches a b) (h : SoundSince m w₀ a.1) : SoundSince m w₀ b.1 := by
  cases hab with
  | others hd => exact h.disturbed hd
  | @read w sink e rest hs hin =>
    have hc := World.dispatch_channel handle (w := w.withInbound rest) sink e hs
    exact h.extend (some (.read e)) (by simp) (by rw [hc]; simp [sends, sent?]) (by simp)
      (by simp [sends, sent?])
  | exhausted | heed => exact h.extend none (by simp) (by simp [sends]) (by simp) (by simp [sends])
  | @send w sink r hs hr =>
    exact h.extend (some (.sent r)) (by simp) (by simp [sends, sent?]) (by simp)
      (by simpa [sends, sent?] using hr)
  | @bounce w sink r =>
    exact h.extend (some (.bounced r)) (by simp) (by simp [sends, sent?]) (by simp)
      (by simp [sends, sent?])

end SoundSince

namespace Run

/-- What may happen next to a run and its world. -/
inductive Move where
  | act (a : Action)
  /-- Others settle what they do inside the next turns. -/
  | plan (script : List Turn)
  | step

section Moves

variable {σ ρ ν μ : Type} [Sampler σ ρ] [Scorer ν] [SamplingMonitor μ]

/-- The world and the run after a move. -/
def next (x : World × Run σ ρ ν μ) : Move → World × Run σ ρ ν μ
  | .act a => (x.1.act a, x.2)
  | .plan script => ({ x.1 with script := script }, x.2)
  | .step => step x.1 x.2

/-- The world and the run after these moves. -/
def play (x : World × Run σ ρ ν μ) (vs : List Move) : World × Run σ ρ ν μ := vs.foldl next x

end Moves

variable {ρ μ : Type}

/-- A run that draws uniformly and adds up penalties. -/
abbrev Uniform (ρ μ : Type) := Run UniformSampler ρ ConstraintScorer μ

/-- What holds of a world and a sink throughout a run on `m` that began in `w₀`. -/
structure Kept (m : Model) (w₀ : World) (x : World × Sink) : Prop where
  since : SoundSince m w₀ x.1
  region : x.2.region.Follows m.domains

/-- What holds of a run on `m` between its turns. -/
structure Inv (m : Model) (w₀ : World) (x : World × Uniform ρ μ) : Prop where
  kept : Kept m w₀ (x.1, x.2.sink)
  model : x.2.model = m
  /-- A report that waits is one to rely on. -/
  waiting : ∀ r, x.2.stage = .reporting r → m.Vouches r ∧ x.1.channel.stopped = none

variable {m : Model} {w₀ : World}

theorem Kept.disturbed {w w' : World} {sink : Sink} (h : Kept m w₀ (w, sink))
    (hd : Disturbed w w') : Kept m w₀ (w', sink) :=
  ⟨h.since.disturbed hd, h.region⟩

theorem Kept.accesses {a b : World × Sink} (h : Kept m w₀ a)
    (hab : Accesses Sink.handle m.Vouches a b) : Kept m w₀ b := by
  refine hab.preserves ?_ h
  intro c d hcd hc
  refine ⟨hc.since.access hcd, ?_⟩
  cases hcd with
  | @read w sink e rest hs hin =>
    rw [World.dispatch_sink]
    split
    · exact hc.region
    · exact hc.region.apply e
  | others | exhausted | heed | send | bounce => exact hc.region

theorem Inv.disturbed {w w' : World} {r : Uniform ρ μ} (h : Inv m w₀ (w, r))
    (hd : Disturbed w w') : Inv m w₀ (w', r) :=
  ⟨h.kept.disturbed hd, h.model, fun q hq => (h.waiting q hq).imp_right hd.stopped.trans⟩

theorem inv_keepBest {w : World} {r : Uniform ρ μ} (h : Inv m w₀ (w, r)) (score : Nat) :
    Inv m w₀ (w, (r.keepBest score).1) ∧ (r.keepBest score).1.candidate = r.candidate := by
  unfold keepBest
  simp only []
  split
  · exact ⟨⟨⟨h.kept.since, h.kept.region⟩, h.model, h.waiting⟩, rfl⟩
  · exact ⟨⟨⟨h.kept.since, h.kept.region⟩, h.model, h.waiting⟩, rfl⟩

section Turns

variable [SamplingMonitor μ]

theorem inv_tell {w : World} {r : Uniform ρ μ} (h : Inv m w₀ (w, r)) (c : Call) :
    Inv m w₀ (tell w r c) := by
  have hw := h.disturbed (World.noteAll_disturbed w (SamplingMonitor.hear w.surroundings c
    r.monitor).2)
  exact ⟨hw.kept, hw.model, hw.waiting⟩

theorem inv_finish {w : World} {r : Uniform ρ μ} (h : Kept m w₀ (w, r.sink)) (hm : r.model = m)
    (reason : TerminationReason) : Inv m w₀ (finish w r reason) := by
  unfold finish
  apply inv_tell
  exact ⟨⟨h.since, h.region⟩, hm, by simp⟩

theorem inv_afterEmission {r : Uniform ρ μ} {score : Nat} {e : Emission} {w : World} {sink : Sink}
    (h : Kept m w₀ (w, sink)) (hm : r.model = m)
    (hr : ∀ q, e = .waiting q → m.Vouches q ∧ w.channel.stopped = none) :
    Inv m w₀ (afterEmission r score (e, w, sink)) := by
  rcases e with (_ | reason) | v | q <;> simp only [afterEmission]
  · apply inv_tell
    exact ⟨⟨h.since, h.region⟩, hm, by simp⟩
  · exact inv_finish (r := { r with sink := sink }) h hm _
  · exact ⟨h, hm, by simp⟩
  · refine ⟨h, hm, fun q' hq => ?_⟩
    cases hq
    exact hr q rfl

theorem afterScore_ok (w : World) (r : Uniform ρ μ) (score : Nat) :
    afterScore w r (.ok score) =
      let told := tell w r (.sampled (some score))
      let kept := told.2.keepBest score
      if kept.1.policy.isReportable score kept.2 then
        afterEmission kept.1 score
          (told.1.emit Sink.handle kept.1.sink (.ofCandidate kept.1.candidate) score)
      else (told.1, kept.1) :=
  rfl

/-- Scoring and perhaps reporting a candidate, if the model bears out what would be reported. -/
theorem inv_afterScore {w : World} {r : Uniform ρ μ} (h : Inv m w₀ (w, r))
    {result : Except Fault Nat}
    (hv : ∀ q : Report, q.scenario = .ofCandidate r.candidate → result = .ok q.score →
      m.Vouches q) :
    Inv m w₀ (afterScore w r result) := by
  rcases result with fault | score
  · apply inv_tell
    exact Inv.disturbed ⟨⟨h.kept.since, h.kept.region⟩, h.model, h.waiting⟩ (.of_eq rfl rfl rfl)
  · have hboth := inv_keepBest (inv_tell h (.sampled (some score))) score
    rw [afterScore_ok]
    set told := tell w r (.sampled (some score))
    set kept := told.2.keepBest score
    have hkeep : Inv m w₀ (told.1, kept.1) := hboth.1
    have hcand : kept.1.candidate = r.candidate := hboth.2
    simp only []
    split
    · obtain ⟨hacc, hwait⟩ := World.emit_accesses_always Sink.handle told.1 kept.1.sink
        (.ofCandidate kept.1.candidate) score
      have hdrafted : ∀ q, told.1.Drafted (.ofCandidate kept.1.candidate) score q →
          m.Vouches q := by
        intro q hq
        exact hv q (by rw [hq.1, hcand]) (by rw [hq.2.1])
      exact inv_afterEmission (hkeep.kept.accesses (hacc.mono hdrafted)) hkeep.model
        fun q hq => (hwait q hq).imp_left (hdrafted q)
    · exact hkeep

variable [WordSource ρ]

theorem drawAndScore_eq (w : World) (r : Uniform ρ μ) : ∃ source w', Disturbed w w'
    ∧ drawAndScore w r =
      let c := (UniformSampler.sampleInto r.sink.region r.source r.candidate).1
      let r' := { r with
        candidate := c
        source := source
        sink := { r.sink with statistics := r.sink.statistics.onSample } }
      match ConstraintScorer.score r.model c with
      | .error crash => (w', { r' with stage := .crashed crash })
      | .ok result => afterScore w' r' result :=
  ⟨_, (w.visit .draw).note _, (World.visit_disturbed w .draw).trans (.of_eq rfl rfl rfl), rfl⟩

/-- A candidate that was drawn and got a score is borne out. -/
theorem vouches_of_score {d : Region} (hd : d.Follows m.domains) {source : ρ} {c : Candidate}
    {q : Report} (hq : q.scenario = .ofCandidate (UniformSampler.sampleInto d source c).1)
    (hs : ConstraintScorer.score m (UniformSampler.sampleInto d source c).1 = .ok (.ok q.score)) :
    m.Vouches q := by
  obtain ⟨-, hdecl⟩ := sampleInto_declared hd source c
  obtain ⟨hlen, hcov, hscore⟩ := score_exact hs
  refine ⟨(UniformSampler.sampleInto d source c).1.values, ?_, hlen, hdecl, hcov, hscore, ?_⟩
  · rw [hq, Scenario.ofCandidate]
  · rw [hscore, Model.exactScore_eq_zero]

theorem inv_drawAndScore {w : World} {r : Uniform ρ μ} (h : Inv m w₀ (w, r)) :
    Inv m w₀ (drawAndScore w r) := by
  obtain ⟨source, w', hd, heq⟩ := drawAndScore_eq w r
  have hsince := h.kept.since.disturbed hd
  rw [heq]
  simp only []
  split
  · exact ⟨⟨hsince, h.kept.region⟩, h.model, by simp⟩
  · rename_i result hs
    rw [h.model] at hs
    apply inv_afterScore
    · exact ⟨⟨hsince, h.kept.region⟩, h.model,
        fun q hq => (h.waiting q hq).imp_right hd.stopped.trans⟩
    · exact fun q hq hres => vouches_of_score h.kept.region hq (hres ▸ hs)

theorem inv_step {w : World} {r : Uniform ρ μ} (h : Inv m w₀ (w, r)) : Inv m w₀ (step w r) := by
  unfold step
  split
  · rename_i hl
    have hpoll := h.kept.accesses (World.poll_accesses_always Sink.handle w r.sink)
    rcases hp : w.poll Sink.handle r.sink with ⟨_ | reason, w₁, sink⟩ <;> rw [hp] at hpoll
    · simp only []
      split
      · exact inv_finish (r := { r with sink := sink }) hpoll h.model _
      · exact inv_drawAndScore (r := { r with sink := sink }) ⟨hpoll, h.model, by simp [hl]⟩
    · exact inv_finish (r := { r with sink := sink }) hpoll h.model _
  · rename_i q hq
    have hv : m.Vouches q := (h.waiting q hq).1
    have hs : w.channel.stopped = none := (h.waiting q hq).2
    obtain ⟨hacc, hf⟩ := World.resume_accesses Sink.handle r.sink hs hv
    have hkept := h.kept.accesses hacc
    rcases hr : w.resume Sink.handle r.sink q with ⟨e, w₁, sink⟩
    rw [hr] at hkept hf
    refine inv_afterEmission hkept h.model fun q' hq' => ?_
    rw [hq'] at hf
    exact ⟨hf.1 ▸ hv, hf.2⟩
  · exact h
  · exact h
  · exact h

theorem inv_next {x : World × Uniform ρ μ} (h : Inv m w₀ x) (v : Move) : Inv m w₀ (next x v) := by
  cases v with
  | act a => exact Inv.disturbed h (World.act_disturbed x.1 a)
  | plan script => exact Inv.disturbed h (.of_eq rfl rfl rfl)
  | step => exact inv_step h

theorem inv_play : ∀ (vs : List Move) {x : World × Uniform ρ μ}, Inv m w₀ x →
    Inv m w₀ (play x vs)
  | [], _, h => h
  | v :: vs, _, h => inv_play vs (inv_next h v)

omit [WordSource ρ] in
theorem inv_begin {w : World} {policy : ReportPolicy} {source : ρ} {monitor : μ}
    {r : Uniform ρ μ} (h : begin w₀ policy m .mk source .mk monitor = .ok (w, r)) :
    Inv m w₀ (w, r) := by
  unfold begin at h
  split at h
  · rw [← Except.ok.inj h]
    apply inv_tell
    exact ⟨⟨.refl m w₀, Region.ofDeclared_follows m.domains⟩, rfl, by simp⟩
  · cases h

/-- In every run on a model, whatever the words, the monitor and the others do, each report that
enters the outbound queue assigns every variable a value of its declared domain, and its score is
the exact one, which is zero for solutions only. -/
theorem reports_sound {w : World} {policy : ReportPolicy} {source : ρ} {monitor : μ}
    {r : Uniform ρ μ} (h : begin w₀ policy m .mk source .mk monitor = .ok (w, r))
    (vs : List Move) : SoundSince m w₀ (play (w, r) vs).1 :=
  (inv_play vs (inv_begin h)).kept.since

/-- With `x` and `y` from 0 to 3 and the constraint `2 * x == y`, the search wants `x` to be at
least 1, and the first candidate is the solution `(1, 2)`. -/
theorem reports_sound_after_choice :
    let domain : Domain := ⟨0, 3, by decide, by decide, by decide⟩
    let m : Model :=
      ⟨.closed,
        [⟨"x", ⟨0⟩, .decision .existential, .int, domain⟩,
          ⟨"y", ⟨1⟩, .decision .existential, .int, domain⟩],
        [.linear ⟨[⟨2, ⟨0⟩⟩], .eq, ⟨1⟩⟩], [("y", ⟨1⟩), ("x", ⟨0⟩)], 0⟩
    let source : WordCycle := ⟨#[0, 9223372036854775808], 0⟩
    let vs : List Move := [.act (.notify (.choice ⟨0⟩ 1 7)), .step]
    ∃ w r, begin (.ofCapacity 1) ⟨0, false⟩ m UniformSampler.mk source ConstraintScorer.mk
        (Monitor.sampleLimit (.ofLimit 1)) = .ok (w, r)
      ∧ sends (play (w, r) vs).1.history.toList = [⟨⟨[some 1, some 2]⟩, 0, 0, 1⟩]
      ∧ SoundSince m (.ofCapacity 1) (play (w, r) vs).1 := by
  intro domain m source vs
  have h : begin (.ofCapacity 1) ⟨0, false⟩ m UniformSampler.mk source ConstraintScorer.mk
    (Monitor.sampleLimit (.ofLimit 1)) = .ok (_, _) := rfl
  exact ⟨_, _, h, by decide +kernel, reports_sound h vs⟩

end Turns

end Run

end ScenarioSampling
