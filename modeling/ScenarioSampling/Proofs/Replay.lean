import ScenarioSampling.Proofs.Bookkeeping

/-!
# Draws follow the search

A run takes in events where it polls and inside its attempts to report, in batches or one by one
while a report waits. Wherever they were read, a candidate is drawn from what replaying them makes
of the declared domains: all that were read before the draw, each once and in the order in which
they were pushed (`draws_replay_history`).
-/

namespace ScenarioSampling

open Transfer Entry

/-- The draw is from what the events that were read before it decide about the declared domains, and
they are the first ones that were pushed. -/
structure Draw.Replays (m : Model) (d : Draw) : Prop where
  inOrder : pushes d.world.history.toList = reads d.world.history.toList ++ d.world.channel.inbound
  region :
    let decisions := (handed d.world.history.toList).foldl (Decisions.apply m.domains) (.ofStack [])
    d.region = decisions.region m.domains

/-- A candidate was drawn, and each of its values is in the current domain of its variable. -/
def Draw.StaysInside (d : Draw) : Prop :=
  ∃ c, d.candidate = .ok c ∧ List.Forall₂ (fun v a => a.contains v = true) c.values d.region.current

theorem Draw.Replays.follows {m : Model} {d : Draw} (h : d.Replays m) :
    d.region.Follows m.domains :=
  ⟨_, (Decisions.applyAll_ofDeclared m.domains _).2, h.region⟩

/-- Others leave nothing that was read. -/
theorem World.fresh_actAll (capacity : Nat) (before : List Action) :
    Orderly ((World.ofCapacity capacity).actAll before)
      ∧ reads ((World.ofCapacity capacity).actAll before).history.toList = [] := by
  have hd := World.actAll_disturbed before (.ofCapacity capacity)
  obtain ⟨es, -, hhist, -⟩ := hd.pushes
  refine ⟨(Orderly.ofCapacity capacity).disturbed hd, ?_⟩
  rw [hhist, reads_append, reads_map_pushed]
  rfl

namespace Run

variable {σ ρ ν μ : Type} [Scorer ν] [SamplingMonitor μ]

/-- A run that begins where nothing has been read. -/
theorem draws_replay [Sampler σ ρ] {w₀ : World} {policy : ReportPolicy} {m : Model} {monitor : μ}
    {x : World × Run σ ρ ν μ} (hb : Begun w₀ policy m monitor x) (ho : Orderly w₀)
    (hr : reads w₀.history.toList = []) (vs : List Move) :
    ∀ d ∈ draws (chronicle x vs), d.Since x ∧ d.Replays m := by
  obtain ⟨ts, hbooks⟩ := play_advances vs (Ready.of_looping hb.looping)
  intro d hd
  have hsince := hbooks.drawn d hd
  have hx : Orderly x.1 := ho.disturbed (.of_eq hb.channel hb.history hb.delivered)
  obtain ⟨us, hus, hregion⟩ := hsince.region
  refine ⟨hsince, (hsince.orderly hx).conserved, ?_⟩
  have hhanded : handed w₀.history.toList = [] := by
    rw [handed, hr]
    rfl
  rw [hregion, hus.history, hb.history, handed_append, hhanded, List.nil_append, hb.sink]
  exact (Decisions.applyAll_ofDeclared m.domains _).1

omit [Scorer ν] [SamplingMonitor μ] in
theorem uniform_staysInside {ρ : Type} [WordSource ρ] {m : Model} {d : Draw}
    {x : World × Run UniformSampler ρ ν μ} (hs : d.Since x) (h : d.Replays m) : d.StaysInside := by
  obtain ⟨s, source, c, hc⟩ := hs.drawn
  exact ⟨(UniformSampler.sampleInto d.region source c).1, hc, sampleInto_current h.follows source c⟩

/-- In every run at a fresh end of the bridge, with any sampler and whatever the others do, each
candidate is drawn from what replaying the events read before it makes of the declared domains, in
the order in which they were pushed. The uniform sampler therefore draws every value from the
replayed domain of its variable. -/
theorem draws_replay_history (capacity : Nat) (before : List Action) (policy : ReportPolicy)
    (m : Model) (scorer : ν) (monitor : μ) :
    let w₀ := (World.ofCapacity capacity).actAll before
    (∀ {σ ρ : Type} [Sampler σ ρ] (sampler : σ) (source : ρ) {w : World} {r : Run σ ρ ν μ},
        begin w₀ policy m sampler source scorer monitor = .ok (w, r) →
        ∀ vs : List Move, ∀ d ∈ draws (chronicle (w, r) vs), d.Replays m)
      ∧ ∀ {ρ : Type} [WordSource ρ] (source : ρ) {w : World} {r : Run UniformSampler ρ ν μ},
        begin w₀ policy m UniformSampler.mk source scorer monitor = .ok (w, r) →
        ∀ vs : List Move, ∀ d ∈ draws (chronicle (w, r) vs), d.StaysInside := by
  intro w₀
  obtain ⟨ho, hr⟩ := World.fresh_actAll capacity before
  refine ⟨fun sampler source _ _ h vs d hd => ?_, fun source _ _ h vs d hd => ?_⟩
  · exact (draws_replay (begun h) ho hr vs d hd).2
  · obtain ⟨hsince, hreplays⟩ := draws_replay (begun h) ho hr vs d hd
    exact uniform_staysInside hsince hreplays

/-- The second report waits for room, and a choice is read meanwhile: the third draw is from what it
leaves of the domain, the fourth from all of it again, after a failure. -/
theorem draws_replay_choice_while_waiting :
    let domain : Domain := ⟨0, 3, by decide, by decide, by decide⟩
    let m : Model :=
      ⟨.closed, [⟨"x", ⟨0⟩, .decision .existential, .int, domain⟩], [], [("x", ⟨0⟩)], 0⟩
    let source : WordCycle := ⟨#[0], 0⟩
    let vs : List Move := [.step, .step, .act (.notify (.choice ⟨0⟩ 1 7)), .step,
      .act .readReport, .step, .step, .act (.notify .failure), .act .readReport, .step, .step]
    ∃ w r, begin (.ofCapacity 1) ⟨0, false⟩ m UniformSampler.mk source ConstraintScorer.mk
        (Monitor.recorder "all") = .ok (w, r)
      ∧ ((draws (chronicle (w, r) vs)).map fun d => reads d.world.history.toList)
        = [[], [], [.choice ⟨0⟩ 1 7], [.choice ⟨0⟩ 1 7, .failure]]
      ∧ ((draws (chronicle (w, r) vs)).map fun d => d.region.current.map fun a => (a.lo, a.hi))
        = [[(0, 3)], [(0, 3)], [(1, 3)], [(0, 3)]]
      ∧ ∀ d ∈ draws (chronicle (w, r) vs), d.Replays m ∧ d.StaysInside := by
  intro domain m source vs
  have h : begin (.ofCapacity 1) ⟨0, false⟩ m UniformSampler.mk source ConstraintScorer.mk
    (Monitor.recorder "all") = .ok (_, _) := rfl
  obtain ⟨hreplays, hinside⟩ := draws_replay_history 1 [] ⟨0, false⟩ m ConstraintScorer.mk
    (Monitor.recorder "all")
  exact ⟨_, _, h, by decide +kernel, by decide +kernel, fun d hd =>
    ⟨hreplays UniformSampler.mk source h vs d hd, hinside source h vs d hd⟩⟩

end Run

end ScenarioSampling
