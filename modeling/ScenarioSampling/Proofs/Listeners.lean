import ScenarioSampling.Proofs.Accounts
import ScenarioSampling.Proofs.Endings

/-!
# Listeners

A monitor that is made of others passes on to each what it hears, so every leaf follows a run as if
it were alone (`Hears.leaf`), wherever in the tree it is. What a leaf has counted is a matter of the
calls it has heard: of a run, these are about its samples and its reports.
-/

namespace ScenarioSampling

open Entry

namespace Monitor

mutual

/-- A monitor passes on what it hears, and tells what its leaves tell. -/
theorem hear_leaves (s : Surroundings) (c : Call) : ∀ m : Monitor,
    (m.hear s c).1.leaves = m.leaves.map (fun b => (b.hear s c).1)
      ∧ (m.hear s c).2 = m.leaves.flatMap fun b => (b.hear s c).2
  | sampleLimit _ | timeLimit _ | interrupt | progressLog _ | recorder _ =>
    ⟨rfl, by simp [leaves]⟩
  | composite ms => hearAll_leaves s c ms

theorem hearAll_leaves (s : Surroundings) (c : Call) : ∀ ms : List Monitor,
    leavesOfAll (hearAll s c ms).1 = (leavesOfAll ms).map (fun b => (b.hear s c).1)
      ∧ (hearAll s c ms).2 = (leavesOfAll ms).flatMap fun b => (b.hear s c).2
  | [] => ⟨rfl, rfl⟩
  | m :: ms => by
    obtain ⟨hm, hmtold⟩ := hear_leaves s c m
    obtain ⟨hms, hmstold⟩ := hearAll_leaves s c ms
    simp only [hearAll, leavesOfAll, List.map_append, List.flatMap_append]
    exact ⟨by rw [hm, hms], by rw [hmtold, hmstold]⟩

end

theorem leaves_hear (s : Surroundings) (c : Call) (m : Monitor) :
    (SamplingMonitor.hear s c m).1.leaves = m.leaves.map fun b => (b.hear s c).1 :=
  (hear_leaves s c m).1

end Monitor

theorem Run.Begun.leaves {σ ρ ν : Type} {w₀ : World} {p : ReportPolicy} {m : Model}
    {monitor : Monitor} {x : World × Run σ ρ ν Monitor} (hb : Run.Begun w₀ p m monitor x) :
    x.2.monitor.leaves = monitor.leaves.map fun b => (b.hear w₀.surroundings (.entered m)).1 := by
  rw [hb.entered, Monitor.leaves_hear]

variable {m m' b : Monitor} {cs : List Call} {i : Nat}

theorem Hears.leaf (h : Hears m cs m') (hb : m.leaves[i]? = some b) :
    ∃ b', m'.leaves[i]? = some b' ∧ Hears b cs b' := by
  induction h with
  | nil => exact ⟨b, hb, .nil⟩
  | @snoc cs m' s c _ ih =>
    obtain ⟨b', hb', hears⟩ := ih
    refine ⟨_, ?_, hears.snoc s c⟩
    rw [Monitor.leaves_hear, List.getElem?_map, hb']
    rfl

/-- What every call keeps of a leaf holds of all leaves in the end. -/
theorem Hears.forall_leaves {I : List Call → Monitor → Prop}
    (hear : ∀ {cs b} s c, I cs b → I (cs ++ [c]) (b.hear s c).1) (h : Hears m cs m')
    (hm : ∀ b ∈ m.leaves, I [] b) : ∀ b ∈ m'.leaves, I cs b := by
  induction h with
  | nil => exact hm
  | @snoc cs m' s c _ ih =>
    rw [Monitor.leaves_hear, List.forall_mem_map]
    exact fun b hb => hear s c (ih b hb)

/-- None of these calls begins a run. -/
def WithinRun (cs : List Call) : Prop := ∀ c ∈ cs, ∀ model, c ≠ .entered model

theorem withinRun_calls (es : List Entry) : WithinRun (es.flatMap calls) := by
  rintro c hc model rfl
  obtain ⟨e, -, he⟩ := List.mem_flatMap.1 hc
  cases e with
  | drew d =>
    obtain ⟨result, -, hr⟩ := List.mem_map.1 he
    cases hr
  | attempted a =>
    simp only [calls, Emission.sent] at he
    split at he
    · simp at he
    · cases he
  | ended reason => simp [calls] at he

/-- The scores of the candidates that these calls are about, where there was one. -/
def sampledIn (cs : List Call) : List (Option Nat) := cs.filterMap Call.sampled?

/-- What a monitor has heard to be reported. -/
def reportedIn (cs : List Call) : List (Candidate × Nat) := cs.filterMap Call.reported?

@[simp]
theorem sampledIn_concat (cs : List Call) (c : Call) :
    sampledIn (cs ++ [c]) = sampledIn cs ++ c.sampled?.toList := by
  cases c <;> simp [sampledIn, Call.sampled?]

@[simp]
theorem reportedIn_concat (cs : List Call) (c : Call) :
    reportedIn (cs ++ [c]) = reportedIn cs ++ c.reported?.toList := by
  cases c <;> simp [reportedIn, Call.reported?]

end ScenarioSampling
