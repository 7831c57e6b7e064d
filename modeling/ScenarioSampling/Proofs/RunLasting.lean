import ScenarioSampling.Proofs.Chronicle
import ScenarioSampling.Proofs.StopRequests

/-!
# What lasts along a run

A run touches its world by the calls of its end of the bridge, by what it notes and by the point it
passes before a draw. What no single step breaks therefore holds all along a run (`Lasting.play`),
and a run is an interplay with the others, as an exchange is (`Run.interplay`).
-/

namespace ScenarioSampling

open Entry Run

variable {σ ρ ν μ : Type} [SamplingMonitor μ]

namespace Unbroken

variable {I : World → Prop} (hI : Unbroken Sink.handle I) {x y : World × Run σ ρ ν μ}
  {es : List Entry}
include hI

theorem noteAll : ∀ (ns : List Notice) {w : World}, I w → I (w.noteAll ns)
  | [], _, hw => hw
  | n :: ns, _, hw => noteAll ns (hI.own (.note n) hw)

theorem afterEmission {r : Run σ ρ ν μ} (score : Nat) {a : Emission × World × Sink} (ha : I a.2.1) :
    I (Run.afterEmission r score a).1 := by
  obtain ⟨(_ | reason) | v | q, w, sink⟩ := a
  · exact hI.noteAll _ ha
  · exact hI.noteAll _ ha
  · exact ha
  · exact ha

theorem judged (c : Candidate × σ × ρ) (score : Nat) (hx : I x.1) :
    I (Run.judged (withDrawn x c) score).1 :=
  hI.noteAll _ (hI.own (.note _) (hI.visit .draw hx))

variable [Sampler σ ρ] [Scorer ν]

theorem drawCourse (h : DrawCourse x es y) (hx : I x.1) : I y.1 := by
  have hvisit : I (x.1.visit .draw) := hI.visit .draw hx
  have hdrawn : ∀ c : Candidate × σ × ρ, I (withDrawn x c).1 := fun c => hI.own (.note _) hvisit
  cases h with
  | undrawn => exact hvisit
  | unscored => exact hdrawn _
  | discarded => exact hI.noteAll _ (hI.own (.note _) (hdrawn _))
  | passed => exact hI.judged _ _ hx
  | @reported c score z _ _ _ hz =>
    have hjudged : I z.1 := by
      rw [← hz]
      exact hI.judged _ _ hx
    exact hI.afterEmission score (hI.emit _ _ _ hjudged)

theorem course (h : Course x es y) (hx : I x.1) : I y.1 := by
  have hpoll : I (x.1.poll Sink.handle x.2.sink).2.1 := hI.poll x.2.sink hx
  cases h with
  | idle => exact hx
  | stopped _ hp | aborted _ hp =>
    rw [hp] at hpoll
    exact hI.noteAll _ hpoll
  | drew ho hd =>
    rw [ho.polled] at hpoll
    exact hI.drawCourse hd hpoll
  | resumed => exact hI.afterEmission _ (hI.resume _ _ hx)

theorem step (hx : I x.1) : I (Run.step x.1 x.2).1 := hI.course (step_course x) hx

end Unbroken

namespace Run

/-- What the others do in a move of a run, if it is theirs. -/
def Move.meddling? : Move → Option Meddling
  | .act a => some (.act a)
  | .plan script => some (.plan script)
  | .step => none

variable [Sampler σ ρ] [Scorer ν]

variable (σ ρ ν μ) in
/-- A worker that runs among others. -/
def interplay : Interplay Sink.handle (World × Run σ ρ ν μ) Move where
  world := Prod.fst
  next := next
  meddling? := Move.meddling?
  meddles x v a hv := by
    cases v <;> cases hv <;> rfl
  calls hI x v hv hx := by
    cases v with
    | act | plan => cases hv
    | step => exact hI.step hx

end Run

namespace Lasting

variable [Sampler σ ρ] [Scorer ν] {I : World → Prop} (hI : Lasting Sink.handle I)
include hI

theorem next {x : World × Run σ ρ ν μ} (v : Run.Move) (hx : I x.1) : I (Run.next x v).1 :=
  (interplay σ ρ ν μ).lasting_next hI v hx

theorem play (vs : List Run.Move) {x : World × Run σ ρ ν μ} (hx : I x.1) : I (Run.play x vs).1 :=
  (interplay σ ρ ν μ).lasting_run hI vs hx

end Lasting

theorem Trace.noteAll {η : Type} {handle : Handler η} {w₀ : World} {as : List Action} :
    ∀ (ns : List Notice) {w : World}, Trace (OwnStep handle) w₀ as w →
      Trace (OwnStep handle) w₀ as (w.noteAll ns)
  | [], _, h => h
  | n :: ns, _, h => Trace.noteAll ns (h.own (.note n))

namespace Run

/-- Before its first turn a run only notes something. -/
theorem trace_begin {w₀ w w' : World} {as : List Action} {policy : ReportPolicy} {m : Model}
    {sampler : σ} {source : ρ} {scorer : ν} {monitor : μ} {r : Run σ ρ ν μ}
    (h : begin w policy m sampler source scorer monitor = .ok (w', r))
    (htrace : Trace (OwnStep Sink.handle) w₀ as w) : Trace (OwnStep Sink.handle) w₀ as w' := by
  unfold begin at h
  split at h
  · cases h
    exact htrace.noteAll _
  · cases h

variable [Sampler σ ρ] [Scorer ν]

/-- What others do in the course of these moves of a run. -/
def allDeeds (x : World × Run σ ρ ν μ) (vs : List Move) : List Action :=
  (interplay σ ρ ν μ).allDeeds x vs

theorem play_append (x : World × Run σ ρ ν μ) (vs vs' : List Move) :
    play x (vs ++ vs') = play (play x vs) vs' :=
  List.foldl_append

theorem chronicle_append : ∀ (vs vs' : List Move) (x : World × Run σ ρ ν μ),
    chronicle x (vs ++ vs') = chronicle x vs ++ chronicle (play x vs) vs'
  | [], _, _ => rfl
  | v :: vs, vs', x => by
    rw [List.cons_append, chronicle, chronicle_append vs vs', ← List.append_assoc]
    rfl

end Run

end ScenarioSampling
