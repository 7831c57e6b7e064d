import ScenarioSampling.Proofs.Exchange

/-!
# What lasts

A property of the world that no single step breaks, of the worker or of the others, holds all along
an exchange. `OwnStep` lists the steps of the worker, each with what is known when it is taken;
calls and runs are made of them and of what others do (`Unbroken.emit`, `Lasting.run`).
-/

namespace ScenarioSampling

open World

variable {η : Type}

/-- What a worker does to the world between two points at which others can act. -/
inductive OwnStep (handle : Handler η) : World → World → Prop where
  | note {w} n : OwnStep handle w (w.note n)
  | read {w e rest} h : w.channel.inbound = e :: rest →
      OwnStep handle w (dispatch handle (w.withInbound rest) h e).2.1
  | exhausted {w} : w.channel.inbound = [] → w.channel.searchAlive = false →
      OwnStep handle w (w.halt .searchDisconnected).2
  | heed {w s} : Heeded w.stop s →
      OwnStep handle w ({ w with stop := s }.halt .stopRequested).2
  | send {w} r : w.channel.searchAlive = true → w.channel.hasRoom = true →
      OwnStep handle w (w.send r)
  | bounce {w} r : w.channel.searchAlive = false → OwnStep handle w (w.bounce r).2

/-- No step inside a call breaks `I`, nor does what others have planned to do before it. -/
structure Unbroken (handle : Handler η) (I : World → Prop) : Prop where
  visit : ∀ {w} p, I w → I (w.visit p)
  own : ∀ {w w'}, OwnStep handle w w' → I w → I w'

/-- No step of anybody breaks `I`. -/
structure Lasting (handle : Handler η) (I : World → Prop) : Prop where
  act : ∀ {w} a, I w → I (w.act a)
  script : ∀ {w} turns, I w → I { w with script := turns }
  own : ∀ {w w'}, OwnStep handle w w' → I w → I w'

namespace Unbroken

variable {handle : Handler η} {I : World → Prop} (hI : Unbroken handle I)
include hI

theorem checkStop {w : World} (h : η) (hw : I w) : I (w.checkStop h).2.1 := by
  have hflag : I (w.visit .readFlag) := hI.visit .readFlag hw
  have htoken : I ((w.visit .readFlag).visit .takeToken) := hI.visit .takeToken hflag
  rcases checkStop_visits w h with hv | ⟨v, s, rfl | rfl, hh, hv⟩ <;> rw [hv]
  · exact htoken
  · exact hI.own (.heed hh) hflag
  · exact hI.own (.heed hh) htoken

theorem readBatch : ∀ (n : Nat) {w : World} (h : η), I w → I (World.readBatch handle n w h).2.1
  | 0, _, h, hw => hI.checkStop h hw
  | n + 1, w, h, hw => by
    have hvisit : I (w.visit .receive) := hI.visit .receive hw
    unfold World.readBatch
    simp only []
    split
    · rename_i e rest hin
      have hread := hI.own (.read h hin) hvisit
      rcases hr : dispatch handle ((w.visit .receive).withInbound rest) h e with
        ⟨_ | reason, w₂, h₂⟩ <;> rw [hr] at hread
      · exact readBatch n h₂ hread
      · exact hread
    · rename_i hin
      split_ifs with ha
      · exact hI.checkStop h hvisit
      · exact hI.own (.exhausted hin (by simpa using ha)) hvisit

theorem poll {w : World} (h : η) (hw : I w) : I (World.poll handle w h).2.1 := by
  unfold World.poll
  split
  · exact hw
  · exact hI.readBatch pollBatch h hw

theorem sendAtOnce {w : World} (r : Report) (hw : I w) : I (w.sendAtOnce r).2 := by
  have hvisit : I (w.visit .offer) := hI.visit .offer hw
  unfold World.sendAtOnce
  simp only []
  split_ifs with ha hroom
  · exact hI.own (.bounce r (by simpa using ha)) hvisit
  · exact hI.own (.send r (by simpa using ha) hroom) hvisit
  · exact hvisit

theorem wake {w : World} (h : η) (r : Report) (hw : I w) : I (World.wake handle w h r).2.1 := by
  have hvisit : I (w.visit .wait) := hI.visit .wait hw
  unfold World.wake
  simp only []
  set w₁ := w.visit .wait
  split
  · exact hvisit
  · rename_i hb
    exact hI.own (.heed (heeded_of_readyBranch? hb)) hvisit
  · rename_i hb
    split_ifs with ha
    · exact hI.own (.send r ha (hasRoom_of_readyBranch? hb ha)) hvisit
    · exact hI.own (.bounce r (by simpa using ha)) hvisit
  · rename_i hb
    split
    · rename_i hin
      exact hI.own (.exhausted hin (gone_of_readyBranch? hb hin)) hvisit
    · rename_i e rest hin
      have hread := hI.own (.read h hin) hvisit
      rcases hr : dispatch handle (w₁.withInbound rest) h e with ⟨_ | reason, w₂, h₂⟩ <;>
        rw [hr] at hread
      · exact hread
      · exact hread

theorem settle : ∀ (n : Nat) {w : World} (h : η) (r : Report), I w →
    I (World.settle handle n w h r).2.1
  | 0, _, _, _, hw => hw
  | n + 1, w, h, r, hw => by
    have hwake := hI.wake h r hw
    unfold World.settle
    rcases hk : World.wake handle w h r with ⟨_ | _ | _, w₁, h₁⟩ <;> rw [hk] at hwake
    · exact hwake
    · have hsend := hI.sendAtOnce r hwake
      simp only []
      rcases hs : w₁.sendAtOnce r with ⟨_ | f, w₂⟩ <;> rw [hs] at hsend
      · exact settle n h₁ r hsend
      · exact hsend
    · exact hwake

theorem resume {w : World} (h : η) (r : Report) (hw : I w) : I (World.resume handle w h r).2.1 :=
  hI.settle _ h r hw

theorem emit {w : World} (h : η) (scenario : Scenario) (score : Nat) (hw : I w) :
    I (World.emit handle w h scenario score).2.1 := by
  have hpoll := hI.poll h hw
  unfold World.emit
  split
  · exact hI.own (.note _) hw
  · rcases hp : World.poll handle w h with ⟨_ | reason, w₁, h₁⟩ <;> rw [hp] at hpoll
    · simp only []
      set r : Report := ⟨scenario, score, w₁.channel.emitted, w₁.channel.observed⟩
      have hsend := hI.sendAtOnce r hpoll
      rcases hs : w₁.sendAtOnce r with ⟨_ | f, w₂⟩ <;> rw [hs] at hsend
      · exact hI.resume h₁ r hsend
      · exact hsend
    · exact hpoll

end Unbroken

section Interplay

/-- What others do around the calls of a worker. -/
inductive Meddling where
  | act (a : Action)
  /-- They settle what they do inside the next calls. -/
  | plan (script : List Turn)

namespace Meddling

/-- The world after what others did. -/
def onWorld (w : World) : Meddling → World
  | act a => w.act a
  | plan script => { w with script := script }

/-- The acts among what others did; a plan is not carried out yet. -/
def actions : Meddling → List Action
  | act a => [a]
  | plan _ => []

end Meddling

/-- A worker among others: each of its moves is what the others do or a call of the worker. -/
structure Interplay (handle : Handler η) (X M : Type) where
  world : X → World
  next : X → M → X
  /-- What the others do in a move, if it is theirs. -/
  meddling? : M → Option Meddling
  meddles : ∀ (x : X) {m : M} {a : Meddling}, meddling? m = some a →
    world (next x m) = a.onWorld (world x)
  calls : ∀ {I : World → Prop}, Unbroken handle I → ∀ {x : X} {m : M}, meddling? m = none →
    I (world x) → I (world (next x m))

variable {handle : Handler η} {I : World → Prop} {X M : Type}

theorem Lasting.unbroken (hI : Lasting handle I) : Unbroken handle I where
  visit := visit_keeps hI.act hI.script
  own := hI.own

theorem Lasting.meddle (hI : Lasting handle I) {w : World} (hw : I w) :
    ∀ a : Meddling, I (a.onWorld w)
  | .act a => hI.act a hw
  | .plan script => hI.script script hw

namespace Interplay

variable (p : Interplay handle X M) (hI : Lasting handle I)
include hI

theorem lasting_next {x : X} (m : M) (hx : I (p.world x)) : I (p.world (p.next x m)) := by
  rcases hm : p.meddling? m with _ | a
  · exact p.calls hI.unbroken hm hx
  · rw [p.meddles x hm]
    exact hI.meddle hx a

theorem lasting_run : ∀ (ms : List M) {x : X}, I (p.world x) → I (p.world (ms.foldl p.next x))
  | [], _, hx => hx
  | m :: ms, _, hx => lasting_run ms (p.lasting_next hI m hx)

end Interplay

end Interplay

/-- What the others do in a move of an exchange, if it is theirs. -/
def Move.meddling? : Move → Option Meddling
  | .act a => some (.act a)
  | .plan script => some (.plan script)
  | .poll | .emit .. | .resume => none

theorem Unbroken.move {handle : Handler η} {I : World → Prop} (hI : Unbroken handle I)
    {x : Exchange η} {m : Move} (hm : m.meddling? = none) (hx : I x.world) :
    I (x.move handle m).world := by
  cases m with
  | act | plan => cases hm
  | poll =>
    rcases hw : x.waiting with _ | r
    · simpa only [Exchange.move, hw] using hI.poll x.sink hx
    · simpa only [Exchange.move, hw] using hx
  | emit scenario score =>
    rcases hw : x.waiting with _ | r
    · simp only [Exchange.move, hw]
      exact hI.emit x.sink scenario score hx
    · simpa only [Exchange.move, hw] using hx
  | resume =>
    rcases hw : x.waiting with _ | r
    · simpa only [Exchange.move, hw] using hx
    · simp only [Exchange.move, hw]
      exact hI.resume x.sink r hx

/-- A worker that polls and reports among others. -/
def Exchange.interplay (handle : Handler η) : Interplay handle (Exchange η) Move where
  world := Exchange.world
  next := Exchange.move handle
  meddling? := Move.meddling?
  meddles x m a hm := by
    cases m <;> cases hm <;> rfl
  calls hI _ _ hm hx := hI.move hm hx

theorem Lasting.run {handle : Handler η} {I : World → Prop} (hI : Lasting handle I)
    (ms : List Move) {x : Exchange η} (hx : I x.world) : I (x.run handle ms).world :=
  (Exchange.interplay handle).lasting_run hI ms hx

end ScenarioSampling
