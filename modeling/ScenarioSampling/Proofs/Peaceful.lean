import Mathlib.Data.List.Infix
import ScenarioSampling.Proofs.Endings

/-!
# Worlds in peace

A world is in peace after `es` if these events are all that was pushed, the search holds on to its
end, and nobody has asked for a stop. None of this is ever mended, so a world that is in peace in
the end has been so all along (`Peaceful.earlier`). A worker in such a world never stops, its first
poll reads all that waits if that is no more than a batch, and later calls read nothing; a report
does not have to wait while fewer were sent than there is room for.
-/

namespace ScenarioSampling

open Transfer

variable {η : Type}

namespace World

/-- These events are all that was pushed, and nobody wants the worker to stop. -/
structure Peaceful (es : List Event) (w : World) : Prop where
  pushed : pushes w.history.toList = es
  searchAlive : w.channel.searchAlive = true
  raised : w.stop.raised = false
  owners : w.stop.owners ≠ 0

/-- Of the reports that were sent, those that still wait take no more room than there is. -/
structure Roomy (capacity : Nat) (w : World) : Prop where
  capacity : w.channel.capacity = capacity
  queued : w.channel.outbound.length ≤ w.channel.emitted

theorem tryNext_capacity (w : World) : w.tryNext.2.channel.capacity = w.channel.capacity := by
  obtain ⟨-, _, _, hc⟩ := takeFresh_rest w.channel.outbound w
  rw [tryNext, hc]

theorem drainAtMost_capacity : ∀ (n : Nat) (w : World),
    (w.drainAtMost n).2.channel.capacity = w.channel.capacity
  | 0, _ => rfl
  | n + 1, w => by
    have htake := tryNext_capacity w
    unfold drainAtMost
    rcases hr : w.tryNext with ⟨_ | r, w'⟩ <;> rw [hr] at htake
    · exact htake
    · exact (drainAtMost_capacity n w').trans htake

theorem act_capacity (w : World) (a : Action) :
    (w.act a).channel.capacity = w.channel.capacity := by
  cases a with
  | notify e =>
    simp only [act, notify]
    split_ifs <;> rfl
  | readReport =>
    simp only [act]
    split_ifs
    · exact tryNext_capacity w
    · rfl
  | drain =>
    simp only [act]
    split_ifs
    · exact drainAtMost_capacity _ w
    · rfl
  | startReceiving =>
    simp only [act]
    split_ifs <;> rfl
  | stopReceiving | dropSearch | raiseStop | leaveToken | addOwner | dropOwner | interrupt | tick
  | favour => rfl

section Unmended

variable (handle : Handler η)

/-- All that reading an event does to the channel, whether or not the worker has stopped. -/
theorem dispatch_counts (w : World) (h : η) (e : Event) :
    ∃ stopped, (dispatch handle w h e).2.1.channel = { w.channel with
      observed := countSucc w.channel.observed
      stopped := stopped } := by
  unfold dispatch
  simp only []
  split
  · exact ⟨_, rfl⟩
  · rw [noteAll_channel]
    exact ⟨_, rfl⟩

theorem lasting_pushed (es : List Event) :
    Lasting handle fun w => es <+: pushes w.history.toList where
  act {w} a hw := by
    obtain ⟨es', -, hhist, -⟩ := (act_disturbed w a).pushes
    rw [hhist, pushes_append]
    exact hw.trans (List.prefix_append _ _)
  script _ hw := hw
  own hstep hw := by
    cases hstep with
    | note | exhausted | heed => exact hw
    | read =>
      rw [dispatch_history, Array.toList_push, pushes_append]
      exact hw.trans (List.prefix_append _ _)
    | send | bounce =>
      simp only [send_history, bounce_history, Array.toList_push, pushes_append]
      exact hw.trans (List.prefix_append _ _)

theorem lasting_gone : Lasting handle fun w => w.channel.searchAlive = false where
  act {w} a hw := (act_disturbed w a).gone hw
  script _ hw := hw
  own hstep hw := by
    cases hstep with
    | @read e rest h =>
      obtain ⟨_, hc⟩ := dispatch_counts handle (withInbound _ rest) h e
      rw [hc]
      exact hw
    | note | exhausted | heed | send | bounce => exact hw

theorem lasting_raised : Lasting handle fun w => w.stop.raised = true :=
  lasting_signal handle (I := fun s => s.raised = true)
    (fun a hs => StopSignal.onStop_raised hs a) Heeded.raised

theorem lasting_orphaned : Lasting handle fun w => w.stop.owners = 0 :=
  lasting_signal handle (I := fun s => s.owners = 0)
    (fun a hs => StopSignal.onStop_orphaned hs a) fun hh hs => hh.owners.1.trans hs

theorem lasting_roomy (capacity : Nat) : Lasting handle (Roomy capacity) where
  act {w} a hw := by
    have hd := act_disturbed w a
    obtain ⟨taken, _, hout, -⟩ := hd.takes
    refine ⟨(act_capacity w a).trans hw.capacity, ?_⟩
    have hqueued := hw.queued
    rw [hout, List.length_append] at hqueued
    rw [hd.emitted]
    omega
  script _ hw := ⟨hw.capacity, hw.queued⟩
  own {w _} hstep hw := by
    cases hstep with
    | @read e rest h =>
      obtain ⟨_, hc⟩ := dispatch_counts handle (w.withInbound rest) h e
      exact ⟨by rw [hc]; exact hw.capacity, by rw [hc]; exact hw.queued⟩
    | send r =>
      refine ⟨hw.capacity, ?_⟩
      rw [send_channel, List.length_append, List.length_singleton]
      exact Nat.succ_le_succ hw.queued
    | note | exhausted | heed | bounce => exact ⟨hw.capacity, hw.queued⟩

end Unmended

/-- What no step breaks holds in `w'` if it holds in `w`. -/
def Precedes (handle : Handler η) (w w' : World) : Prop :=
  ∀ ⦃I : World → Prop⦄, Lasting handle I → I w → I w'

section Earlier

variable {handle : Handler η} {es : List Event} {w w' : World}

theorem Peaceful.earlier (h : Peaceful es w') (hbefore : Precedes handle w w')
    (hp : es <+: pushes w.history.toList) : Peaceful es w := by
  have hpushed : pushes w.history.toList <+: es := by
    rw [← h.pushed]
    exact hbefore (lasting_pushed handle _) List.prefix_rfl
  refine ⟨hpushed.eq_of_length_le hp.length_le, ?_, ?_, fun ho => ?_⟩
  · rcases hg : w.channel.searchAlive with _ | _
    · exact ((hbefore (lasting_gone handle) hg).symm.trans h.searchAlive)
    · rfl
  · rcases hr : w.stop.raised with _ | _
    · rfl
    · exact ((hbefore (lasting_raised handle) hr).symm.trans h.raised)
  · exact h.owners (hbefore (lasting_orphaned handle) ho)

/-- A worker in peace has not stopped. -/
theorem Peaceful.listens (h : Peaceful es w) (hes : ∀ e ∈ es, e.isTerminal = false)
    (ho : Orderly w) (hw : Warranted w) : w.channel.stopped = none := by
  have hread : ∀ e, .read e ∈ w.history.toList → e.isTerminal = false := by
    intro e he
    refine hes e ?_
    rw [← h.pushed, ho.conserved]
    exact List.mem_append_left _ (mem_reads.2 he)
  rcases hs : w.channel.stopped with _ | reason
  · rfl
  · cases reason with
    | globalFailure | strategyFound =>
      obtain ⟨e, he, hr⟩ := ho.terminal _ hs rfl
      have hterminal := hread e he
      simp [← Event.isSome_stopReason?, hr] at hterminal
    | stopRequested =>
      rcases hw.requested hs with hr | howners
      · exact (Bool.false_ne_true (h.raised.symm.trans hr)).elim
      · exact (h.owners howners).elim
    | searchDisconnected =>
      exact (Bool.false_ne_true ((ho.disconnected hs).1.symm.trans h.searchAlive)).elim

/-- In peace, what waited before has been read or still waits, and all that was read was handed
on. -/
theorem Peaceful.unread (h : Peaceful es w) (h' : Peaceful es w')
    (hes : ∀ e ∈ es, e.isTerminal = false) (ho : Orderly w) (ho' : Orderly w') {ts : List Transfer}
    (hts : Intake ts w w') :
    w.channel.inbound = reads ts ++ w'.channel.inbound ∧ handed ts = reads ts := by
  have hsame : reads w.history.toList ++ w.channel.inbound
      = reads w.history.toList ++ (reads ts ++ w'.channel.inbound) := by
    rw [← ho.conserved, h.pushed, ← List.append_assoc, ← reads_append, ← hts.history,
      ← ho'.conserved, h'.pushed]
  have hin := List.append_cancel_left hsame
  refine ⟨hin, ?_⟩
  rw [handed, List.filter_eq_self]
  intro e he
  have hmem : e ∈ es := by
    rw [← h.pushed, ho.conserved, hin]
    exact List.mem_append_right _ (List.mem_append_left _ he)
  simp [hes e hmem]

end Earlier

theorem reads_of_disturbed {w w' : World} (hd : Disturbed w w') :
    reads w'.history.toList = reads w.history.toList := by
  obtain ⟨es, -, hhist, -⟩ := hd.pushes
  rw [hhist, reads_append, reads_map_pushed, List.append_nil]

section Calls

variable (handle : Handler η)

theorem checkStop_reads (w : World) (h : η) :
    reads (w.checkStop h).2.1.history.toList = reads w.history.toList := by
  rcases checkStop_cases w h with ⟨v, hd, hv⟩ | ⟨v, s, hd, -, hv⟩ <;> rw [hv]
  · exact reads_of_disturbed hd
  · exact (reads_of_disturbed hd : reads v.history.toList = _)

/-- A batch that lets the worker go on has read all that waited, if that is no more than a batch. -/
theorem readBatch_reads : ∀ (n : Nat) {w : World} (h : η), w.channel.stopped = none →
    (readBatch handle n w h).1 = .proceed →
    (reads w.history.toList).length + min n w.channel.inbound.length
      ≤ (reads (readBatch handle n w h).2.1.history.toList).length
  | 0, w, h, _, _ => by
    rw [readBatch, checkStop_reads, Nat.zero_min]
    exact Nat.le_refl _
  | n + 1, w, h, hs, hp => by
    have hd := visit_disturbed w .receive
    have hs₁ := hd.stopped.trans hs
    obtain ⟨told, hin', -, -⟩ := hd.pushes
    rw [← reads_of_disturbed hd]
    unfold readBatch at hp ⊢
    simp only [] at hp ⊢
    rcases hin : (w.visit .receive).channel.inbound with _ | ⟨e, rest⟩ <;> rw [hin] at hp hin'
    · have hnone : w.channel.inbound = [] := (List.append_eq_nil_iff.1 hin'.symm).1
      simp only [] at hp ⊢
      split_ifs at hp ⊢
      · rw [checkStop_reads, hnone]
        exact Nat.le_refl _
      · cases hp
    · have hlen : w.channel.inbound.length ≤ rest.length + 1 := by
        have hle := congrArg List.length hin'
        rw [List.length_cons, List.length_append] at hle
        omega
      have hc := dispatch_channel handle (w := (w.visit .receive).withInbound rest) h e hs₁
      have hread := dispatch_history handle ((w.visit .receive).withInbound rest) h e
      have hflow := dispatch_flow handle (w := (w.visit .receive).withInbound rest) h e hs₁
      simp only [] at hp ⊢
      rcases hr : dispatch handle ((w.visit .receive).withInbound rest) h e with
        ⟨_ | reason, w₂, h₂⟩ <;> rw [hr] at hp hc hread hflow
      · have hs₂ : w₂.channel.stopped = none := stopped_of_flow hflow.symm
        have hrest := readBatch_reads n h₂ hs₂ hp
        have hin₂ : w₂.channel.inbound = rest := by rw [hc]; rfl
        have hone : (reads w₂.history.toList).length
            = (reads (w.visit .receive).history.toList).length + 1 := by
          rw [hread, Array.toList_push, reads_append, List.length_append]
          rfl
        rw [hin₂, hone] at hrest
        simp only []
        omega
      · cases hp

variable {handle} {es : List Event} {w : World}

/-- A poll in peace reads all that waits, if that is no more than a batch. -/
theorem Peaceful.poll {h : η} (hw : Peaceful es w)
    (hw' : Peaceful es (World.poll handle w h).2.1) (hes : ∀ e ∈ es, e.isTerminal = false)
    (hlen : es.length ≤ pollBatch) (ho : Orderly w) (hwarranted : Warranted w) :
    ∃ w', World.poll handle w h = (.proceed, w', handleAll handle w.channel.inbound h)
      ∧ w'.channel.inbound = [] := by
  have hs := hw.listens hes ho hwarranted
  obtain ⟨hacc, hflow⟩ := poll_accesses handle (P := fun _ => True) w h hs
  have ho' : Orderly (World.poll handle w h).2.1 := ho.accesses hacc
  have hwarranted' : Warranted (World.poll handle w h).2.1 :=
    (lasting_warranted handle).unbroken.poll h hwarranted
  have hp : (World.poll handle w h).1 = .proceed :=
    hflow.trans (flow_of_none (hw'.listens hes ho' hwarranted'))
  obtain ⟨ts, hts, hsink⟩ := hacc.intake
  obtain ⟨hin, hhanded⟩ := hw.unread hw' hes ho ho' hts
  have hreads : (reads w.history.toList).length + min pollBatch w.channel.inbound.length
      ≤ (reads (World.poll handle w h).2.1.history.toList).length := by
    have hbatch : World.poll handle w h = readBatch handle pollBatch w h := by
      unfold World.poll
      rw [hs]
    rw [hbatch] at hp ⊢
    exact readBatch_reads handle pollBatch h hs hp
  have hnone : (World.poll handle w h).2.1.channel.inbound = [] := by
    have hwaiting : w.channel.inbound.length ≤ es.length := by
      rw [← hw.pushed, ho.conserved, List.length_append]
      omega
    have hsplit := congrArg List.length hin
    have hhist := congrArg (fun l => (reads l).length) hts.history
    simp only [reads_append, List.length_append] at hhist hsplit
    refine List.eq_nil_of_length_eq_zero ?_
    omega
  rw [hnone, List.append_nil] at hin
  rw [hhanded, ← hin] at hsink
  exact ⟨_, Prod.ext hp (Prod.ext rfl hsink), hnone⟩

/-- A report does not wait while fewer were sent than there is room for. -/
theorem Roomy.emit_answered {capacity : Nat} (hw : Roomy capacity w)
    (hs : w.channel.stopped = none) (hroom : w.channel.emitted < capacity) (h : η)
    (scenario : Scenario) (score : Nat) (q : Report) :
    (World.emit handle w h scenario score).1 ≠ .waiting q := by
  have hpoll := (lasting_roomy handle capacity).unbroken.poll h hw
  have hcount := (poll_posted handle w h).emitted_eq
  rcases hp : World.poll handle w h with ⟨_ | reason, w₁, h₁⟩ <;> rw [hp] at hpoll hcount
  · have hoffer : Roomy capacity (w₁.visit .offer) :=
      (lasting_roomy handle capacity).unbroken.visit .offer hpoll
    have hcount' := (visit_disturbed w₁ .offer).emitted
    have hfree : (w₁.visit .offer).channel.hasRoom = true := by
      have hqueued := hoffer.queued
      have hcapacity := hoffer.capacity
      simp only [Channel.hasRoom, Bool.or_eq_true, decide_eq_true_eq]
      simp only [] at hcount
      omega
    rw [emit_of_poll_proceeds handle hs hp]
    unfold sendAtOnce
    simp only [hfree, if_true]
    split_ifs <;> exact Emission.flow_ne_waiting _ q
  · rw [emit_of_poll_halts handle hs hp]
    exact Emission.flow_ne_waiting _ q

/-- An attempt to report in peace and with room sends the report, and reads nothing if nothing
waits. -/
theorem Peaceful.emit {h : η} {scenario : Scenario} {score capacity : Nat} (hw : Peaceful es w)
    (hw' : Peaceful es (World.emit handle w h scenario score).2.1)
    (hes : ∀ e ∈ es, e.isTerminal = false) (ho : Orderly w) (hwarranted : Warranted w)
    (hread : w.channel.inbound = []) (hroomy : Roomy capacity w)
    (hroom : w.channel.emitted < capacity) :
    ∃ w', World.emit handle w h scenario score = (.flow .proceed, w', h)
      ∧ w'.channel.inbound = [] ∧ w'.channel.emitted = w.channel.emitted + 1 := by
  have hs := hw.listens hes ho hwarranted
  obtain ⟨hacc, r, -, hfits⟩ := emit_accesses handle h scenario score hs
  obtain ⟨r', -, hposted⟩ := emit_posted handle w h scenario score
  have hnever : ∀ q, (World.emit handle w h scenario score).1 ≠ .waiting q :=
    hroomy.emit_answered hs hroom h scenario score
  have ho' : Orderly (World.emit handle w h scenario score).2.1 := ho.accesses hacc
  have hwarranted' : Warranted (World.emit handle w h scenario score).2.1 :=
    (lasting_warranted handle).unbroken.emit h scenario score hwarranted
  have hflow := flow_of_none (hw'.listens hes ho' hwarranted')
  obtain ⟨ts, hts, hsink⟩ := hacc.intake
  obtain ⟨hin, hhanded⟩ := hw.unread hw' hes ho ho' hts
  rw [hread] at hin
  obtain ⟨hnone, hrest⟩ := List.append_eq_nil_iff.1 hin.symm
  rw [hhanded, hnone] at hsink
  rcases hr : World.emit handle w h scenario score with ⟨f | v | q, w', h'⟩ <;>
    rw [hr] at hfits hposted hnever hflow hsink hrest
  · obtain rfl : f = .proceed := hfits.trans hflow
    obtain rfl : h' = h := hsink
    exact ⟨w', rfl, hrest, hposted.emitted⟩
  · exact hfits.elim
  · exact (hnever q rfl).elim

end Calls

end World

end ScenarioSampling
