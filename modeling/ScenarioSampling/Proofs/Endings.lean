import ScenarioSampling.Proofs.Backlog
import ScenarioSampling.Proofs.Disconnection
import ScenarioSampling.Proofs.Replay
import ScenarioSampling.Proofs.Rounds
import ScenarioSampling.Proofs.RunLasting

/-!
# Why a run ended

A run ends because its end of the bridge stopped or because its monitor wants it. The reason it
gives is the one that holds: a stop is recorded at the bridge, for an event that was read last, for
a request, or for a search that is gone (`StopReason.Justified`), and where none is recorded, the
first monitor that asked for an end is quoted. A stop that the poll of a turn can see comes before
the monitor (`ending_truthful`).
-/

namespace ScenarioSampling

open Transfer Entry

variable {η : Type}

section Requests

namespace StopSignal

/-- In the course of `as` an owner asks for a stop. -/
def Asked (s : StopSignal) (as : List Action) : Prop :=
  ∃ before later, as = before ++ .raiseStop :: later ∧ 0 < (s.after before).owners

theorem Asked.concat {s : StopSignal} {as : List Action} (h : s.Asked as) (a : Action) :
    s.Asked (as ++ [a]) := by
  obtain ⟨before, later, rfl, howners⟩ := h
  exact ⟨before, later ++ [a], by simp, howners⟩

end StopSignal

/-- A token is left, or to be left, only where the flag is up. -/
def StopSignal.Flagged (s : StopSignal) : Prop :=
  s.token = true ∨ 0 < s.underway → s.raised = true

theorem StopSignal.onStop_flagged {s : StopSignal} (h : s.Flagged) (a : Action) :
    (a.onStop s).Flagged := by
  cases a with
  | raiseStop =>
    show (if 0 < s.owners then _ else s).Flagged
    split_ifs
    · exact fun _ => rfl
    · exact h
  | leaveToken =>
    show (if 0 < s.underway then _ else s).Flagged
    split_ifs with hpos
    · exact fun _ => h (.inr hpos)
    · exact h
  | addOwner =>
    show (if 0 < s.owners then _ else s).Flagged
    split_ifs <;> exact h
  | dropOwner =>
    show (if s.underway < s.owners then _ else s).Flagged
    split_ifs <;> exact h
  | _ => exact h

/-- A worker that has stopped at a request has found one. -/
structure Warranted (w : World) : Prop where
  flagged : w.stop.Flagged
  requested : w.channel.stopped = some .stopRequested → World.Informed w.stop

theorem Warranted.ofCapacity (capacity : Nat) : Warranted (.ofCapacity capacity) := ⟨nofun, nofun⟩

namespace World

theorem Heeded.informed {s s' : StopSignal} (h : Heeded s s') (hs : s.Flagged) : Informed s := by
  rcases h with ⟨-, hinformed⟩ | ⟨htoken, -⟩
  · exact hinformed
  · exact .inl (hs (.inl htoken))

theorem Heeded.flagged {s s' : StopSignal} (h : Heeded s s') (hs : s.Flagged) : s'.Flagged := by
  rcases h with ⟨rfl, -⟩ | ⟨htoken, raised, hraised, rfl⟩
  · exact hs
  · exact fun _ => hraised (hs (.inl htoken))

/-- Any other reason to stop leaves a request what it was. -/
theorem requested_of_halt {w : World} {reason : StopReason} (hne : reason ≠ .stopRequested)
    (hs : (w.halt reason).2.channel.stopped = some .stopRequested) :
    w.channel.stopped = some .stopRequested := by
  have hr : w.channel.stopped.getD reason = .stopRequested := Option.some.inj hs
  rcases hw : w.channel.stopped with _ | reason' <;> rw [hw] at hr
  · exact (hne hr).elim
  · exact congrArg some hr

theorem requested_of_dispatch {handle : Handler η} {w : World} {h : η} {e : Event}
    (hs : (dispatch handle w h e).2.1.channel.stopped = some .stopRequested) :
    w.channel.stopped = some .stopRequested := by
  unfold dispatch at hs
  simp only [] at hs
  split at hs
  · rename_i reason he
    have hne : reason ≠ .stopRequested := by
      rintro rfl
      cases e <;> cases he
    exact requested_of_halt hne hs
  · rwa [noteAll_channel] at hs

theorem lasting_warranted (handle : Handler η) : Lasting handle Warranted where
  act {w} a hw := by
    refine ⟨?_, fun hs => ?_⟩
    · rw [act_stop]
      exact StopSignal.onStop_flagged hw.flagged a
    · rw [(act_disturbed w a).stopped] at hs
      exact (lasting_informed handle).act a (hw.requested hs)
  script _ hw := ⟨hw.flagged, hw.requested⟩
  own hstep hw := by
    cases hstep with
    | note => exact ⟨hw.flagged, hw.requested⟩
    | @read e rest =>
      refine ⟨?_, fun hs => ?_⟩ <;> rw [dispatch_stop]
      · exact hw.flagged
      · have hs' : (withInbound _ rest).channel.stopped = some .stopRequested :=
          requested_of_dispatch hs
        exact hw.requested hs'
    | heed hh =>
      have hinformed := hh.informed hw.flagged
      exact ⟨hh.flagged hw.flagged, fun _ => hinformed.imp hh.raised hh.owners.1.trans⟩
    | send => exact ⟨hw.flagged, hw.requested⟩
    | exhausted | bounce =>
      have hne : StopReason.searchDisconnected ≠ .stopRequested := nofun
      exact ⟨hw.flagged, fun hs => hw.requested (requested_of_halt hne hs)⟩

end World

theorem Lasting.trace {handle : Handler η} {I : World → Prop} (hI : Lasting handle I)
    {w₀ w : World} {as : List Action} (h : Trace (OwnStep handle) w₀ as w) (hw₀ : I w₀) : I w := by
  induction h with
  | start => exact hw₀
  | act a _ ih => exact hI.act a ih
  | plan script _ ih => exact hI.script script ih
  | own hstep _ ih => exact hI.own hstep ih

/-- The flag is up only if an owner asked for it. -/
theorem Trace.asked {handle : Handler η} {w₀ w : World} {as : List Action}
    (h : Trace (OwnStep handle) w₀ as w) (hw₀ : Warranted w₀) (hdown : w₀.stop.raised = false) :
    w.stop.raised = true → w₀.stop.Asked as := by
  induction h with
  | start =>
    intro hr
    rw [hdown] at hr
    cases hr
  | @act as w a htrace ih =>
    intro hr
    rw [World.act_stop] at hr
    by_cases hup : w.stop.raised = true
    · exact (ih hup).concat a
    · have hasked : a = .raiseStop ∧ 0 < w.stop.owners := by
        cases a with
        | raiseStop =>
          simp only [Action.onStop, StopSignal.raise] at hr
          split_ifs at hr with howners
          · exact ⟨rfl, howners⟩
          · exact (hup hr).elim
        | leaveToken | addOwner | dropOwner =>
          simp only [Action.onStop, StopSignal.leaveToken, StopSignal.addOwner,
            StopSignal.dropOwner] at hr
          split_ifs at hr <;> exact (hup hr).elim
        | _ => exact (hup hr).elim
      obtain ⟨rfl, howners⟩ := hasked
      rw [htrace.owners.1] at howners
      exact ⟨as, [], rfl, howners⟩
  | plan _ _ ih => exact ih
  | own hstep htrace ih =>
    intro hr
    have hw := (World.lasting_warranted handle).trace htrace hw₀
    cases hstep with
    | read =>
      rw [World.dispatch_stop] at hr
      exact ih hr
    | heed hh =>
      rcases hh with ⟨rfl, -⟩ | ⟨htoken, -⟩
      · exact ih hr
      · exact ih (hw.flagged (.inl htoken))
    | note | exhausted | send | bounce => exact ih hr

end Requests

section Stops

namespace World

/-- A poll that begins here cannot miss that it should stop. -/
inductive StopVisible (w : World) : Prop where
  | stopped {reason} : w.channel.stopped = some reason → StopVisible w
  | terminal {e} : e ∈ w.channel.inbound.take pollBatch → e.isTerminal = true → StopVisible w
  | gone : w.channel.searchAlive = false → w.channel.inbound.length < pollBatch → StopVisible w
  | requested : Informed w.stop ∨ w.stop.token = true → StopVisible w

variable (handle : Handler η)

/-- Of the events that end the search, one comes first. -/
theorem exists_first_terminal {events : List Event} {e : Event} (he : e ∈ events)
    (ht : e.isTerminal = true) : ∃ es e₀ rest, events = es ++ e₀ :: rest
      ∧ (∀ e' ∈ es, e'.isTerminal = false) ∧ e₀.isTerminal = true := by
  have hsome : events.find? Event.isTerminal ≠ none := by
    rw [ne_eq, List.find?_eq_none]
    exact fun h => h e he ht
  obtain ⟨e₀, hfound⟩ := Option.ne_none_iff_exists'.1 hsome
  obtain ⟨he₀, es, rest, hsplit, hes⟩ := List.find?_eq_some_iff_append.1 hfound
  exact ⟨es, e₀, rest, hsplit, fun e' he' => by simpa using hes e' he', he₀⟩

theorem readBatch_of_disconnected {n : Nat} {w : World} (h : η) (hs : w.channel.stopped = none)
    (hg : w.channel.searchAlive = false) (hn : w.channel.inbound.length < n) :
    ∃ reason, (readBatch handle n w h).1 = .halt reason := by
  obtain ⟨-, hend⟩ := readBatch_of_gone handle n w h hs hg
  have hflow := (readBatch_accesses handle (P := fun _ => True) n w h hs).2
  have hstopped : (readBatch handle n w h).2.1.channel.stopped ≠ none := by
    intro hnone
    split at hend
    · rename_i e he
      have hterminal := List.find?_some he
      rw [← Event.isSome_stopReason?, ← hend, hnone] at hterminal
      cases hterminal
    · rw [hnone, if_pos hn] at hend
      rcases hend.2 with hr | hr <;> cases hr
  obtain ⟨reason, hr⟩ := Option.ne_none_iff_exists'.1 hstopped
  exact ⟨reason, hflow.trans (flow_of_some hr)⟩

theorem checkStop_of_informed {w : World} (h : η) (hi : Informed w.stop) :
    ∃ reason, (w.checkStop h).1 = .halt reason := by
  have hr := requested_of_informed hi
  unfold checkStop
  rcases hq : w.isStopRequested with ⟨_ | _, v⟩ <;> rw [hq] at hr
  · cases hr
  · exact ⟨_, rfl⟩

theorem readBatch_of_informed : ∀ (n : Nat) {w : World} (h : η), Informed w.stop →
    ∃ reason, (readBatch handle n w h).1 = .halt reason
  | 0, _, h, hi => checkStop_of_informed h hi
  | n + 1, w, h, hi => by
    have hvisit : Informed (w.visit .receive).stop :=
      (lasting_informed handle).unbroken.visit .receive hi
    unfold readBatch
    simp only []
    rcases hin : (w.visit .receive).channel.inbound with _ | ⟨e, rest⟩
    · simp only []
      split_ifs
      · exact checkStop_of_informed h hvisit
      · exact ⟨_, rfl⟩
    · have hstop := dispatch_stop handle ((w.visit .receive).withInbound rest) h e
      simp only []
      rcases hr : dispatch handle ((w.visit .receive).withInbound rest) h e with
        ⟨_ | reason, w₂, h₂⟩ <;> rw [hr] at hstop
      · exact readBatch_of_informed n h₂ (by rw [hstop]; exact hvisit)
      · exact ⟨reason, rfl⟩

theorem poll_of_stopVisible {w : World} (h : η) (hw : StopVisible w) :
    ∃ reason, (poll handle w h).1 = .halt reason := by
  rcases hs : w.channel.stopped with _ | reason
  · have hpoll : poll handle w h = readBatch handle pollBatch w h := by
      unfold poll
      rw [hs]
    cases hw with
    | stopped hstopped =>
      rw [hs] at hstopped
      cases hstopped
    | @terminal e he hterminal =>
      obtain ⟨es, e₀, rest, hsplit, hes, he₀⟩ := exists_first_terminal he hterminal
      obtain ⟨reason, hreason⟩ := Event.exists_stopReason?_iff.2 he₀
      have hin : w.channel.inbound = es ++ e₀ :: (rest ++ w.channel.inbound.drop pollBatch) := by
        rw [← List.cons_append, ← List.append_assoc, ← hsplit, List.take_append_drop]
      have hlen : es.length < pollBatch := by
        have htake := List.length_take_le pollBatch w.channel.inbound
        rw [hsplit, List.length_append, List.length_cons] at htake
        omega
      exact ⟨reason, hpoll ▸ readBatch_halts handle hreason pollBatch es _ w h hs hin hes hlen⟩
    | gone hg hlen => exact hpoll ▸ readBatch_of_disconnected handle h hs hg hlen
    | requested hr =>
      rcases hr with hi | ht
      · exact hpoll ▸ readBatch_of_informed handle pollBatch h hi
      · exact poll_heeds handle h hs ht
  · exact ⟨reason, by rw [poll_of_stopped handle hs]⟩

end World

namespace World

theorem poll_flow (handle : Handler η) (w : World) (h : η) :
    (poll handle w h).1 = (poll handle w h).2.1.flow := by
  rcases hs : w.channel.stopped with _ | reason
  · exact (poll_accesses handle (P := fun _ => True) w h hs).2
  · rw [poll_of_stopped handle hs]
    exact (flow_of_some hs).symm

end World

end Stops

namespace Monitor

mutual

/-- The monitors that are not made of others, in the order in which they are asked. -/
def leaves : Monitor → List Monitor
  | composite ms => leavesOfAll ms
  | m => [m]

/-- The leaves of several monitors, in order. -/
def leavesOfAll : List Monitor → List Monitor
  | [] => []
  | m :: ms => leaves m ++ leavesOfAll ms

end

/-- Among these monitors, the first one that wants an end gives this cause. -/
def FirstCause (s : Surroundings) (cause : String) (ms : List Monitor) : Prop :=
  ∃ before m after, ms = before ++ m :: after ∧ (∀ b ∈ before, b.command s = .proceed)
    ∧ m.command s = .terminate cause

section FirstCause

variable {s : Surroundings} {cause : String} {m : Monitor} {ms ms' : List Monitor}

theorem firstCause_singleton : FirstCause s cause [m] ↔ m.command s = .terminate cause := by
  constructor
  · rintro ⟨before, m', after, hsplit, -, hm⟩
    rcases before with _ | ⟨b, before⟩
    · obtain ⟨rfl, -⟩ := List.cons.inj hsplit
      exact hm
    · simp at hsplit
  · exact fun hm => ⟨[], m, [], rfl, by simp, hm⟩

theorem firstCause_append : FirstCause s cause (ms ++ ms')
    ↔ FirstCause s cause ms ∨ (∀ b ∈ ms, b.command s = .proceed) ∧ FirstCause s cause ms' := by
  constructor
  · rintro ⟨before, m, after, hsplit, hbefore, hm⟩
    rcases List.append_eq_append_iff.1 hsplit with ⟨mid, rfl, rfl⟩ | ⟨mid, rfl, hrest⟩
    · refine .inr ⟨fun b hb => hbefore b (List.mem_append_left mid hb), mid, m, after, rfl,
        fun b hb => hbefore b (List.mem_append_right ms hb), hm⟩
    · rcases mid with _ | ⟨m', mid⟩
      · rw [List.append_nil]
        exact .inr ⟨hbefore, [], m, after, hrest.symm, by simp, hm⟩
      · obtain ⟨rfl, -⟩ := List.cons.inj hrest
        exact .inl ⟨before, m, mid, rfl, hbefore, hm⟩
  · rintro (⟨before, m, after, rfl, hbefore, hm⟩ | ⟨hms, before, m, after, rfl, hbefore, hm⟩)
    · exact ⟨before, m, after ++ ms', by simp, hbefore, hm⟩
    · refine ⟨ms ++ before, m, after, by simp, fun b hb => ?_, hm⟩
      exact (List.mem_append.1 hb).elim (hms b) (hbefore b)

end FirstCause

mutual

/-- Several monitors are obeyed as if their leaves were asked one by one. -/
theorem command_leaves (s : Surroundings) : ∀ m : Monitor,
    (m.command s = .proceed ↔ ∀ b ∈ m.leaves, b.command s = .proceed)
      ∧ ∀ cause, m.command s = .terminate cause ↔ FirstCause s cause m.leaves
  | sampleLimit _ | timeLimit _ | interrupt | progressLog _ | recorder _ =>
    ⟨by simp [leaves], fun _ => firstCause_singleton.symm⟩
  | composite ms => by
    rw [command, leaves]
    exact firstCommand_leaves s ms

theorem firstCommand_leaves (s : Surroundings) : ∀ ms : List Monitor,
    (firstCommand s ms = .proceed ↔ ∀ b ∈ leavesOfAll ms, b.command s = .proceed)
      ∧ ∀ cause, firstCommand s ms = .terminate cause ↔ FirstCause s cause (leavesOfAll ms)
  | [] => ⟨by simp [firstCommand, leavesOfAll], fun cause => by
      simp [firstCommand, leavesOfAll, FirstCause]⟩
  | m :: ms => by
    obtain ⟨hm, hmcause⟩ := command_leaves s m
    obtain ⟨hms, hmscause⟩ := firstCommand_leaves s ms
    rw [firstCommand, leavesOfAll]
    cases hc : command s m with
    | proceed =>
      have hall := hm.1 hc
      refine ⟨?_, fun cause => ?_⟩
      · rw [hms, List.forall_mem_append]
        exact (and_iff_right hall).symm
      · have hnone : ¬ FirstCause s cause m.leaves := by
          rw [← hmcause cause, hc]
          nofun
        rw [hmscause cause, firstCause_append, and_iff_right hall]
        exact (or_iff_right hnone).symm
    | terminate cause' =>
      have hsome : ¬ ∀ b ∈ m.leaves, b.command s = .proceed := by
        rw [← hm, hc]
        nofun
      refine ⟨?_, fun cause => ?_⟩
      · rw [List.forall_mem_append, and_comm, iff_false_right fun h => hsome h.2]
        nofun
      · rw [firstCause_append, ← hmcause cause, hc, or_iff_left fun h => hsome h.1]

end

end Monitor

/-- What has come about in `w` for a worker to stop for this reason, after the others did `as`. -/
def StopReason.Justified (as : List Action) (w : World) : StopReason → Prop
  | .stopRequested => StopSignal.initial.Asked as ∨ (StopSignal.initial.after as).owners = 0
  | .searchDisconnected => w.channel.searchAlive = false
  | reason => ∃ pre e, reads w.history.toList = pre ++ [e] ∧ e.stopReason? = some reason
    ∧ ∀ e' ∈ pre, e'.isTerminal = false

/-- An event that ended the search was read last, and is the only one of its kind that was. -/
theorem Orderly.last_read {w : World} (hw : Orderly w) {reason : StopReason}
    (hs : w.channel.stopped = some reason) (ht : reason.isTerminal = true) :
    ∃ pre e, reads w.history.toList = pre ++ [e] ∧ e.stopReason? = some reason
      ∧ ∀ e' ∈ pre, e'.isTerminal = false := by
  obtain ⟨e, he, hr⟩ := hw.terminal reason hs ht
  obtain ⟨before, later, hh⟩ := List.append_of_mem he
  have hafter := hw.after
  rw [hh, List.pairwise_append, List.pairwise_cons] at hafter
  obtain ⟨-, ⟨hlater, -⟩, hbefore⟩ := hafter
  have hlast : IsFinal (.read e) := Event.exists_stopReason?_iff.1 ⟨reason, hr⟩
  have hnone : reads later = [] := by
    rw [List.eq_nil_iff_forall_not_mem]
    intro e' he'
    exact hlater _ (mem_reads.1 he') hlast
  refine ⟨reads before, e, ?_, hr, fun e' he' => ?_⟩
  · rw [hh, List.append_cons, reads_append, reads_append, hnone, List.append_nil]
    rfl
  · rw [Bool.eq_false_iff]
    intro ht'
    exact hbefore _ (mem_reads.1 he') _ List.mem_cons_self ht'

theorem Orderly.justified {w : World} (hw : Orderly w) {capacity : Nat} {as : List Action}
    {handle : Handler η} (htrace : Trace (OwnStep handle) (.ofCapacity capacity) as w)
    {reason : StopReason} (hs : w.channel.stopped = some reason) : reason.Justified as w := by
  cases reason with
  | globalFailure | strategyFound => exact hw.last_read hs rfl
  | stopRequested =>
    have hstart := Warranted.ofCapacity capacity
    rcases ((World.lasting_warranted handle).trace htrace hstart).requested hs with hr | ho
    · exact .inl (htrace.asked hstart rfl hr)
    · exact .inr (htrace.owners.1.symm.trans ho)
  | searchDisconnected => exact (hw.disconnected hs).1

namespace Run

variable {σ ρ ν μ : Type} [Sampler σ ρ] [Scorer ν] [SamplingMonitor μ]

/-- What a run that has ended says about its end of the bridge. -/
structure Candid (x : World × Run σ ρ ν μ) : Prop where
  stopped : ∀ reason, x.2.stage = .ended (.stopped reason) → x.1.channel.stopped = some reason
  aborted : ∀ cause, x.2.stage = .ended (.aborted cause) → x.1.channel.stopped = none

section Candid

variable {x y : World × Run σ ρ ν μ} {es : List Entry}

omit [Sampler σ ρ] [Scorer ν] [SamplingMonitor μ] in
theorem Candid.of_unended (h : ∀ reason, x.2.stage ≠ .ended reason) : Candid x :=
  ⟨fun _ hs => (h _ hs).elim, fun _ hs => (h _ hs).elim⟩

omit [Sampler σ ρ] [Scorer ν] in
theorem candid_finish (w : World) (r : Run σ ρ ν μ) {reason : StopReason}
    (hs : w.channel.stopped = some reason) : Candid (finish w r (.stopped reason)) := by
  refine ⟨fun reason' h => ?_, fun cause h => by cases h⟩
  cases h
  exact (congrArg Channel.stopped (World.noteAll_channel w _)).trans hs

omit [Sampler σ ρ] [Scorer ν] in
theorem Answered.candid {q : Report} {a : Emission × World × Sink} (h : Answered x q a) :
    Candid (afterEmission x.2 q.score a) := by
  have hfits := h.fits
  obtain ⟨(_ | reason) | v | q', w, sink⟩ := a
  · exact .of_unended nofun
  · exact candid_finish w _ (World.stopped_of_flow_halt hfits.symm)
  · exact .of_unended nofun
  · exact .of_unended nofun

theorem DrawCourse.candid (h : DrawCourse x es y) (hl : x.2.stage = .looping)
    (hs : x.1.channel.stopped = none) : Candid y := by
  cases h with
  | undrawn | unscored => exact .of_unended nofun
  | discarded =>
    refine .of_unended fun reason h => ?_
    cases hl.symm.trans h
  | passed =>
    refine .of_unended fun reason h => ?_
    rw [judged_run] at h
    cases hl.symm.trans h
  | @reported c score z _ _ _ hz =>
    have hlisten : z.1.channel.stopped = none := by
      rw [← hz]
      exact (quiet_judged x c score).disturbed.stopped.trans hs
    obtain ⟨q, rfl, hq⟩ := emission_answered hlisten score
    exact hq.candid

theorem Course.candid (h : Course x es y) (hready : Ready x) (hx : Candid x) : Candid y := by
  cases h with
  | idle => exact hx
  | @stopped w sink reason _ hp =>
    have hflow := World.poll_flow Sink.handle x.1 x.2.sink
    rw [hp] at hflow
    exact candid_finish w _ (World.stopped_of_flow_halt hflow.symm)
  | @aborted w sink cause _ hp =>
    have hflow := World.poll_flow Sink.handle x.1 x.2.sink
    rw [hp] at hflow
    have hs : w.channel.stopped = none := World.stopped_of_flow hflow.symm
    exact ⟨nofun, fun _ _ => (congrArg Channel.stopped (World.noteAll_channel w _)).trans hs⟩
  | drew ho hd => exact hd.candid ho.looping_after ho.listens
  | resumed hq => exact (hready.answered hq).candid

end Candid

theorem next_candid {x : World × Run σ ρ ν μ} (hready : Ready x) (hx : Candid x) (v : Move) :
    Candid (next x v) := by
  cases v with
  | act a =>
    have hs := (World.act_disturbed x.1 a).stopped
    exact ⟨fun reason h => hs.trans (hx.stopped reason h), fun c h => hs.trans (hx.aborted c h)⟩
  | plan script => exact ⟨hx.stopped, hx.aborted⟩
  | step => exact (step_course x).candid hready hx

theorem play_candid : ∀ (vs : List Move) {x : World × Run σ ρ ν μ}, Ready x → Candid x →
    Candid (play x vs)
  | [], _, _, hx => hx
  | v :: vs, _, hready, hx => play_candid vs (next_ready hready v).1 (next_candid hready hx v)

section Turns

/-- The poll of this turn lets the run go on, but then the monitor wants an end. -/
def Abandons (x : World × Run σ ρ ν μ) (cause : String) : Prop :=
  x.2.stage = .looping ∧ ∃ w sink, x.1.poll Sink.handle x.2.sink = (.proceed, w, sink)
    ∧ SamplingMonitor.command w.surroundings x.2.monitor = .terminate cause

omit [Sampler σ ρ] [Scorer ν] in
/-- An attempt to report ends no run for its monitor. -/
theorem afterEmission_unaborted (r : Run σ ρ ν μ) (score : Nat) (a : Emission × World × Sink)
    (cause : String) : (afterEmission r score a).2.stage ≠ .ended (.aborted cause) := by
  obtain ⟨(_ | reason) | v | q, w, sink⟩ := a <;> nofun

theorem DrawCourse.unaborted {x y : World × Run σ ρ ν μ} {es : List Entry} (h : DrawCourse x es y)
    (hl : x.2.stage = .looping) (cause : String) : y.2.stage ≠ .ended (.aborted cause) := by
  cases h with
  | undrawn | unscored => nofun
  | discarded =>
    intro hy
    cases hl.symm.trans hy
  | passed =>
    intro hy
    rw [judged_run] at hy
    cases hl.symm.trans hy
  | reported => exact afterEmission_unaborted _ _ _ cause

theorem Course.abandons {x y : World × Run σ ρ ν μ} {es : List Entry} (h : Course x es y)
    {cause : String} (hx : x.2.isOver = false) (hy : y.2.stage = .ended (.aborted cause)) :
    Abandons x cause := by
  cases h with
  | idle hover => simp [hover] at hx
  | stopped => cases hy
  | aborted hl hp hc =>
    cases hy
    exact ⟨hl, _, _, hp, hc⟩
  | drew ho hd => exact (hd.unaborted ho.looping_after cause hy).elim
  | resumed => exact (afterEmission_unaborted _ _ _ cause hy).elim

/-- A run that was aborted was abandoned in one of its turns. -/
theorem exists_abandons (vs : List Move) {x : World × Run σ ρ ν μ} {cause : String}
    (hx : x.2.isOver = false) (hend : (play x vs).2.stage = .ended (.aborted cause)) :
    ∃ pre post, vs = pre ++ .step :: post ∧ Abandons (play x pre) cause := by
  obtain ⟨pre, post, hsplit, hpre, hturn⟩ := exists_last_turn vs hx (by simp [isOver, hend])
  rw [hturn] at hend
  exact ⟨pre, post, hsplit, (step_course (play x pre)).abandons hpre hend⟩

/-- A turn whose poll finds a stop ends the run for it, whatever the monitor would say. -/
theorem play_halted {x : World × Run σ ρ ν μ} {reason : StopReason} (hl : x.2.stage = .looping)
    (hp : (x.1.poll Sink.handle x.2.sink).1 = .halt reason) (vs : List Move) :
    (play x (.step :: vs)).2.stage = .ended (.stopped reason) := by
  have hstep : (step x.1 x.2).2.stage = .ended (.stopped reason) := by
    rw [step_eq, hl]
    rcases hpoll : x.1.poll Sink.handle x.2.sink with ⟨f, w, sink⟩
    rw [hpoll] at hp
    subst hp
    rfl
  rw [play_step, (play_over vs (by simp [isOver, hstep])).2, hstep]

end Turns

omit [Sampler σ ρ] [Scorer ν] [SamplingMonitor μ] in
theorem outcome_reason {r : Run σ ρ ν μ} {o : Outcome} (h : r.outcome? = some o) :
    r.stage = .ended o.reason :=
  (of_outcome h).1

/-- In every run at a fresh end of the bridge that has an outcome, whatever the others do: the run
was aborted if and only if no stop is recorded, and then it had polled, been let go on, and quotes
the first monitor that wanted an end; else it gives the stop that is recorded, and that has come
about. A turn whose poll finds a stop ends the run for it, and a poll finds every stop that is there
when it begins. -/
theorem ending_truthful {capacity : Nat} {before : List Action} {policy : ReportPolicy} {m : Model}
    {sampler : σ} {source : ρ} {scorer : ν} {monitor : μ} {w : World} {r : Run σ ρ ν μ}
    (h : begin ((World.ofCapacity capacity).actAll before) policy m sampler source scorer monitor
      = .ok (w, r)) (vs : List Move) {o : Outcome} (ho : (play (w, r) vs).2.outcome? = some o) :
    let x := play (w, r) vs
    ((∃ cause, o.reason = .aborted cause) ↔ x.1.channel.stopped = none)
      ∧ (∀ reason, o.reason = .stopped reason ↔ x.1.channel.stopped = some reason)
      ∧ (∀ reason, o.reason = .stopped reason →
        reason.Justified (before ++ allDeeds (w, r) vs) x.1)
      ∧ (∀ cause, o.reason = .aborted cause →
        ∃ pre post, vs = pre ++ .step :: post ∧ Abandons (play (w, r) pre) cause)
      ∧ (∀ (s : Surroundings) (c : Monitor) cause,
        c.command s = .terminate cause ↔ Monitor.FirstCause s cause c.leaves)
      ∧ ∀ pre post, vs = pre ++ .step :: post → (play (w, r) pre).2.stage = .looping →
        let y := play (w, r) pre
        (∀ reason, (y.1.poll Sink.handle y.2.sink).1 = .halt reason → o.reason = .stopped reason)
          ∧ (y.1.StopVisible → ∃ reason, o.reason = .stopped reason) := by
  intro x
  have hb := begun h
  obtain ⟨hfresh, -⟩ := World.fresh_actAll capacity before
  have hlooping : r.stage = .looping := hb.looping
  have hready := Ready.of_looping hb.looping
  have hend : x.2.stage = .ended o.reason := outcome_reason ho
  have hcandid : Candid x := play_candid vs hready (.of_unended (by simp [hlooping]))
  have hstopped : ∀ reason, o.reason = .stopped reason ↔ x.1.channel.stopped = some reason := by
    intro reason
    constructor
    · exact fun hr => hcandid.stopped reason (hr ▸ hend)
    · intro hs
      cases hr : o.reason with
      | stopped reason' =>
        rw [hcandid.stopped reason' (hr ▸ hend)] at hs
        exact congrArg _ (Option.some.inj hs)
      | aborted cause =>
        rw [hcandid.aborted cause (hr ▸ hend)] at hs
        cases hs
  have hhalted : ∀ pre post, vs = pre ++ .step :: post → (play (w, r) pre).2.stage = .looping →
      ∀ reason, ((play (w, r) pre).1.poll Sink.handle (play (w, r) pre).2.sink).1 = .halt reason →
        o.reason = .stopped reason := by
    rintro pre post rfl hl reason hp
    have hstage := play_halted hl hp post
    rw [← play_append] at hstage
    exact Stage.ended.inj (hend.symm.trans hstage)
  refine ⟨⟨?_, fun hs => ?_⟩, hstopped, fun reason hr => ?_, fun cause hr => ?_,
    fun s c => (c.command_leaves s).2, fun pre post hsplit hl => ⟨hhalted pre post hsplit hl,
      fun hv => ?_⟩⟩
  · rintro ⟨cause, hr⟩
    exact hcandid.aborted cause (hr ▸ hend)
  · cases hr : o.reason with
    | stopped reason =>
      rw [hcandid.stopped reason (hr ▸ hend)] at hs
      cases hs
    | aborted cause => exact ⟨cause, rfl⟩
  · obtain ⟨ts, hbooks⟩ := play_advances vs hready
    have horderly : Orderly x.1 :=
      hbooks.orderly (hfresh.disturbed (.of_eq hb.channel hb.history hb.delivered))
    have htrace : Trace (OwnStep Sink.handle) (.ofCapacity capacity)
        (before ++ allDeeds (w, r) vs) x.1 := by
      have hbefore : Trace (OwnStep Sink.handle) (.ofCapacity capacity) before
          ((World.ofCapacity capacity).actAll before) := Trace.actAll before .start
      exact (interplay _ _ _ _).trace_run vs (trace_begin h hbefore)
    exact horderly.justified htrace ((hstopped reason).1 hr)
  · exact exists_abandons vs (by simp [isOver, hlooping]) (hr ▸ hend)
  · obtain ⟨reason, hp⟩ := World.poll_of_stopVisible Sink.handle (play (w, r) pre).2.sink hv
    exact ⟨reason, hhalted pre post hsplit hl reason hp⟩

/-- In its second turn the run has reached its limit, and would be aborted, but the search has found
a strategy. -/
theorem ending_truthful_strategy_at_limit :
    let domain : Domain := ⟨0, 3, by decide, by decide, by decide⟩
    let m : Model :=
      ⟨.closed, [⟨"x", ⟨0⟩, .decision .existential, .int, domain⟩], [], [("x", ⟨0⟩)], 0⟩
    let monitor : Monitor := .composite [.recorder "all", .composite [.sampleLimit ⟨1, 0⟩]]
    let before : List Action := [.notify .failure]
    let vs : List Move := [.step, .act (.notify .strategyFound), .step]
    ∃ w r o, begin ((World.ofCapacity 1).actAll before) ⟨0, false⟩ m UniformSampler.mk
        (⟨#[], 0⟩ : WordCycle) ConstraintScorer.mk monitor = .ok (w, r)
      ∧ (play (w, r) [.step, .step]).2.stage = .ended (.aborted "sample limit reached")
      ∧ (play (w, r) vs).2.outcome? = some o ∧ o.reason = .stopped .strategyFound
      ∧ StopReason.Justified (before ++ allDeeds (w, r) vs) (play (w, r) vs).1 .strategyFound := by
  intro domain m monitor before vs
  have h : begin ((World.ofCapacity 1).actAll before) ⟨0, false⟩ m UniformSampler.mk
    (⟨#[], 0⟩ : WordCycle) ConstraintScorer.mk monitor = .ok (_, _) := rfl
  refine ⟨_, _, _, h, by decide +kernel, (Option.some_get (by decide +kernel)).symm, ?_⟩
  obtain ⟨-, hstopped, hjustified, -⟩ := ending_truthful h vs (Option.some_get _).symm
  have hreason := (hstopped .strategyFound).2 (by decide +kernel)
  exact ⟨hreason, hjustified .strategyFound hreason⟩

end Run

end ScenarioSampling
