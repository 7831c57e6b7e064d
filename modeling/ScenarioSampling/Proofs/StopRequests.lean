import ScenarioSampling.Proofs.Delivery
import ScenarioSampling.Proofs.Lasting

/-!
# Stop requests

A request raises the flag and then leaves a token; the worker looks at the flag and then at the
token, or waits for the token alone. The token is taken in two places, a second one is dropped, and
only one of the places raises the flag for a token it takes. No request is lost in between: once one
has returned, the token is there until the worker has stopped, so that a poll or an attempt to
report stops, and a request that was found once is found again (`request_never_lost`).

A `Trace` is any interleaving, down to single steps.
-/

namespace ScenarioSampling

open Transfer

variable {η : Type}

section Interleaving

/-- The worker takes steps in `R` from `w₀` on, and the others do `as` in between. -/
inductive Trace (R : World → World → Prop) (w₀ : World) : List Action → World → Prop where
  | start : Trace R w₀ [] w₀
  | act {as w} a : Trace R w₀ as w → Trace R w₀ (as ++ [a]) (w.act a)
  /-- The others change their mind about what they do inside the next calls. -/
  | plan {as w} script : Trace R w₀ as w → Trace R w₀ as { w with script := script }
  | own {as w w'} : R w w' → Trace R w₀ as w → Trace R w₀ as w'

theorem Trace.actAll {R : World → World → Prop} {w₀ : World} : ∀ (bs : List Action)
    {as : List Action} {w : World}, Trace R w₀ as w → Trace R w₀ (as ++ bs) (w.actAll bs)
  | [], as, w, h => by simpa [World.actAll] using h
  | b :: bs, as, w, h => by
    rw [List.append_cons]
    exact Trace.actAll bs (h.act b)

/-- What others still plan to do inside the next calls. -/
def World.planned (w : World) : List Action := w.script.flatMap Turn.actions

/-- Along a call others carry out the front of their plan. -/
theorem unbroken_trace (handle : Handler η) (w₀ : World) (before plan : List Action) :
    Unbroken handle fun w => ∃ as, Trace (OwnStep handle) w₀ (before ++ as) w
      ∧ plan = as ++ w.planned where
  visit p h := by
    obtain ⟨as, htrace, hplan⟩ := h
    rename_i w
    unfold World.visit
    split
    · exact ⟨as, htrace, hplan⟩
    · rename_i turn rest hw
      have hturn : w.planned = turn.actions ++ rest.flatMap Turn.actions := by
        simp [World.planned, hw]
      split_ifs
      · split
        · refine ⟨as ++ turn.actions, ?_, ?_⟩
          · rw [← List.append_assoc]
            exact (htrace.plan rest).actAll turn.actions
          · rw [World.planned, World.actAll_script, hplan, hturn, List.append_assoc]
        · exact ⟨as, htrace.plan _, by rw [hplan, hturn]; rfl⟩
      · exact ⟨as, htrace, hplan⟩
  own hstep h := by
    obtain ⟨as, htrace, hplan⟩ := h
    refine ⟨as, htrace.own hstep, ?_⟩
    rw [hplan]
    cases hstep with
    | read => rw [World.planned, World.planned, World.dispatch_script]; rfl
    | note | exhausted | heed | send | bounce => rfl

theorem Trace.meddle {R : World → World → Prop} {w₀ w : World} {as : List Action}
    (h : Trace R w₀ as w) : ∀ a : Meddling, Trace R w₀ (as ++ a.actions) (a.onWorld w)
  | .act a => h.act a
  | .plan script => by
    rw [Meddling.actions, List.append_nil]
    exact h.plan script

namespace Interplay

variable {handle : Handler η} {X M : Type} (p : Interplay handle X M)

/-- What others do in a move: what is theirs, or what a call carries out of their plan. -/
def deeds (x : X) (m : M) : List Action :=
  match p.meddling? m with
  | some a => a.actions
  | none =>
    let planned := (p.world x).planned
    planned.take (planned.length - (p.world (p.next x m)).planned.length)

/-- What others do in the course of these moves. -/
def allDeeds (x : X) : List M → List Action
  | [] => []
  | m :: ms => p.deeds x m ++ allDeeds (p.next x m) ms

variable {w₀ : World}

theorem trace_next {before : List Action} {x : X} (m : M)
    (hx : Trace (OwnStep handle) w₀ before (p.world x)) :
    Trace (OwnStep handle) w₀ (before ++ p.deeds x m) (p.world (p.next x m)) := by
  unfold deeds
  rcases hm : p.meddling? m with _ | a
  · obtain ⟨as, htrace, hplan⟩ := p.calls
      (unbroken_trace handle w₀ before (p.world x).planned) hm ⟨[], by simpa using hx, rfl⟩
    simp only []
    rw [hplan, List.length_append, Nat.add_sub_cancel, List.take_left]
    exact htrace
  · rw [p.meddles x hm]
    exact hx.meddle a

/-- Any moves are an interleaving, down to single steps, with all that others do. -/
theorem trace_run : ∀ (ms : List M) {before : List Action} {x : X},
    Trace (OwnStep handle) w₀ before (p.world x) →
    Trace (OwnStep handle) w₀ (before ++ p.allDeeds x ms) (p.world (ms.foldl p.next x))
  | [], before, x, hx => by
    rw [allDeeds, List.append_nil]
    exact hx
  | m :: ms, before, x, hx => by
    rw [allDeeds, ← List.append_assoc]
    exact trace_run ms (p.trace_next m hx)

end Interplay

/-- What others do in the course of these moves of an exchange. -/
def Exchange.allDeeds (handle : Handler η) (x : Exchange η) (ms : List Move) : List Action :=
  (Exchange.interplay handle).allDeeds x ms

end Interleaving

section Token

namespace StopSignal

/-- The stop signal after what others do, if the worker leaves it alone. -/
def after (s : StopSignal) (as : List Action) : StopSignal := as.foldl (fun s a => a.onStop s) s

/-- In the course of `as` a request returns: one that is underway leaves its token. -/
def Returns (s : StopSignal) (as : List Action) : Prop :=
  ∃ before later, as = before ++ .leaveToken :: later ∧ 0 < (s.after before).underway

theorem Returns.of_concat {s : StopSignal} {as : List Action} {a : Action}
    (h : s.Returns (as ++ [a])) : s.Returns as ∨ a = .leaveToken ∧ 0 < (s.after as).underway := by
  obtain ⟨before, later, hsplit, hpos⟩ := h
  rcases List.eq_nil_or_concat later with rfl | ⟨later, b, rfl⟩
  · obtain ⟨rfl, ha⟩ := List.append_inj' hsplit rfl
    exact .inr ⟨List.singleton_inj.1 ha, hpos⟩
  · rw [List.concat_eq_append, ← List.cons_append, ← List.append_assoc] at hsplit
    exact .inl ⟨before, later, (List.append_inj' hsplit rfl).1, hpos⟩

theorem onStop_owners {s t : StopSignal} (ho : s.owners = t.owners) (hu : s.underway = t.underway)
    (a : Action) : (a.onStop s).owners = (a.onStop t).owners
      ∧ (a.onStop s).underway = (a.onStop t).underway := by
  cases a with
  | raiseStop | leaveToken | addOwner | dropOwner =>
    simp only [Action.onStop, raise, leaveToken, addOwner, dropOwner, ho, hu]
    split_ifs <;> simp [ho, hu]
  | _ => exact ⟨ho, hu⟩

theorem onStop_token {s : StopSignal} (h : s.token = true) (a : Action) :
    (a.onStop s).token = true := by
  cases a with
  | raiseStop | leaveToken | addOwner | dropOwner =>
    simp [Action.onStop, raise, leaveToken, addOwner, dropOwner, apply_ite StopSignal.token, h]
  | _ => exact h

theorem onStop_raised {s : StopSignal} (h : s.raised = true) (a : Action) :
    (a.onStop s).raised = true := by
  cases a with
  | raiseStop | leaveToken | addOwner | dropOwner =>
    simp [Action.onStop, raise, leaveToken, addOwner, dropOwner, apply_ite StopSignal.raised, h]
  | _ => exact h

/-- Once all owners are gone, nobody becomes one. -/
theorem onStop_orphaned {s : StopSignal} (h : s.owners = 0) (a : Action) :
    (a.onStop s).owners = 0 := by
  cases a with
  | raiseStop | leaveToken | addOwner | dropOwner =>
    simp [Action.onStop, raise, leaveToken, addOwner, dropOwner, apply_ite StopSignal.owners, h]
  | _ => exact h

end StopSignal

namespace World

theorem Heeded.owners {s s' : StopSignal} (h : Heeded s s') :
    s'.owners = s.owners ∧ s'.underway = s.underway := by
  rcases h with ⟨rfl, -⟩ | ⟨-, raised, -, rfl⟩
  · exact ⟨rfl, rfl⟩
  · exact ⟨rfl, rfl⟩

theorem Heeded.raised {s s' : StopSignal} (h : Heeded s s') (hr : s.raised = true) :
    s'.raised = true := by
  rcases h with ⟨rfl, -⟩ | ⟨-, raised, hraised, rfl⟩
  · exact hr
  · exact hraised hr

/-- What neither the others nor a worker that finds a request changes about the signal. -/
theorem lasting_signal (handle : Handler η) {I : StopSignal → Prop}
    (hact : ∀ {s} (a : Action), I s → I (a.onStop s)) (hheed : ∀ {s s'}, Heeded s s' → I s → I s') :
    Lasting handle fun w => I w.stop where
  act {w} a hw := by
    rw [act_stop]
    exact hact a hw
  script _ hw := hw
  own hstep hw := by
    cases hstep with
    | read =>
      rw [dispatch_stop]
      exact hw
    | heed hh => exact hheed hh hw
    | note | exhausted | send | bounce => exact hw

theorem visit_signal {I : StopSignal → Prop} (hact : ∀ {s} (a : Action), I s → I (a.onStop s))
    {w : World} (p : Point) (hw : I w.stop) : I (w.visit p).stop := by
  refine visit_keeps (I := fun w => I w.stop) (fun {w} a h => ?_) (fun _ h => h) p hw
  rw [act_stop]
  exact hact a h

variable (handle : Handler η)

/-- Reading an event does not make a worker listen again. -/
theorem dispatch_listens {w : World} {h : η} {e : Event} {rest : List Event}
    (hs : (dispatch handle (w.withInbound rest) h e).2.1.channel.stopped = none) :
    w.channel.stopped = none := by
  unfold dispatch at hs
  simp only [] at hs
  split at hs
  · simp [halt] at hs
  · simpa [note, record] using hs

/-- A token that is there stays until the worker has stopped. -/
theorem lasting_token :
    Lasting handle fun w => w.channel.stopped = none → w.stop.token = true where
  act {w} a hw hs := by
    rw [act_stop]
    exact StopSignal.onStop_token (hw ((act_disturbed w a).stopped ▸ hs)) a
  script _ hw := hw
  own hstep hw hs := by
    cases hstep with
    | read =>
      rw [dispatch_stop]
      exact hw (dispatch_listens handle hs)
    | exhausted | heed | bounce => simp at hs
    | note | send => exact hw hs

end World

section Traces

variable {handle : Handler η} {w₀ w : World} {as : List Action}

/-- Who owns the signal and which requests are underway is up to the others. -/
theorem Trace.owners (h : Trace (OwnStep handle) w₀ as w) :
    w.stop.owners = (w₀.stop.after as).owners
      ∧ w.stop.underway = (w₀.stop.after as).underway := by
  induction h with
  | start => exact ⟨rfl, rfl⟩
  | act a _ ih =>
    rw [World.act_stop, StopSignal.after, List.foldl_append]
    exact StopSignal.onStop_owners ih.1 ih.2 a
  | plan _ _ ih => exact ih
  | own hstep _ ih =>
    cases hstep with
    | read =>
      rw [World.dispatch_stop]
      exact ih
    | heed hh =>
      exact ⟨(World.Heeded.owners hh).1.trans ih.1, (World.Heeded.owners hh).2.trans ih.2⟩
    | note | exhausted | send | bounce => exact ih

/-- A request that has returned has left its token, and the token stays until the worker stops. -/
theorem Trace.token (h : Trace (OwnStep handle) w₀ as w) (hr : w₀.stop.Returns as) :
    w.channel.stopped = none → w.stop.token = true := by
  induction h with
  | start =>
    obtain ⟨before, later, hsplit, -⟩ := hr
    cases before <;> cases hsplit
  | act a htrace ih =>
    rcases hr.of_concat with hr | ⟨rfl, hpos⟩
    · exact (World.lasting_token handle).act a (ih hr)
    · intro _
      rw [← htrace.owners.2] at hpos
      simp [World.act, World.onStop, StopSignal.leaveToken, hpos]
  | plan _ _ ih => exact ih hr
  | own hstep _ ih => exact (World.lasting_token handle).own hstep (ih hr)

end Traces

end Token

section Finding

namespace World

theorem token_of_not_requested {w : World} (h : w.isStopRequested.1 = false) :
    w.isStopRequested.2.stop.token = false := by
  unfold isStopRequested at h ⊢
  simp only [] at h ⊢
  split_ifs at h ⊢ with hr ht
  simpa using ht

/-- A worker that looks at the stop signal goes on only without a token. -/
theorem checkStop_proceeds {w : World} {h : η} (hp : (w.checkStop h).1 = .proceed) :
    (w.checkStop h).2.1.stop.token = false := by
  unfold checkStop at hp ⊢
  rcases hq : w.isStopRequested with ⟨_ | _, v⟩ <;> rw [hq] at hp
  · have htoken := token_of_not_requested (congrArg Prod.fst hq)
    rw [hq] at htoken
    exact htoken
  · simp [halt] at hp

variable (handle : Handler η)

theorem readBatch_proceeds : ∀ (n : Nat) {w : World} {h : η},
    (readBatch handle n w h).1 = .proceed →
      (readBatch handle n w h).2.1.stop.token = false
  | 0, _, _, hp => checkStop_proceeds hp
  | n + 1, w, h, hp => by
    unfold readBatch at hp ⊢
    simp only [] at hp ⊢
    rcases hin : (w.visit .receive).channel.inbound with _ | ⟨e, rest⟩ <;> rw [hin] at hp
    · simp only [] at hp ⊢
      split_ifs at hp ⊢ with ha
      · exact checkStop_proceeds hp
      · simp [halt] at hp
    · simp only [] at hp ⊢
      rcases hr : dispatch handle ((w.visit .receive).withInbound rest) h e with
        ⟨_ | reason, w₂, h₂⟩ <;> rw [hr] at hp
      · exact readBatch_proceeds n hp
      · cases hp

/-- While the token is there, a poll of a worker that listens stops it. -/
theorem poll_heeds {w : World} (h : η) (hs : w.channel.stopped = none)
    (ht : w.stop.token = true) : ∃ reason, (poll handle w h).1 = .halt reason := by
  have hflow := (poll_accesses handle (P := fun _ => False) w h hs).2
  rcases hp : (poll handle w h).1 with _ | reason
  · rw [hp] at hflow
    have htoken := (lasting_token handle).unbroken.poll h (fun _ => ht)
      (stopped_of_flow hflow.symm)
    unfold poll at hp htoken
    rw [hs] at hp htoken
    rw [readBatch_proceeds handle pollBatch hp] at htoken
    cases htoken
  · exact ⟨reason, rfl⟩

/-- While the token is there, an attempt to report stops a worker that listens and sends nothing. -/
theorem emit_heeds {w : World} (h : η) (scenario : Scenario) (score : Nat)
    (hs : w.channel.stopped = none) (ht : w.stop.token = true) :
    ∃ reason, (emit handle w h scenario score).1 = .flow (.halt reason) := by
  obtain ⟨reason, hpoll⟩ := poll_heeds handle h hs ht
  rcases hp : poll handle w h with ⟨f, w', h'⟩
  rw [hp] at hpoll
  subst hpoll
  exact ⟨reason, congrArg Prod.fst (emit_of_poll_halts handle hs hp scenario score)⟩

/-- The worker can see that there was a request, or that there will be none. -/
def Informed (s : StopSignal) : Prop := s.raised = true ∨ s.owners = 0

theorem informed_of_requested {w : World} (h : w.isStopRequested.1 = true) :
    Informed w.isStopRequested.2.stop := by
  unfold isStopRequested at h ⊢
  simp only [] at h ⊢
  split_ifs at h ⊢ with hr ht
  · exact .inl hr
  · exact .inl rfl
  · exact .inr (by simpa using h)

theorem visit_raised {w : World} (p : Point) (h : w.stop.raised = true) :
    (w.visit p).stop.raised = true :=
  visit_signal (I := fun s => s.raised = true) (fun a hs => StopSignal.onStop_raised hs a) p h

theorem visit_orphaned {w : World} (p : Point) (h : w.stop.owners = 0) :
    (w.visit p).stop.owners = 0 :=
  visit_signal (I := fun s => s.owners = 0) (fun a hs => StopSignal.onStop_orphaned hs a) p h

theorem requested_of_informed {w : World} (h : Informed w.stop) : w.isStopRequested.1 = true := by
  unfold isStopRequested
  simp only []
  split_ifs with hr ht
  · rfl
  · rfl
  · have ho : w.stop.owners = 0 := h.resolve_left fun hw => hr (visit_raised .readFlag hw)
    simpa using visit_orphaned .takeToken (visit_orphaned .readFlag ho)

theorem lasting_informed (handle : Handler η) : Lasting handle fun w => Informed w.stop :=
  lasting_signal handle
    (fun a h => h.imp (StopSignal.onStop_raised · a) (StopSignal.onStop_orphaned · a))
    fun hh h => h.imp hh.raised hh.owners.1.trans

/-- The worker takes steps of its calls, or somebody asks the stop signal at its end. -/
def Asking (handle : Handler η) (w w' : World) : Prop :=
  OwnStep handle w w' ∨ w' = w.isStopRequested.2

end World

theorem Trace.informed {handle : Handler η} {w₀ w : World} {as : List Action}
    (h : Trace (World.Asking handle) w₀ as w) (hw₀ : World.Informed w₀.stop) :
    World.Informed w.stop := by
  induction h with
  | start => exact hw₀
  | act a _ ih => exact (World.lasting_informed handle).act a ih
  | plan _ _ ih => exact ih
  | own hstep _ ih =>
    rcases hstep with hstep | rfl
    · exact (World.lasting_informed handle).own hstep ih
    · exact World.informed_of_requested (World.requested_of_informed ih)

end Finding

/-- Any number of owners request a stop while a worker polls, reports and waits, in any interleaving
down to single steps, of which every run is one. Once a request has returned, the token is there as
long as the worker has not stopped: a report that waits can be released, and a poll or an attempt to
report stops and sends nothing. Once a worker has found a request, at the flag or at a token that
came before it, it finds one whenever it asks again. -/
theorem request_never_lost (handle : Handler η) (capacity : Nat) :
    (∀ (h : η) (ms : List Move), Trace (OwnStep handle) (.ofCapacity capacity)
        ((Exchange.start capacity h).allDeeds handle ms)
        ((Exchange.start capacity h).run handle ms).world)
      ∧ (∀ as w, Trace (OwnStep handle) (.ofCapacity capacity) as w →
        StopSignal.initial.Returns as → w.channel.stopped = none →
        w.stop.token = true ∧ w.isReady .stop = true
          ∧ (∀ h, ∃ reason, (w.poll handle h).1 = .halt reason
            ∧ sends (w.poll handle h).2.1.history.toList = sends w.history.toList)
          ∧ ∀ h scenario score, ∃ reason,
            (w.emit handle h scenario score).1 = .flow (.halt reason)
              ∧ sends (w.emit handle h scenario score).2.1.history.toList
                = sends w.history.toList)
      ∧ ∀ (w : World) as w', w.isStopRequested.1 = true →
        Trace (World.Asking handle) w.isStopRequested.2 as w' → w'.isStopRequested.1 = true := by
  refine ⟨fun h ms => ?_, fun as w htrace hr hs => ?_,
    fun w as w' hw htrace =>
      World.requested_of_informed (htrace.informed (World.informed_of_requested hw))⟩
  · have hstart : Trace (OwnStep handle) (.ofCapacity capacity) []
        (Exchange.start capacity h).world := .start
    exact (Exchange.interplay handle).trace_run ms (x := Exchange.start capacity h) hstart
  have htoken : w.stop.token = true := htrace.token hr hs
  refine ⟨htoken, by simp [World.isReady, StopSignal.isReady, htoken], fun h => ?_,
    fun h scenario score => ?_⟩
  · obtain ⟨reason, hpoll⟩ := World.poll_heeds handle h hs htoken
    exact ⟨reason, hpoll, (World.poll_posted handle w h).sent.trans (List.append_nil _)⟩
  · obtain ⟨reason, hemit⟩ := World.emit_heeds handle h scenario score hs htoken
    obtain ⟨r, -, hposted⟩ := World.emit_posted handle w h scenario score
    rw [hemit] at hposted
    exact ⟨reason, hemit, hposted.sent.trans (List.append_nil _)⟩

/-- A request that begins while a report starts to wait and returns later has left its token, so
that the wait can end; and a token that is found before the flag is up is enough for the answers
after it, even if the owner lets go in between. -/
theorem request_never_lost_across_wait :
    let handle : Handler Unit := fun _ h => (h, [])
    let ms : List Move := [.emit ⟨[some 1]⟩ 5, .plan [⟨.wait, 0, [.raiseStop]⟩],
      .emit ⟨[some 2]⟩ 4, .act .leaveToken]
    let x := (Exchange.start 1 ()).run handle ms
    let v : World := { World.ofCapacity 1 with stop := ⟨false, true, 1, 0⟩ }
    StopSignal.initial.Returns ((Exchange.start 1 ()).allDeeds handle ms)
      ∧ x.waiting = some ⟨⟨[some 2]⟩, 4, 1, 0⟩ ∧ x.world.channel.stopped = none
      ∧ x.world.isReady .stop = true
      ∧ v.isStopRequested.1 = true
      ∧ (v.isStopRequested.2.act .dropOwner).isStopRequested.1 = true := by
  intro handle ms x v
  have hr : StopSignal.initial.Returns ((Exchange.start 1 ()).allDeeds handle ms) :=
    ⟨[.raiseStop], [], by decide +kernel, by decide⟩
  have hs : x.world.channel.stopped = none := by decide +kernel
  have hv : v.isStopRequested.1 = true := by decide
  obtain ⟨hrun, hreturned, hagain⟩ := request_never_lost handle 1
  refine ⟨hr, by decide +kernel, hs, (hreturned _ _ (hrun () ms) hr hs).2.1, hv, ?_⟩
  exact hagain v _ _ hv (.act .dropOwner .start)

end ScenarioSampling
