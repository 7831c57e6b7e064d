import Mathlib.Logic.Relation
import Mathlib.Tactic.Set
import ScenarioSampling.Bridge.Endpoint
import ScenarioSampling.Proofs.Others

/-!
# Accesses

A call of a worker whose end of the bridge has not stopped is a chain of accesses, with others in
between: it reads an event, heeds a stop request, finds the search gone, or turns to the search with
a report. `Access` lists what each of them does and when it can happen, `poll_accesses`,
`emit_accesses` and `resume_accesses` say that the calls do nothing else, and what they answer. An
invariant of the bridge is thus checked on single accesses.
-/

namespace ScenarioSampling

open Relation

variable {η : Type}

namespace World

/-- What a worker is told about going on. -/
def flow (w : World) : Flow :=
  match w.channel.stopped with
  | none => .proceed
  | some reason => .halt reason

theorem flow_of_none {w : World} (h : w.channel.stopped = none) : w.flow = .proceed := by
  unfold flow
  rw [h]

theorem flow_of_some {w : World} {reason : StopReason} (h : w.channel.stopped = some reason) :
    w.flow = .halt reason := by
  unfold flow
  rw [h]

theorem stopped_of_flow {w : World} (h : w.flow = .proceed) : w.channel.stopped = none := by
  unfold flow at h
  split at h
  · assumption
  · cases h

theorem stopped_of_flow_halt {w : World} {reason : StopReason} (h : w.flow = .halt reason) :
    w.channel.stopped = some reason := by
  unfold flow at h
  split at h
  · cases h
  · cases h
    assumption

/-- The stop signal after a worker has found a request: a token that was there may be gone, and the
flag may be up instead. -/
def Heeded (s s' : StopSignal) : Prop :=
  (s' = s ∧ (s.raised = true ∨ s.owners = 0))
    ∨ s.token = true ∧ ∃ raised, (s.raised = true → raised = true)
      ∧ s' = { s with token := false, raised := raised }

theorem halt_eq {w : World} (h : w.channel.stopped = none) (reason : StopReason) :
    w.halt reason
      = (.halt reason, { w with channel := { w.channel with stopped := some reason } }) := by
  simp [halt, h]

end World

open World

/-- One access of a worker inside a call, or what others do before it. `P` are the reports that the
call may send. -/
inductive Access (handle : Handler η) (P : Report → Prop) : World × η → World × η → Prop where
  | others {w w' h} : Disturbed w w' → Access handle P (w, h) (w', h)
  | read {w h e rest} : w.channel.stopped = none → w.channel.inbound = e :: rest →
      Access handle P (w, h) (dispatch handle (w.withInbound rest) h e).2
  /-- The queue is empty, and nobody will fill it. -/
  | exhausted {w h} : w.channel.stopped = none → w.channel.inbound = [] →
      w.channel.searchAlive = false → Access handle P (w, h) ((w.halt .searchDisconnected).2, h)
  | heed {w h s} : w.channel.stopped = none → Heeded w.stop s →
      Access handle P (w, h) (({ w with stop := s }.halt .stopRequested).2, h)
  | send {w h r} : w.channel.stopped = none → P r → w.channel.searchAlive = true →
      w.channel.hasRoom = true → Access handle P (w, h) (w.send r, h)
  | bounce {w h r} : w.channel.stopped = none → P r → w.channel.searchAlive = false →
      Access handle P (w, h) ((w.bounce r).2, h)

/-- A chain of accesses. -/
abbrev Accesses (handle : Handler η) (P : Report → Prop) : World × η → World × η → Prop :=
  ReflTransGen (Access handle P)

section Chain

variable {handle : Handler η} {P Q : Report → Prop}

theorem Access.mono (hPQ : ∀ r, P r → Q r) {a b : World × η} (h : Access handle P a b) :
    Access handle Q a b := by
  cases h with
  | others hd => exact .others hd
  | read hs hi => exact .read hs hi
  | exhausted hs hi hg => exact .exhausted hs hi hg
  | heed hs hh => exact .heed hs hh
  | send hs hP ha hr => exact .send hs (hPQ _ hP) ha hr
  | bounce hs hP hg => exact .bounce hs (hPQ _ hP) hg

theorem Accesses.mono (hPQ : ∀ r, P r → Q r) {a b : World × η} (h : Accesses handle P a b) :
    Accesses handle Q a b :=
  ReflTransGen.mono (fun _ _ => Access.mono hPQ) _ _ h

theorem Accesses.others {w w' : World} {h : η} (hd : Disturbed w w') :
    Accesses handle P (w, h) (w', h) :=
  .single (.others hd)

/-- What each access keeps, a chain of them keeps. -/
theorem Accesses.preserves {I : World × η → Prop}
    (hI : ∀ a b, Access handle P a b → I a → I b) {a b : World × η} (h : Accesses handle P a b)
    (ha : I a) : I b := by
  induction h with
  | refl => exact ha
  | tail _ hab ih => exact hI _ _ hab ih

end Chain

namespace World

variable (handle : Handler η) {P : Report → Prop}

section Changes

@[simp]
theorem withInbound_history (w : World) (es : List Event) : (w.withInbound es).history = w.history :=
  rfl

@[simp]
theorem withInbound_delivered (w : World) (es : List Event) :
    (w.withInbound es).delivered = w.delivered := rfl

@[simp]
theorem withInbound_channel (w : World) (es : List Event) :
    (w.withInbound es).channel = { w.channel with inbound := es } := rfl

@[simp]
theorem halt_history (w : World) (reason : StopReason) : (w.halt reason).2.history = w.history :=
  rfl

@[simp]
theorem halt_delivered (w : World) (reason : StopReason) :
    (w.halt reason).2.delivered = w.delivered := rfl

@[simp]
theorem halt_channel (w : World) (reason : StopReason) : (w.halt reason).2.channel
    = { w.channel with stopped := some (w.channel.stopped.getD reason) } := rfl

@[simp]
theorem send_history (w : World) (r : Report) : (w.send r).history = w.history.push (.sent r) := rfl

@[simp]
theorem send_delivered (w : World) (r : Report) : (w.send r).delivered = w.delivered := rfl

@[simp]
theorem send_channel (w : World) (r : Report) : (w.send r).channel = { w.channel with
    outbound := w.channel.outbound ++ [r]
    emitted := w.channel.emitted + 1 } := rfl

@[simp]
theorem bounce_history (w : World) (r : Report) :
    (w.bounce r).2.history = w.history.push (.bounced r) := rfl

@[simp]
theorem bounce_delivered (w : World) (r : Report) : (w.bounce r).2.delivered = w.delivered := rfl

@[simp]
theorem bounce_channel (w : World) (r : Report) : (w.bounce r).2.channel
    = { w.channel with stopped := some (w.channel.stopped.getD .searchDisconnected) } := rfl

@[simp]
theorem dispatch_history (w : World) (h : η) (e : Event) :
    (dispatch handle w h e).2.1.history = w.history.push (.read e) := by
  unfold dispatch
  simp only []
  split
  · rfl
  · rw [noteAll_history]
    rfl

@[simp]
theorem dispatch_delivered (w : World) (h : η) (e : Event) :
    (dispatch handle w h e).2.1.delivered = w.delivered := by
  unfold dispatch
  simp only []
  split
  · rfl
  · rw [noteAll_delivered]
    rfl

/-- Reading an event counts it and may stop the worker's end. -/
theorem dispatch_channel {w : World} (h : η) (e : Event) (hw : w.channel.stopped = none) :
    (dispatch handle w h e).2.1.channel = { w.channel with
      observed := countSucc w.channel.observed
      stopped := e.stopReason? } := by
  unfold dispatch
  simp only []
  split
  · rename_i reason he
    simp [halt, note, record, hw, he]
  · rename_i he
    simp [note, record, hw, he]

@[simp]
theorem dispatch_stop (w : World) (h : η) (e : Event) :
    (dispatch handle w h e).2.1.stop = w.stop := by
  unfold dispatch
  simp only []
  split
  · rfl
  · rw [noteAll_stop]
    rfl

@[simp]
theorem dispatch_script (w : World) (h : η) (e : Event) :
    (dispatch handle w h e).2.1.script = w.script := by
  unfold dispatch
  simp only []
  split
  · rfl
  · rw [noteAll_script]
    rfl

/-- What ends the search is not handed on. -/
theorem dispatch_sink (w : World) (h : η) (e : Event) : (dispatch handle w h e).2.2
    = if e.isTerminal then h else (handle e h).1 := by
  unfold dispatch
  simp only []
  split <;> rename_i he <;> simp [← Event.isSome_stopReason?, he]

end Changes

section Polling

theorem dispatch_flow {w : World} (h : η) (e : Event) (hw : w.channel.stopped = none) :
    (dispatch handle w h e).1 = (dispatch handle w h e).2.1.flow := by
  have hc := congrArg Channel.stopped (dispatch_channel handle h e hw)
  rcases he : e.stopReason? with _ | reason
  · rw [flow_of_none (hc.trans he)]
    simp [dispatch, he]
  · rw [flow_of_some (hc.trans he)]
    simp [dispatch, halt, note, record, hw, he]

theorem dispatch_accesses {w : World} {e : Event} {rest : List Event} (h : η)
    (hw : w.channel.stopped = none) (hin : w.channel.inbound = e :: rest) :
    Accesses handle P (w, h) (dispatch handle (w.withInbound rest) h e).2
      ∧ (dispatch handle (w.withInbound rest) h e).1
        = (dispatch handle (w.withInbound rest) h e).2.1.flow :=
  ⟨.single (.read hw hin), dispatch_flow handle h e hw⟩

/-- Looking at the stop signal finds a request, at the flag or at the token, or leaves all to
others. -/
theorem checkStop_visits (w : World) (h : η) :
    let flagged := w.visit .readFlag
    let taken := flagged.visit .takeToken
    w.checkStop h = (.proceed, taken, h)
      ∨ ∃ v s, (v = flagged ∨ v = taken) ∧ Heeded v.stop s
        ∧ w.checkStop h = (({ v with stop := s }.halt .stopRequested).1,
            ({ v with stop := s }.halt .stopRequested).2, h) := by
  set w₁ := w.visit .readFlag with hw₁
  set w₂ := w₁.visit .takeToken with hw₂
  unfold checkStop isStopRequested
  simp only [← hw₁, ← hw₂]
  by_cases hr : w₁.stop.raised = true
  · simp only [hr, if_true]
    exact .inr ⟨w₁, w₁.stop, .inl rfl, .inl ⟨rfl, .inl hr⟩, rfl⟩
  · by_cases ht : w₂.stop.token = true
    · simp only [hr, ht, if_true, Bool.false_eq_true, if_false]
      exact .inr ⟨w₂, _, .inr rfl, .inr ⟨ht, true, fun _ => rfl, rfl⟩, rfl⟩
    · by_cases ho : w₂.stop.owners = 0
      · simp only [hr, ht, ho, beq_self_eq_true, Bool.false_eq_true, if_false]
        exact .inr ⟨w₂, w₂.stop, .inr rfl, .inl ⟨rfl, .inr ho⟩, rfl⟩
      · have ho' : (w₂.stop.owners == 0) = false := by simpa using ho
        simp only [hr, ht, ho', Bool.false_eq_true, if_false]
        exact .inl trivial

/-- Looking at the stop signal, with others in between, finds a request or leaves all to them. -/
theorem checkStop_cases (w : World) (h : η) :
    (∃ v, Disturbed w v ∧ w.checkStop h = (.proceed, v, h))
      ∨ ∃ v s, Disturbed w v ∧ Heeded v.stop s
        ∧ w.checkStop h = (({ v with stop := s }.halt .stopRequested).1,
            ({ v with stop := s }.halt .stopRequested).2, h) := by
  have hflag : Disturbed w (w.visit .readFlag) := visit_disturbed w .readFlag
  have htoken := hflag.trans (visit_disturbed (w.visit .readFlag) .takeToken)
  rcases checkStop_visits w h with hv | ⟨v, s, rfl | rfl, hh, hv⟩
  · exact .inl ⟨_, htoken, hv⟩
  · exact .inr ⟨_, s, hflag, hh, hv⟩
  · exact .inr ⟨_, s, htoken, hh, hv⟩

theorem checkStop_accesses (w : World) (h : η) (hw : w.channel.stopped = none) :
    Accesses handle P (w, h) (w.checkStop h).2 ∧ (w.checkStop h).1 = (w.checkStop h).2.1.flow := by
  rcases checkStop_cases w h with ⟨v, hd, hv⟩ | ⟨v, s, hd, hh, hv⟩ <;> rw [hv]
  · exact ⟨.others hd, (flow_of_none (hd.stopped.trans hw)).symm⟩
  · have hs : v.channel.stopped = none := hd.stopped.trans hw
    refine ⟨(Accesses.others hd).tail (.heed hs hh), ?_⟩
    rw [halt_eq (by exact hs)]
    exact (flow_of_some rfl).symm

theorem readBatch_accesses : ∀ (n : Nat) (w : World) (h : η), w.channel.stopped = none →
    Accesses handle P (w, h) (readBatch handle n w h).2
      ∧ (readBatch handle n w h).1 = (readBatch handle n w h).2.1.flow
  | 0, w, h, hw => checkStop_accesses handle w h hw
  | n + 1, w, h, hw => by
    unfold readBatch
    simp only []
    have hd := visit_disturbed w .receive
    set w₁ := w.visit .receive
    have hs₁ : w₁.channel.stopped = none := hd.stopped.trans hw
    have hacc : Accesses handle P (w, h) (w₁, h) := .others hd
    split
    · rename_i e rest hin
      obtain ⟨hread, hflow⟩ := dispatch_accesses handle (P := P) h hs₁ hin
      rcases hr : dispatch handle (w₁.withInbound rest) h e with ⟨_ | reason, w₂, h₂⟩ <;>
        rw [hr] at hread hflow
      · obtain ⟨hrest, hf⟩ := readBatch_accesses n w₂ h₂ (stopped_of_flow hflow.symm)
        exact ⟨(hacc.trans hread).trans hrest, hf⟩
      · exact ⟨hacc.trans hread, hflow⟩
    · rename_i hin
      split
      · obtain ⟨hrest, hf⟩ := checkStop_accesses handle (P := P) w₁ h hs₁
        exact ⟨hacc.trans hrest, hf⟩
      · rename_i hg
        refine ⟨hacc.tail (.exhausted hs₁ hin (by simpa using hg)), ?_⟩
        simp only [halt_eq hs₁]
        exact (flow_of_some rfl).symm

theorem poll_of_stopped {w : World} {reason : StopReason} (hw : w.channel.stopped = some reason)
    (h : η) : poll handle w h = (.halt reason, w, h) := by
  unfold poll
  rw [hw]

theorem poll_accesses (w : World) (h : η) (hw : w.channel.stopped = none) :
    Accesses handle P (w, h) (poll handle w h).2
      ∧ (poll handle w h).1 = (poll handle w h).2.1.flow := by
  unfold poll
  rw [hw]
  exact readBatch_accesses handle pollBatch w h hw

/-- The state of a handler after some events. -/
def handleAll (es : List Event) (h : η) : η := es.foldl (fun h e => (handle e h).1) h

end Polling

section Reporting

/-- The answer to an attempt to report fits the world it leaves: a report only waits while the
worker's end has not stopped. -/
def Fits (r : Report) (w : World) : Emission → Prop
  | .flow f => f = w.flow
  | .refused _ => False
  | .waiting r' => r' = r ∧ w.channel.stopped = none

theorem bounce_flow {w : World} (hw : w.channel.stopped = none) (r : Report) :
    (w.bounce r).1 = (w.bounce r).2.flow := by
  unfold bounce
  rw [halt_eq (by exact hw)]
  exact (flow_of_some rfl).symm

theorem send_flow {w : World} (hw : w.channel.stopped = none) (r : Report) :
    (w.send r).flow = .proceed :=
  flow_of_none hw

theorem readyBranch?_isReady {w : World} {b : Branch} (h : w.readyBranch? = some b) :
    w.isReady b = true :=
  List.find?_some h

theorem heeded_of_readyBranch? {w : World} (h : w.readyBranch? = some .stop) :
    Heeded w.stop { w.stop with token := false } := by
  have hready : w.stop.token = true ∨ w.stop.owners = 0 := by
    simpa [isReady, StopSignal.isReady] using readyBranch?_isReady h
  by_cases ht : w.stop.token = true
  · exact .inr ⟨ht, w.stop.raised, id, rfl⟩
  · have ht' : w.stop.token = false := by simpa using ht
    exact .inl ⟨by rw [← ht'], .inr (hready.resolve_left ht)⟩

theorem hasRoom_of_readyBranch? {w : World} (h : w.readyBranch? = some .send)
    (ha : w.channel.searchAlive = true) : w.channel.hasRoom = true := by
  simpa [isReady, ha] using readyBranch?_isReady h

theorem gone_of_readyBranch? {w : World} (h : w.readyBranch? = some .inbound)
    (hin : w.channel.inbound = []) : w.channel.searchAlive = false := by
  simpa [isReady, hin] using readyBranch?_isReady h

theorem sendAtOnce_accesses {w : World} {r : Report} (h : η) (hw : w.channel.stopped = none)
    (hr : P r) : Accesses handle P (w, h) ((w.sendAtOnce r).2, h)
      ∧ ((w.sendAtOnce r).1 = none → (w.sendAtOnce r).2.channel.stopped = none)
      ∧ ∀ f, (w.sendAtOnce r).1 = some f → f = (w.sendAtOnce r).2.flow := by
  have hd := visit_disturbed w .offer
  unfold sendAtOnce
  simp only []
  set w₁ := w.visit .offer
  have hs₁ : w₁.channel.stopped = none := hd.stopped.trans hw
  have hacc : Accesses handle P (w, h) (w₁, h) := .others hd
  by_cases ha : w₁.channel.searchAlive = true
  · by_cases hroom : w₁.channel.hasRoom = true
    · simp only [ha, hroom, Bool.not_true, Bool.false_eq_true, if_true, if_false]
      refine ⟨hacc.tail (.send hs₁ hr ha hroom), by simp, ?_⟩
      rintro f ⟨⟩
      exact (send_flow hs₁ r).symm
    · simp only [ha, hroom, Bool.not_true, Bool.false_eq_true, if_false]
      exact ⟨hacc, fun _ => hs₁, by simp⟩
  · have hg : w₁.channel.searchAlive = false := by simpa using ha
    simp only [hg, Bool.not_false, if_true]
    refine ⟨hacc.tail (.bounce hs₁ hr hg), by simp, ?_⟩
    rintro f ⟨⟩
    exact bounce_flow hs₁ r

theorem wake_accesses {w : World} {r : Report} (h : η) (hw : w.channel.stopped = none)
    (hr : P r) : Accesses handle P (w, h) (wake handle w h r).2
      ∧ match (wake handle w h r).1 with
        | .over f => f = (wake handle w h r).2.1.flow
        | .again | .asleep => (wake handle w h r).2.1.channel.stopped = none := by
  have hd := visit_disturbed w .wait
  unfold wake
  simp only []
  set w₁ := w.visit .wait
  have hs₁ : w₁.channel.stopped = none := hd.stopped.trans hw
  have hacc : Accesses handle P (w, h) (w₁, h) := .others hd
  split
  · exact ⟨hacc, hs₁⟩
  · rename_i hb
    refine ⟨hacc.tail (.heed hs₁ (heeded_of_readyBranch? hb)), ?_⟩
    simp only []
    rw [halt_eq (by exact hs₁)]
    exact (flow_of_some rfl).symm
  · rename_i hb
    split
    · rename_i ha
      exact ⟨hacc.tail (.send hs₁ hr ha (hasRoom_of_readyBranch? hb ha)), (send_flow hs₁ r).symm⟩
    · rename_i ha
      exact ⟨hacc.tail (.bounce hs₁ hr (by simpa using ha)), bounce_flow hs₁ r⟩
  · rename_i hb
    split
    · rename_i hin
      refine ⟨hacc.tail (.exhausted hs₁ hin (gone_of_readyBranch? hb hin)), ?_⟩
      simp only [halt_eq hs₁]
      exact (flow_of_some rfl).symm
    · rename_i e rest hin
      obtain ⟨hread, hflow⟩ := dispatch_accesses handle (P := P) h hs₁ hin
      rcases hr : dispatch handle (w₁.withInbound rest) h e with ⟨_ | reason, w₂, h₂⟩ <;>
        rw [hr] at hread hflow
      · exact ⟨hacc.trans hread, stopped_of_flow hflow.symm⟩
      · exact ⟨hacc.trans hread, hflow⟩

theorem settle_accesses : ∀ (n : Nat) (w : World) (h : η) (r : Report),
    w.channel.stopped = none → P r → Accesses handle P (w, h) (settle handle n w h r).2
      ∧ Fits r (settle handle n w h r).2.1 (settle handle n w h r).1
  | 0, w, h, r, hw, _ => ⟨.refl, rfl, hw⟩
  | n + 1, w, h, r, hw, hr => by
    obtain ⟨hwake, hout⟩ := wake_accesses handle h hw hr
    unfold settle
    rcases hk : wake handle w h r with ⟨_ | _ | _, w₁, h₁⟩ <;> rw [hk] at hwake hout
    · exact ⟨hwake, hout⟩
    · obtain ⟨hsend, hnone, hsome⟩ := sendAtOnce_accesses handle h₁ hout hr
      rcases hs : w₁.sendAtOnce r with ⟨_ | f, w₂⟩ <;> rw [hs] at hsend hnone hsome
      · obtain ⟨hrest, hf⟩ := settle_accesses n w₂ h₁ r (hnone rfl) hr
        simp only [hs]
        exact ⟨(hwake.trans hsend).trans hrest, hf⟩
      · simp only [hs]
        exact ⟨hwake.trans hsend, hsome f rfl⟩
    · exact ⟨hwake, rfl, hout⟩

theorem resume_accesses {w : World} {r : Report} (h : η) (hw : w.channel.stopped = none)
    (hr : P r) : Accesses handle P (w, h) (resume handle w h r).2
      ∧ Fits r (resume handle w h r).2.1 (resume handle w h r).1 :=
  settle_accesses handle _ w h r hw hr

theorem emit_of_stopped {w : World} {reason : StopReason} (hw : w.channel.stopped = some reason)
    (h : η) (scenario : Scenario) (score : Nat) : emit handle w h scenario score
      = (.refused ⟨w.channel.emitted, reason⟩,
        w.note (.reportRefused ⟨w.channel.emitted, reason⟩), h) := by
  unfold emit
  rw [hw]

theorem emit_of_poll_halts {w w' : World} {h h' : η} {reason : StopReason}
    (hw : w.channel.stopped = none) (hp : poll handle w h = (.halt reason, w', h'))
    (scenario : Scenario) (score : Nat) :
    emit handle w h scenario score = (.flow (.halt reason), w', h') := by
  unfold emit
  simp only [hw, hp]

/-- What a worker reports right after a poll. -/
def draft (w : World) (scenario : Scenario) (score : Nat) : Report :=
  ⟨scenario, score, w.channel.emitted, w.channel.observed⟩

theorem emit_of_poll_proceeds {w w' : World} {h h' : η} (hw : w.channel.stopped = none)
    (hp : poll handle w h = (.proceed, w', h')) (scenario : Scenario) (score : Nat) :
    emit handle w h scenario score
      = match w'.sendAtOnce (w'.draft scenario score) with
        | (some flow, v) => (.flow flow, v, h')
        | (none, v) => resume handle v h' (w'.draft scenario score) := by
  unfold emit
  simp only [hw, hp]
  rfl

/-- What an attempt to report sends, it has written down right after its poll. -/
theorem emit_drafted {w w' : World} {h h' : η} (hw : w.channel.stopped = none)
    (hp : poll handle w h = (.proceed, w', h')) (scenario : Scenario) (score : Nat) :
    Accesses handle (· = w'.draft scenario score) (w', h') (emit handle w h scenario score).2
      ∧ Fits (w'.draft scenario score) (emit handle w h scenario score).2.1
        (emit handle w h scenario score).1 := by
  obtain ⟨-, hflow⟩ := poll_accesses handle (P := fun _ => False) w h hw
  rw [hp] at hflow
  obtain ⟨hsend, hnone, hsome⟩ := sendAtOnce_accesses handle (P := (· = w'.draft scenario score)) h'
    (stopped_of_flow hflow.symm) rfl
  rw [emit_of_poll_proceeds handle hw hp]
  rcases hs : w'.sendAtOnce (w'.draft scenario score) with ⟨_ | f, v⟩ <;> rw [hs] at hsend hnone hsome
  · obtain ⟨hrest, hf⟩ := resume_accesses handle (P := (· = w'.draft scenario score)) h' (hnone rfl)
      rfl
    exact ⟨hsend.trans hrest, hf⟩
  · exact ⟨hsend, hsome f rfl⟩

/-- Where nothing can be sent, the number of the next report stays. -/
theorem emitted_of_accesses {a b : World × η} (h : Accesses handle (fun _ => False) a b) :
    b.1.channel.emitted = a.1.channel.emitted := by
  refine h.preserves (I := fun c => c.1.channel.emitted = a.1.channel.emitted) ?_ rfl
  intro c d hcd hc
  cases hcd with
  | others hd => exact hd.emitted.trans hc
  | read hs hi =>
    rw [dispatch_channel handle _ _ (by exact hs)]
    exact hc
  | exhausted | heed => exact hc
  | send _ hP | bounce _ hP => exact hP.elim

/-- A report that is sent carries what was to be reported and the next number. -/
def Drafted (w : World) (scenario : Scenario) (score : Nat) (r : Report) : Prop :=
  r.scenario = scenario ∧ r.score = score ∧ r.sequence = w.channel.emitted

theorem emit_accesses {w : World} (h : η) (scenario : Scenario) (score : Nat)
    (hw : w.channel.stopped = none) :
    Accesses handle (w.Drafted scenario score) (w, h) (emit handle w h scenario score).2
      ∧ ∃ r, w.Drafted scenario score r
        ∧ Fits r (emit handle w h scenario score).2.1 (emit handle w h scenario score).1 := by
  obtain ⟨hpoll, hflow⟩ := poll_accesses handle (P := fun _ => False) w h hw
  have hem := emitted_of_accesses handle hpoll
  replace hpoll := hpoll.mono (Q := w.Drafted scenario score) fun _ => False.elim
  rcases hp : poll handle w h with ⟨_ | reason, w₁, h₁⟩ <;> rw [hp] at hpoll hflow hem
  · have hdr : w.Drafted scenario score (w₁.draft scenario score) := ⟨rfl, rfl, hem⟩
    obtain ⟨hsend, hf⟩ := emit_drafted handle hw hp scenario score
    exact ⟨hpoll.trans (hsend.mono fun r hr => hr ▸ hdr), _, hdr, hf⟩
  · rw [emit_of_poll_halts handle hw hp]
    exact ⟨hpoll, ⟨scenario, score, w.channel.emitted, 0⟩, ⟨rfl, rfl, rfl⟩, hflow⟩

/-! After a stop nothing is accessed. -/

theorem poll_accesses_always (w : World) (h : η) : Accesses handle P (w, h) (poll handle w h).2 := by
  rcases hw : w.channel.stopped with _ | reason
  · exact (poll_accesses handle w h hw).1
  · rw [poll_of_stopped handle hw]

theorem emit_accesses_always (w : World) (h : η) (scenario : Scenario) (score : Nat) :
    Accesses handle (w.Drafted scenario score) (w, h) (emit handle w h scenario score).2
      ∧ ∀ r, (emit handle w h scenario score).1 = .waiting r →
        w.Drafted scenario score r ∧ (emit handle w h scenario score).2.1.channel.stopped = none := by
  rcases hw : w.channel.stopped with _ | reason
  · obtain ⟨hacc, r, hr, hf⟩ := emit_accesses handle h scenario score hw
    refine ⟨hacc, fun r' hr' => ?_⟩
    rw [hr'] at hf
    exact ⟨hf.1 ▸ hr, hf.2⟩
  · rw [emit_of_stopped handle hw]
    exact ⟨.others (.of_eq rfl rfl rfl), fun r hr => by cases hr⟩

end Reporting

end World

end ScenarioSampling
