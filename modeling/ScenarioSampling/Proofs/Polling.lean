import ScenarioSampling.Proofs.Exchange
import ScenarioSampling.Proofs.Intake

/-!
# What a poll does

While the others leave alone what a poll goes by, a poll is settled by the world it finds. It reads
up to the first event that ends the search, but no more than a batch, and of the reasons to stop an
event in the batch comes first, then a search that is gone and has left less than a batch, then a
request. A full batch hides that the search is gone. Polls without a reason to stop read a backlog
batch by batch (`poll_settled`).
-/

namespace ScenarioSampling

open Transfer

variable {η : Type}

/-- The events that wait, the connection and the stop signal are left alone. -/
def Action.spares : Action → Bool
  | .readReport | .drain | .startReceiving | .stopReceiving | .interrupt _ | .tick _ | .favour _ =>
    true
  | _ => false

/-- Inside the next calls, the others leave alone what a poll goes by. -/
def World.Spared (w : World) : Prop := ∀ turn ∈ w.script, ∀ a ∈ turn.actions, a.spares = true

/-- A poll finds nothing changed. -/
structure Unmoved (w w' : World) : Prop where
  inbound : w'.channel.inbound = w.channel.inbound
  searchAlive : w'.channel.searchAlive = w.channel.searchAlive
  observed : w'.channel.observed = w.channel.observed
  stopped : w'.channel.stopped = w.channel.stopped
  stop : w'.stop = w.stop
  history : w'.history = w.history

namespace Unmoved

variable {w w' w'' : World}

theorem of_eq (hc : w'.channel = w.channel) (hs : w'.stop = w.stop) (hh : w'.history = w.history) :
    Unmoved w w' := by
  constructor <;> simp [hc, hs, hh]

theorem refl (w : World) : Unmoved w w := of_eq rfl rfl rfl

theorem trans (h : Unmoved w w') (h' : Unmoved w' w'') : Unmoved w w'' where
  inbound := h'.inbound.trans h.inbound
  searchAlive := h'.searchAlive.trans h.searchAlive
  observed := h'.observed.trans h.observed
  stopped := h'.stopped.trans h.stopped
  stop := h'.stop.trans h.stop
  history := h'.history.trans h.history

end Unmoved

namespace World

theorem tryNext_unmoved (w : World) : Unmoved w w.tryNext.2 := by
  obtain ⟨hh, last, receiving, hc⟩ := takeFresh_rest w.channel.outbound w
  change w.tryNext.2.channel = _ at hc
  have hstop : w.tryNext.2.stop = w.stop := (takeFresh_aside w.channel.outbound w).stop
  constructor <;> first | exact hstop | exact hh | rw [hc]

theorem drainAtMost_unmoved : ∀ (n : Nat) (w : World), Unmoved w (w.drainAtMost n).2
  | 0, w => .refl w
  | n + 1, w => by
    have h := tryNext_unmoved w
    unfold drainAtMost
    rcases hw : w.tryNext with ⟨_ | r, w'⟩ <;> rw [hw] at h
    · exact h
    · exact h.trans (drainAtMost_unmoved n w')

theorem act_unmoved {a : Action} (h : a.spares = true) (w : World) : Unmoved w (w.act a) := by
  cases a with
  | readReport =>
    unfold act
    split_ifs
    · exact tryNext_unmoved w
    · exact .refl w
  | drain =>
    unfold act
    split_ifs
    · exact drainAtMost_unmoved _ w
    · exact .refl w
  | startReceiving =>
    unfold act
    split_ifs
    · exact ⟨rfl, rfl, rfl, rfl, rfl, rfl⟩
    · exact .refl w
  | stopReceiving | interrupt | tick | favour => exact ⟨rfl, rfl, rfl, rfl, rfl, rfl⟩
  | _ => cases h

theorem visit_unmoved {w : World} (h : w.Spared) (p : Point) :
    Unmoved w (w.visit p) ∧ (w.visit p).Spared :=
  visit_keeps_of (fun _ ha hw => hw.trans (act_unmoved ha _))
    (fun _ hw => hw.trans (.of_eq rfl rfl rfl)) p h (.refl w)

section Poll

/-- The reason to stop that a worker finds which may read `n` events before it looks further. -/
def verdict (n : Nat) (w : World) : Option StopReason :=
  match (w.channel.inbound.take n).findSome? Event.stopReason? with
  | some reason => some reason
  | none =>
    if w.channel.searchAlive = false ∧ w.channel.inbound.length < n then some .searchDisconnected
    else if w.stop.raised = true ∨ w.stop.token = true ∨ w.stop.owners = 0 then some .stopRequested
    else none

/-- How many of `queue` a worker reads which may read `n` events. -/
def batchLength (n : Nat) (queue : List Event) : Nat :=
  min (min queue.length n) (queue.findIdx Event.isTerminal + 1)

variable (handle : Handler η)

/-- What reading from `w` on comes to in `a`, of at most `n` events. -/
structure Batched (n : Nat) (w : World) (h : η) (a : World × η) : Prop where
  inbound : a.1.channel.inbound = w.channel.inbound.drop (batchLength n w.channel.inbound)
  history : a.1.history.toList = w.history.toList
    ++ (w.channel.inbound.take (batchLength n w.channel.inbound)).map .read
  observed : a.1.channel.observed
    = countSucc^[batchLength n w.channel.inbound] w.channel.observed
  sink : a.2 = handleAll handle
    ((w.channel.inbound.take (batchLength n w.channel.inbound)).filter fun e => !e.isTerminal) h
  stopped : a.1.channel.stopped = w.verdict n
  searchAlive : a.1.channel.searchAlive = w.channel.searchAlive
  /-- A token is taken only where it is the reason to stop. -/
  stop : w.verdict n = none → a.1.stop = w.stop
  spared : a.1.Spared

variable {handle} {n : Nat} {w w' : World} {h : η} {a : World × η}

theorem Unmoved.verdict (hu : Unmoved w w') (n : Nat) : w'.verdict n = w.verdict n := by
  simp only [World.verdict, hu.inbound, hu.searchAlive, hu.stop]

theorem Batched.of_unmoved (hu : Unmoved w w') (ha : Batched handle n w' h a) :
    Batched handle n w h a where
  inbound := by rw [ha.inbound, hu.inbound]
  history := by rw [ha.history, hu.inbound, hu.history]
  observed := by rw [ha.observed, hu.inbound, hu.observed]
  sink := by rw [ha.sink, hu.inbound]
  stopped := ha.stopped.trans (Unmoved.verdict hu n)
  searchAlive := ha.searchAlive.trans hu.searchAlive
  stop hv := (ha.stop ((Unmoved.verdict hu n).trans hv)).trans hu.stop
  spared := ha.spared

/-- Nothing is read where nothing may be, or nothing waits. -/
theorem Batched.of_unread {v : World} {s : StopSignal} (hq : w.channel.inbound.take n = [])
    (hu : Unmoved w w') (hw' : w'.Spared) (hs : w.verdict n = none → s = w'.stop)
    (hv : v = { w' with stop := s, channel := { w'.channel with stopped := w.verdict n } }) :
    Batched handle n w h (v, h) := by
  have hk : batchLength n w.channel.inbound = 0 := by
    have hlen := congrArg List.length hq
    rw [List.length_take, List.length_nil] at hlen
    unfold batchLength
    omega
  subst hv
  constructor
  · simp [hk, hu.inbound]
  · simp [hk, hu.history]
  · simp [hk, hu.observed]
  · simp [hk, handleAll]
  · rfl
  · exact hu.searchAlive
  · exact fun hnone => (hs hnone).trans hu.stop
  · exact hw'

/-- Where neither an event nor a search that is gone gives a reason to stop, a request does. -/
theorem checkStop_spared (h : η) (hs : w.channel.stopped = none) (hw : w.Spared)
    (hq : w.channel.inbound.take n = [])
    (hg : ¬ (w.channel.searchAlive = false ∧ w.channel.inbound.length < n)) :
    Batched handle n w h (w.checkStop h).2 := by
  obtain ⟨hflag, hflagged⟩ := visit_unmoved hw .readFlag
  obtain ⟨htoken, htaken⟩ := visit_unmoved hflagged .takeToken
  have hboth := hflag.trans htoken
  have hv : w.verdict n = if w.stop.raised = true ∨ w.stop.token = true ∨ w.stop.owners = 0 then
      some .stopRequested else none := by
    simp [verdict, hq, hg]
  set w₁ := w.visit .readFlag with hw₁
  set w₂ := w₁.visit .takeToken with hw₂
  unfold checkStop isStopRequested
  simp only [← hw₁, ← hw₂]
  simp only [hflag.stop, hboth.stop]
  by_cases hr : w.stop.raised = true
  · simp only [hr, if_true]
    exact .of_unread hq hflag hflagged (fun _ => rfl) (by simp [halt, hv, hr, hflag.stopped, hs])
  · by_cases ht : w.stop.token = true
    · simp only [hr, ht, if_true, Bool.false_eq_true, if_false]
      exact .of_unread (s := { w.stop with token := false, raised := true }) hq hboth htaken
        (by simp [hv, ht]) (by simp [halt, hv, ht, hboth.stopped, hs])
    · by_cases ho : w.stop.owners = 0
      · simp only [hr, ht, ho, beq_self_eq_true, Bool.false_eq_true, if_false]
        exact .of_unread hq hboth htaken (fun _ => rfl)
          (by simp [halt, hv, ho, hboth.stopped, hs])
      · have ho' : (w.stop.owners == 0) = false := by simpa using ho
        simp only [hr, ht, ho', Bool.false_eq_true, if_false]
        refine .of_unread hq hboth htaken (fun _ => rfl) ?_
        rw [hv, if_neg (by simp [hr, ht, ho]), ← hboth.stopped.trans hs]

theorem batchLength_cons (n : Nat) (e : Event) (rest : List Event) : batchLength (n + 1) (e :: rest)
    = if e.isTerminal then 1 else batchLength n rest + 1 := by
  unfold batchLength
  rw [List.length_cons, List.findIdx_cons]
  cases e.isTerminal
  · simp only [cond_false, Bool.false_eq_true, if_false]
    omega
  · simp only [cond_true, if_true]
    omega

/-- An event in front that ends the search is the last one read. -/
theorem Batched.last {e : Event} {rest : List Event} {v : World}
    (hin : w.channel.inbound = e :: rest) (he : e.isTerminal = true)
    (hv : v.channel = { w.channel with
      inbound := rest
      observed := countSucc w.channel.observed
      stopped := e.stopReason? })
    (hh : v.history = w.history.push (.read e)) (hsp : v.Spared) :
    Batched handle (n + 1) w h (v, h) := by
  obtain ⟨reason, hr⟩ := Event.exists_stopReason?_iff.2 he
  have hk : batchLength (n + 1) (e :: rest) = 1 := by rw [batchLength_cons, if_pos he]
  constructor
  · simp [hin, hk, hv]
  · simp [hin, hk, hh]
  · simp [hin, hk, hv]
  · simp [hin, hk, he, handleAll]
  · simp [verdict, hin, hv, hr]
  · rw [hv]
  · simp [verdict, hin, hr]
  · exact hsp

/-- An event in front that does not end the search is handed on, and reading goes on. -/
theorem Batched.cons {e : Event} {rest : List Event} {v : World}
    (hin : w.channel.inbound = e :: rest) (he : e.isTerminal = false)
    (hv : v.channel = { w.channel with
      inbound := rest
      observed := countSucc w.channel.observed
      stopped := e.stopReason? })
    (hstop : v.stop = w.stop) (hh : v.history = w.history.push (.read e))
    (ha : Batched handle n v (handle e h).1 a) : Batched handle (n + 1) w h a := by
  have hr : e.stopReason? = none := Event.stopReason?_eq_none_iff.2 he
  have hk : batchLength (n + 1) (e :: rest) = batchLength n rest + 1 := by
    rw [batchLength_cons, if_neg (by simp [he])]
  have hv' : v.channel.inbound = rest := by rw [hv]
  have hverdict : w.verdict (n + 1) = v.verdict n := by simp [verdict, hin, hv, hstop, hr]
  obtain ⟨ha₁, ha₂, ha₃, ha₄, ha₅, ha₆, ha₇, ha₈⟩ := ha
  rw [hv'] at ha₁ ha₂ ha₃ ha₄
  constructor
  · simp [hin, hk, ha₁]
  · simp [hin, hk, ha₂, hh]
  · rw [hin, hk, ha₃, hv, Function.iterate_succ_apply]
  · rw [ha₄, hin, hk, List.take_succ_cons, List.filter_cons_of_pos (by simp [he])]
    rfl
  · rw [ha₅, hverdict]
  · rw [ha₆, hv]
  · rw [hverdict, ← hstop]
    exact ha₇
  · exact ha₈

theorem readBatch_spared : ∀ (n : Nat) {w : World} (h : η), w.channel.stopped = none → w.Spared →
    Batched handle n w h (readBatch handle n w h).2
  | 0, w, h, hs, hw => checkStop_spared h hs hw List.take_zero (by simp)
  | n + 1, w, h, hs, hw => by
    obtain ⟨hu, hw₁⟩ := visit_unmoved hw .receive
    refine .of_unmoved hu ?_
    have hs₁ := hu.stopped.trans hs
    unfold readBatch
    simp only []
    set w₁ := w.visit .receive
    rcases hin : w₁.channel.inbound with _ | ⟨e, rest⟩
    · simp only []
      split_ifs with ha
      · exact checkStop_spared h hs₁ hw₁ (by rw [hin, List.take_nil]) (by simp [ha])
      · exact .of_unread (by rw [hin, List.take_nil]) (.refl w₁) hw₁ (fun _ => rfl)
          (by simp [halt, verdict, hin, hs₁, ha])
    · have hc := dispatch_channel handle (w := w₁.withInbound rest) h e hs₁
      have hh := dispatch_history handle (w₁.withInbound rest) h e
      have hsink := dispatch_sink handle (w₁.withInbound rest) h e
      have hstop := dispatch_stop handle (w₁.withInbound rest) h e
      have hscript := dispatch_script handle (w₁.withInbound rest) h e
      have hflow := dispatch_flow handle (w := w₁.withInbound rest) h e hs₁
      have hsp : (dispatch handle (w₁.withInbound rest) h e).2.1.Spared := by
        rw [Spared, hscript]
        exact hw₁
      simp only []
      rcases hr : dispatch handle (w₁.withInbound rest) h e with ⟨_ | reason, w₂, h₂⟩ <;>
        rw [hr] at hc hh hsink hstop hflow hsp
      · have he : e.isTerminal = false := by
          have hnone := stopped_of_flow hflow.symm
          rw [hc] at hnone
          exact Event.stopReason?_eq_none_iff.1 hnone
        simp only [he, Bool.false_eq_true, if_false] at hsink
        subst hsink
        exact .cons hin he hc hstop hh (readBatch_spared n _ (stopped_of_flow hflow.symm) hsp)
      · have he : e.isTerminal = true := by
          rcases hn : e.stopReason? with _ | reason'
          · rw [flow_of_none (by rw [hc]; exact hn)] at hflow
            cases hflow
          · simp [← Event.isSome_stopReason?, hn]
        simp only [he, if_true] at hsink
        subst hsink
        exact .last hin he hc hh hsp

theorem findSome?_stopReason? : ∀ es : List Event,
    es.findSome? Event.stopReason? = (es.find? Event.isTerminal).bind Event.stopReason?
  | [] => rfl
  | e :: es => by
    rw [List.findSome?_cons, List.find?_cons]
    rcases he : e.isTerminal
    · rw [Event.stopReason?_eq_none_iff.2 he]
      exact findSome?_stopReason? es
    · obtain ⟨reason, hr⟩ := Event.exists_stopReason?_iff.2 he
      simp only [hr, Option.bind_some]

theorem flow_of_verdict (hv : w'.channel.stopped = w.verdict n) :
    w'.flow = match (w.channel.inbound.take n).find? Event.isTerminal with
      | some .globalFailure => .halt .globalFailure
      | some .strategyFound => .halt .strategyFound
      | _ =>
        if w.channel.searchAlive = false ∧ w.channel.inbound.length < n then
          .halt .searchDisconnected
        else if w.stop.raised = true ∨ w.stop.token = true ∨ w.stop.owners = 0 then
          .halt .stopRequested
        else .proceed := by
  rw [flow, hv, verdict, findSome?_stopReason?]
  rcases hf : (w.channel.inbound.take n).find? Event.isTerminal with _ | e
  · simp only [Option.bind_none]
    split_ifs <;> rfl
  · have he : e.isTerminal = true := List.find?_some hf
    cases e with
    | globalFailure | strategyFound => rfl
    | choice | failure | shared => cases he

variable (handle) in
theorem poll_spared (h : η) (hs : w.channel.stopped = none) (hw : w.Spared) :
    Batched handle pollBatch w h (w.poll handle h).2 := by
  unfold poll
  rw [hs]
  exact readBatch_spared pollBatch h hs hw

theorem batchLength_of_endless {queue : List Event} (hq : ∀ e ∈ queue, e.isTerminal = false) :
    batchLength n queue = min queue.length n := by
  have hfind : queue.findIdx Event.isTerminal = queue.length :=
    List.findIdx_eq_length.2 hq
  unfold batchLength
  omega

end Poll

end World

open World

/-- A poll, or something that others do who leave a poll alone. -/
def Move.spares : Move → Bool
  | .act a => a.spares
  | .plan script => script.all fun turn => turn.actions.all Action.spares
  | .poll => true
  | .emit .. | .resume => false

/-- The move is a poll. -/
def Move.isPoll : Move → Bool
  | .poll => true
  | _ => false

namespace Exchange

/-- A worker that has no reason to stop, before any event that waits and behind the last one. -/
structure Unhurried (x : Exchange η) : Prop where
  waiting : x.waiting = none
  listens : x.world.channel.stopped = none
  spared : x.world.Spared
  searchAlive : x.world.channel.searchAlive = true
  unrequested : ¬ (x.world.stop.raised = true ∨ x.world.stop.token = true ∨ x.world.stop.owners = 0)
  endless : ∀ e ∈ x.world.channel.inbound, e.isTerminal = false

/-- From `x` to `y` the worker hands on `k` events, or all that wait, and is as free to go on. -/
structure HandedOn (handle : Handler η) (k : Nat) (x y : Exchange η) : Prop where
  unhurried : Unhurried y
  inbound : y.world.channel.inbound = x.world.channel.inbound.drop k
  history : y.world.history.toList
    = x.world.history.toList ++ (x.world.channel.inbound.take k).map .read
  sink : y.sink = handleAll handle (x.world.channel.inbound.take k) x.sink

variable {handle : Handler η} {x y z : Exchange η}

theorem Unhurried.verdict (hx : Unhurried x) (n : Nat) : x.world.verdict n = none := by
  have hnone : (x.world.channel.inbound.take n).findSome? Event.stopReason? = none := by
    rw [List.findSome?_eq_none_iff]
    intro e he
    simpa [← Event.isSome_stopReason?] using hx.endless e (List.mem_of_mem_take he)
  unfold World.verdict
  rw [hnone]
  simp [hx.searchAlive, hx.unrequested]

theorem HandedOn.refl (hx : Unhurried x) : HandedOn handle 0 x x :=
  ⟨hx, rfl, by simp, rfl⟩

theorem HandedOn.trans {j k : Nat} (h : HandedOn handle j x y) (h' : HandedOn handle k y z) :
    HandedOn handle (j + k) x z where
  unhurried := h'.unhurried
  inbound := by rw [h'.inbound, h.inbound, List.drop_drop]
  history := by
    rw [h'.history, h.history, h.inbound, List.take_add, List.map_append, List.append_assoc]
  sink := by rw [h'.sink, h.sink, h.inbound, List.take_add, handleAll_append]

theorem HandedOn.of_unmoved (hx : Unhurried x) {w : World} (hu : Unmoved x.world w)
    (hw : w.Spared) : HandedOn handle 0 x { x with world := w } where
  unhurried := ⟨hx.waiting, hu.stopped.trans hx.listens, hw, hu.searchAlive.trans hx.searchAlive,
    by rw [hu.stop]; exact hx.unrequested, by rw [hu.inbound]; exact hx.endless⟩
  inbound := hu.inbound
  history := by simp [hu.history]
  sink := rfl

/-- A poll hands on a batch of a backlog. -/
theorem Unhurried.poll (hx : Unhurried x) : HandedOn handle pollBatch x (x.move handle .poll) := by
  have hb := poll_spared handle x.sink hx.listens hx.spared
  have hv := hx.verdict pollBatch
  rcases hp : x.world.poll handle x.sink with ⟨f, w, h⟩
  have hmove : x.move handle .poll = ⟨w, h, none⟩ := by simp [move, hx.waiting, hp]
  rw [hp] at hb
  have htake : x.world.channel.inbound.take (batchLength pollBatch x.world.channel.inbound)
      = x.world.channel.inbound.take pollBatch := by
    rw [batchLength_of_endless hx.endless, List.take_eq_take_iff]
    omega
  have hdrop : x.world.channel.inbound.drop (batchLength pollBatch x.world.channel.inbound)
      = x.world.channel.inbound.drop pollBatch := by
    rw [batchLength_of_endless hx.endless, List.drop_eq_drop_iff]
    omega
  have hends : ∀ e ∈ x.world.channel.inbound.take pollBatch, e.isTerminal = false :=
    fun e he => hx.endless e (List.mem_of_mem_take he)
  have hin := hb.inbound.trans hdrop
  rw [hmove]
  refine ⟨⟨rfl, hb.stopped.trans hv, hb.spared, hb.searchAlive.trans hx.searchAlive, ?_, ?_⟩, hin,
    ?_, ?_⟩
  · rw [show w.stop = _ from hb.stop hv]
    exact hx.unrequested
  · intro e he
    rw [show w.channel.inbound = _ from hin] at he
    exact hx.endless e (List.mem_of_mem_drop he)
  · exact hb.history.trans (by rw [htake])
  · refine hb.sink.trans ?_
    rw [htake, List.filter_eq_self.2 fun e he => by simp [hends e he]]

variable (handle) in
theorem Unhurried.move (hx : Unhurried x) {m : Move} (hm : m.spares = true) :
    HandedOn handle (if m.isPoll then pollBatch else 0) x (x.move handle m) := by
  cases m with
  | act a => exact .of_unmoved hx (act_unmoved hm _) (by rw [Spared, act_script]; exact hx.spared)
  | plan script =>
    exact .of_unmoved hx (.of_eq rfl rfl rfl) (by simpa [Move.spares, Spared] using hm)
  | poll => exact hx.poll
  | emit | resume => cases hm

variable (handle) in
/-- Polls read a backlog batch by batch, with others in between. -/
theorem Unhurried.run : ∀ (ms : List Move) {x : Exchange η}, Unhurried x →
    (∀ m ∈ ms, m.spares = true) →
    HandedOn handle (ms.countP Move.isPoll * pollBatch) x (x.run handle ms)
  | [], x, hx, _ => by
    rw [List.countP_nil, Nat.zero_mul]
    exact .refl hx
  | m :: ms, x, hx, hms => by
    have hfirst := hx.move handle (hms m List.mem_cons_self)
    have hrest := run ms hfirst.unhurried fun m' hm' => hms m' (List.mem_cons_of_mem m hm')
    have hcount : (m :: ms).countP Move.isPoll * pollBatch
        = (if m.isPoll then pollBatch else 0) + ms.countP Move.isPoll * pollBatch := by
      rw [List.countP_cons]
      split_ifs <;> simp [Nat.add_mul, Nat.add_comm]
    rw [hcount]
    exact hfirst.trans hrest

end Exchange

namespace World

/-- A poll that the others leave alone reads up to the first event that ends the search, but no more
than a batch. It hands on in order what does not end the search, and it is settled by an event of
the batch that does, or else by a search that is gone and has left less than a batch, or else by a
request. The reason to stop is recorded. Without one, polls hand on a backlog batch by batch, each
event once, and as many polls as it has batches leave nothing. -/
theorem poll_settled (handle : Handler η) {w : World} (h : η) (hs : w.channel.stopped = none)
    (hw : w.Spared) :
    let queue := w.channel.inbound
    let batch := queue.take (min (min queue.length pollBatch) (queue.findIdx Event.isTerminal + 1))
    let answer := (w.poll handle h).1
    let after := (w.poll handle h).2.1
    (after.history.toList = w.history.toList ++ batch.map .read
        ∧ after.channel.inbound = queue.drop batch.length
        ∧ after.channel.observed = countSucc^[batch.length] w.channel.observed
        ∧ (w.poll handle h).2.2 = handleAll handle (batch.filter fun e => !e.isTerminal) h)
      ∧ answer = (match (queue.take pollBatch).find? Event.isTerminal with
        | some .globalFailure => .halt .globalFailure
        | some .strategyFound => .halt .strategyFound
        | _ =>
          if w.channel.searchAlive = false ∧ queue.length < pollBatch then .halt .searchDisconnected
          else if w.stop.raised = true ∨ w.stop.token = true ∨ w.stop.owners = 0 then
            .halt .stopRequested
          else .proceed)
      ∧ (∀ reason, answer = .halt reason ↔ after.channel.stopped = some reason)
      ∧ (w.channel.searchAlive = true →
        ¬ (w.stop.raised = true ∨ w.stop.token = true ∨ w.stop.owners = 0) →
        (∀ e ∈ queue, e.isTerminal = false) → ∀ ms : List Move, (∀ m ∈ ms, m.spares = true) →
          let x := (⟨w, h, none⟩ : Exchange η).run handle ms
          let polls := ms.countP Move.isPoll
          x.world.channel.stopped = none
            ∧ x.world.history.toList
              = w.history.toList ++ (queue.take (polls * pollBatch)).map .read
            ∧ x.world.channel.inbound = queue.drop (polls * pollBatch)
            ∧ x.sink = handleAll handle (queue.take (polls * pollBatch)) h
            ∧ ((queue.length + pollBatch - 1) / pollBatch ≤ polls →
              x.world.channel.inbound = [] ∧ x.sink = handleAll handle queue h)) := by
  intro queue batch answer after
  have hb := poll_spared handle h hs hw
  have hflow : answer = after.flow := (poll_accesses handle (P := fun _ => False) w h hs).2
  have hlen : batch.length = batchLength pollBatch queue := by
    rw [List.length_take]
    unfold batchLength
    omega
  refine ⟨⟨hb.history, ?_, ?_, hb.sink⟩, ?_, fun reason => ?_, fun ha hr hq ms hms => ?_⟩
  · rw [hlen]
    exact hb.inbound
  · rw [hlen]
    exact hb.observed
  · exact hflow.trans (flow_of_verdict hb.stopped)
  · rw [hflow]
    exact ⟨stopped_of_flow_halt, flow_of_some⟩
  · have hx : Exchange.Unhurried (⟨w, h, none⟩ : Exchange η) := ⟨rfl, hs, hw, ha, hr, hq⟩
    have hrun := hx.run handle ms hms
    refine ⟨hrun.unhurried.listens, hrun.history, hrun.inbound, hrun.sink, fun hpolls => ?_⟩
    have henough : queue.length ≤ ms.countP Move.isPoll * pollBatch := by
      unfold pollBatch at hpolls ⊢
      omega
    exact ⟨hrun.inbound.trans (List.drop_eq_nil_of_le henough),
      hrun.sink.trans (by rw [List.take_of_length_le henough])⟩

/-- A strategy that was found behind a failure wins over a search that is gone and over a request,
and what waits behind it is left. A full batch without a reason to stop hides that the search is
gone, and an event behind the batch is left for the second poll. -/
theorem poll_settled_by_strategy_or_full_batch :
    let handle : Handler Nat := fun _ seen => (seen + 1, [])
    let ended : World := { World.ofCapacity 1 with
      channel := { Channel.ofCapacity 1 with
        inbound := [.failure, .strategyFound, .globalFailure]
        searchAlive := false }
      stop := ⟨true, true, 0, 0⟩ }
    let gone : World := { World.ofCapacity 1 with
      channel := { Channel.ofCapacity 1 with
        inbound := List.replicate 1024 .failure
        searchAlive := false } }
    let busy : World := { World.ofCapacity 1 with
      channel := { Channel.ofCapacity 1 with inbound := List.replicate 1025 .failure } }
    ((ended.poll handle 0).1 = .halt .strategyFound
        ∧ (ended.poll handle 0).2.1.channel.stopped = some .strategyFound
        ∧ (ended.poll handle 0).2.1.channel.inbound = [.globalFailure]
        ∧ (ended.poll handle 0).2.2 = 1)
      ∧ (gone.poll handle 0).1 = .proceed
      ∧ ((⟨busy, 0, none⟩ : Exchange Nat).run handle
        [.poll, .act .readReport, .poll]).world.channel.inbound = [] := by
  intro handle ended gone busy
  have hes : ∀ (n : Nat), ∀ e ∈ List.replicate n Event.failure, e.isTerminal = false :=
    fun n e he => by
      rw [List.eq_of_mem_replicate he]
      rfl
  obtain ⟨⟨-, hleft, -, hsink⟩, hfirst, hrecorded, -⟩ :=
    poll_settled handle (w := ended) 0 rfl (by rintro _ ⟨⟩)
  obtain ⟨-, hanswer, -, -⟩ := poll_settled handle (w := gone) 0 rfl (by rintro _ ⟨⟩)
  obtain ⟨-, -, -, hbacklog⟩ := poll_settled handle (w := busy) 0 rfl (by rintro _ ⟨⟩)
  refine ⟨⟨hfirst, (hrecorded _).1 hfirst, hleft, hsink⟩, hanswer.trans ?_, ?_⟩
  · have hnone : (gone.channel.inbound.take pollBatch).find? Event.isTerminal = none := by
      rw [List.find?_eq_none]
      intro e he
      simpa using hes 1024 e (List.mem_of_mem_take he)
    have hfull : pollBatch ≤ gone.channel.inbound.length :=
      Nat.le_of_eq (List.length_replicate ..).symm
    have hcalm : ¬ (gone.stop.raised = true ∨ gone.stop.token = true ∨ gone.stop.owners = 0) := by
      decide
    simp only [hnone, hcalm, Nat.not_lt.2 hfull, and_false, if_false]
  · have hread := hbacklog rfl (by decide) (hes 1025) [.poll, .act .readReport, .poll] (by decide)
    have htwo : (busy.channel.inbound.length + pollBatch - 1) / pollBatch = 2 := by
      rw [show busy.channel.inbound.length = 1025 from List.length_replicate ..]
      rfl
    exact (hread.2.2.2.2 (Nat.le_of_eq htwo)).1

end World

end ScenarioSampling
