import ScenarioSampling.Proofs.Delivery
import ScenarioSampling.Proofs.Reading

/-!
# Backlogs

An attempt to report reads a batch of what waits before it turns to the outbound queue, and goes on
reading only while there is no room. An event that ends the search therefore wins over the report if
it is within the first batch, whatever the others do, or if there is no room; from behind a full
batch it comes too late for a report that finds room (`terminal_first_iff`).
-/

namespace ScenarioSampling

open Transfer

variable {η : Type} (handle : Handler η)

namespace World

/-- What a worker is told when it has read an event. -/
theorem dispatch_answer {w : World} (h : η) (e : Event) (hw : w.channel.stopped = none) :
    (dispatch handle w h e).1 = match e.stopReason? with
      | none => .proceed
      | some reason => .halt reason := by
  rw [dispatch_flow handle h e hw]
  rcases he : e.stopReason? with _ | reason
  · exact flow_of_none (by rw [dispatch_channel handle h e hw, he])
  · exact flow_of_some (by rw [dispatch_channel handle h e hw, he])

/-- A batch that reaches an event that ends the search stops there, whatever the others do. -/
theorem readBatch_halts {e : Event} {reason : StopReason} (he : e.stopReason? = some reason) :
    ∀ (n : Nat) (es rest : List Event) (w : World) (h : η), w.channel.stopped = none →
      w.channel.inbound = es ++ e :: rest → (∀ e' ∈ es, e'.isTerminal = false) → es.length < n →
      (readBatch handle n w h).1 = .halt reason
  | 0, _, _, _, _, _, _, _, hn => (Nat.not_lt_zero _ hn).elim
  | n + 1, [], rest, w, h, hs, hin, _, _ => by
    have hd := visit_disturbed w .receive
    obtain ⟨told, hin', -, -⟩ := hd.pushes
    have hin₁ : (w.visit .receive).channel.inbound = e :: (rest ++ told) := by rw [hin', hin]; rfl
    have hanswer := dispatch_answer handle (w := (w.visit .receive).withInbound (rest ++ told)) h e
      (hd.stopped.trans hs)
    rw [he] at hanswer
    unfold readBatch
    simp only [hin₁]
    rcases hr : dispatch handle ((w.visit .receive).withInbound (rest ++ told)) h e with
      ⟨_ | reason', w₂, h₂⟩ <;> rw [hr] at hanswer
    · cases hanswer
    · exact hanswer
  | n + 1, e' :: es, rest, w, h, hs, hin, hes, hn => by
    have hd := visit_disturbed w .receive
    obtain ⟨told, hin', -, -⟩ := hd.pushes
    have hin₁ : (w.visit .receive).channel.inbound = e' :: (es ++ e :: (rest ++ told)) := by
      rw [hin', hin]
      simp
    have he' : e'.stopReason? = none := by
      simpa [← Event.isSome_stopReason?] using hes e' List.mem_cons_self
    set w₁ := (w.visit .receive).withInbound (es ++ e :: (rest ++ told)) with hw₁
    have hs₁ : w₁.channel.stopped = none := hd.stopped.trans hs
    have hanswer := dispatch_answer handle h e' hs₁
    have hc := dispatch_channel handle h e' hs₁
    rw [he'] at hanswer hc
    unfold readBatch
    simp only [hin₁, ← hw₁]
    rcases hr : dispatch handle w₁ h e' with ⟨_ | reason', w₂, h₂⟩ <;> rw [hr] at hanswer hc
    · exact readBatch_halts he n es (rest ++ told) w₂ h₂ (by rw [hc]) (by rw [hc]; rfl)
        (fun e'' h'' => hes e'' (List.mem_cons_of_mem e' h'')) (Nat.lt_of_succ_lt_succ hn)
    · cases hanswer

section OnlyTold

/-- From `w` to `w'` the worker reads all that waits before `rest` and stops for `reason`, and the
others only tell. -/
def StopsAt (w : World) (rest : List Event) (reason : StopReason) (w' : World) : Prop :=
  ∃ told observed, w'.channel = { w.channel with
    inbound := rest ++ told
    observed := observed
    stopped := some reason }

theorem ReadTo.stopsAt {w w₁ w₂ : World} {front rest told : List Event} {reason : StopReason}
    (h : ReadTo w front w₁) (h' : StopsAt w₁ (rest ++ told) reason w₂) :
    StopsAt w rest reason w₂ := by
  obtain ⟨es, n, hc, -⟩ := h.channel
  obtain ⟨es', n', hc'⟩ := h'
  exact ⟨told ++ es', n', by simp [hc', hc]⟩

/-- An event that ends the search is read, after the others have told something. -/
theorem dispatch_told_halts {w w₁ : World} {e : Event} {rest : List Event} {reason : StopReason}
    (h : η) (hs : w.channel.stopped = none) (hin : w.channel.inbound = e :: rest)
    (he : e.stopReason? = some reason) (ht : Told w w₁) :
    ∃ told w₂, w₁.channel.inbound = e :: (rest ++ told)
      ∧ dispatch handle (w₁.withInbound (rest ++ told)) h e = (.halt reason, w₂, h)
      ∧ StopsAt w rest reason w₂ := by
  obtain ⟨told, hc, -⟩ := ht.channel
  have hs₁ : w₁.channel.stopped = none := by rw [hc]; exact hs
  have hanswer := dispatch_answer handle (w := w₁.withInbound (rest ++ told)) h e hs₁
  have hd := dispatch_channel handle (w := w₁.withInbound (rest ++ told)) h e hs₁
  have hsink := dispatch_sink handle (w₁.withInbound (rest ++ told)) h e
  rw [he] at hanswer hd
  rw [← Event.isSome_stopReason?, he, Option.isSome_some, if_pos rfl] at hsink
  rcases hr : dispatch handle (w₁.withInbound (rest ++ told)) h e with ⟨f, w₂, h₂⟩
  rw [hr] at hanswer hd hsink
  simp only [withInbound_channel] at hanswer hd hsink
  refine ⟨told, w₂, by rw [hc, hin]; rfl, by rw [hr, hanswer, hsink], told,
    countSucc w₁.channel.observed, ?_⟩
  simp only [hd, hc]

/-- What a batch comes to that reaches an event that ends the search. -/
theorem readBatch_told_halts {w : World} {e : Event} {es rest : List Event} {reason : StopReason}
    {n : Nat} (h : η) (ho : w.OnlyTold) (hs : w.channel.stopped = none)
    (hin : w.channel.inbound = es ++ e :: rest) (hes : ∀ e' ∈ es, e'.isTerminal = false)
    (he : e.stopReason? = some reason) (hn : es.length < n) :
    ∃ w' h', readBatch handle n w h = (.halt reason, w', h') ∧ StopsAt w rest reason w' := by
  obtain ⟨k, rfl⟩ : ∃ k, n = k + 1 + es.length := ⟨n - es.length - 1, by omega⟩
  obtain ⟨w₁, hread, hrun⟩ := readBatch_told handle es (e :: rest) (k + 1) w h ho hs hin hes
  obtain ⟨told, _, hc, -⟩ := hread.channel
  have hin₀ : w₁.channel.inbound = e :: (rest ++ told) := by
    rw [hc]
    rfl
  obtain ⟨told', w₂, hin₁, hd, hstop⟩ := dispatch_told_halts handle (handleAll handle es h)
    (hread.stopped.trans hs) hin₀ he (visit_told hread.onlyTold .receive).1
  refine ⟨w₂, handleAll handle es h, ?_, hread.stopsAt hstop⟩
  rw [hrun, readBatch]
  simp only [hin₁, hd]

/-- A report that finds no room waits no longer than up to an event that ends the search. -/
theorem settle_told_halts {w : World} {e : Event} {es rest : List Event} {reason : StopReason}
    {n : Nat} (h : η) (r : Report) (hw : w.Quiet) (hroom : w.channel.hasRoom = false)
    (hin : w.channel.inbound = es ++ e :: rest) (hes : ∀ e' ∈ es, e'.isTerminal = false)
    (he : e.stopReason? = some reason) (hn : es.length < n) :
    ∃ w' h', settle handle n w h r = (.flow (.halt reason), w', h')
      ∧ StopsAt w rest reason w' := by
  obtain ⟨k, rfl⟩ : ∃ k, n = k + 1 + es.length := ⟨n - es.length - 1, by omega⟩
  obtain ⟨w₁, hread, hrun⟩ := settle_told handle es (e :: rest) (k + 1) w h r hw hroom hin hes
  obtain ⟨told, _, hc, -⟩ := hread.channel
  have hin₀ : w₁.channel.inbound = e :: (rest ++ told) := by
    rw [hc]
    rfl
  obtain ⟨told', w₂, hin₁, hd, hstop⟩ := dispatch_told_halts handle (handleAll handle es h)
    (hread.stopped.trans hw.listens) hin₀ he (visit_told hread.onlyTold .wait).1
  refine ⟨w₂, handleAll handle es h, ?_, hread.stopsAt hstop⟩
  rw [hrun, settle, (hread.quiet hw).wake handle (hread.hasRoom.trans hroom) hin₁, hd]

/-- A full batch without an event that ends the search leaves the worker free to report. -/
theorem Quiet.poll {w : World} (h : η) (hw : w.Quiet) {es rest : List Event}
    (hin : w.channel.inbound = es ++ rest) (hes : ∀ e ∈ es, e.isTerminal = false)
    (hlen : es.length = pollBatch) :
    ∃ w', ReadTo w rest w' ∧ World.poll handle w h = (.proceed, w', handleAll handle es h) := by
  obtain ⟨w₁, hread, hrun⟩ := readBatch_told handle es rest 0 w h hw.onlyTold hw.listens hin hes
  have hw₁ := hread.quiet hw
  obtain ⟨w', htold, ho, hcheck⟩ :=
    checkStop_told (handleAll handle es h) hw₁.onlyTold hw₁.raised hw₁.token hw₁.owners
  obtain ⟨told, _, hc, hgone⟩ := hread.channel
  have hafter := ReadTo.of_told htold ho
  rw [hc] at hafter
  refine ⟨w', hread.trans hgone hafter, ?_⟩
  rw [Nat.zero_add, hlen, readBatch, hcheck] at hrun
  unfold World.poll
  rw [hw.listens]
  exact hrun

/-- A full batch without an event that ends the search is read before the report is offered. -/
theorem Quiet.poll_first {w : World} (h : η) (hw : w.Quiet) {es rest : List Event}
    (hin : w.channel.inbound = es ++ rest) (hes : ∀ e ∈ es, e.isTerminal = false)
    (hlen : pollBatch ≤ es.length) :
    ∃ w' h', ReadTo w (es.drop pollBatch ++ rest) w'
      ∧ World.poll handle w h = (.proceed, w', h') := by
  have hsplit : w.channel.inbound = es.take pollBatch ++ (es.drop pollBatch ++ rest) := by
    rw [← List.append_assoc, List.take_append_drop, hin]
  obtain ⟨w', hread, hpoll⟩ := hw.poll handle h hsplit
    (fun e he => hes e (List.mem_of_mem_take he)) (List.length_take_of_le hlen)
  exact ⟨w', _, hread, hpoll⟩

/-- A worker that nobody stops heeds an event that ends the search if it is within the first batch
or if there is no room. -/
theorem Quiet.emit_halts {w : World} {e : Event} {es rest : List Event} {reason : StopReason}
    (h : η) (scenario : Scenario) (score : Nat) (hw : w.Quiet)
    (hin : w.channel.inbound = es ++ e :: rest) (hes : ∀ e' ∈ es, e'.isTerminal = false)
    (he : e.stopReason? = some reason)
    (hfirst : es.length < pollBatch ∨ w.channel.hasRoom = false) :
    (World.emit handle w h scenario score).1 = .flow (.halt reason)
      ∧ StopsAt w rest reason (World.emit handle w h scenario score).2.1 := by
  by_cases hlen : es.length < pollBatch
  · obtain ⟨w', h', hbatch, hstop⟩ :=
      readBatch_told_halts handle h hw.onlyTold hw.listens hin hes he hlen
    have hpoll : World.poll handle w h = (.halt reason, w', h') := by
      unfold World.poll
      rw [hw.listens]
      exact hbatch
    rw [emit_of_poll_halts handle hw.listens hpoll]
    exact ⟨rfl, hstop⟩
  · have hroom : w.channel.hasRoom = false := hfirst.resolve_left hlen
    obtain ⟨w', h', hread, hpoll⟩ := hw.poll_first handle h hin hes (Nat.le_of_not_lt hlen)
    have hw' := hread.quiet hw
    have hroom' : w'.channel.hasRoom = false := hread.hasRoom.trans hroom
    have hoffer := hw'.visit .offer
    obtain ⟨told, _, hc, -⟩ := hread.channel
    obtain ⟨told', _, hc', -⟩ := hoffer.channel
    set r := w'.draft scenario score with hr
    have hin' : (w'.visit .offer).channel.inbound
        = es.drop pollBatch ++ e :: (rest ++ told ++ told') := by
      rw [hc', hc]
      simp
    obtain ⟨v, h'', hsettle, hstop⟩ := settle_told_halts handle h' r (hoffer.quiet hw')
      (hoffer.hasRoom.trans hroom') hin' (fun e' he' => hes e' (List.mem_of_mem_drop he')) he
      (n := (w'.visit .offer).wakings) (by rw [wakings, hin', List.length_append]; omega)
    rw [emit_of_poll_proceeds handle hw.listens hpoll]
    simp only [hw'.sendAtOnce, hroom', Bool.false_eq_true, if_false, resume, ← hr, hsettle]
    exact ⟨trivial, hread.stopsAt (hoffer.stopsAt hstop)⟩

/-- Behind a full batch, an event that ends the search comes too late for a report with room. -/
theorem Quiet.emit_sends {w : World} {e : Event} {es rest : List Event}
    (h : η) (scenario : Scenario) (score : Nat) (hw : w.Quiet)
    (hin : w.channel.inbound = es ++ e :: rest) (hes : ∀ e' ∈ es, e'.isTerminal = false)
    (hlen : pollBatch ≤ es.length) (hroom : w.channel.hasRoom = true) :
    (World.emit handle w h scenario score).1 = .flow .proceed
      ∧ ∃ told observed, (World.emit handle w h scenario score).2.1.channel = { w.channel with
        inbound := es.drop pollBatch ++ e :: rest ++ told
        outbound := w.channel.outbound ++ [⟨scenario, score, w.channel.emitted, observed⟩]
        observed := observed
        emitted := w.channel.emitted + 1 } := by
  obtain ⟨w', h', hread, hpoll⟩ := hw.poll_first handle h hin hes hlen
  have hw' := hread.quiet hw
  have hroom' : w'.channel.hasRoom = true := hread.hasRoom.trans hroom
  obtain ⟨told, n, hc, -⟩ := hread.channel
  obtain ⟨told', hc', -⟩ := (visit_told hw'.onlyTold .offer).1.channel
  rw [emit_of_poll_proceeds handle hw.listens hpoll]
  simp only [hw'.sendAtOnce, hroom', if_true, send_channel]
  refine ⟨trivial, told ++ told', n, ?_⟩
  simp [hc', hc, draft]

/-- An attempt to report with an event that ends the search in the queue. If the event is within the
first batch it wins, whatever the others do: the attempt is answered with its reason and sends
nothing. As long as both ends are alive, nobody asks for a stop and the others at most push more,
the event wins exactly if it is within the first batch or if there is no room; otherwise the report
is sent in front of it. -/
theorem terminal_first_iff {w : World} {e : Event} {es rest : List Event} {reason : StopReason}
    (h : η) (scenario : Scenario) (score : Nat) (hs : w.channel.stopped = none)
    (hin : w.channel.inbound = es ++ e :: rest) (hes : ∀ e' ∈ es, e'.isTerminal = false)
    (he : e.stopReason? = some reason) :
    let answer := (w.emit handle h scenario score).1
    let after := (w.emit handle h scenario score).2.1
    (es.length < pollBatch → answer = .flow (.halt reason)
        ∧ after.channel.emitted = w.channel.emitted
        ∧ sends after.history.toList = sends w.history.toList)
      ∧ (w.Quiet →
        (answer = .flow (.halt reason) ↔ es.length < pollBatch ∨ w.channel.hasRoom = false)
          ∧ (answer = .flow (.halt reason) → after.channel.stopped = some reason
            ∧ after.channel.outbound = w.channel.outbound
            ∧ after.channel.emitted = w.channel.emitted)
          ∧ (answer ≠ .flow (.halt reason) → answer = .flow .proceed ∧ after.channel.stopped = none
            ∧ e ∈ after.channel.inbound ∧ after.channel.outbound
              = w.channel.outbound ++ [⟨scenario, score, w.channel.emitted, after.channel.observed⟩])) := by
  intro answer after
  refine ⟨fun hlen => ?_, fun hw => ?_⟩
  · have hpoll : (w.poll handle h).1 = .halt reason := by
      unfold World.poll
      rw [hs]
      exact readBatch_halts handle he pollBatch es rest w h hs hin hes hlen
    have hanswer : answer = .flow (.halt reason) := by
      rcases hp : w.poll handle h with ⟨f, w', h'⟩
      rw [hp] at hpoll
      subst hpoll
      exact congrArg Prod.fst (emit_of_poll_halts handle hs hp scenario score)
    obtain ⟨r, -, hposted⟩ := emit_posted handle w h scenario score
    rw [show (w.emit handle h scenario score).1 = .flow (.halt reason) from hanswer] at hposted
    exact ⟨hanswer, hposted.emitted_eq, hposted.sent.trans (List.append_nil _)⟩
  · by_cases hfirst : es.length < pollBatch ∨ w.channel.hasRoom = false
    · obtain ⟨hanswer, _, _, hc⟩ := hw.emit_halts handle h scenario score hin hes he hfirst
      refine ⟨⟨fun _ => hfirst, fun _ => hanswer⟩, fun _ => ?_, fun hn => (hn hanswer).elim⟩
      rw [show after.channel = _ from hc]
      exact ⟨rfl, rfl, rfl⟩
    · obtain ⟨hlen, hroom⟩ := not_or.1 hfirst
      obtain ⟨hanswer, told, observed, hc⟩ := hw.emit_sends handle h scenario score hin hes
        (Nat.le_of_not_lt hlen) (by simpa using hroom)
      have hne : answer ≠ .flow (.halt reason) := fun ha => by
        rw [show answer = .flow .proceed from hanswer] at ha
        cases ha
      refine ⟨⟨fun ha => (hne ha).elim, fun hf => (hfirst hf).elim⟩, fun ha => (hne ha).elim,
        fun _ => ⟨hanswer, ?_⟩⟩
      rw [show after.channel = _ from hc]
      exact ⟨hs, by simp, rfl⟩

/-- An event that is the last of the first batch wins over a report with room. -/
theorem terminal_first_at_end_of_batch :
    let w : World := { World.ofCapacity 1 with
      channel := { Channel.ofCapacity 1 with
        inbound := List.replicate 1023 .failure ++ [.strategyFound] } }
    let handle : Handler Unit := fun _ h => (h, [])
    (w.emit handle () ⟨[some 1]⟩ 0).1 = .flow (.halt .strategyFound)
      ∧ (w.emit handle () ⟨[some 1]⟩ 0).2.1.channel.outbound = [] := by
  intro w handle
  have hquiet : w.Quiet := by
    refine ⟨fun turn ht => ?_, rfl, rfl, rfl, rfl, Nat.one_ne_zero⟩
    cases ht
  have hes : ∀ e ∈ List.replicate 1023 Event.failure, e.isTerminal = false := fun e he => by
    rw [List.eq_of_mem_replicate he]
    rfl
  have hlen : (List.replicate 1023 Event.failure).length < pollBatch := by
    rw [List.length_replicate]
    decide
  have hin : w.channel.inbound = List.replicate 1023 .failure ++ .strategyFound :: [] := rfl
  obtain ⟨hfirst, hafter⟩ := terminal_first_iff handle () ⟨[some 1]⟩ 0 rfl hin hes rfl
  have hanswer := (hfirst hlen).1
  exact ⟨hanswer, ((hafter hquiet).2.1 hanswer).2.1⟩

end OnlyTold

end World

namespace Exchange

/-- An event behind a full batch is still unread when a report that finds room is sent. -/
theorem Calm.overtaken {capacity : Nat} {x : Exchange η} {es : List Event}
    (hx : Calm capacity x es) (hes : ∀ e ∈ es, e.isTerminal = false)
    (hlen : World.pollBatch ≤ es.length) (hcap : 0 < capacity) (e : Event) (scenario : Scenario)
    (score : Nat) :
    let y := x.run handle [.act (.notify e), .emit scenario score]
    y.world.channel.emitted = 1 ∧ y.world.channel.stopped = none ∧ e ∈ y.world.channel.inbound := by
  intro y
  have hn := hx.notify handle e
  set x₁ := x.move handle (.act (.notify e))
  have hroom : x₁.world.channel.hasRoom = true := by
    rw [hn.channel]
    simp [Channel.hasRoom, Channel.ofCapacity, hcap]
  have hy : y.world = (x₁.world.emit handle x₁.sink scenario score).2.1 := by
    simp only [y, run, List.foldl_cons, List.foldl_nil]
    change (move handle x₁ _).world = _
    simp only [move, hn.waiting]
    rfl
  have hin : x₁.world.channel.inbound = es ++ e :: [] := congrArg Channel.inbound hn.channel
  obtain ⟨-, told, observed, hc⟩ := hn.quiet.emit_sends handle x₁.sink scenario score hin hes hlen
    hroom
  rw [hy, hc, hn.channel]
  exact ⟨rfl, rfl, by simp⟩

/-- Not every event that ends the search wins over a report: one behind a full batch is still unread
when the report is sent. -/
theorem report_sent_ahead_of_strategy :
    let x := (start 1 ()).run (fun _ h => (h, [])) (List.replicate 1024 (.act (.notify .failure))
      ++ [.act (.notify .strategyFound), .emit ⟨[some 1]⟩ 0])
    x.world.channel.emitted = 1 ∧ x.world.channel.stopped = none
      ∧ .strategyFound ∈ x.world.channel.inbound := by
  intro x
  have hx : x = _ := run_append _ (start 1 ()) _ _
  rw [hx]
  have hcalm := (calm_start 1 ()).notifies (fun _ h => (h, [])) .failure 1024
  have hlen : World.pollBatch ≤ (List.replicate 1024 Event.failure).length :=
    Nat.le_of_eq (List.length_replicate ..).symm
  refine hcalm.overtaken _ (fun e he => ?_) hlen Nat.one_pos _ _ _
  rw [List.eq_of_mem_replicate he]
  rfl

end Exchange

end ScenarioSampling
