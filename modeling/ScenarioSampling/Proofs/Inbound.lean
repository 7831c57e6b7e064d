import ScenarioSampling.Proofs.Intake
import ScenarioSampling.Proofs.Lasting

/-!
# No event is lost

The events of the search are read by a poll, by the poll inside an attempt to report, and by a
report that waits; a batch may end before the queue does, and a read may end the exchange. None of
this loses, repeats or reorders an event: what was pushed is what was read followed by what still
waits, what was read is what was counted, and what was read and does not end the search is what the
handler has seen (`events_conserved`). No push is refused meanwhile, since the worker holds on to
its end (`lasting_workerAlive`).
-/

namespace ScenarioSampling

open Transfer

variable {η : Type} (handle : Handler η)

namespace World

theorem dispatch_workerAlive (w : World) (h : η) (e : Event) :
    (dispatch handle w h e).2.1.channel.workerAlive = w.channel.workerAlive := by
  unfold dispatch
  simp only []
  split
  · rfl
  · rw [noteAll_channel]
    rfl

/-- Whoever takes a step, the worker holds on to its end of the bridge. -/
theorem lasting_workerAlive : Lasting handle fun w => w.channel.workerAlive = true where
  act a hw := (act_workerAlive _ a).trans hw
  script _ hw := hw
  own hstep hw := by
    cases hstep with
    | read h => exact (dispatch_workerAlive handle _ h _).trans hw
    | note | exhausted | heed | send | bounce => exact hw

/-- What a push does, as long as the worker holds on to its end. -/
theorem notify_of_workerAlive {w : World} (h : w.channel.workerAlive = true) (e : Event) :
    (w.notify e).1 = true
      ∧ (w.notify e).2.channel = { w.channel with inbound := w.channel.inbound ++ [e] }
      ∧ (w.notify e).2.history.toList = w.history.toList ++ [.pushed e] := by
  unfold notify
  simp [note, record, h]

end World

namespace Exchange

/-- Whatever a move is, the events that it reads are counted and handed on. -/
theorem move_intake {x : Exchange η} (hx : Inv x) (m : Move) :
    ∃ ts, Intake ts x.world (x.move handle m).world
      ∧ (x.move handle m).sink = World.handleAll handle (handed ts) x.sink := by
  refine move_cases handle (C := fun y => ∃ ts, Intake ts x.world y.world
    ∧ y.sink = World.handleAll handle (handed ts) x.sink) ⟨[], .refl _, rfl⟩ (fun a => ?_)
    (fun script => ⟨[], .of_eq rfl rfl, rfl⟩) (fun _ => ?_) (fun scenario score _ => ?_)
    (fun r hr => ?_) m
  · obtain ⟨ts, hts, hr⟩ := (World.act_disturbed x.world a).intake
    exact ⟨ts, hts, by rw [handed, hr]; rfl⟩
  · exact (World.poll_accesses_always handle (P := fun _ => False) x.world x.sink).intake
  · exact (World.emit_accesses_always handle x.world x.sink scenario score).1.intake
  · have hs : x.world.channel.stopped = none := hx.waiting (by simp [hr])
    exact (World.resume_accesses handle (P := fun _ => True) x.sink hs (r := r) trivial).1.intake

theorem run_intake : ∀ (ms : List Move) {x : Exchange η}, Inv x →
    ∃ ts, Intake ts x.world (x.run handle ms).world
      ∧ (x.run handle ms).sink = World.handleAll handle (handed ts) x.sink
  | [], x, _ => ⟨[], .refl x.world, rfl⟩
  | m :: ms, x, hx => by
    obtain ⟨ts, hts, hsink⟩ := move_intake handle hx m
    obtain ⟨ts', hts', hsink'⟩ := run_intake ms (inv_move handle hx m)
    refine ⟨ts ++ ts', hts.trans hts', hsink'.trans ?_⟩
    rw [hsink, handed_append, World.handleAll_append]

/-- As many events as the worker has read it has counted. -/
theorem observed_eq_reads (capacity : Nat) (h : η) (ms : List Move) :
    let w := ((start capacity h).run handle ms).world
    (reads w.history.toList).length ≤ maxCount →
      w.channel.observed = (reads w.history.toList).length := by
  intro w hle
  obtain ⟨ts, hts, -⟩ := run_intake handle ms (inv_start capacity h)
  have hh : w.history.toList = ts := hts.history
  rw [hh] at hle ⊢
  exact hts.observed.trans (iterate_countSucc_zero hle)

/-- In every interleaving, the events pushed are those the worker has read followed by those that
still wait, in order; as many as it has read it has counted, and its handler was given each one that
does not end the search, once and in order, and nothing else. The next push adds one event at the
end. -/
theorem events_conserved (capacity : Nat) (h : η) (ms : List Move) :
    let x := (start capacity h).run handle ms
    let pushed := pushes x.world.history.toList
    let events := reads x.world.history.toList
    pushed = events ++ x.world.channel.inbound
      ∧ (pushed.length ≤ maxCount → x.world.channel.observed = events.length)
      ∧ x.sink = World.handleAll handle (events.filter fun e => !e.isTerminal) h
      ∧ ∀ e, (x.world.notify e).1 = true
        ∧ (x.world.notify e).2.channel
          = { x.world.channel with inbound := x.world.channel.inbound ++ [e] }
        ∧ pushes (x.world.notify e).2.history.toList = pushed ++ [e]
        ∧ reads (x.world.notify e).2.history.toList = events := by
  intro x pushed events
  obtain ⟨ts, hts, hsink⟩ := run_intake handle ms (inv_start capacity h)
  have hx : Inv x := inv_run handle ms (inv_start capacity h)
  have hhistory : x.world.history.toList = ts := hts.history
  have hevents : events = reads ts := congrArg reads hhistory
  have halive : x.world.channel.workerAlive = true :=
    (World.lasting_workerAlive handle).run ms (x := start capacity h) rfl
  refine ⟨hx.orderly.conserved, fun hlen => ?_, ?_, fun e => ?_⟩
  · have hsplit := congrArg List.length hx.orderly.conserved
    rw [List.length_append] at hsplit
    change pushed.length = events.length + _ at hsplit
    exact observed_eq_reads handle capacity h ms (by change events.length ≤ maxCount; omega)
  · rw [hevents]
    exact hsink
  · obtain ⟨hsent, hchannel, hpush⟩ := World.notify_of_workerAlive halive e
    refine ⟨hsent, hchannel, ?_, ?_⟩
    · rw [hpush, pushes_append]
      rfl
    · rw [hpush, reads_append]
      exact List.append_nil _

/-- One event is read by a poll, one by the poll inside an attempt to report, and three while the
report waits, the last of which ends the search: it is counted and not handed on. Another event
still waits. -/
theorem events_conserved_by_all_readers :
    let handle : Handler (List Event) := fun e seen => (seen ++ [e], [])
    let ms : List Move := [.act (.notify (.choice ⟨0⟩ 1 2)), .poll, .act (.notify .failure),
      .plan [⟨.offer, 0, [.notify (.choice ⟨1⟩ 3 4)]⟩], .emit ⟨[]⟩ 0, .act (.notify .failure),
      .act (.notify .strategyFound), .act (.notify .globalFailure), .resume]
    let x := (start 0 []).run handle ms
    (pushes x.world.history.toList).length ≤ maxCount
      ∧ reads x.world.history.toList
        = [.choice ⟨0⟩ 1 2, .failure, .choice ⟨1⟩ 3 4, .failure, .strategyFound]
      ∧ x.world.channel.observed = 5
      ∧ x.world.channel.inbound = [.globalFailure]
      ∧ x.sink = [.choice ⟨0⟩ 1 2, .failure, .choice ⟨1⟩ 3 4, .failure] := by
  intro handle ms
  have hreads : reads ((start 0 []).run handle ms).world.history.toList
      = [.choice ⟨0⟩ 1 2, .failure, .choice ⟨1⟩ 3 4, .failure, .strategyFound] := by decide +kernel
  have hinbound : ((start 0 []).run handle ms).world.channel.inbound = [.globalFailure] := by
    decide +kernel
  obtain ⟨hpushed, hobserved, hsink, -⟩ := events_conserved handle 0 [] ms
  rw [hreads, hinbound] at hpushed
  rw [hreads] at hobserved hsink
  have hlen : (pushes ((start 0 []).run handle ms).world.history.toList).length ≤ maxCount := by
    rw [hpushed]
    decide
  exact ⟨hlen, hreads, hobserved hlen, hinbound, hsink⟩

end Exchange

end ScenarioSampling
