import ScenarioSampling.Proofs.Access

/-!
# Exchanges

An `Exchange` is a worker's end of the bridge in the middle of any interleaving: its world, the state
of its handler and the report it waits with, if it is inside an attempt to report. A `Move` is an act
of others, a plan of theirs for what happens inside the next calls, or a call of the worker.

Every reachable exchange is `Orderly`: what was pushed was read or still waits, and what ends an
exchange, an event that ends the search or a report that meets a search that is gone, comes last.
Once the worker's end has stopped, all that still happens is what others do (`stop_is_final`).
-/

namespace ScenarioSampling

/-- A worker's end of the bridge between two calls, or inside an attempt to report that waits. -/
structure Exchange (η : Type) where
  world : World
  /-- The state of the handler. -/
  sink : η
  waiting : Option Report

/-- What may happen next in an exchange. -/
inductive Move where
  | act (a : Action)
  /-- Others settle what they do inside the next calls. -/
  | plan (script : List Turn)
  | poll
  | emit (scenario : Scenario) (score : Nat)
  /-- A report that waits goes on. -/
  | resume

/-- The report that still waits after the attempt. -/
def Emission.waiting? : Emission → Option Report
  | .waiting r => some r
  | _ => none

theorem Emission.eq_of_waiting? {e : Emission} {r : Report} (h : e.waiting? = some r) :
    e = .waiting r := by
  cases e with
  | flow | refused => cases h
  | waiting => exact congrArg _ (Option.some.inj h)

theorem Emission.flow_ne_waiting (f : Flow) (r : Report) : Emission.flow f ≠ .waiting r := by
  intro h
  cases h

namespace Exchange

variable {η : Type}

/-- A new channel, and a worker that has done nothing. -/
def start (capacity : Nat) (h : η) : Exchange η := ⟨.ofCapacity capacity, h, none⟩

/-- The exchange after an attempt to report. -/
def afterEmission (a : Emission × World × η) : Exchange η := ⟨a.2.1, a.2.2, a.1.waiting?⟩

/-- A worker that waits with a report can only go on with it. -/
def move (handle : Handler η) (x : Exchange η) : Move → Exchange η
  | .act a => { x with world := x.world.act a }
  | .plan script => { x with world := { x.world with script := script } }
  | .poll =>
    match x.waiting with
    | none =>
      let (_, w, h) := x.world.poll handle x.sink
      ⟨w, h, none⟩
    | some _ => x
  | .emit scenario score =>
    match x.waiting with
    | none => afterEmission (x.world.emit handle x.sink scenario score)
    | some _ => x
  | .resume =>
    match x.waiting with
    | none => x
    | some r => afterEmission (x.world.resume handle x.sink r)

/-- The exchange after these moves. -/
def run (handle : Handler η) (x : Exchange η) (ms : List Move) : Exchange η :=
  ms.foldl (move handle) x

end Exchange

namespace Transfer

/-- The worker's part of the exchange is over with this. -/
def IsFinal : Transfer → Prop
  | read e => e.isTerminal = true
  | bounced _ => True
  | _ => False

/-- The search has pushed an event. -/
def IsPush : Transfer → Prop
  | pushed _ => True
  | _ => False

theorem isPush_of_mem_map {t : Transfer} {es : List Event} (h : t ∈ es.map pushed) : t.IsPush := by
  obtain ⟨e, -, rfl⟩ := List.mem_map.1 h
  trivial

theorem not_isFinal_of_mem_map {t : Transfer} {es : List Event} (h : t ∈ es.map pushed) :
    ¬ t.IsFinal := by
  obtain ⟨e, -, rfl⟩ := List.mem_map.1 h
  exact id

end Transfer

open Transfer

/-- How the history, the queue and the reason to stop of a bridge fit together. -/
structure Orderly (w : World) : Prop where
  conserved : pushes w.history.toList = reads w.history.toList ++ w.channel.inbound
  final : ∀ e, .read e ∈ w.history.toList → e.isTerminal = true →
    w.channel.stopped = e.stopReason?
  terminal : ∀ reason, w.channel.stopped = some reason → reason.isTerminal = true →
    ∃ e, .read e ∈ w.history.toList ∧ e.stopReason? = some reason
  bounced : ∀ r, .bounced r ∈ w.history.toList → w.channel.stopped = some .searchDisconnected
  after : w.history.toList.Pairwise fun t t' => t.IsFinal → t'.IsPush
  /-- A search that is gone is noticed at an empty queue, or else with a report. -/
  disconnected : w.channel.stopped = some .searchDisconnected →
    w.channel.searchAlive = false
      ∧ (w.channel.inbound = [] ∨ ∃ pre r, w.history.toList = pre ++ [.bounced r])

namespace Orderly

variable {w w' : World}

theorem ofCapacity (capacity : Nat) : Orderly (.ofCapacity capacity) where
  conserved := rfl
  final := by simp [World.ofCapacity]
  terminal := by simp [World.ofCapacity, Channel.ofCapacity]
  bounced := by simp [World.ofCapacity]
  after := by simp [World.ofCapacity]
  disconnected := by simp [World.ofCapacity, Channel.ofCapacity]

/-- As long as the worker's end listens, nothing final has happened. -/
theorem not_isFinal (hw : Orderly w) (hs : w.channel.stopped = none) {t : Transfer}
    (ht : t ∈ w.history.toList) : ¬ t.IsFinal := by
  intro hf
  cases t with
  | read e =>
    have he := hw.final e ht hf
    rw [hs] at he
    simp [IsFinal, ← Event.isSome_stopReason?, ← he] at hf
  | bounced r =>
    have hr := hw.bounced r ht
    rw [hs] at hr
    cases hr
  | pushed | sent => exact hf

/-- One access while the worker's end listens, which adds at most one transfer to the history. -/
theorem extend (hw : Orderly w) (hs : w.channel.stopped = none) (t : Option Transfer)
    (hh : w'.history.toList = w.history.toList ++ t.toList) (hp : pushes t.toList = [])
    (hin : w.channel.inbound = reads t.toList ++ w'.channel.inbound)
    (hf : ∀ e, t = some (.read e) → e.isTerminal = true → w'.channel.stopped = e.stopReason?)
    (hr : ∀ reason, w'.channel.stopped = some reason → reason.isTerminal = true →
      ∃ e, t = some (.read e) ∧ e.stopReason? = some reason)
    (hb : ∀ r, t = some (.bounced r) → w'.channel.stopped = some .searchDisconnected)
    (hd : w'.channel.stopped = some .searchDisconnected → w'.channel.searchAlive = false
      ∧ (w'.channel.inbound = [] ∨ ∃ r, t = some (.bounced r))) : Orderly w' := by
  refine ⟨?_, fun e he ht => ?_, fun reason hs' ht => ?_, fun r hr => ?_, ?_, fun hs' => ?_⟩
  · rw [hh, pushes_append, reads_append, hw.conserved, hin, hp]
    simp
  · rw [hh, List.mem_append, Option.mem_toList] at he
    rcases he with he | he
    · exact (hw.not_isFinal hs he ht).elim
    · exact hf e he ht
  · obtain ⟨e, rfl, he⟩ := hr reason hs' ht
    exact ⟨e, by simp [hh], he⟩
  · rw [hh, List.mem_append, Option.mem_toList] at hr
    rcases hr with hr | hr
    · exact (hw.not_isFinal hs hr trivial).elim
    · exact hb r hr
  · rw [hh, List.pairwise_append]
    refine ⟨hw.after, ?_, fun u hu _ _ hu' => (hw.not_isFinal hs hu hu').elim⟩
    cases t <;> simp
  · obtain ⟨hg, hend⟩ := hd hs'
    refine ⟨hg, hend.imp_right ?_⟩
    rintro ⟨r, rfl⟩
    exact ⟨_, r, hh⟩

theorem disturbed (hw : Orderly w) (hd : Disturbed w w') : Orderly w' := by
  obtain ⟨es, hin, hhist, hes⟩ := hd.pushes
  refine ⟨?_, fun e he ht => ?_, fun reason hs ht => ?_, fun r hr => ?_, ?_, fun hs => ?_⟩
  · rw [hhist, hin, pushes_append, reads_append, hw.conserved]
    simp
  · rw [hhist, List.mem_append] at he
    rw [hd.stopped]
    exact hw.final e (he.resolve_right fun hm => not_isFinal_of_mem_map hm ht) ht
  · rw [hd.stopped] at hs
    obtain ⟨e, he, hr⟩ := hw.terminal reason hs ht
    exact ⟨e, by simp [hhist, he], hr⟩
  · rw [hhist, List.mem_append] at hr
    rw [hd.stopped]
    exact hw.bounced r (hr.resolve_right fun hm => not_isFinal_of_mem_map hm trivial)
  · rw [hhist, List.pairwise_append]
    refine ⟨hw.after, ?_, fun _ _ u hu _ => isPush_of_mem_map hu⟩
    exact List.pairwise_of_forall_mem_list fun _ _ _ hu _ => isPush_of_mem_map hu
  · rw [hd.stopped] at hs
    obtain ⟨hg, hend⟩ := hw.disconnected hs
    rw [hd.inbound_eq hg, hd.history_eq hg]
    exact ⟨hd.gone hg, hend⟩

variable {η : Type} {handle : Handler η} {P : Report → Prop}

theorem access {a b : World × η} (h : Access handle P a b) (hw : Orderly a.1) : Orderly b.1 := by
  cases h with
  | others hd => exact hw.disturbed hd
  | @read w h e rest hs hin =>
    have hc := World.dispatch_channel handle (w := w.withInbound rest) h e hs
    refine hw.extend hs (some (.read e)) (by simp) rfl (by rw [hc]; exact hin) ?_ ?_ ?_ ?_
    · rintro _ ⟨⟩ -
      rw [hc]
    · intro reason hr _
      rw [hc] at hr
      exact ⟨e, rfl, hr⟩
    · rintro _ ⟨⟩
    · rw [hc]
      cases e <;> simp [Event.stopReason?]
  | exhausted hs hin hg =>
    refine hw.extend hs none (by simp) rfl rfl ?_ ?_ ?_ fun _ => ⟨hg, .inl hin⟩
    · rintro _ ⟨⟩
    · simp [hs, StopReason.isTerminal]
    · rintro _ ⟨⟩
  | heed hs hh =>
    refine hw.extend hs none (by simp) rfl rfl ?_ ?_ ?_ ?_
    · rintro _ ⟨⟩
    · simp [hs, StopReason.isTerminal]
    · rintro _ ⟨⟩
    · simp [hs]
  | @send w h r hs hP ha hr =>
    refine hw.extend hs (some (.sent r)) (by simp) rfl rfl ?_ ?_ ?_ ?_
    · rintro _ ⟨⟩
    · simp [hs]
    · rintro _ ⟨⟩
    · simp [hs]
  | @bounce w h r hs hP hg =>
    refine hw.extend hs (some (.bounced r)) (by simp) rfl rfl ?_ ?_ ?_
      fun _ => ⟨hg, .inr ⟨r, rfl⟩⟩
    · rintro _ ⟨⟩
    · simp [hs, StopReason.isTerminal]
    · rintro _ ⟨⟩
      simp [hs]

theorem accesses {a b : World × η} (h : Accesses handle P a b) (hw : Orderly a.1) : Orderly b.1 :=
  h.preserves (I := fun c => Orderly c.1) (fun _ _ hcd hc => hc.access hcd) hw

end Orderly

namespace Exchange

variable {η : Type} (handle : Handler η)

/-- All that a move can do. -/
theorem move_cases {x : Exchange η} {C : Exchange η → Prop} (stay : C x)
    (act : ∀ a, C { x with world := x.world.act a })
    (plan : ∀ script, C { x with world := { x.world with script := script } })
    (poll : x.waiting = none →
      C ⟨(x.world.poll handle x.sink).2.1, (x.world.poll handle x.sink).2.2, none⟩)
    (emit : ∀ scenario score, x.waiting = none →
      C (afterEmission (x.world.emit handle x.sink scenario score)))
    (resume : ∀ r, x.waiting = some r → C (afterEmission (x.world.resume handle x.sink r)))
    (m : Move) : C (x.move handle m) := by
  rcases hw : x.waiting with _ | r
  · cases m with
    | act a => exact act a
    | plan script => exact plan script
    | poll => simpa only [move, hw] using poll hw
    | emit scenario score => simpa only [move, hw] using emit scenario score hw
    | resume => simpa only [move, hw] using stay
  · cases m with
    | act a => exact act a
    | plan script => exact plan script
    | poll | emit => simpa only [move, hw] using stay
    | resume => simpa only [move, hw] using resume r hw

/-- What holds of every exchange that a new channel leads to. -/
structure Inv (x : Exchange η) : Prop where
  orderly : Orderly x.world
  /-- A report only waits while the worker's end listens. -/
  waiting : x.waiting ≠ none → x.world.channel.stopped = none

theorem Inv.waiting_none {x : Exchange η} {reason : StopReason} (hx : Inv x)
    (hs : x.world.channel.stopped = some reason) : x.waiting = none := by
  rcases hr : x.waiting with _ | r
  · rfl
  · rw [hx.waiting (by simp [hr])] at hs
    cases hs

theorem inv_start (capacity : Nat) (h : η) : Inv (start capacity h) :=
  ⟨.ofCapacity capacity, fun hw => (hw rfl).elim⟩

theorem inv_afterEmission {a : Emission × World × η} {r : Report} (hw : Orderly a.2.1)
    (hf : World.Fits r a.2.1 a.1) : Inv (afterEmission a) := by
  refine ⟨hw, fun hr => ?_⟩
  obtain ⟨e, w, h⟩ := a
  cases e with
  | flow | refused => exact (hr rfl).elim
  | waiting r' => exact hf.2

/-- After a stop, a move is what others do. -/
theorem move_of_stopped {x : Exchange η} {reason : StopReason} (hw : x.waiting = none)
    (hs : x.world.channel.stopped = some reason) (m : Move) :
    Disturbed x.world (x.move handle m).world ∧ (x.move handle m).sink = x.sink
      ∧ (x.move handle m).waiting = none := by
  cases m with
  | act a => exact ⟨World.act_disturbed x.world a, rfl, hw⟩
  | plan script => exact ⟨.of_eq rfl rfl rfl, rfl, hw⟩
  | poll =>
    simp only [move, hw, World.poll_of_stopped handle hs]
    exact ⟨.refl _, trivial, trivial⟩
  | emit scenario score =>
    simp only [move, hw, World.emit_of_stopped handle hs]
    exact ⟨.of_eq rfl rfl rfl, rfl, rfl⟩
  | resume =>
    simp only [move, hw]
    exact ⟨.refl _, trivial, trivial⟩

theorem inv_move {x : Exchange η} (hx : Inv x) (m : Move) : Inv (x.move handle m) := by
  rcases hs : x.world.channel.stopped with _ | reason
  · refine move_cases handle hx (fun a => ?_) (fun script => ?_) (fun _ => ?_)
      (fun scenario score _ => ?_) (fun r _ => ?_) m
    · have hd := World.act_disturbed x.world a
      exact ⟨hx.orderly.disturbed hd, fun _ => hd.stopped.trans hs⟩
    · exact ⟨hx.orderly.disturbed (.of_eq rfl rfl rfl), fun _ => hs⟩
    · obtain ⟨hacc, -⟩ := World.poll_accesses handle (P := fun _ => False) x.world x.sink hs
      exact ⟨hx.orderly.accesses hacc, fun hr => (hr rfl).elim⟩
    · obtain ⟨hacc, r, -, hf⟩ := World.emit_accesses handle x.sink scenario score hs
      exact inv_afterEmission (hx.orderly.accesses hacc) hf
    · obtain ⟨hacc, hf⟩ := World.resume_accesses handle (P := fun _ => True) x.sink hs
        (r := r) trivial
      exact inv_afterEmission (hx.orderly.accesses hacc) hf
  · obtain ⟨hd, -, hn⟩ := move_of_stopped handle (hx.waiting_none hs) hs m
    exact ⟨hx.orderly.disturbed hd, fun hr => (hr hn).elim⟩

theorem run_append (x : Exchange η) (ms ms' : List Move) :
    x.run handle (ms ++ ms') = (x.run handle ms).run handle ms' :=
  List.foldl_append

theorem run_concat (x : Exchange η) (ms : List Move) (m : Move) :
    x.run handle (ms ++ [m]) = (x.run handle ms).move handle m :=
  run_append handle x ms [m]

theorem inv_run : ∀ (ms : List Move) {x : Exchange η}, Inv x → Inv (x.run handle ms)
  | [], _, hx => hx
  | m :: ms, _, hx => inv_run ms (inv_move handle hx m)

theorem run_of_stopped : ∀ (ms : List Move) {x : Exchange η} {reason : StopReason},
    x.waiting = none → x.world.channel.stopped = some reason →
      Disturbed x.world (x.run handle ms).world ∧ (x.run handle ms).sink = x.sink
        ∧ (x.run handle ms).waiting = none
  | [], x, _, hw, _ => ⟨.refl x.world, rfl, hw⟩
  | m :: ms, x, reason, hw, hs => by
    obtain ⟨hd, hsink, hn⟩ := move_of_stopped handle hw hs m
    obtain ⟨hd', hsink', hn'⟩ := run_of_stopped ms hn (hd.stopped.trans hs)
    exact ⟨hd.trans hd', hsink'.trans hsink, hn'⟩

/-- In every interleaving, the first event that ends the search is the last event read, and no
report is sent after it. Once the worker's end has stopped, it stays stopped for the same reason:
whatever happens, others have done it, a poll repeats the reason and leaves everything as it is, and
an attempt to report is refused, which is told about and has no other effect. -/
theorem stop_is_final (capacity : Nat) (h : η) (ms : List Move) :
    let x := (start capacity h).run handle ms
    (∀ pre e post, x.world.history.toList = pre ++ .read e :: post → e.isTerminal = true →
        x.world.channel.stopped = e.stopReason? ∧ (∀ e' ∈ reads pre, e'.isTerminal = false)
          ∧ ∀ t ∈ post, t.IsPush)
      ∧ ∀ reason, x.world.channel.stopped = some reason → ∀ later,
        let y := x.run handle later
        Disturbed x.world y.world ∧ y.sink = x.sink ∧ y.waiting = none
          ∧ y.world.channel.stopped = some reason
          ∧ y.world.poll handle y.sink = (.halt reason, y.world, y.sink)
          ∧ ∀ scenario score, y.world.emit handle y.sink scenario score
            = (.refused ⟨y.world.channel.emitted, reason⟩,
              y.world.note (.reportRefused ⟨y.world.channel.emitted, reason⟩), y.sink) := by
  intro x
  have hx : Inv x := inv_run handle ms (inv_start capacity h)
  refine ⟨fun pre e post hh he => ?_, fun reason hs later => ?_⟩
  · have hafter := hx.orderly.after
    rw [hh, List.pairwise_append, List.pairwise_cons] at hafter
    obtain ⟨-, ⟨hpost, -⟩, hpre⟩ := hafter
    refine ⟨hx.orderly.final e (by simp [hh]) he, fun e' he' => ?_, fun t ht => hpost t ht he⟩
    rw [Bool.eq_false_iff]
    intro ht
    exact hpre _ (mem_reads.1 he') _ List.mem_cons_self (by simpa [IsFinal] using ht)
  · intro y
    obtain ⟨hd, hsink, hn⟩ := run_of_stopped handle later (hx.waiting_none hs) hs
    have hs' : y.world.channel.stopped = some reason := hd.stopped.trans hs
    exact ⟨hd, hsink, hn, hs', World.poll_of_stopped handle hs' y.sink,
      World.emit_of_stopped handle hs' y.sink⟩

/-- An event behind the one that ended the search stays where it is. -/
theorem stop_is_final_after_strategy :
    let handle : Handler (List Event) := fun e seen => (seen ++ [e], [])
    let x := (start 1 []).run handle [.act (.notify .failure), .act (.notify .strategyFound),
      .act (.notify .globalFailure), .poll]
    let y := x.run handle [.poll, .act (.notify .failure), .emit ⟨[some 1]⟩ 0]
    x.world.channel.stopped = some .strategyFound ∧ y.sink = [.failure]
      ∧ y.world.channel.inbound = [.globalFailure, .failure]
      ∧ y.world.emit handle y.sink ⟨[some 1]⟩ 0 = (.refused ⟨0, .strategyFound⟩,
        y.world.note (.reportRefused ⟨0, .strategyFound⟩), y.sink) :=
  ⟨rfl, rfl, rfl, ((stop_is_final _ 1 [] [.act (.notify .failure), .act (.notify .strategyFound),
    .act (.notify .globalFailure), .poll]).2 .strategyFound rfl _).2.2.2.2.2 _ _⟩

end Exchange

end ScenarioSampling
