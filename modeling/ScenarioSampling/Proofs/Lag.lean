import ScenarioSampling.Proofs.Rounds
import ScenarioSampling.Proofs.RunLasting

/-!
# How far a run lags behind

An event that ends the search waits behind others. The others may push more, but only behind it, and
whatever a worker does in a call brings it nearer: a turn that draws has read a full batch in front
of it. So the run draws at most once for each full batch, and has then ended
(`draws_bounded_by_lag`).
-/

namespace ScenarioSampling

open Entry

/-- Unless the worker's end has stopped, an event that ends the search waits behind at most `n`
others. -/
def World.Ahead (n : Nat) (w : World) : Prop :=
  w.channel.stopped = none → ∃ e ∈ w.channel.inbound.take (n + 1), e.isTerminal = true

namespace World

variable {η : Type} {handle : Handler η} {n : Nat} {w : World}

theorem Ahead.nonempty (hw : Ahead n w) (hs : w.channel.stopped = none) :
    w.channel.inbound ≠ [] := by
  obtain ⟨e, he, -⟩ := hw hs
  rintro hin
  rw [hin] at he
  cases he

theorem Ahead.mono {m : Nat} (hw : Ahead m w) (hmn : m ≤ n) : Ahead n w := fun hs => by
  obtain ⟨e, he, ht⟩ := hw hs
  exact ⟨e, List.take_subset_take_left _ (Nat.succ_le_succ hmn) he, ht⟩

variable (handle) in
/-- Reading an event either stops the worker's end or brings the one that ends the search nearer. -/
theorem Ahead.dispatch {e : Event} {rest : List Event} (hw : Ahead n w)
    (hin : w.channel.inbound = e :: rest) (h : η) (hs : w.channel.stopped = none)
    (hgo : (World.dispatch handle (w.withInbound rest) h e).2.1.channel.stopped = none) :
    0 < n ∧ Ahead (n - 1) (World.dispatch handle (w.withInbound rest) h e).2.1 := by
  have hc := dispatch_channel handle (w := w.withInbound rest) h e hs
  obtain ⟨e', he', ht⟩ := hw hs
  rw [hin, List.take_succ_cons, List.mem_cons] at he'
  rw [hc] at hgo
  rcases he' with rfl | he'
  · rw [← Event.isSome_stopReason?, show e'.stopReason? = none from hgo] at ht
    cases ht
  · have hn : 0 < n := by
      rcases n with _ | n
      · simp at he'
      · exact n.succ_pos
    refine ⟨hn, fun _ => ⟨e', ?_, ht⟩⟩
    rw [hc, Nat.sub_add_cancel hn]
    exact he'

/-- Nobody moves an event that ends the search back. -/
theorem lasting_ahead (handle : Handler η) (n : Nat) : Lasting handle (Ahead n) where
  act {w} a hw hs := by
    have hd := act_disturbed w a
    obtain ⟨told, hin, -, -⟩ := hd.pushes
    obtain ⟨e, he, ht⟩ := hw (hd.stopped.symm.trans hs)
    rw [hin, List.take_append]
    exact ⟨e, List.mem_append_left _ he, ht⟩
  script _ hw := hw
  own {w w'} hstep hw := by
    cases hstep with
    | note | send => exact hw
    | @read e rest h hin =>
      intro hs
      have hs₀ : w.channel.stopped = none := dispatch_listens handle hs
      obtain ⟨-, hnear⟩ := hw.dispatch handle hin h hs₀ hs
      exact (hnear.mono (Nat.sub_le n 1)) hs
    | exhausted | heed | bounce => nofun

theorem Ahead.visit (hw : Ahead n w) (p : Point) : Ahead n (w.visit p) :=
  (lasting_ahead (fun _ h => ((h : Unit), [])) n).unbroken.visit p hw

/-- A batch that leaves the worker free to go on ends in front of an event that ends the search. -/
theorem Ahead.readBatch : ∀ (k : Nat) {n : Nat} {w : World} (h : η), Ahead n w →
    w.channel.stopped = none → (World.readBatch handle k w h).1 = .proceed →
    k ≤ n ∧ Ahead (n - k) (World.readBatch handle k w h).2.1
  | 0, n, _, h, hw, _, _ => ⟨Nat.zero_le n, (lasting_ahead handle n).unbroken.checkStop h hw⟩
  | k + 1, n, w, h, hw, hs, hgo => by
    have hw₁ := hw.visit .receive
    have hs₁ : (w.visit .receive).channel.stopped = none :=
      (visit_disturbed w .receive).stopped.trans hs
    unfold World.readBatch at hgo ⊢
    simp only [] at hgo ⊢
    set w₁ := w.visit .receive
    rcases hin : w₁.channel.inbound with _ | ⟨e, rest⟩
    · exact (hw₁.nonempty hs₁ hin).elim
    · have hflow := dispatch_flow handle (w := w₁.withInbound rest) h e hs₁
      have hnear := hw₁.dispatch handle hin h hs₁
      simp only [hin] at hgo ⊢
      rcases hr : World.dispatch handle (w₁.withInbound rest) h e with ⟨_ | reason, w₂, h₂⟩ <;>
        rw [hr] at hflow hnear
      · have hs₂ : w₂.channel.stopped = none := stopped_of_flow hflow.symm
        simp only [hr] at hgo
        obtain ⟨hn, hw₂⟩ := hnear hs₂
        obtain ⟨hk, hrest⟩ := readBatch k h₂ hw₂ hs₂ hgo
        refine ⟨by omega, ?_⟩
        rwa [Nat.add_comm, ← Nat.sub_sub]
      · simp only [hr] at hgo
        cases hgo

variable (handle) in
theorem Ahead.poll (h : η) (hw : Ahead n w) (hgo : (World.poll handle w h).1 = .proceed) :
    pollBatch ≤ n ∧ Ahead (n - pollBatch) (World.poll handle w h).2.1 := by
  rcases hs : w.channel.stopped with _ | reason
  · unfold World.poll at hgo ⊢
    rw [hs] at hgo ⊢
    exact Ahead.readBatch pollBatch h hw hs hgo
  · rw [poll_of_stopped handle hs] at hgo
    cases hgo

section Reports

/-- Only where nothing waits to be read, a worker does not wake up. -/
theorem inbound_of_asleep (h : w.readyBranch? = none) : w.channel.inbound = [] := by
  have hall := List.find?_eq_none.1 h .inbound (by simp)
  simp only [isReady, Bool.or_eq_true, Bool.not_eq_true', List.isEmpty_eq_false_iff, not_or,
    not_not] at hall
  exact hall.1

variable (handle) in
theorem Ahead.wake (r : Report) (h : η) (hw : Ahead n w) (hs : w.channel.stopped = none) :
    (World.wake handle w h r).1 ≠ .asleep
      ∧ ((World.wake handle w h r).1 = .again →
        0 < n ∧ Ahead (n - 1) (World.wake handle w h r).2.1) := by
  have hw₁ := hw.visit .wait
  have hs₁ : (w.visit .wait).channel.stopped = none := (visit_disturbed w .wait).stopped.trans hs
  unfold World.wake
  simp only []
  set w₁ := w.visit .wait
  split
  · rename_i hb
    exact (hw₁.nonempty hs₁ (inbound_of_asleep hb)).elim
  · exact ⟨nofun, nofun⟩
  · split_ifs <;> exact ⟨nofun, nofun⟩
  · split
    · exact ⟨nofun, nofun⟩
    · rename_i e rest hin
      have hflow := dispatch_flow handle (w := w₁.withInbound rest) h e hs₁
      have hnear := hw₁.dispatch handle hin h hs₁
      rcases hr : World.dispatch handle (w₁.withInbound rest) h e with ⟨_ | reason, w₂, h₂⟩ <;>
        rw [hr] at hflow hnear
      · exact ⟨nofun, fun _ => hnear (stopped_of_flow hflow.symm)⟩
      · exact ⟨nofun, nofun⟩

/-- A report does not wait for ever while an event that ends the search waits too. -/
theorem Ahead.settle (r : Report) : ∀ (k : Nat) {n : Nat} {w : World} (h : η), Ahead n w →
    w.channel.stopped = none → n < k → ∀ q, (World.settle handle k w h r).1 ≠ .waiting q
  | 0, n, _, _, _, _, hk => (Nat.not_lt_zero n hk).elim
  | k + 1, n, w, h, hw, hs, hk => by
    obtain ⟨hawake, hagain⟩ := hw.wake handle r h hs
    have hout := (wake_accesses handle (P := fun _ => True) (r := r) h hs trivial).2
    unfold World.settle
    rcases hv : World.wake handle w h r with ⟨_ | _ | _, w₁, h₁⟩ <;> rw [hv] at hawake hagain hout
    · exact Emission.flow_ne_waiting _
    · obtain ⟨hn, hw₁⟩ := hagain rfl
      obtain ⟨-, hlistens, -⟩ :=
        sendAtOnce_accesses handle (P := fun _ => True) (r := r) h₁ hout trivial
      have hw₂ := (lasting_ahead handle (n - 1)).unbroken.sendAtOnce r hw₁
      rcases hsend : w₁.sendAtOnce r with ⟨_ | f, w₂⟩ <;> rw [hsend] at hlistens hw₂
      · simp only [hsend]
        exact Ahead.settle r k h₁ hw₂ (hlistens rfl) (by omega)
      · simp only [hsend]
        exact Emission.flow_ne_waiting f
    · exact (hawake rfl).elim

/-- However far back the event is, the queue is no longer than the worker is ready to read. -/
theorem Ahead.resume (r : Report) (h : η) (hw : Ahead n w) (hs : w.channel.stopped = none)
    (q : Report) : (World.resume handle w h r).1 ≠ .waiting q := by
  have hnear : Ahead (min n w.channel.inbound.length) w := fun _ => by
    obtain ⟨e, he, ht⟩ := hw hs
    refine ⟨e, ?_, ht⟩
    rcases Nat.le_total n w.channel.inbound.length with hle | hle
    · rwa [Nat.min_eq_left hle]
    · rw [Nat.min_eq_right hle, List.take_of_length_le (Nat.le_succ _)]
      exact List.mem_of_mem_take he
  exact hnear.settle r w.wakings h hs (by unfold wakings; omega) q

variable (handle) in
theorem Ahead.emit (h : η) (scenario : Scenario) (score : Nat) (hw : Ahead n w)
    (hs : w.channel.stopped = none) (q : Report) :
    (World.emit handle w h scenario score).1 ≠ .waiting q := by
  have hpoll := (lasting_ahead handle n).unbroken.poll h hw
  have hflow := (poll_accesses handle (P := fun _ => True) w h hs).2
  rcases hp : World.poll handle w h with ⟨_ | reason, w₁, h₁⟩ <;> rw [hp] at hpoll hflow
  · rw [emit_of_poll_proceeds handle hs hp]
    set r := w₁.draft scenario score
    have hs₁ : w₁.channel.stopped = none := stopped_of_flow hflow.symm
    obtain ⟨-, hlistens, -⟩ :=
      sendAtOnce_accesses handle (P := fun _ => True) (r := r) h₁ hs₁ trivial
    have hsend := (lasting_ahead handle n).unbroken.sendAtOnce r hpoll
    rcases ho : w₁.sendAtOnce r with ⟨_ | f, w₂⟩ <;> rw [ho] at hlistens hsend
    · exact hsend.resume r h₁ (hlistens rfl) q
    · exact Emission.flow_ne_waiting f q
  · rw [emit_of_poll_halts handle hs hp]
    exact Emission.flow_ne_waiting _ q

end Reports

end World

namespace Run

open World

variable {σ ρ ν μ : Type} [Sampler σ ρ] [Scorer ν] [SamplingMonitor μ]
  {x y : World × Run σ ρ ν μ} {es : List Entry} {n : Nat}

omit [Sampler σ ρ] [Scorer ν] in
theorem Opens.ahead (h : Opens x y) (hx : Ahead n x.1) :
    pollBatch ≤ n ∧ Ahead (n - pollBatch) y.1 := by
  have hpoll := hx.poll Sink.handle x.2.sink (by rw [h.polled])
  rwa [h.polled] at hpoll

/-- A turn that draws has read a full batch in front of an event that ends the search. -/
theorem Course.lag (h : Course x es y) (hx : Ahead n x.1) :
    ∃ m, Ahead m y.1 ∧ m + (draws es).length * pollBatch ≤ n := by
  have hundrawn : draws es = [] → ∃ m, Ahead m y.1 ∧ m + (draws es).length * pollBatch ≤ n :=
    fun hd => ⟨n, (lasting_ahead Sink.handle n).unbroken.course h hx, by simp [hd]⟩
  cases h with
  | idle | stopped | aborted => exact hundrawn rfl
  | @drew z _ _ ho hd =>
    obtain ⟨hn, hz⟩ := ho.ahead hx
    refine ⟨n - pollBatch, (lasting_ahead Sink.handle _).unbroken.drawCourse hd hz, ?_⟩
    rw [hd.draws_eq, List.length_singleton]
    omega
  | resumed => exact hundrawn (draws_attemptEntries _ _ _)

/-- Each draw of a run takes a full batch off what waits in front of an event that ends the
search. -/
theorem play_lag : ∀ (vs : List Move) {x : World × Run σ ρ ν μ} {n : Nat}, Ahead n x.1 →
    ∃ m, Ahead m (play x vs).1 ∧ m + (draws (chronicle x vs)).length * pollBatch ≤ n
  | [], _, n, hx => ⟨n, hx, by simp [chronicle, draws]⟩
  | v :: vs, x, n, hx => by
    obtain ⟨m, hnext, hm⟩ : ∃ m, Ahead m (next x v).1
        ∧ m + (draws (moveEntries x v)).length * pollBatch ≤ n := by
      cases v with
      | act a => exact ⟨n, (lasting_ahead Sink.handle n).act a hx, by simp [moveEntries, draws]⟩
      | plan script => exact ⟨n, hx, by simp [moveEntries, draws]⟩
      | step => exact (step_course x).lag hx
    obtain ⟨k, hplay, hk⟩ := play_lag vs hnext
    refine ⟨k, hplay, ?_⟩
    rw [chronicle, draws_append, List.length_append, Nat.add_mul]
    omega

section Ending

theorem DrawCourse.unwaiting (h : DrawCourse x es y) (hs : x.1.channel.stopped = none)
    (hx : Ahead n x.1) : Unwaiting es := by
  cases h with
  | undrawn | unscored | discarded | passed => exact .of_nil rfl
  | @reported c score z _ _ _ hz =>
    have hlisten : z.1.channel.stopped = none := by
      rw [← hz]
      exact (quiet_judged x c score).disturbed.stopped.trans hs
    have hahead : Ahead n z.1 := by
      rw [← hz]
      exact (lasting_ahead Sink.handle n).unbroken.judged _ _ hx
    have hanswer :=
      hahead.emit Sink.handle z.2.sink (.ofCandidate z.2.candidate) score hlisten
    exact (unwaiting_attemptEntries hanswer).drew _

theorem Course.unwaiting (h : Course x es y) (hready : Ready x) (hx : Ahead n x.1) :
    Unwaiting es := by
  cases h with
  | idle | stopped | aborted => exact .of_nil rfl
  | drew ho hd => exact hd.unwaiting ho.listens (ho.ahead hx).2
  | @resumed q hq =>
    exact unwaiting_attemptEntries (hx.resume q x.2.sink (hready.waiting q hq).1)

/-- With an event that ends the search in its queue, a run leaves no report waiting. -/
theorem play_unwaiting : ∀ (vs : List Move) {x : World × Run σ ρ ν μ}, Ready x → Ahead n x.1 →
    Unwaiting (chronicle x vs)
  | [], _, _, _ => .of_nil rfl
  | v :: vs, x, hready, hx => by
    have hfirst : Unwaiting (moveEntries x v) := by
      cases v with
      | act | plan => exact .of_nil rfl
      | step => exact (step_course x).unwaiting hready hx
    exact hfirst.append
      (play_unwaiting vs (next_ready hready v).1 ((lasting_ahead Sink.handle n).next v hx))

/-- From any state of any run in which an event that ends the search waits behind `p` others, the
run draws at most once for each full batch of those `p`, whatever else arrives and whatever its
sampler, scorer and monitor do; in particular it draws nothing if the event is in the first batch.
If it is in that state between two turns, it has ended after one more turn than that. -/
theorem draws_bounded_by_lag {x : World × Run σ ρ ν μ} {p : Nat} {e : Event}
    (hp : x.1.channel.inbound[p]? = some e) (he : e.isTerminal = true) (vs : List Move) :
    (draws (chronicle x vs)).length ≤ p / pollBatch
      ∧ (x.2.stage = .looping → p / pollBatch < vs.countP Move.isStep →
        (play x vs).2.isOver = true) := by
  have hx : Ahead p x.1 := fun _ =>
    ⟨e, List.mem_of_getElem? ((List.getElem?_take_of_lt p.lt_succ_self).trans hp), he⟩
  have hdraws : (draws (chronicle x vs)).length ≤ p / pollBatch := by
    obtain ⟨m, -, hm⟩ := play_lag vs hx
    rw [Nat.le_div_iff_mul_le (by decide)]
    omega
  refine ⟨hdraws, fun hl hv => ?_⟩
  rcases play_rounds vs hl (play_unwaiting vs (.of_looping hl) hx) with hover | ⟨-, hcount⟩
  · exact hover
  · omega

theorem inbound_actAll_notify : ∀ (es : List Event) {w : World}, w.channel.searchAlive = true →
    w.channel.workerAlive = true →
    (w.actAll (es.map .notify)).channel.inbound = w.channel.inbound ++ es
  | [], w, _, _ => (List.append_nil _).symm
  | e :: es, w, hs, hw => by
    have hact : (w.act (.notify e)).channel
        = { w.channel with inbound := w.channel.inbound ++ [e] } := by
      simp [act, notify, note, record, hs, hw]
    have ih := inbound_actAll_notify es (w := w.act (.notify e)) (by rw [hact]; exact hs)
      (by rw [hact]; exact hw)
    rw [hact, List.append_assoc] at ih
    exact ih

/-- Before the first turn a strategy is found behind one failure, or behind a full batch of them:
the run draws nothing, or at most once, and is over after one turn or two. -/
theorem draws_bounded_by_lag_two_batches :
    let domain : Domain := ⟨0, 3, by decide, by decide, by decide⟩
    let m : Model :=
      ⟨.closed, [⟨"x", ⟨0⟩, .decision .existential, .int, domain⟩], [], [("x", ⟨0⟩)], 0⟩
    let told (p : Nat) : List Event := List.replicate p .failure ++ [.strategyFound]
    let behind (p : Nat) := (World.ofCapacity 1).actAll ((told p).map .notify)
    let vs : List Move := [.act (.notify .failure), .step]
    (∃ w r, begin (behind 1) ⟨0, false⟩ m UniformSampler.mk (⟨#[], 0⟩ : WordCycle)
          ConstraintScorer.mk (Monitor.recorder "all") = .ok (w, r)
        ∧ w.channel.inbound[1]? = some .strategyFound
        ∧ (draws (chronicle (w, r) vs)).length ≤ 0 ∧ (play (w, r) vs).2.isOver = true)
      ∧ ∃ w r, begin (behind 1024) ⟨0, false⟩ m UniformSampler.mk (⟨#[], 0⟩ : WordCycle)
          ConstraintScorer.mk (Monitor.recorder "all") = .ok (w, r)
        ∧ w.channel.inbound[1024]? = some .strategyFound
        ∧ (draws (chronicle (w, r) (vs ++ vs))).length ≤ 1
        ∧ (play (w, r) (vs ++ vs)).2.isOver = true := by
  intro domain m told behind vs
  have h : ∀ p, begin (behind p) ⟨0, false⟩ m UniformSampler.mk (⟨#[], 0⟩ : WordCycle)
    ConstraintScorer.mk (Monitor.recorder "all") = .ok (_, _) := fun _ => rfl
  have hp : ∀ p, (behind p).channel.inbound[p]? = some .strategyFound := by
    intro p
    rw [inbound_actAll_notify _ rfl rfl]
    simp [told, World.ofCapacity, Channel.ofCapacity]
  have hnear := hp 1
  have hfar := hp 1024
  rw [← (begun (h 1)).channel] at hnear
  rw [← (begun (h 1024)).channel] at hfar
  obtain ⟨hnone, hover⟩ := draws_bounded_by_lag (x := (_, _)) hnear rfl vs
  obtain ⟨hone, hover'⟩ := draws_bounded_by_lag (x := (_, _)) hfar rfl (vs ++ vs)
  exact ⟨⟨_, _, h 1, hnear, hnone, hover (begun (h 1)).looping (by decide)⟩,
    _, _, h 1024, hfar, hone, hover' (begun (h 1024)).looping (by decide)⟩

end Ending

end Run

end ScenarioSampling
