import ScenarioSampling.Proofs.Exchange

/-!
# Deliveries

A report gets its number when it is written, may wait, is offered again after every event, and is
sent from one of two places; the search then drops what its number says it has read before. None of
this loses, repeats or renumbers a report: those accepted are those the search has read followed by
those that still wait, numbered 0, 1, … (`accepted_delivered_in_order`).

What a call adds to the reports is what its answer says, in whatever order the others act meanwhile
(`Posted`, `emit_posted`, `resume_posted`).
-/

namespace ScenarioSampling

open Transfer

/-- What comes of an attempt with `a` that is answered like this. -/
def Emission.sent {α : Type} (a : α) : Emission → List α
  | .flow .proceed => [a]
  | _ => []

theorem Emission.map_sent {α β : Type} (f : α → β) (a : α) (e : Emission) :
    (e.sent a).map f = e.sent (f a) := by
  unfold sent
  split <;> rfl

theorem Emission.sent_eq_nil {α : Type} (a : α) {e : Emission} (he : e ≠ .flow .proceed) :
    e.sent a = [] := by
  unfold sent
  split
  · exact absurd rfl he
  · rfl

/-- What a report says to the search. -/
def Report.content (r : Report) : Scenario × Nat := (r.scenario, r.score)

/-- What was sent was read by the search or still waits, it is numbered without gaps, and the search
remembers the number of the report that it read last. -/
structure Delivery (w : World) : Prop where
  conserved : sends w.history.toList = w.delivered ++ w.channel.outbound
  numbered : (sends w.history.toList).map Report.sequence = List.range w.channel.emitted
  last : w.channel.lastSequence = w.delivered.getLast?.map Report.sequence

/-- `w'` comes after `w` by sending `rs`, whatever others do meanwhile. -/
structure Posted (w : World) (rs : List Report) (w' : World) : Prop where
  sent : sends w'.history.toList = sends w.history.toList ++ rs
  emitted : w'.channel.emitted = w.channel.emitted + rs.length
  keeps : Delivery w → Delivery w'

namespace Delivery

variable {w : World}

theorem ofCapacity (capacity : Nat) : Delivery (.ofCapacity capacity) where
  conserved := rfl
  numbered := rfl
  last := rfl

/-- The search drops nothing of what waits. -/
theorem isFresh (hw : Delivery w) {r : Report} (hr : r ∈ w.channel.outbound) :
    w.channel.isFresh r = true := by
  have hlt : (w.delivered ++ w.channel.outbound).Pairwise fun a b => a.sequence < b.sequence := by
    rw [← List.pairwise_map, ← hw.conserved, hw.numbered]
    exact List.pairwise_lt_range
  have hbefore := (List.pairwise_append.1 hlt).2.2
  unfold Channel.isFresh
  rw [hw.last]
  rcases hl : w.delivered.getLast? with _ | last
  · rfl
  · exact decide_eq_true (hbefore last (List.mem_of_getLast? hl) r hr)

/-- A read takes the report that waits longest. -/
theorem tryNext (hw : Delivery w) : w.tryNext.1 = w.channel.outbound.head?
    ∧ w.tryNext.2.channel.outbound = w.channel.outbound.tail
    ∧ w.tryNext.2.delivered = w.delivered ++ w.tryNext.1.toList ∧ Delivery w.tryNext.2 := by
  unfold World.tryNext
  rcases ho : w.channel.outbound with _ | ⟨r, rest⟩
  · simp only [World.takeFresh, List.head?_nil, List.tail_nil, Option.toList_none, List.append_nil,
      true_and]
    exact ⟨by rw [hw.conserved, ho], hw.numbered, hw.last⟩
  · have hf : w.channel.isFresh r = true := hw.isFresh (by simp [ho])
    simp only [World.takeFresh, hf, if_true, List.head?_cons, List.tail_cons, Option.toList_some,
      true_and]
    refine ⟨?_, hw.numbered, ?_⟩
    · rw [hw.conserved, ho, List.append_assoc, List.singleton_append]
    · rw [List.getLast?_concat, Option.map_some]

theorem drainAtMost : ∀ (n : Nat) {w : World}, Delivery w →
    (w.drainAtMost n).1 = w.channel.outbound.take n
      ∧ (w.drainAtMost n).2.delivered = w.delivered ++ (w.drainAtMost n).1
      ∧ Delivery (w.drainAtMost n).2
  | 0, w, hw => ⟨rfl, (List.append_nil _).symm, hw⟩
  | n + 1, w, hw => by
    obtain ⟨hhead, htail, hdel, hnext⟩ := hw.tryNext
    unfold World.drainAtMost
    rcases hr : w.tryNext with ⟨_ | r, w'⟩ <;> rw [hr] at hhead htail hdel hnext
    · have ho : w.channel.outbound = [] := List.head?_eq_none_iff.1 hhead.symm
      simp only [ho, List.take_nil, true_and]
      exact ⟨hdel, hnext⟩
    · obtain ⟨ih, ihdel, ihkeep⟩ := drainAtMost n hnext
      obtain ⟨rest, ho⟩ := List.head?_eq_some_iff.1 hhead.symm
      rw [ho, List.tail_cons] at htail
      refine ⟨?_, ?_, ihkeep⟩
      · rw [ho, List.take_succ_cons, ← htail, ← ih]
      · rw [ihdel, hdel, List.append_assoc]
        rfl

theorem drain (hw : Delivery w) : w.drain.1 = w.channel.outbound
    ∧ w.drain.2.delivered = w.delivered ++ w.drain.1 ∧ Delivery w.drain.2 := by
  obtain ⟨htake, hdel, hkeep⟩ := hw.drainAtMost (w.channel.outbound.length + 1)
  exact ⟨htake.trans (List.take_of_length_le (Nat.le_succ _)), hdel, hkeep⟩

end Delivery

theorem Disturbed.sends_eq {w w' : World} (hd : Disturbed w w') :
    sends w'.history.toList = sends w.history.toList := by
  obtain ⟨es, -, hhist, -⟩ := hd.pushes
  rw [hhist, sends_append, sends_map_pushed, List.append_nil]

/-- Others change nothing about reports unless they read them. -/
theorem Delivery.disturbed {w w' : World} (hw : Delivery w) (hd : Disturbed w w')
    (hdel : w'.delivered = w.delivered) (hout : w'.channel.outbound = w.channel.outbound)
    (hlast : w'.channel.lastSequence = w.channel.lastSequence) : Delivery w' where
  conserved := by rw [hd.sends_eq, hdel, hout, hw.conserved]
  numbered := by rw [hd.sends_eq, hd.emitted, hw.numbered]
  last := by rw [hlast, hdel, hw.last]

namespace Posted

variable {w w' w'' : World} {rs rs' : List Report}

theorem trans (h : Posted w rs w') (h' : Posted w' rs' w'') : Posted w (rs ++ rs') w'' where
  sent := by rw [h'.sent, h.sent, List.append_assoc]
  emitted := by rw [h'.emitted, h.emitted, List.length_append, Nat.add_assoc]
  keeps := h'.keeps ∘ h.keeps

theorem after (h : Posted w [] w') (h' : Posted w' rs w'') : Posted w rs w'' := h.trans h'

/-- A step that has nothing to do with reports. -/
theorem frame (hs : sends w'.history.toList = sends w.history.toList)
    (hd : w'.delivered = w.delivered) (ho : w'.channel.outbound = w.channel.outbound)
    (he : w'.channel.emitted = w.channel.emitted)
    (hl : w'.channel.lastSequence = w.channel.lastSequence) : Posted w [] w' where
  sent := by rw [hs, List.append_nil]
  emitted := he
  keeps h := ⟨by rw [hs, hd, ho, h.conserved], by rw [hs, he, h.numbered], by rw [hl, hd, h.last]⟩

theorem refl (w : World) : Posted w [] w := frame rfl rfl rfl rfl rfl

theorem of_disturbed (hd : Disturbed w w') (hk : Delivery w → Delivery w') : Posted w [] w' where
  sent := by rw [hd.sends_eq, List.append_nil]
  emitted := hd.emitted
  keeps := hk

theorem emitted_eq (h : Posted w [] w') : w'.channel.emitted = w.channel.emitted := h.emitted

end Posted

namespace World

/-- Others send nothing, and what they read they read in order. -/
theorem act_posted (w : World) (a : Action) : Posted w [] (w.act a) := by
  have hd := act_disturbed w a
  refine .of_disturbed hd fun hw => ?_
  cases a with
  | notify e =>
    refine hw.disturbed hd ?_ ?_ ?_
    all_goals
      simp only [act, notify]
      split_ifs <;> rfl
  | readReport =>
    simp only [act]
    split
    · exact hw.tryNext.2.2.2
    · exact hw
  | drain =>
    simp only [act]
    split
    · exact hw.drain.2.2
    · exact hw
  | startReceiving =>
    simp only [act]
    split
    · exact ⟨hw.conserved, hw.numbered, hw.last⟩
    · exact hw
  | stopReceiving | dropSearch | raiseStop | leaveToken | addOwner | dropOwner | interrupt | tick
  | favour => exact hw.disturbed hd rfl rfl rfl

theorem noteAll_posted (w : World) (ns : List Notice) : Posted w [] (w.noteAll ns) :=
  .frame (by rw [noteAll_history]) (noteAll_delivered w ns) (by rw [noteAll_channel])
    (by rw [noteAll_channel]) (by rw [noteAll_channel])

theorem visit_posted (w : World) (p : Point) : Posted w [] (w.visit p) :=
  visit_keeps (I := Posted w []) (fun a h => h.after (act_posted _ a))
    (fun _ h => h.after (.frame rfl rfl rfl rfl rfl)) p (.refl w)

variable {η : Type} (handle : Handler η)

theorem dispatch_posted {w : World} (h : η) (e : Event) (rest : List Event)
    (hw : w.channel.stopped = none) :
    Posted w [] (dispatch handle (w.withInbound rest) h e).2.1 := by
  have hc := dispatch_channel handle (w := w.withInbound rest) h e hw
  refine .frame ?_ ?_ ?_ ?_ ?_
  · simp [sends, sent?]
  · simp
  all_goals rw [hc]; rfl

theorem checkStop_posted (w : World) (h : η) : Posted w [] (w.checkStop h).2.1 := by
  have hflag := visit_posted w .readFlag
  have htoken := hflag.after (visit_posted (w.visit .readFlag) .takeToken)
  rcases checkStop_visits w h with hv | ⟨v, s, rfl | rfl, -, hv⟩ <;> rw [hv]
  · exact htoken
  · exact hflag.after (.frame rfl rfl rfl rfl rfl)
  · exact htoken.after (.frame rfl rfl rfl rfl rfl)

theorem readBatch_posted : ∀ (n : Nat) (w : World) (h : η), w.channel.stopped = none →
    Posted w [] (readBatch handle n w h).2.1
  | 0, w, h, _ => checkStop_posted w h
  | n + 1, w, h, hw => by
    have hvisit := visit_posted w .receive
    have hs : (w.visit .receive).channel.stopped = none :=
      (visit_disturbed w .receive).stopped.trans hw
    unfold readBatch
    simp only []
    set w₁ := w.visit .receive
    split
    · rename_i e rest hin
      have hread := dispatch_posted handle h e rest hs
      have hflow := dispatch_flow handle (w := w₁.withInbound rest) h e hs
      rcases hr : dispatch handle (w₁.withInbound rest) h e with ⟨_ | reason, w₂, h₂⟩ <;>
        rw [hr] at hread hflow
      · have hrest := readBatch_posted n w₂ h₂ (stopped_of_flow hflow.symm)
        exact (hvisit.after hread).after hrest
      · exact hvisit.after hread
    · split
      · exact hvisit.after (checkStop_posted w₁ h)
      · exact hvisit.after (.frame rfl rfl rfl rfl rfl)

theorem poll_posted (w : World) (h : η) : Posted w [] (poll handle w h).2.1 := by
  unfold poll
  split
  · exact .refl w
  · exact readBatch_posted handle pollBatch w h ‹_›

theorem send_posted {w : World} {r : Report} (hr : r.sequence = w.channel.emitted) :
    Posted w [r] (w.send r) := by
  have hsent : sends (w.send r).history.toList = sends w.history.toList ++ [r] := by
    simp [sends, sent?]
  refine ⟨hsent, rfl, fun hw => ⟨?_, ?_, hw.last⟩⟩
  · rw [hsent, hw.conserved, List.append_assoc]
    rfl
  · rw [hsent, List.map_append, hw.numbered, List.map_singleton, hr]
    exact List.range_succ.symm

theorem bounce_posted (w : World) (r : Report) : Posted w [] (w.bounce r).2 :=
  .frame (by simp [sends, sent?]) rfl rfl rfl rfl

section Attempts

theorem sendAtOnce_posted {w : World} {r : Report} (hr : r.sequence = w.channel.emitted) :
    match w.sendAtOnce r with
    | (some flow, w') => Posted w ((Emission.flow flow).sent r) w'
    | (none, w') => Posted w [] w' := by
  have hvisit := visit_posted w .offer
  unfold sendAtOnce
  simp only []
  split_ifs
  · exact hvisit.after (bounce_posted _ r)
  · exact hvisit.after (send_posted (hr.trans hvisit.emitted_eq.symm))
  · exact hvisit

theorem wake_posted {w : World} (h : η) {r : Report} (hw : w.channel.stopped = none)
    (hr : r.sequence = w.channel.emitted) :
    match wake handle w h r with
    | (.over flow, w', _) => Posted w (Emission.sent r (.flow flow)) w'
    | (.again, w', _) | (.asleep, w', _) => Posted w [] w' := by
  have hvisit := visit_posted w .wait
  have hs : (w.visit .wait).channel.stopped = none := (visit_disturbed w .wait).stopped.trans hw
  unfold wake
  simp only []
  set w₁ := w.visit .wait
  cases w₁.readyBranch? with
  | none => exact hvisit
  | some branch =>
    cases branch with
    | stop => exact hvisit.after (.frame rfl rfl rfl rfl rfl)
    | send =>
      simp only []
      split_ifs
      · exact hvisit.after (send_posted (hr.trans hvisit.emitted_eq.symm))
      · exact hvisit.after (bounce_posted _ r)
    | inbound =>
      simp only []
      rcases hin : w₁.channel.inbound with _ | ⟨e, rest⟩
      · exact hvisit.after (.frame rfl rfl rfl rfl rfl)
      · have hread := dispatch_posted handle h e rest hs
        rcases hd : dispatch handle (w₁.withInbound rest) h e with ⟨_ | reason, w₂, h₂⟩ <;>
          rw [hd] at hread <;> simp only [hd]
        · exact hvisit.after hread
        · exact hvisit.after hread

theorem settle_posted : ∀ (n : Nat) (w : World) (h : η) (r : Report),
    w.channel.stopped = none → r.sequence = w.channel.emitted →
    Posted w ((settle handle n w h r).1.sent r) (settle handle n w h r).2.1
  | 0, w, h, r, _, _ => .refl w
  | n + 1, w, h, r, hw, hr => by
    have hwake := wake_posted handle h hw hr
    obtain ⟨-, hout⟩ := wake_accesses handle (P := fun _ => True) h hw (r := r) trivial
    unfold settle
    rcases hk : wake handle w h r with ⟨_ | _ | _, w₁, h₁⟩ <;> rw [hk] at hwake hout
    · exact hwake
    · have hr₁ := hr.trans hwake.emitted_eq.symm
      have hsend := sendAtOnce_posted hr₁
      obtain ⟨-, hnone, -⟩ := sendAtOnce_accesses handle (P := fun _ => True) h₁ hout (r := r)
        trivial
      simp only []
      rcases hs : w₁.sendAtOnce r with ⟨_ | f, w₂⟩ <;> rw [hs] at hsend hnone
      · exact (hwake.after hsend).after
          (settle_posted n w₂ h₁ r (hnone rfl) (hr₁.trans hsend.emitted_eq.symm))
      · exact hwake.after hsend
    · exact hwake

/-- A report that goes on waiting is sent exactly if the answer is to go on. -/
theorem resume_posted {w : World} (h : η) {r : Report} (hw : w.channel.stopped = none)
    (hr : r.sequence = w.channel.emitted) :
    Posted w ((resume handle w h r).1.sent r) (resume handle w h r).2.1 :=
  settle_posted handle _ w h r hw hr

/-- A report is sent exactly if the answer is to go on, with the next number. -/
theorem emit_posted (w : World) (h : η) (scenario : Scenario) (score : Nat) :
    ∃ r, w.Drafted scenario score r
      ∧ Posted w ((emit handle w h scenario score).1.sent r)
        (emit handle w h scenario score).2.1 := by
  rcases hs : w.channel.stopped with _ | reason
  · have hpoll := poll_posted handle w h
    obtain ⟨-, hflow⟩ := poll_accesses handle (P := fun _ => False) w h hs
    rcases hp : poll handle w h with ⟨_ | reason, w₁, h₁⟩ <;> rw [hp] at hpoll hflow
    · set r := w₁.draft scenario score with hr
      have hdr : w.Drafted scenario score r := ⟨rfl, rfl, hpoll.emitted_eq⟩
      have hsend := sendAtOnce_posted (w := w₁) (r := r) rfl
      obtain ⟨-, hnone, -⟩ := sendAtOnce_accesses handle (P := fun _ => True) h₁
        (stopped_of_flow hflow.symm) (r := r) trivial
      refine ⟨r, hdr, ?_⟩
      rw [emit_of_poll_proceeds handle hs hp, ← hr]
      rcases ho : w₁.sendAtOnce r with ⟨_ | f, w₂⟩ <;> rw [ho] at hsend hnone
      · have hresume := resume_posted handle h₁ (hnone rfl) (r := r) hsend.emitted_eq.symm
        exact (hpoll.after hsend).after hresume
      · exact hpoll.after hsend
    · rw [emit_of_poll_halts handle hs hp]
      exact ⟨⟨scenario, score, w.channel.emitted, 0⟩, ⟨rfl, rfl, rfl⟩, hpoll⟩
  · rw [emit_of_stopped handle hs]
    exact ⟨⟨scenario, score, w.channel.emitted, 0⟩, ⟨rfl, rfl, rfl⟩, .frame rfl rfl rfl rfl rfl⟩

end Attempts

end World

namespace Exchange

variable {η : Type} (handle : Handler η)

/-- What a move attempts to report, from the beginning or by going on, and the answer. -/
def attempt? (x : Exchange η) : Move → Option ((Scenario × Nat) × Emission)
  | .emit scenario score =>
    match x.waiting with
    | none => some ((scenario, score), (x.world.emit handle x.sink scenario score).1)
    | some _ => none
  | .resume =>
    match x.waiting with
    | none => none
    | some r => some ((r.scenario, r.score), (x.world.resume handle x.sink r).1)
  | .act _ | .plan _ | .poll => none

/-- What a move puts into the outbound queue. -/
def accepts (x : Exchange η) (m : Move) : List (Scenario × Nat) :=
  match x.attempt? handle m with
  | some (report, e) => e.sent report
  | none => []

/-- What was reported with the answer to go on, in order. -/
def accepted (x : Exchange η) : List Move → List (Scenario × Nat)
  | [] => []
  | m :: ms => x.accepts handle m ++ (x.move handle m).accepted ms

/-- A report that waits has the next number, and the worker's end listens. -/
def Numbered (x : Exchange η) : Prop :=
  ∀ r, x.waiting = some r → r.sequence = x.world.channel.emitted
    ∧ x.world.channel.stopped = none

theorem numbered_afterEmission {a : Emission × World × η} {w : World} {r : Report}
    (hp : Posted w (a.1.sent r) a.2.1)
    (hw : ∀ q, a.1 = .waiting q → q.sequence = w.channel.emitted ∧ a.2.1.channel.stopped = none) :
    (afterEmission a).Numbered := by
  obtain ⟨e, w', h⟩ := a
  intro q hq
  cases e with
  | flow | refused => cases hq
  | waiting r' =>
    cases hq
    exact (hw _ rfl).imp_left (·.trans hp.emitted_eq.symm)

/-- A move sends what it reports with the answer to go on, and nothing else. -/
theorem move_posted {x : Exchange η} (hx : x.Numbered) (m : Move) :
    (∃ rs, Posted x.world rs (x.move handle m).world
        ∧ rs.map Report.content = x.accepts handle m)
      ∧ (x.move handle m).Numbered := by
  cases m with
  | act a =>
    have hd := World.act_disturbed x.world a
    refine ⟨⟨[], World.act_posted x.world a, rfl⟩, fun r hr => ?_⟩
    exact ⟨(hx r hr).1.trans hd.emitted.symm, hd.stopped.trans (hx r hr).2⟩
  | plan script => exact ⟨⟨[], .frame rfl rfl rfl rfl rfl, rfl⟩, hx⟩
  | poll =>
    refine ⟨⟨[], ?_, rfl⟩, ?_⟩
    all_goals
      unfold move
      simp only []
      split
    · exact World.poll_posted handle x.world x.sink
    · exact .refl x.world
    · exact fun r hr => by cases hr
    · exact hx
  | emit scenario score =>
    rcases hw : x.waiting with _ | q
    · obtain ⟨r, hdr, hposted⟩ := World.emit_posted handle x.world x.sink scenario score
      simp only [accepts, attempt?, move, hw]
      refine ⟨⟨_, hposted, ?_⟩, ?_⟩
      · rw [Emission.map_sent, Report.content, hdr.1, hdr.2.1]
      · obtain ⟨-, hwait⟩ := World.emit_accesses_always handle x.world x.sink scenario score
        exact numbered_afterEmission hposted fun q hq => (hwait q hq).imp_left (·.2.2)
    · simp only [accepts, attempt?, move, hw]
      exact ⟨⟨[], .refl x.world, rfl⟩, hx⟩
  | resume =>
    rcases hw : x.waiting with _ | r
    · simp only [accepts, attempt?, move, hw]
      exact ⟨⟨[], .refl x.world, rfl⟩, hx⟩
    · obtain ⟨hr, hs⟩ := hx r hw
      have hposted := World.resume_posted handle x.sink hs hr
      obtain ⟨-, hf⟩ := World.resume_accesses handle (P := fun _ => True) x.sink hs (r := r) trivial
      simp only [accepts, attempt?, move, hw]
      refine ⟨⟨_, hposted, Emission.map_sent ..⟩, ?_⟩
      refine numbered_afterEmission hposted fun q hq => ?_
      rw [hq] at hf
      exact ⟨hf.1 ▸ hr, hf.2⟩

theorem run_posted : ∀ (ms : List Move) {x : Exchange η}, x.Numbered →
    ∃ rs, Posted x.world rs (x.run handle ms).world ∧ rs.map Report.content = x.accepted handle ms
  | [], x, _ => ⟨[], .refl x.world, rfl⟩
  | m :: ms, x, hx => by
    obtain ⟨⟨rs, hposted, hrs⟩, hnext⟩ := move_posted handle hx m
    obtain ⟨rs', hposted', hrs'⟩ := run_posted ms hnext
    exact ⟨rs ++ rs', hposted.trans hposted', by rw [List.map_append, hrs, hrs', accepted]⟩

theorem numbered_start (capacity : Nat) (h : η) : (start capacity h).Numbered :=
  fun _ hr => by cases hr

theorem numbered_run : ∀ (ms : List Move) {x : Exchange η}, x.Numbered →
    (x.run handle ms).Numbered
  | [], _, hx => hx
  | m :: ms, _, hx => numbered_run ms (move_posted handle hx m).2

/-- In every interleaving, the reports that the search has read followed by those that still wait
are what was reported with the answer to go on, in order and numbered 0, 1, …; the search drops
none of them, so that a read gives the one that waits longest. An attempt with any other answer
sends nothing and takes no number. -/
theorem accepted_delivered_in_order (capacity : Nat) (h : η) (ms : List Move) :
    let x := (start capacity h).run handle ms
    let reports := x.world.delivered ++ x.world.channel.outbound
    reports.map Report.content = (start capacity h).accepted handle ms
      ∧ reports.map Report.sequence = List.range x.world.channel.emitted
      ∧ (∀ r ∈ x.world.channel.outbound, x.world.channel.isFresh r = true)
      ∧ (x.world.tryNext.1 = x.world.channel.outbound.head?
        ∧ x.world.tryNext.2.delivered = x.world.delivered ++ x.world.tryNext.1.toList)
      ∧ (x.world.drain.1 = x.world.channel.outbound
        ∧ x.world.drain.2.delivered = x.world.delivered ++ x.world.drain.1)
      ∧ ∀ m report e, x.attempt? handle m = some (report, e) → e ≠ .flow .proceed →
        sends (x.move handle m).world.history.toList = sends x.world.history.toList
          ∧ (x.move handle m).world.channel.emitted = x.world.channel.emitted := by
  intro x reports
  obtain ⟨rs, hposted, hrs⟩ := run_posted handle ms (numbered_start capacity h)
  have hx : Delivery x.world := hposted.keeps (.ofCapacity capacity)
  have hsent : sends x.world.history.toList = rs := hposted.sent
  refine ⟨?_, ?_, fun r => hx.isFresh, ⟨hx.tryNext.1, hx.tryNext.2.2.1⟩,
    ⟨hx.drain.1, hx.drain.2.1⟩, fun m report e hm he => ?_⟩
  · rw [← hrs, ← hsent, hx.conserved]
  · rw [← hx.numbered, hx.conserved]
  · obtain ⟨⟨new, hnew, hcontent⟩, -⟩ :=
      move_posted handle (numbered_run handle ms (numbered_start capacity h)) m
    have hnone : x.accepts handle m = [] := by
      rw [accepts, hm]
      exact Emission.sent_eq_nil report he
    rw [List.map_eq_nil_iff.1 (hcontent.trans hnone)] at hnew
    exact ⟨hnew.sent.trans (List.append_nil _), hnew.emitted_eq⟩

/-- A report that waits for room is sent once the search has read the one before it, and one that
finds a stop request is not sent. -/
theorem accepted_delivered_after_wait :
    let handle : Handler Unit := fun _ h => (h, [])
    let ms : List Move := [.emit ⟨[some 1]⟩ 5, .emit ⟨[some 2]⟩ 4, .act .readReport, .resume,
      .emit ⟨[some 3]⟩ 3, .act .raiseStop, .act .leaveToken, .resume]
    let x := (start 1 ()).run handle ms
    x.world.delivered = [⟨⟨[some 1]⟩, 5, 0, 0⟩]
      ∧ x.world.channel.outbound = [⟨⟨[some 2]⟩, 4, 1, 0⟩]
      ∧ (start 1 ()).accepted handle ms = [(⟨[some 1]⟩, 5), (⟨[some 2]⟩, 4)] := by
  intro handle ms x
  have hdelivered : x.world.delivered = [⟨⟨[some 1]⟩, 5, 0, 0⟩] := by decide +kernel
  have houtbound : x.world.channel.outbound = [⟨⟨[some 2]⟩, 4, 1, 0⟩] := by decide +kernel
  refine ⟨hdelivered, houtbound, ?_⟩
  have hreports := (accepted_delivered_in_order handle 1 () ms).1
  rw [← hreports, hdelivered, houtbound]
  rfl

end Exchange

end ScenarioSampling
