import Mathlib.Tactic.SplitIfs
import ScenarioSampling.Bridge.World

/-!
# What others do

The search and the owners of a worker act on its world between any two of its accesses. They add
events behind those that wait and take reports from the front, they never bring a search back that
let go of its end, and they leave alone what the worker keeps for itself: its counts and the reason
why it stopped (`Disturbed`). The history grows by what they push.
-/

namespace ScenarioSampling

namespace Transfer

/-- The event that was pushed. -/
def pushed? : Transfer → Option Event
  | pushed e => some e
  | _ => none

/-- The event that was read. -/
def read? : Transfer → Option Event
  | read e => some e
  | _ => none

/-- The report that was sent. -/
def sent? : Transfer → Option Report
  | sent r => some r
  | _ => none

/-- The events that were pushed. -/
def pushes (ts : List Transfer) : List Event := ts.filterMap pushed?

/-- The events that were read. -/
def reads (ts : List Transfer) : List Event := ts.filterMap read?

/-- The reports that were sent. -/
def sends (ts : List Transfer) : List Report := ts.filterMap sent?

@[simp]
theorem pushes_append (ts us : List Transfer) : pushes (ts ++ us) = pushes ts ++ pushes us := by
  simp [pushes]

@[simp]
theorem reads_append (ts us : List Transfer) : reads (ts ++ us) = reads ts ++ reads us := by
  simp [reads]

@[simp]
theorem sends_append (ts us : List Transfer) : sends (ts ++ us) = sends ts ++ sends us := by
  simp [sends]

@[simp]
theorem pushes_map_pushed (es : List Event) : pushes (es.map pushed) = es := by
  induction es with
  | nil => rfl
  | cons e es ih => simpa [pushes, pushed?] using ih

@[simp]
theorem reads_map_pushed (es : List Event) : reads (es.map pushed) = [] := by
  simp [reads, read?]

@[simp]
theorem sends_map_pushed (es : List Event) : sends (es.map pushed) = [] := by
  simp [sends, sent?]

theorem mem_reads {e : Event} {ts : List Transfer} : e ∈ reads ts ↔ .read e ∈ ts := by
  simp only [reads, List.mem_filterMap]
  constructor
  · rintro ⟨t, ht, he⟩
    cases t <;> simp only [read?, Option.some.injEq, reduceCtorEq] at he
    exact he ▸ ht
  · exact fun h => ⟨_, h, rfl⟩

end Transfer

namespace World

@[simp]
theorem noteAll_channel (w : World) (ns : List Notice) : (w.noteAll ns).channel = w.channel := by
  induction ns generalizing w with
  | nil => rfl
  | cons n ns ih => exact ih (w.note n)

@[simp]
theorem noteAll_history (w : World) (ns : List Notice) : (w.noteAll ns).history = w.history := by
  induction ns generalizing w with
  | nil => rfl
  | cons n ns ih => exact ih (w.note n)

@[simp]
theorem noteAll_delivered (w : World) (ns : List Notice) :
    (w.noteAll ns).delivered = w.delivered := by
  induction ns generalizing w with
  | nil => rfl
  | cons n ns ih => exact ih (w.note n)

@[simp]
theorem noteAll_stop (w : World) (ns : List Notice) : (w.noteAll ns).stop = w.stop := by
  induction ns generalizing w with
  | nil => rfl
  | cons n ns ih => exact ih (w.note n)

@[simp]
theorem noteAll_script (w : World) (ns : List Notice) : (w.noteAll ns).script = w.script := by
  induction ns generalizing w with
  | nil => rfl
  | cons n ns ih => exact ih (w.note n)

end World

/-- What others can make of a world. -/
structure Disturbed (w w' : World) : Prop where
  stopped : w'.channel.stopped = w.channel.stopped
  observed : w'.channel.observed = w.channel.observed
  emitted : w'.channel.emitted = w.channel.emitted
  /-- They push events, unless the search is gone. -/
  pushes : ∃ es, w'.channel.inbound = w.channel.inbound ++ es
    ∧ w'.history.toList = w.history.toList ++ es.map .pushed
    ∧ (w.channel.searchAlive = false → es = [])
  /-- They take reports and keep those that are fresh. -/
  takes : ∃ taken kept, w.channel.outbound = taken ++ w'.channel.outbound
    ∧ w'.delivered = w.delivered ++ kept ∧ kept.Sublist taken
  gone : w.channel.searchAlive = false → w'.channel.searchAlive = false

namespace Disturbed

variable {w w' w'' : World}

theorem refl (w : World) : Disturbed w w :=
  ⟨rfl, rfl, rfl, ⟨[], by simp⟩, ⟨[], [], by simp⟩, id⟩

theorem trans (h : Disturbed w w') (h' : Disturbed w' w'') : Disturbed w w'' where
  stopped := h'.stopped.trans h.stopped
  observed := h'.observed.trans h.observed
  emitted := h'.emitted.trans h.emitted
  pushes := by
    obtain ⟨es, hin, hhist, hes⟩ := h.pushes
    obtain ⟨es', hin', hhist', hes'⟩ := h'.pushes
    refine ⟨es ++ es', by simp [hin, hin'], by simp [hhist, hhist'], fun hg => ?_⟩
    rw [hes hg, hes' (h.gone hg), List.append_nil]
  takes := by
    obtain ⟨ts, ks, hout, hdel, hsub⟩ := h.takes
    obtain ⟨ts', ks', hout', hdel', hsub'⟩ := h'.takes
    exact ⟨ts ++ ts', ks ++ ks', by simp [hout, hout'], by simp [hdel, hdel'], hsub.append hsub'⟩
  gone := fun hg => h'.gone (h.gone hg)

/-- Nothing happens to what is in the queues. -/
theorem of_eq (hc : w'.channel = w.channel) (hh : w'.history = w.history)
    (hd : w'.delivered = w.delivered) : Disturbed w w' := by
  refine ⟨by rw [hc], by rw [hc], by rw [hc], ⟨[], ?_⟩, ⟨[], [], ?_⟩, by rw [hc]; exact id⟩
  · simp [hc, hh]
  · simp [hc, hd]

theorem inbound_eq (h : Disturbed w w') (hg : w.channel.searchAlive = false) :
    w'.channel.inbound = w.channel.inbound := by
  obtain ⟨es, hin, -, hes⟩ := h.pushes
  rw [hin, hes hg, List.append_nil]

theorem history_eq (h : Disturbed w w') (hg : w.channel.searchAlive = false) :
    w'.history.toList = w.history.toList := by
  obtain ⟨es, -, hh, hes⟩ := h.pushes
  rw [hh, hes hg, List.map_nil, List.append_nil]

end Disturbed

namespace World

theorem notify_disturbed {w : World} (e : Event) (h : w.channel.searchAlive = true) :
    Disturbed w (w.notify e).2 := by
  unfold notify
  simp only []
  split
  · refine ⟨rfl, rfl, rfl, ⟨[e], rfl, by simp [note, record], by simp [h]⟩, ⟨[], [], ?_⟩, id⟩
    simp [note, record]
  · exact .of_eq rfl rfl rfl

/-- From the front of a queue some reports are taken, of which at most the last is kept. -/
theorem takeFresh_outbound : ∀ (q : List Report) (w : World), ∃ taken kept,
    q = taken ++ (w.takeFresh q).2.channel.outbound
      ∧ (w.takeFresh q).2.delivered = w.delivered ++ kept ∧ kept.Sublist taken
  | [], w => ⟨[], [], by simp [takeFresh]⟩
  | r :: q, w => by
    unfold takeFresh
    split
    · exact ⟨[r], [r], rfl, rfl, .refl _⟩
    · obtain ⟨taken, kept, hq, hd, hs⟩ := takeFresh_outbound q (w.note (.duplicateDropped r.sequence))
      exact ⟨r :: taken, kept, by rw [List.cons_append, ← hq], hd, hs.cons r⟩

/-- Taking reports changes nothing else of what a worker sees. -/
theorem takeFresh_rest : ∀ (q : List Report) (w : World),
    (w.takeFresh q).2.history = w.history
      ∧ ∃ last receiving, (w.takeFresh q).2.channel = { w.channel with
          outbound := (w.takeFresh q).2.channel.outbound
          lastSequence := last
          receiving := receiving }
  | [], w => ⟨rfl, w.channel.lastSequence, w.channel.receiving, rfl⟩
  | r :: q, w => by
    unfold takeFresh
    split
    · exact ⟨rfl, some r.sequence, false, rfl⟩
    · exact takeFresh_rest q (w.note (.duplicateDropped r.sequence))

theorem tryNext_disturbed (w : World) : Disturbed w w.tryNext.2 := by
  obtain ⟨hh, last, receiving, hc⟩ := takeFresh_rest w.channel.outbound w
  change w.tryNext.2.channel = _ at hc
  refine ⟨by rw [hc], by rw [hc], by rw [hc], ⟨[], ?_⟩, takeFresh_outbound w.channel.outbound w,
    by rw [hc]; exact id⟩
  have hh' : w.tryNext.2.history = w.history := hh
  rw [hc, hh']
  simp

theorem drainAtMost_disturbed : ∀ (n : Nat) (w : World), Disturbed w (w.drainAtMost n).2
  | 0, w => .refl w
  | n + 1, w => by
    have h := tryNext_disturbed w
    unfold drainAtMost
    rcases hw : w.tryNext with ⟨_ | r, w'⟩ <;> rw [hw] at h
    · exact h
    · exact h.trans (drainAtMost_disturbed n w')

theorem act_disturbed (w : World) (a : Action) : Disturbed w (w.act a) := by
  cases a with
  | notify e =>
    simp only [act]
    split
    · exact notify_disturbed e ‹_›
    · exact .refl w
  | readReport =>
    simp only [act]
    split
    · exact tryNext_disturbed w
    · exact .refl w
  | drain =>
    simp only [act]
    split
    · exact drainAtMost_disturbed _ w
    · exact .refl w
  | startReceiving =>
    simp only [act]
    split
    · exact ⟨rfl, rfl, rfl, ⟨[], by simp [setReceiving]⟩, ⟨[], [], by simp [setReceiving]⟩, id⟩
    · exact .refl w
  | stopReceiving =>
    exact ⟨rfl, rfl, rfl, ⟨[], by simp [act, setReceiving]⟩,
      ⟨[], [], by simp [act, setReceiving]⟩, id⟩
  | dropSearch =>
    exact ⟨rfl, rfl, rfl, ⟨[], by simp [act, dropSearch]⟩,
      ⟨[], [], by simp [act, dropSearch]⟩, fun _ => rfl⟩
  | raiseStop | leaveToken | addOwner | dropOwner | interrupt | tick | favour =>
    exact .of_eq rfl rfl rfl

/-- What no act of a kind breaks, no plan for acts of that kind breaks. -/
theorem actAll_keeps_of {P : Action → Prop} {I : World → Prop}
    (act : ∀ {w} a, P a → I w → I (w.act a)) :
    ∀ (actions : List Action) {w : World}, (∀ a ∈ actions, P a) → I w → I (w.actAll actions)
  | [], _, _, hw => hw
  | a :: actions, _, hP, hw =>
    actAll_keeps_of act actions (fun b hb => hP b (List.mem_cons_of_mem a hb))
      (act a (hP a List.mem_cons_self) hw)

/-- What no act of others breaks, none of their plans breaks. -/
theorem actAll_keeps {I : World → Prop} (act : ∀ {w} a, I w → I (w.act a))
    (actions : List Action) {w : World} (hw : I w) : I (w.actAll actions) :=
  actAll_keeps_of (P := fun _ => True) (fun a _ => act a) actions (fun _ _ => trivial) hw

theorem actAll_disturbed (actions : List Action) (w : World) : Disturbed w (w.actAll actions) :=
  actAll_keeps (fun a h => h.trans (act_disturbed _ a)) actions (.refl w)

theorem noteAll_disturbed (w : World) (ns : List Notice) : Disturbed w (w.noteAll ns) :=
  .of_eq (noteAll_channel w ns) (noteAll_history w ns) (noteAll_delivered w ns)

end World

/-- The plan of the others, the stop signal and the worker's hold on its end stay. -/
structure Aside (w w' : World) : Prop where
  script : w'.script = w.script
  stop : w'.stop = w.stop
  workerAlive : w'.channel.workerAlive = w.channel.workerAlive

theorem Aside.refl (w : World) : Aside w w := ⟨rfl, rfl, rfl⟩

theorem Aside.trans {w w' w'' : World} (h : Aside w w') (h' : Aside w' w'') : Aside w w'' :=
  ⟨h'.script.trans h.script, h'.stop.trans h.stop, h'.workerAlive.trans h.workerAlive⟩

/-- What an action does to the stop signal. -/
def Action.onStop : Action → StopSignal → StopSignal
  | .raiseStop => .raise
  | .leaveToken => .leaveToken
  | .addOwner => .addOwner
  | .dropOwner => .dropOwner
  | _ => id

namespace World

theorem takeFresh_aside : ∀ (q : List Report) (w : World), Aside w (w.takeFresh q).2
  | [], _ => ⟨rfl, rfl, rfl⟩
  | r :: q, w => by
    unfold takeFresh
    split
    · exact ⟨rfl, rfl, rfl⟩
    · obtain ⟨hscript, hstop, halive⟩ := takeFresh_aside q (w.note (.duplicateDropped r.sequence))
      exact ⟨hscript, hstop, halive⟩

theorem drainAtMost_aside : ∀ (n : Nat) (w : World), Aside w (w.drainAtMost n).2
  | 0, w => .refl w
  | n + 1, w => by
    have h : Aside w w.tryNext.2 := takeFresh_aside w.channel.outbound w
    unfold drainAtMost
    rcases hw : w.tryNext with ⟨_ | r, w'⟩ <;> rw [hw] at h
    · exact h
    · exact h.trans (drainAtMost_aside n w')

theorem notify_aside (w : World) (e : Event) : Aside w (w.notify e).2 := by
  unfold notify
  simp only []
  split
  · exact ⟨rfl, rfl, rfl⟩
  · exact ⟨rfl, rfl, rfl⟩

/-- All that others do about these is to the stop signal. -/
theorem act_aside (w : World) (a : Action) :
    Aside { w with stop := a.onStop w.stop } (w.act a) := by
  cases a with
  | notify e =>
    unfold act
    split_ifs
    · exact notify_aside w e
    · exact .refl w
  | readReport =>
    unfold act
    split_ifs
    · exact takeFresh_aside w.channel.outbound w
    · exact .refl w
  | drain =>
    unfold act
    split_ifs
    · exact drainAtMost_aside _ w
    · exact .refl w
  | startReceiving =>
    unfold act
    split_ifs
    · exact ⟨rfl, rfl, rfl⟩
    · exact .refl w
  | stopReceiving | dropSearch | raiseStop | leaveToken | addOwner | dropOwner | interrupt | tick
  | favour => exact ⟨rfl, rfl, rfl⟩

theorem act_script (w : World) (a : Action) : (w.act a).script = w.script :=
  (act_aside w a).script

theorem act_stop (w : World) (a : Action) : (w.act a).stop = a.onStop w.stop :=
  (act_aside w a).stop

theorem act_workerAlive (w : World) (a : Action) :
    (w.act a).channel.workerAlive = w.channel.workerAlive :=
  (act_aside w a).workerAlive

theorem actAll_script (w : World) (actions : List Action) :
    (w.actAll actions).script = w.script :=
  actAll_keeps (I := fun v => v.script = w.script) (fun a h => (act_script _ a).trans h) actions rfl

/-- A visit carries out a part of the plan, so what no act of a kind breaks lasts while the others
plan acts of that kind only. -/
theorem visit_keeps_of {P : Action → Prop} {I : World → Prop}
    (act : ∀ {w} a, P a → I w → I (w.act a))
    (script : ∀ {w} turns, I w → I { w with script := turns }) {w : World} (p : Point)
    (hplan : ∀ turn ∈ w.script, ∀ a ∈ turn.actions, P a) (hw : I w) :
    I (w.visit p) ∧ ∀ turn ∈ (w.visit p).script, ∀ a ∈ turn.actions, P a := by
  unfold visit
  split
  · exact ⟨hw, hplan⟩
  · rename_i turn rest hs
    rw [hs, List.forall_mem_cons] at hplan
    obtain ⟨hturn, hrest⟩ := hplan
    split_ifs
    · split
      · refine ⟨actAll_keeps_of act turn.actions hturn (script rest hw), ?_⟩
        rw [actAll_script]
        exact hrest
      · exact ⟨script _ hw, List.forall_mem_cons.2 ⟨hturn, hrest⟩⟩
    · exact ⟨hw, by rw [hs]; exact List.forall_mem_cons.2 ⟨hturn, hrest⟩⟩

theorem visit_keeps {I : World → Prop} (act : ∀ {w} a, I w → I (w.act a))
    (script : ∀ {w} turns, I w → I { w with script := turns }) {w : World} (p : Point)
    (hw : I w) : I (w.visit p) :=
  (visit_keeps_of (P := fun _ => True) (fun a _ => act a) script p
    (fun _ _ _ _ => trivial) hw).1

theorem visit_disturbed (w : World) (p : Point) : Disturbed w (w.visit p) :=
  visit_keeps (fun a h => h.trans (act_disturbed _ a)) (fun _ h => h.trans (.of_eq rfl rfl rfl)) p
    (.refl w)

end World

/-- Something is told, and nothing else that a worker goes by is changed. -/
def Action.tells : Action → Bool
  | .notify _ | .interrupt _ | .tick _ | .favour _ => true
  | _ => false

/-- Inside the next calls, the others do no more than tell something. -/
def World.OnlyTold (w : World) : Prop := ∀ turn ∈ w.script, ∀ a ∈ turn.actions, a.tells = true

/-- What others can make of a world who only tell. -/
structure Told (w w' : World) : Prop where
  channel : ∃ es, w'.channel = { w.channel with inbound := w.channel.inbound ++ es }
    ∧ (w.channel.searchAlive = false → es = [])
  stop : w'.stop = w.stop

namespace Told

variable {w w' w'' : World}

theorem of_eq (hc : w'.channel = w.channel) (hs : w'.stop = w.stop) : Told w w' :=
  ⟨⟨[], by simp [hc], fun _ => rfl⟩, hs⟩

theorem refl (w : World) : Told w w := of_eq rfl rfl

theorem trans (h : Told w w') (h' : Told w' w'') : Told w w'' := by
  obtain ⟨es, hc, hes⟩ := h.channel
  obtain ⟨es', hc', hes'⟩ := h'.channel
  refine ⟨⟨es ++ es', by simp [hc', hc], fun hg => ?_⟩, h'.stop.trans h.stop⟩
  rw [hes hg, hes' (by rw [hc]; exact hg), List.append_nil]

end Told

namespace World

theorem notify_told {w : World} (e : Event) (h : w.channel.searchAlive = true) :
    Told w (w.notify e).2 := by
  unfold notify
  simp only []
  split
  · exact ⟨⟨[e], rfl, by simp [h]⟩, rfl⟩
  · exact .of_eq rfl rfl

theorem act_told {a : Action} (h : a.tells = true) (w : World) : Told w (w.act a) := by
  cases a with
  | notify e =>
    simp only [act]
    split
    · exact notify_told e ‹_›
    · exact .refl w
  | interrupt | tick | favour => exact .of_eq rfl rfl
  | _ => cases h

theorem visit_told {w : World} (h : w.OnlyTold) (p : Point) :
    Told w (w.visit p) ∧ (w.visit p).OnlyTold :=
  visit_keeps_of (fun _ ha hw => hw.trans (act_told ha _)) (fun _ hw => hw.trans (.of_eq rfl rfl))
    p h (.refl w)

end World

end ScenarioSampling
