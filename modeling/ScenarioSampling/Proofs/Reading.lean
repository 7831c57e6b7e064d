import ScenarioSampling.Proofs.Exchange

/-!
# Reading undisturbed

While the others do no more than tell a worker something, a call reads what waits when it begins and
finds all else as it was: a batch goes on to the stop signal, and a report that finds no room reads
on until room is made or the search ends (`readBatch_told`, `settle_told`).
-/

namespace ScenarioSampling

variable {η : Type} (handle : Handler η)

namespace World

/-- From `w` to `w'` the worker reads what waits before `rest`, none of which ends the search, and
the others only tell. -/
structure ReadTo (w : World) (rest : List Event) (w' : World) : Prop where
  channel : ∃ told observed, w'.channel
      = { w.channel with inbound := rest ++ told, observed := observed }
    ∧ (w.channel.searchAlive = false → told = [])
  stop : w'.stop = w.stop
  onlyTold : w'.OnlyTold

theorem ReadTo.of_told {w w' : World} (h : Told w w') (ho : w'.OnlyTold) :
    ReadTo w w.channel.inbound w' := by
  obtain ⟨es, hc, hes⟩ := h.channel
  exact ⟨⟨es, w.channel.observed, hc, hes⟩, h.stop, ho⟩

theorem ReadTo.stopped {w w' : World} {rest : List Event} (h : ReadTo w rest w') :
    w'.channel.stopped = w.channel.stopped := by
  obtain ⟨_, _, hc, -⟩ := h.channel
  rw [hc]

/-- Goes on from a world where `told` was told. -/
theorem ReadTo.trans {w w₁ w₂ : World} {front rest told : List Event} (h : ReadTo w front w₁)
    (ht : w.channel.searchAlive = false → told = []) (h' : ReadTo w₁ (rest ++ told) w₂) :
    ReadTo w rest w₂ := by
  obtain ⟨es, n, hc, -⟩ := h.channel
  obtain ⟨es', n', hc', hes'⟩ := h'.channel
  refine ⟨⟨told ++ es', n', by simp [hc', hc], fun hg => ?_⟩, h'.stop.trans h.stop, h'.onlyTold⟩
  rw [ht hg, hes' (by rw [hc]; exact hg), List.append_nil]

/-- An event that does not end the search is read, after the others have told something. -/
theorem dispatch_told {w w₁ : World} {e : Event} {rest : List Event} (h : η)
    (hs : w.channel.stopped = none) (hin : w.channel.inbound = e :: rest)
    (he : e.isTerminal = false) (ht : Told w w₁) (ho : w₁.OnlyTold) :
    ∃ told w₂, w₁.channel.inbound = e :: (rest ++ told)
      ∧ (w.channel.searchAlive = false → told = [])
      ∧ dispatch handle (w₁.withInbound (rest ++ told)) h e = (.proceed, w₂, (handle e h).1)
      ∧ w₂.channel.inbound = rest ++ told ∧ ReadTo w rest w₂ := by
  obtain ⟨told, hc, hgone⟩ := ht.channel
  have hs₁ : w₁.channel.stopped = none := by rw [hc]; exact hs
  have hin₁ : w₁.channel.inbound = e :: (rest ++ told) := by rw [hc, hin]; rfl
  have he' : e.stopReason? = none := by simpa [← Event.isSome_stopReason?] using he
  have hd := dispatch_channel handle (w := w₁.withInbound (rest ++ told)) h e hs₁
  have hflow := dispatch_flow handle (w := w₁.withInbound (rest ++ told)) h e hs₁
  have hsink := dispatch_sink handle (w₁.withInbound (rest ++ told)) h e
  have hstop := dispatch_stop handle (w₁.withInbound (rest ++ told)) h e
  have hscript := dispatch_script handle (w₁.withInbound (rest ++ told)) h e
  rw [he'] at hd
  rw [flow_of_none (by rw [hd])] at hflow
  rw [he] at hsink
  rcases hr : dispatch handle (w₁.withInbound (rest ++ told)) h e with ⟨f, w₂, h₂⟩
  rw [hr] at hd hflow hsink hstop hscript
  simp only [withInbound_channel] at hd hflow hsink hstop hscript
  refine ⟨told, w₂, hin₁, hgone, by rw [hr, hflow, hsink]; rfl, by rw [hd],
    ⟨⟨told, countSucc w₁.channel.observed, ?_, hgone⟩, hstop.trans ht.stop, ?_⟩⟩
  · simp only [hd, hc, hs]
  · rw [OnlyTold, hscript]
    exact ho

section Batch

/-- A batch begins with the events in front that do not end the search. -/
theorem readBatch_told : ∀ (es rest : List Event) (n : Nat) (w : World) (h : η),
    w.OnlyTold → w.channel.stopped = none → w.channel.inbound = es ++ rest →
    (∀ e ∈ es, e.isTerminal = false) →
    ∃ w', ReadTo w rest w'
      ∧ readBatch handle (n + es.length) w h = readBatch handle n w' (handleAll handle es h)
  | [], rest, n, w, h, ho, hs, hin, _ => by
    refine ⟨w, ?_, rfl⟩
    have hread := ReadTo.of_told (.refl w) ho
    rw [hin] at hread
    exact hread
  | e :: es, rest, n, w, h, ho, hs, hin, hes => by
    obtain ⟨ht, ho₁⟩ := visit_told ho .receive
    obtain ⟨told, w₂, hin₁, hgone, hd, hin₂, hread⟩ :=
      dispatch_told handle h hs hin (hes e List.mem_cons_self) ht ho₁
    obtain ⟨w', hread', hrun⟩ := readBatch_told es (rest ++ told) n w₂ (handle e h).1
      hread.onlyTold (hread.stopped.trans hs) (hin₂.trans (List.append_assoc es rest told))
      fun e' he' => hes e' (List.mem_cons_of_mem e he')
    refine ⟨w', hread.trans hgone hread', ?_⟩
    rw [List.length_cons, ← Nat.add_assoc, readBatch]
    simp only [hin₁, hd]
    exact hrun

/-- A stop signal that nobody has used lets the worker go on. -/
theorem checkStop_told {w : World} (h : η) (ho : w.OnlyTold) (hr : w.stop.raised = false)
    (ht : w.stop.token = false) (hown : w.stop.owners ≠ 0) :
    ∃ w', Told w w' ∧ w'.OnlyTold ∧ w.checkStop h = (.proceed, w', h) := by
  obtain ⟨hflag, ho₁⟩ := visit_told ho .readFlag
  obtain ⟨htoken, ho₂⟩ := visit_told ho₁ .takeToken
  refine ⟨_, hflag.trans htoken, ho₂, ?_⟩
  have hown' : (w.stop.owners == 0) = false := by simpa using hown
  unfold checkStop isStopRequested
  simp [hflag.stop, htoken.stop, hr, ht, hown']

end Batch

section Waiting

/-- Nobody asks the worker to stop, both ends of the bridge are alive, and the others only tell. -/
structure Quiet (w : World) : Prop where
  onlyTold : w.OnlyTold
  listens : w.channel.stopped = none
  searchAlive : w.channel.searchAlive = true
  raised : w.stop.raised = false
  token : w.stop.token = false
  owners : w.stop.owners ≠ 0

theorem ReadTo.quiet {w w' : World} {rest : List Event} (h : ReadTo w rest w') (hw : w.Quiet) :
    w'.Quiet := by
  obtain ⟨_, _, hc, -⟩ := h.channel
  exact ⟨h.onlyTold, h.stopped.trans hw.listens, by rw [hc]; exact hw.searchAlive,
    by rw [h.stop]; exact hw.raised, by rw [h.stop]; exact hw.token,
    by rw [h.stop]; exact hw.owners⟩

theorem ReadTo.hasRoom {w w' : World} {rest : List Event} (h : ReadTo w rest w') :
    w'.channel.hasRoom = w.channel.hasRoom := by
  obtain ⟨_, _, hc, -⟩ := h.channel
  rw [hc]
  rfl

theorem Quiet.visit {w : World} (hw : w.Quiet) (p : Point) :
    ReadTo w w.channel.inbound (w.visit p) :=
  .of_told (visit_told hw.onlyTold p).1 (visit_told hw.onlyTold p).2

/-- Without room, a worker that nobody stops wakes up for an event or not at all. -/
theorem Quiet.readyBranch? {w : World} (hw : w.Quiet) (hroom : w.channel.hasRoom = false) :
    w.readyBranch? = if w.channel.inbound.isEmpty then none else some .inbound := by
  have hstop : w.isReady .stop = false := by
    simp [isReady, StopSignal.isReady, hw.token, hw.owners]
  have hsend : w.isReady .send = false := by simp [isReady, hroom, hw.searchAlive]
  have hin : w.isReady .inbound = !w.channel.inbound.isEmpty := by
    simp [isReady, hw.searchAlive]
  unfold World.readyBranch?
  rcases w.favoured with _ | _ | _ | _ <;> cases hempty : w.channel.inbound.isEmpty <;>
    simp [hstop, hsend, hin, hempty]

theorem Quiet.sendAtOnce {w : World} (hw : w.Quiet) (r : Report) :
    w.sendAtOnce r = if w.channel.hasRoom then (some .proceed, (w.visit .offer).send r)
      else (none, w.visit .offer) := by
  have hread := hw.visit .offer
  unfold World.sendAtOnce
  simp only [(hread.quiet hw).searchAlive, hread.hasRoom, Bool.not_true, Bool.false_eq_true,
    if_false]

/-- Without room, a report that waits wakes up for the event in front. -/
theorem Quiet.wake {w : World} {e : Event} {rest : List Event} (hw : w.Quiet)
    (hroom : w.channel.hasRoom = false) (hin : (w.visit .wait).channel.inbound = e :: rest) (h : η)
    (r : Report) : World.wake handle w h r
      = match dispatch handle ((w.visit .wait).withInbound rest) h e with
        | (.halt reason, w', h') => (.over (.halt reason), w', h')
        | (.proceed, w', h') => (.again, w', h') := by
  have hread := hw.visit .wait
  unfold World.wake
  rcases hd : dispatch handle ((w.visit .wait).withInbound rest) h e with ⟨_ | reason, w', h'⟩ <;>
    simp only [(hread.quiet hw).readyBranch? (hread.hasRoom.trans hroom), hin, hd,
      List.isEmpty_cons, Bool.false_eq_true, if_false]

/-- A report that finds no room reads the events in front that do not end the search. -/
theorem settle_told : ∀ (es rest : List Event) (n : Nat) (w : World) (h : η) (r : Report),
    w.Quiet → w.channel.hasRoom = false → w.channel.inbound = es ++ rest →
    (∀ e ∈ es, e.isTerminal = false) →
    ∃ w', ReadTo w rest w'
      ∧ settle handle (n + es.length) w h r = settle handle n w' (handleAll handle es h) r
  | [], rest, n, w, h, r, hw, _, hin, _ => by
    have hread := ReadTo.of_told (.refl w) hw.onlyTold
    rw [hin] at hread
    exact ⟨w, hread, rfl⟩
  | e :: es, rest, n, w, h, r, hw, hroom, hin, hes => by
    obtain ⟨ht, ho₁⟩ := visit_told hw.onlyTold .wait
    obtain ⟨told, w₂, hin₁, hgone, hd, hin₂, hread⟩ :=
      dispatch_told handle h hw.listens hin (hes e List.mem_cons_self) ht ho₁
    have hw₂ := hread.quiet hw
    have hoffer := hw₂.visit .offer
    obtain ⟨told', _, hc₃, -⟩ := hoffer.channel
    have hin₃ : (w₂.visit .offer).channel.inbound = es ++ (rest ++ (told ++ told')) := by
      rw [hc₃, hin₂]
      simp
    obtain ⟨w', hread', hrun⟩ := settle_told es (rest ++ (told ++ told')) n (w₂.visit .offer)
      (handle e h).1 r (hoffer.quiet hw₂) (by rw [hoffer.hasRoom, hread.hasRoom, hroom]) hin₃
      fun e' he' => hes e' (List.mem_cons_of_mem e he')
    refine ⟨w', ?_, ?_⟩
    · have hreadOffer : ReadTo w (es ++ rest) (w₂.visit .offer) :=
        hread.trans hgone (hin₂ ▸ hoffer)
      exact hreadOffer.trans (fun hg => by rw [hw.searchAlive] at hg; cases hg) hread'
    · rw [List.length_cons, ← Nat.add_assoc, settle, hw.wake handle hroom hin₁, hd]
      simp only [hw₂.sendAtOnce, hread.hasRoom, hroom, Bool.false_eq_true, if_false]
      exact hrun

end Waiting

end World

namespace Exchange

/-- Nobody has disturbed the exchange, and these events wait. -/
structure Calm (capacity : Nat) (x : Exchange η) (es : List Event) : Prop where
  script : x.world.script = []
  stop : x.world.stop = .initial
  waiting : x.waiting = none
  channel : x.world.channel = { Channel.ofCapacity capacity with inbound := es }

theorem calm_start (capacity : Nat) (h : η) : Calm capacity (start capacity h) [] :=
  ⟨rfl, rfl, rfl, rfl⟩

namespace Calm

variable {capacity : Nat} {x : Exchange η} {es : List Event}

theorem onlyTold (hx : Calm capacity x es) : x.world.OnlyTold := by
  rw [World.OnlyTold, hx.script]
  exact fun _ h => by cases h

theorem quiet (hx : Calm capacity x es) : x.world.Quiet where
  onlyTold := hx.onlyTold
  listens := by rw [hx.channel]; rfl
  searchAlive := by rw [hx.channel]; rfl
  raised := by rw [hx.stop]; rfl
  token := by rw [hx.stop]; rfl
  owners := by rw [hx.stop]; exact Nat.one_ne_zero

theorem notify (hx : Calm capacity x es) (e : Event) :
    Calm capacity (x.move handle (.act (.notify e))) (es ++ [e]) := by
  constructor <;> simp [move, World.act, World.notify, World.note, World.record, hx.script, hx.stop,
    hx.waiting, hx.channel, Channel.ofCapacity]

theorem notifies (e : Event) : ∀ (n : Nat) {x : Exchange η} {es : List Event}, Calm capacity x es →
    Calm capacity (x.run handle (List.replicate n (.act (.notify e)))) (es ++ List.replicate n e)
  | 0, x, es, hx => by simpa [run] using hx
  | n + 1, x, es, hx => by
    have ih := notifies e n (hx.notify handle e)
    rw [List.append_assoc, List.singleton_append, ← List.replicate_succ] at ih
    exact ih

end Calm

end Exchange

end ScenarioSampling
