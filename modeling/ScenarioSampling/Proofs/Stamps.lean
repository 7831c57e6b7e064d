import ScenarioSampling.Proofs.Inbound

/-!
# What reports say was read

A report is written down right after the poll that an attempt begins with, and is not touched again
while it waits, although a worker with a waiting report goes on reading. The number of events that
it carries is therefore the one at the end of that poll: what the worker reads while the report
waits is missing from it (`observed_up_to_poll`).
-/

namespace ScenarioSampling

open Transfer

variable {η : Type}

/-- For every report that was sent, `D` holds with what had happened by then. -/
def SentAs (D : Report → List Transfer → Prop) (w : World) : Prop :=
  ∀ pre r post, w.history.toList = pre ++ .sent r :: post → D r pre

namespace SentAs

variable {D : Report → List Transfer → Prop} {w w' : World}

theorem mono {D' : Report → List Transfer → Prop} (hD : ∀ r pre, D r pre → D' r pre)
    (h : SentAs D w) : SentAs D' w :=
  fun pre r post hh => hD r pre (h pre r post hh)

theorem extend {ts : List Transfer} (h : SentAs D w)
    (hh : w'.history.toList = w.history.toList ++ ts)
    (hts : ∀ pre r post, ts = pre ++ .sent r :: post → D r (w.history.toList ++ pre)) :
    SentAs D w' := by
  intro pre r post hsplit
  rw [hh, List.append_eq_append_iff] at hsplit
  rcases hsplit with ⟨mid, rfl, hmid⟩ | ⟨mid, hw, hmid⟩
  · exact hts mid r post hmid
  · cases mid with
    | nil =>
      rw [List.append_nil] at hw
      have hnow := hts [] r post hmid.symm
      rwa [hw, List.append_nil] at hnow
    | cons t mid =>
      rw [List.cons_append, List.cons.injEq] at hmid
      exact h pre r mid (by rw [hw, hmid.1])

theorem extend_unsent {ts : List Transfer} (h : SentAs D w)
    (hh : w'.history.toList = w.history.toList ++ ts) (hts : sends ts = []) : SentAs D w' := by
  refine h.extend hh fun pre r post hsplit => ?_
  rw [hsplit, sends_append] at hts
  cases (List.append_eq_nil_iff.1 hts).2

theorem disturbed (h : SentAs D w) (hd : Disturbed w w') : SentAs D w' := by
  obtain ⟨es, -, hh, -⟩ := hd.pushes
  exact h.extend_unsent hh (sends_map_pushed es)

theorem send {r : Report} (h : SentAs D w) (hr : D r w.history.toList) : SentAs D (w.send r) := by
  have hh : (w.send r).history.toList = w.history.toList ++ [.sent r] := by simp
  refine h.extend hh fun pre r' post hsplit => ?_
  cases pre with
  | nil =>
    cases hsplit
    rwa [List.append_nil]
  | cons t pre => simp at hsplit

variable {handle : Handler η} {P : Report → Prop}

/-- What is sent along a chain of accesses must be as `D` wants it, whatever happens before. -/
theorem accesses {a b : World × η} (hab : Accesses handle P a b) (h : SentAs D a.1)
    (hD : ∀ r ts, P r → D r (a.1.history.toList ++ ts)) : SentAs D b.1 := by
  refine (hab.preserves (I := fun c => SentAs D c.1
    ∧ ∃ ts, c.1.history.toList = a.1.history.toList ++ ts) ?_ ⟨h, [], by simp⟩).1
  rintro c d hcd ⟨hc, ts, hts⟩
  obtain ⟨ts', hts', -⟩ := hcd.intake
  refine ⟨?_, ts ++ ts', by rw [hts'.history, hts, List.append_assoc]⟩
  cases hcd with
  | others hd => exact hc.disturbed hd
  | @read w h e rest hs hi =>
    have hh : (World.dispatch handle (w.withInbound rest) h e).2.1.history.toList
        = w.history.toList ++ [.read e] := by simp
    exact hc.extend_unsent hh rfl
  | exhausted | heed => exact hc
  | @send w h r hs hP =>
    have hr : D r w.history.toList := by
      rw [hts]
      exact hD r ts hP
    exact hc.send hr
  | @bounce w h r =>
    have hh : (w.bounce r).2.history.toList = w.history.toList ++ [.bounced r] := by simp
    exact hc.extend_unsent hh rfl

end SentAs

namespace Exchange

variable (handle : Handler η)

/-- Among the moves `ms` is an attempt with the report `r`, written down after the poll of that
attempt; `ts` goes on from what had happened by the end of that poll. -/
def WrittenDown (x : Exchange η) (ms : List Move) (r : Report) (ts : List Transfer) : Prop :=
  ∃ before scenario score after, ms = before ++ .emit scenario score :: after
    ∧ (x.run handle before).waiting = none
    ∧ let polled := (x.run handle (before ++ [.poll])).world
      r = polled.draft scenario score ∧ ∃ since, ts = polled.history.toList ++ since

variable {handle}

theorem WrittenDown.later {x : Exchange η} {ms : List Move} {r : Report} {ts : List Transfer}
    (h : WrittenDown handle x ms r ts) (ms' : List Move) :
    WrittenDown handle x (ms ++ ms') r ts := by
  obtain ⟨before, scenario, score, after, rfl, hr⟩ := h
  exact ⟨before, scenario, score, after ++ ms', by simp, hr⟩

theorem WrittenDown.extend {x : Exchange η} {ms : List Move} {r : Report} {ts : List Transfer}
    (h : WrittenDown handle x ms r ts) (us : List Transfer) :
    WrittenDown handle x ms r (ts ++ us) := by
  obtain ⟨before, scenario, score, after, hms, hw, hr, since, rfl⟩ := h
  exact ⟨before, scenario, score, after, hms, hw, hr, since ++ us, List.append_assoc ..⟩

/-- Every report that was sent or waits is as `D` wants it. -/
structure Stamped (D : Report → List Transfer → Prop) (y : Exchange η) : Prop where
  sent : SentAs D y.world
  waiting : ∀ r, y.waiting = some r → D r y.world.history.toList

theorem Stamped.mono {D D' : Report → List Transfer → Prop} {y : Exchange η}
    (hD : ∀ r ts, D r ts → D' r ts) (hy : Stamped D y) : Stamped D' y :=
  ⟨hy.sent.mono hD, fun r hr => hD r _ (hy.waiting r hr)⟩

/-- A call from some point on sends or leaves waiting no other reports than those in `P`. -/
theorem Stamped.of_accesses {D : Report → List Transfer → Prop} {P : Report → Prop}
    {a : World × η} {y : Exchange η} (ha : SentAs D a.1)
    (hacc : Accesses handle P a (y.world, y.sink))
    (hD : ∀ r ts, P r → D r (a.1.history.toList ++ ts)) (hw : ∀ r, y.waiting = some r → P r) :
    Stamped D y where
  sent := ha.accesses hacc hD
  waiting r hr := by
    obtain ⟨ts, hts, -⟩ := hacc.intake
    rw [hts.history]
    exact hD r ts (hw r hr)

variable (handle)

/-- A report that waits stays as it is, and a new one is written down after a poll. -/
theorem Stamped.move {D : Report → List Transfer → Prop} {y : Exchange η} (hy : Stamped D y)
    (hinv : Inv y) (hD : ∀ r ts us, D r ts → D r (ts ++ us)) (m : Move)
    (hm : ∀ scenario score, m = .emit scenario score → y.waiting = none →
      D ((y.move handle .poll).world.draft scenario score)
        (y.move handle .poll).world.history.toList) :
    Stamped D (y.move handle m) := by
  have hold : ∀ r ts, y.waiting = some r → D r (y.world.history.toList ++ ts) :=
    fun r ts hr => hD r _ ts (hy.waiting r hr)
  have hkept : ∀ {y' : Exchange η},
      Accesses handle (fun r => y.waiting = some r) (y.world, y.sink) (y'.world, y'.sink) →
      (∀ r, y'.waiting = some r → y.waiting = some r) → Stamped D y' :=
    fun hacc hw => .of_accesses hy.sent hacc hold hw
  cases m with
  | act a => exact hkept (.others (World.act_disturbed y.world a)) fun _ hr => hr
  | plan script => exact hkept (.others (.of_eq rfl rfl rfl)) fun _ hr => hr
  | poll =>
    rcases hw : y.waiting with _ | r
    · refine hkept ?_ ?_
      all_goals simp only [Exchange.move, hw]
      · exact World.poll_accesses_always handle y.world y.sink
      · exact fun _ hr => hr
    · simpa only [Exchange.move, hw] using hy
  | resume =>
    rcases hw : y.waiting with _ | r
    · simpa only [Exchange.move, hw] using hy
    · have hs := hinv.waiting (by simp [hw])
      obtain ⟨hacc, hf⟩ := World.resume_accesses handle (P := fun r => y.waiting = some r) y.sink
        hs hw
      simp only [Exchange.move, hw]
      refine hkept hacc fun r' hr' => ?_
      rw [Emission.eq_of_waiting? hr'] at hf
      exact hw.trans (congrArg some hf.1.symm)
  | emit scenario score =>
    rcases hw : y.waiting with _ | r
    · simp only [Exchange.move, hw] at hm ⊢
      rcases hs : y.world.channel.stopped with _ | reason
      · have hpoll := World.poll_accesses_always handle (P := fun r => y.waiting = some r) y.world
          y.sink
        rcases hp : y.world.poll handle y.sink with ⟨_ | reason, w, h⟩ <;> rw [hp] at hpoll hm
        · obtain ⟨hacc, hf⟩ := World.emit_drafted handle hs hp scenario score
          refine .of_accesses (hy.sent.accesses hpoll hold) hacc ?_ fun r' hr' => ?_
          · rintro r ts rfl
            exact hD _ _ ts (hm scenario score rfl trivial)
          · rw [Emission.eq_of_waiting? hr'] at hf
            exact hf.1
        · rw [World.emit_of_poll_halts handle hs hp]
          exact hkept hpoll fun _ hr => by cases hr
      · rw [World.emit_of_stopped handle hs]
        exact hkept (.others (.of_eq rfl rfl rfl)) fun _ hr => by cases hr
    · simpa only [Exchange.move, hw] using hy

theorem stamped_start (D : Report → List Transfer → Prop) (capacity : Nat) (h : η) :
    Stamped D (start capacity h) where
  sent pre r post hh := by simp [start, World.ofCapacity] at hh
  waiting r hr := by cases hr

theorem stamped_run {x : Exchange η} (hx : Inv x) : ∀ later before,
    Stamped (WrittenDown handle x before) (x.run handle before) →
      Stamped (WrittenDown handle x (before ++ later)) (x.run handle (before ++ later))
  | [], before, hs => by simpa using hs
  | m :: later, before, hs => by
    rw [List.append_cons]
    refine stamped_run hx later (before ++ [m]) ?_
    rw [run_concat]
    refine Stamped.move handle (hs.mono fun r ts hr => hr.later [m]) (inv_run handle before hx)
      (fun r ts us hr => hr.extend us) m ?_
    rintro scenario score rfl hw
    rw [← run_concat]
    exact ⟨before, scenario, score, [], rfl, hw, rfl, [], (List.append_nil _).symm⟩

/-- In every interleaving, a report that was sent is one that an attempt wrote down right after its
poll. It counts the events read up to then: with those that were read since, while the report
waited, they are all that was read before it was sent. -/
theorem observed_up_to_poll (capacity : Nat) (h : η) (ms : List Move) :
    let x := start capacity h
    ∀ pre r post, (x.run handle ms).world.history.toList = pre ++ .sent r :: post →
      ∃ before scenario score after since, ms = before ++ .emit scenario score :: after
        ∧ (x.run handle before).waiting = none
        ∧ let polled := (x.run handle (before ++ [.poll])).world
          r = polled.draft scenario score ∧ pre = polled.history.toList ++ since
          ∧ ((reads pre).length ≤ maxCount →
            r.observed + (reads since).length = (reads pre).length) := by
  intro x pre r post hh
  have hstamped := stamped_run handle (inv_start capacity h) ms [] (stamped_start _ capacity h)
  obtain ⟨before, scenario, score, after, hms, hw, hr, since, hpre⟩ := hstamped.sent pre r post hh
  refine ⟨before, scenario, score, after, since, hms, hw, hr, hpre, fun hle => ?_⟩
  rw [hpre, reads_append, List.length_append] at hle ⊢
  have hcount := observed_eq_reads handle capacity h (before ++ [Move.poll])
  rw [hr, ← hcount (Nat.le_trans (Nat.le_add_right _ _) hle)]
  rfl

/-- A report that waits takes the event read before it, and not the one read while it waits. -/
theorem observed_up_to_poll_at_rendezvous :
    let handle : Handler Unit := fun _ h => (h, [])
    let ms : List Move := [.act (.notify .failure), .emit ⟨[some 1]⟩ 5,
      .act (.notify (.choice ⟨0⟩ 1 2)), .resume, .act .startReceiving, .resume]
    let pre : List Transfer := [.pushed .failure, .read .failure, .pushed (.choice ⟨0⟩ 1 2),
      .read (.choice ⟨0⟩ 1 2)]
    ((start 0 ()).run handle ms).world.history.toList = pre ++ [.sent ⟨⟨[some 1]⟩, 5, 0, 1⟩]
      ∧ (reads pre).length ≤ maxCount
      ∧ ∃ before since,
        pre = ((start 0 ()).run handle (before ++ [.poll])).world.history.toList ++ since
        ∧ 1 + (reads since).length = (reads pre).length := by
  intro handle ms pre
  have hh : ((start 0 ()).run handle ms).world.history.toList
      = pre ++ [.sent ⟨⟨[some 1]⟩, 5, 0, 1⟩] := by decide +kernel
  have hlen : (reads pre).length ≤ maxCount := by decide
  obtain ⟨before, _, _, _, since, -, -, -, hpre, hcount⟩ :=
    observed_up_to_poll handle 0 () ms pre ⟨⟨[some 1]⟩, 5, 0, 1⟩ [] hh
  exact ⟨hh, hlen, before, since, hpre, hcount hlen⟩

/-- Not every report counts all that was read before it was sent: an event read while the report
waits for room is missing. -/
theorem report_misses_event_read_while_waiting :
    let x := (start 1 ()).run (fun _ h => (h, [])) [.emit ⟨[some 1]⟩ 5, .emit ⟨[some 2]⟩ 4,
      .act (.notify .failure), .resume, .act .readReport, .resume]
    ∃ pre r, x.world.history.toList = pre ++ [.sent r] ∧ r.observed ≠ (reads pre).length :=
  ⟨[.sent ⟨⟨[some 1]⟩, 5, 0, 0⟩, .pushed .failure, .read .failure], ⟨⟨[some 2]⟩, 4, 1, 0⟩,
    by decide +kernel, by decide⟩

end Exchange

end ScenarioSampling
