import ScenarioSampling.Proofs.Reading

/-!
# A search that is gone

A search may announce the end and let go of its side at once. A worker that looks for events reads
all that waits before it notices, but one that turns to the search with a report notices at once,
and leaves unread what it had no time to read: the event that ends the search is then lost
(`terminal_lost_iff_bounced`). Before it reports, a worker reads no more than a batch, so a call that
begins after the search is gone loses exactly what waits behind the first batch.
-/

namespace ScenarioSampling

open Transfer

/-- The events that wait after a history. -/
def Transfer.unread (ts : List Transfer) : List Event := (pushes ts).drop (reads ts).length

theorem Orderly.unread_eq {w : World} (hw : Orderly w) :
    unread w.history.toList = w.channel.inbound := by
  rw [unread, hw.conserved, List.drop_left]

theorem Transfer.unread_bounced (ts : List Transfer) (r : Report) :
    unread (ts ++ [.bounced r]) = unread ts := by
  have hp : pushes [.bounced r] = [] := rfl
  have hr : reads [.bounced r] = [] := rfl
  rw [unread, pushes_append, reads_append, hp, hr, List.append_nil, List.append_nil, unread]

/-- The worker's end takes the search for gone while an event that ends the search still waits. -/
def World.Loses (w : World) : Prop :=
  w.channel.stopped = some .searchDisconnected ∧ ∃ e ∈ w.channel.inbound, e.isTerminal = true

/-- The last thing that happened is that a report met a search that was gone, while an event that
ends the search waited. -/
def World.BouncedTooEarly (w : World) : Prop :=
  ∃ pre r, w.history.toList = pre ++ [.bounced r] ∧ ∃ e ∈ unread pre, e.isTerminal = true

variable {η : Type} (handle : Handler η)

namespace World

/-- What a batch of reads comes to when nothing is pushed any more. -/
theorem readBatch_of_gone : ∀ (n : Nat) (w : World) (h : η), w.channel.stopped = none →
    w.channel.searchAlive = false →
    (readBatch handle n w h).2.1.channel.searchAlive = false
      ∧ match (w.channel.inbound.take n).find? Event.isTerminal with
        | some e => (readBatch handle n w h).2.1.channel.stopped = e.stopReason?
        | none => (readBatch handle n w h).2.1.channel.inbound = w.channel.inbound.drop n
          ∧ ((readBatch handle n w h).2.1.channel.stopped = some .stopRequested
            ∨ (readBatch handle n w h).2.1.channel.stopped
              = if w.channel.inbound.length < n then some .searchDisconnected else none)
  | 0, w, h, hs, hg => by
    simp only [readBatch, List.take_zero, List.find?_nil, List.drop_zero, Nat.not_lt_zero,
      if_false]
    rcases checkStop_cases w h with ⟨v, hd, hv⟩ | ⟨v, s, hd, -, hv⟩ <;> rw [hv]
    · exact ⟨hd.gone hg, hd.inbound_eq hg, .inr (hd.stopped.trans hs)⟩
    · refine ⟨hd.gone hg, hd.inbound_eq hg, .inl ?_⟩
      rw [halt_eq (by exact hd.stopped.trans hs)]
  | n + 1, w, h, hs, hg => by
    have hd := visit_disturbed w .receive
    unfold readBatch
    simp only []
    set w₁ := w.visit .receive
    have hs₁ : w₁.channel.stopped = none := hd.stopped.trans hs
    have hg₁ := hd.gone hg
    rw [← hd.inbound_eq hg]
    rcases hin : w₁.channel.inbound with _ | ⟨e, rest⟩
    · simp only [hg₁, hin, Bool.false_eq_true, if_false, halt_eq hs₁]
      simp
    · have hc := dispatch_channel handle (w := w₁.withInbound rest) h e hs₁
      have hflow := dispatch_flow handle (w := w₁.withInbound rest) h e hs₁
      simp only [List.take_succ_cons, List.find?_cons, List.drop_succ_cons, List.length_cons,
        Nat.add_lt_add_iff_right]
      rcases hr : dispatch handle (w₁.withInbound rest) h e with ⟨_ | reason, w₂, h₂⟩ <;>
        rw [hr] at hc hflow <;> simp only [withInbound_channel] at hc hflow
      · have hs₂ := stopped_of_flow hflow.symm
        have he : e.stopReason? = none := by rw [← hs₂, hc]
        have hin₂ : w₂.channel.inbound = rest := by rw [hc]
        have ih := readBatch_of_gone n w₂ h₂ hs₂ (by rw [hc]; exact hg₁)
        rw [hin₂] at ih
        simpa [← Event.isSome_stopReason?, he] using ih
      · have he : e.isTerminal = true := by
          rcases hn : e.stopReason? with _ | reason'
          · rw [flow_of_none (by rw [hc]; exact hn)] at hflow
            cases hflow
          · simp [← Event.isSome_stopReason?, hn]
        simp only [he, hc]
        exact ⟨hg₁, trivial⟩

theorem sendAtOnce_of_gone (w : World) (r : Report) (hg : w.channel.searchAlive = false) :
    w.sendAtOnce r = (some ((w.visit .offer).bounce r).1, ((w.visit .offer).bounce r).2) := by
  unfold sendAtOnce
  simp [(visit_disturbed w .offer).gone hg]

/-- A report that is begun after the search is gone meets an event that ends the search exactly if
it is within the first batch, and loses all events behind that batch otherwise. -/
theorem emit_of_gone (w : World) (h : η) (scenario : Scenario) (score : Nat)
    (hs : w.channel.stopped = none) (hg : w.channel.searchAlive = false) :
    match (w.channel.inbound.take pollBatch).find? Event.isTerminal with
    | some e => (emit handle w h scenario score).2.1.channel.stopped = e.stopReason?
    | none => (emit handle w h scenario score).2.1.channel.inbound = w.channel.inbound.drop pollBatch
      ∧ ((emit handle w h scenario score).2.1.channel.stopped = some .stopRequested
        ∨ (emit handle w h scenario score).2.1.channel.stopped = some .searchDisconnected) := by
  obtain ⟨hg₁, hbatch⟩ := readBatch_of_gone handle pollBatch w h hs hg
  obtain ⟨-, hflow⟩ := poll_accesses handle (P := fun _ => False) w h hs
  unfold emit poll at *
  simp only [hs] at *
  rcases hp : readBatch handle pollBatch w h with ⟨_ | reason, w₁, h₁⟩ <;>
    rw [hp] at hg₁ hbatch hflow
  · have hs₁ := stopped_of_flow hflow.symm
    have hd := visit_disturbed w₁ .offer
    simp only [sendAtOnce_of_gone w₁ _ hg₁]
    split at hbatch
    · rename_i e he
      have ht := List.find?_some he
      rw [← Event.isSome_stopReason?, ← hbatch, hs₁] at ht
      cases ht
    · refine ⟨(hd.inbound_eq hg₁).trans hbatch.1, .inr ?_⟩
      simp [hd.stopped.trans hs₁]
  · split at hbatch
    · exact hbatch
    · obtain ⟨hin, hreq | hdis⟩ := hbatch
      · exact ⟨hin, .inl hreq⟩
      · refine ⟨hin, .inr ?_⟩
        split_ifs at hdis
        · exact hdis
        · rw [flow_of_none hdis] at hflow
          cases hflow

/-- Undisturbed, a report begun after the search is gone reads a full batch and no more. -/
theorem emit_told_of_gone {w : World} (h : η) (scenario : Scenario) (score : Nat)
    {es rest : List Event} (ho : w.OnlyTold) (hs : w.channel.stopped = none)
    (hg : w.channel.searchAlive = false) (hr : w.stop = .initial)
    (hin : w.channel.inbound = es ++ rest) (hes : ∀ e ∈ es, e.isTerminal = false)
    (hlen : es.length = pollBatch) :
    (emit handle w h scenario score).2.1.channel.stopped = some .searchDisconnected
      ∧ (emit handle w h scenario score).2.1.channel.inbound = rest := by
  obtain ⟨w', hread, hrun⟩ := readBatch_told handle es rest 0 w h ho hs hin hes
  obtain ⟨told, observed, hch, hgone⟩ := hread.channel
  rw [hgone hg, List.append_nil] at hch
  have hr' : w'.stop = .initial := hread.stop.trans hr
  obtain ⟨v, htold, -, hcheck⟩ := checkStop_told (handleAll handle es h) hread.onlyTold
    (by rw [hr']; rfl) (by rw [hr']; rfl) (by rw [hr']; exact Nat.one_ne_zero)
  obtain ⟨told', hv, hgone'⟩ := htold.channel
  have hgv : v.channel.searchAlive = false := by rw [hv, hch]; exact hg
  have hd := visit_disturbed v .offer
  rw [Nat.zero_add, hlen, readBatch, hcheck] at hrun
  unfold emit poll
  simp only [hs, hrun, sendAtOnce_of_gone v _ hgv, bounce_channel]
  rw [hd.stopped, hd.inbound_eq hgv, hv, hgone' (by rw [hch]; exact hg), hch]
  simp [hs]

/-- Where nothing can be sent, no report meets the search. -/
theorem bounced_of_accesses {a b : World × η} (h : Accesses handle (fun _ => False) a b) {r : Report}
    (hr : .bounced r ∈ b.1.history.toList) : .bounced r ∈ a.1.history.toList := by
  refine h.preserves (I := fun c => .bounced r ∈ c.1.history.toList → .bounced r ∈ a.1.history.toList)
    ?_ id hr
  intro c d hcd hc hd
  cases hcd with
  | others hdist =>
    obtain ⟨es, -, hh, -⟩ := hdist.pushes
    rw [hh, List.mem_append] at hd
    exact hc (hd.resolve_right fun hm => not_isFinal_of_mem_map hm trivial)
  | read => simpa using hc (by simpa using hd)
  | exhausted | heed => exact hc hd
  | send _ hP | bounce _ hP => exact hP.elim

end World

namespace Orderly

variable {w : World}

theorem loses_iff (hw : Orderly w) : w.Loses ↔ w.BouncedTooEarly := by
  constructor
  · rintro ⟨hs, e, he, ht⟩
    obtain ⟨-, hin | ⟨pre, r, hh⟩⟩ := hw.disconnected hs
    · rw [hin] at he
      cases he
    · rw [← hw.unread_eq, hh, unread_bounced] at he
      exact ⟨pre, r, hh, e, he, ht⟩
  · rintro ⟨pre, r, hh, e, he, ht⟩
    refine ⟨hw.bounced r (by simp [hh]), e, ?_, ht⟩
    rw [← hw.unread_eq, hh, unread_bounced]
    exact he

/-- The first event pushed that ends the search is why the worker's end stops, if it is not lost and
nobody asked for a stop. -/
theorem stopped_of_find? (hw : Orderly w) {e : Event}
    (he : (pushes w.history.toList).find? Event.isTerminal = some e) {reason : StopReason}
    (hs : w.channel.stopped = some reason) :
    reason = .stopRequested ∨ e.stopReason? = some reason ∨ w.Loses := by
  rw [hw.conserved, List.find?_append] at he
  rcases hf : (reads w.history.toList).find? Event.isTerminal with _ | e'
  · rw [hf, Option.none_or] at he
    have hlost : reason = .searchDisconnected → w.Loses := fun hr =>
      ⟨hs.trans (by rw [hr]), e, List.mem_of_find?_eq_some he, List.find?_some he⟩
    have hread : ¬ reason.isTerminal = true := fun ht => by
      obtain ⟨e', he', hr⟩ := hw.terminal reason hs ht
      have hn := List.find?_eq_none.1 hf e' (mem_reads.2 he')
      simp [← Event.isSome_stopReason?, hr] at hn
    cases reason with
    | globalFailure | strategyFound => exact (hread rfl).elim
    | stopRequested => exact .inl rfl
    | searchDisconnected => exact .inr (.inr (hlost rfl))
  · rw [hf, Option.some_or, Option.some.injEq] at he
    subst he
    have hr := hw.final e' (mem_reads.1 (List.mem_of_find?_eq_some hf)) (List.find?_some hf)
    exact .inr (.inl (hr.symm.trans hs))

end Orderly

namespace Exchange

/-- In every interleaving, an event that ends the search is lost exactly if a report met a search
that was gone while such an event waited; otherwise the worker's end, if it stops and nobody asked
for a stop, stops with the first such event that was pushed. Looking for events never loses one, and
a report begun after the search is gone loses one exactly if none is within the first batch but one
is behind it. -/
theorem terminal_lost_iff_bounced (capacity : Nat) (h : η) (ms : List Move) :
    let x := (start capacity h).run handle ms
    (x.world.Loses ↔ x.world.BouncedTooEarly)
      ∧ (∀ e, (pushes x.world.history.toList).find? Event.isTerminal = some e →
        ∀ reason, x.world.channel.stopped = some reason →
          reason = .stopRequested ∨ e.stopReason? = some reason ∨ x.world.Loses)
      ∧ (x.world.channel.stopped = none → ¬ (x.world.poll handle x.sink).2.1.Loses)
      ∧ (x.world.channel.stopped = none → x.world.channel.searchAlive = false →
        ∀ scenario score, let w := (x.world.emit handle x.sink scenario score).2.1
          w.channel.stopped ≠ some .stopRequested →
          (w.Loses ↔ (∀ e ∈ x.world.channel.inbound.take World.pollBatch, e.isTerminal = false)
            ∧ ∃ e ∈ x.world.channel.inbound.drop World.pollBatch, e.isTerminal = true)) := by
  intro x
  have hx : Inv x := inv_run handle ms (inv_start capacity h)
  refine ⟨hx.orderly.loses_iff, fun e he reason hs => hx.orderly.stopped_of_find? he hs,
    fun hs hl => ?_, ?_⟩
  · obtain ⟨hacc, -⟩ := World.poll_accesses handle (P := fun _ => False) x.world x.sink hs
    obtain ⟨pre, r, hh, -⟩ := (hx.orderly.accesses hacc).loses_iff.1 hl
    have hr := World.bounced_of_accesses handle hacc (r := r) (by simp [hh])
    exact hx.orderly.not_isFinal hs hr trivial
  · intro hs hg scenario score w hreq
    have hemit := World.emit_of_gone handle x.world x.sink scenario score hs hg
    split at hemit
    · rename_i e he
      have ht := List.find?_some he
      constructor
      · rintro ⟨hd, -⟩
        rw [hemit] at hd
        cases e <;> simp [Event.stopReason?] at hd
      · rintro ⟨hn, -⟩
        rw [hn e (List.mem_of_find?_eq_some he)] at ht
        cases ht
    · rename_i hf
      obtain ⟨hin, hs'⟩ := hemit
      have hn : ∀ e ∈ x.world.channel.inbound.take World.pollBatch, e.isTerminal = false :=
        fun e he => by simpa using List.find?_eq_none.1 hf e he
      rw [← hin]
      exact ⟨fun hl => ⟨hn, hl.2⟩, fun he => ⟨hs'.resolve_left hreq, he.2⟩⟩

/-- A report that waits is woken up by the first of two events, and then meets a search that is gone
before the second is read. -/
theorem terminal_lost_while_waiting :
    let x := (start 0 ()).run (fun _ h => (h, [])) [.emit ⟨[some 1]⟩ 0, .act (.notify .failure),
      .act (.notify .strategyFound), .act .dropSearch, .resume]
    x.world.BouncedTooEarly ∧ x.world.Loses := by
  intro x
  have hb : x.world.BouncedTooEarly :=
    ⟨[.pushed .failure, .pushed .strategyFound, .read .failure], ⟨⟨[some 1]⟩, 0, 0, 0⟩, rfl,
      .strategyFound, .head _, rfl⟩
  exact ⟨hb, (terminal_lost_iff_bounced _ 0 () _).1.2 hb⟩

/-- A search that announces the end behind a full batch and lets go loses it to a report. -/
theorem Calm.lost {capacity : Nat} {x : Exchange η} {es : List Event} (hx : Calm capacity x es)
    (hes : ∀ e ∈ es, e.isTerminal = false) (hlen : es.length = World.pollBatch) (e : Event)
    (scenario : Scenario) (score : Nat) :
    let y := x.run handle [.act (.notify e), .act .dropSearch, .emit scenario score]
    y.world.channel.stopped = some .searchDisconnected ∧ y.world.channel.inbound = [e] := by
  intro y
  have hn := hx.notify handle e
  set x₁ := x.move handle (.act (.notify e))
  have hy : y.world = (x₁.world.dropSearch.emit handle x₁.sink scenario score).2.1 := by
    simp only [y, run, List.foldl_cons, List.foldl_nil]
    change (move handle (move handle x₁ _) _).world = _
    simp only [move, hn.waiting]
    rfl
  rw [hy]
  exact World.emit_told_of_gone handle x₁.sink scenario score hn.onlyTold hn.quiet.listens rfl hn.stop
    (congrArg Channel.inbound hn.channel) hes hlen

/-- Not every event that ends the search is read before the search is taken for gone: one behind a
full batch is lost to a report. -/
theorem strategy_lost_behind_full_batch :
    let x := (start 1 ()).run (fun _ h => (h, [])) (List.replicate 1024 (.act (.notify .failure))
      ++ [.act (.notify .strategyFound), .act .dropSearch, .emit ⟨[some 1]⟩ 0])
    x.world.channel.stopped = some .searchDisconnected
      ∧ x.world.channel.inbound = [.strategyFound] := by
  intro x
  have hx : x = _ := run_append _ (start 1 ()) _ _
  rw [hx]
  have hcalm := (calm_start 1 ()).notifies (fun _ h => (h, [])) .failure 1024
  refine hcalm.lost _ (fun e he => ?_) (List.length_replicate ..) .strategyFound _ _
  rw [List.eq_of_mem_replicate he]
  rfl

end Exchange

end ScenarioSampling
