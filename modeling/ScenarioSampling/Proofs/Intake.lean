import Mathlib.Logic.Function.Iterate
import ScenarioSampling.Proofs.Access

/-!
# What a worker takes in

A chain of accesses reads events one after the other. Each is counted, and handed on unless it ends
the search, which only the last one can do: `Accesses.intake` says what becomes of the history, the
count and the handler's state, whichever calls the accesses belong to.
-/

namespace ScenarioSampling

open Transfer

theorem countSucc_of_lt {n : Nat} (h : n < maxCount) : countSucc n = n + 1 :=
  Nat.min_eq_left h

theorem iterate_countSucc : ∀ (k : Nat) {n : Nat}, n + k ≤ maxCount → countSucc^[k] n = n + k
  | 0, _, _ => rfl
  | k + 1, n, h => by
    rw [Function.iterate_succ_apply, countSucc_of_lt (by omega), iterate_countSucc k (by omega)]
    omega

theorem iterate_countSucc_zero {k : Nat} (h : k ≤ maxCount) : countSucc^[k] 0 = k :=
  (iterate_countSucc k (by omega)).trans (Nat.zero_add k)

/-- The events that were read and handed on. -/
def Transfer.handed (ts : List Transfer) : List Event := (reads ts).filter fun e => !e.isTerminal

@[simp]
theorem Transfer.handed_append (ts us : List Transfer) :
    handed (ts ++ us) = handed ts ++ handed us := by
  simp [handed]

/-- From `w` to `w'` the worker has read the events in `ts`. -/
structure Intake (ts : List Transfer) (w w' : World) : Prop where
  history : w'.history.toList = w.history.toList ++ ts
  observed : w'.channel.observed = countSucc^[(reads ts).length] w.channel.observed
  /-- Nothing is read after a stop. -/
  listens : reads ts ≠ [] → w.channel.stopped = none
  terminals : (reads ts).countP Event.isTerminal ≤ 1
  quiet : w'.channel.stopped = none →
    w.channel.stopped = none ∧ (reads ts).countP Event.isTerminal = 0

namespace Intake

variable {w w' w'' : World} {ts ts' : List Transfer}

theorem trans (h : Intake ts w w') (h' : Intake ts' w' w'') : Intake (ts ++ ts') w w'' where
  history := by rw [h'.history, h.history, List.append_assoc]
  observed := by
    rw [h'.observed, h.observed, reads_append, List.length_append, Nat.add_comm,
      Function.iterate_add_apply]
  listens hne := by
    by_cases hts : reads ts = []
    · have hts' : reads ts' ≠ [] := by simpa [hts] using hne
      exact (h.quiet (h'.listens hts')).1
    · exact h.listens hts
  terminals := by
    rw [reads_append, List.countP_append]
    by_cases hts' : reads ts' = []
    · simpa [hts'] using h.terminals
    · have hzero := (h.quiet (h'.listens hts')).2
      have hone := h'.terminals
      omega
  quiet hs := by
    obtain ⟨hs', hzero'⟩ := h'.quiet hs
    obtain ⟨hs₀, hzero⟩ := h.quiet hs'
    exact ⟨hs₀, by rw [reads_append, List.countP_append, hzero, hzero']⟩

/-- Nothing is read. -/
theorem of_reads_nil (hh : w'.history.toList = w.history.toList ++ ts) (hr : reads ts = [])
    (ho : w'.channel.observed = w.channel.observed)
    (hs : w'.channel.stopped = none → w.channel.stopped = none) : Intake ts w w' where
  history := hh
  observed := by rw [ho, hr]; rfl
  listens hne := (hne hr).elim
  terminals := by simp [hr]
  quiet h := ⟨hs h, by simp [hr]⟩

theorem countP_terminal (h : Intake ts w w') : (reads ts).countP Event.isTerminal
    = if (reads ts).any Event.isTerminal then 1 else 0 := by
  have hle := h.terminals
  by_cases hany : (reads ts).any Event.isTerminal = true
  · have hpos : 0 < (reads ts).countP Event.isTerminal := by
      rw [List.countP_pos_iff]
      simpa using hany
    rw [if_pos hany]
    omega
  · rw [if_neg hany, List.countP_eq_zero]
    simpa using hany

theorem refl (w : World) : Intake [] w w := of_reads_nil (by simp) rfl rfl id

/-- Nothing happens at the queues. -/
theorem of_eq (hc : w'.channel = w.channel) (hh : w'.history = w.history) : Intake [] w w' :=
  of_reads_nil (by simp [hh]) rfl (by rw [hc]) (by rw [hc]; exact id)

end Intake

theorem Disturbed.intake {w w' : World} (hd : Disturbed w w') :
    ∃ ts, Intake ts w w' ∧ reads ts = [] := by
  obtain ⟨es, -, hhist, -⟩ := hd.pushes
  have hr : reads (es.map .pushed) = [] := reads_map_pushed es
  exact ⟨es.map .pushed, .of_reads_nil hhist hr hd.observed fun hs => hd.stopped ▸ hs, hr⟩

variable {η : Type} {handle : Handler η} {P : Report → Prop}

theorem World.handleAll_append (es es' : List Event) (h : η) :
    handleAll handle (es ++ es') h = handleAll handle es' (handleAll handle es h) :=
  List.foldl_append

/-- One access reads at most one event. -/
theorem Access.intake {a b : World × η} (h : Access handle P a b) :
    ∃ ts, Intake ts a.1 b.1 ∧ b.2 = World.handleAll handle (handed ts) a.2 := by
  cases h with
  | others hd =>
    obtain ⟨ts, hts, hr⟩ := hd.intake
    exact ⟨ts, hts, by rw [handed, hr]; rfl⟩
  | @read w h e rest hs hin =>
    have hc := World.dispatch_channel handle (w := w.withInbound rest) h e hs
    have hr : reads [.read e] = [e] := rfl
    refine ⟨[.read e], ⟨by simp, by rw [hc, hr]; rfl, fun _ => hs, ?_, fun hq => ⟨hs, ?_⟩⟩, ?_⟩
    · rw [hr]
      exact List.countP_le_length
    · rw [hc] at hq
      simp only [] at hq
      simp [hr, ← Event.isSome_stopReason?, hq]
    · rw [World.dispatch_sink, handed, hr]
      cases he : e.isTerminal <;> simp [he, World.handleAll]
  | exhausted hs => exact ⟨[], .of_reads_nil (by simp) rfl rfl (fun _ => hs), rfl⟩
  | heed hs => exact ⟨[], .of_reads_nil (by simp) rfl rfl (fun _ => hs), rfl⟩
  | @send w h r hs =>
    exact ⟨[.sent r], .of_reads_nil (by simp) rfl rfl (fun _ => hs), rfl⟩
  | @bounce w h r hs =>
    exact ⟨[.bounced r], .of_reads_nil (by simp) rfl rfl (fun _ => hs), rfl⟩

/-- The events read along a chain of accesses are counted, and those that do not end the search are
handed on, each once and in order. -/
theorem Accesses.intake {a b : World × η} (h : Accesses handle P a b) :
    ∃ ts, Intake ts a.1 b.1 ∧ b.2 = World.handleAll handle (handed ts) a.2 := by
  induction h with
  | refl => exact ⟨[], .refl _, rfl⟩
  | tail _ hbc ih =>
    obtain ⟨ts, hts, hsink⟩ := ih
    obtain ⟨ts', hts', hsink'⟩ := hbc.intake
    exact ⟨ts ++ ts', hts.trans hts', by rw [hsink', hsink, handed_append, World.handleAll_append]⟩

end ScenarioSampling
