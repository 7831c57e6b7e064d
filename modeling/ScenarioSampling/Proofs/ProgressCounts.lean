import ScenarioSampling.Proofs.Listeners

/-!
# Progress logs and statistics

A progress log keeps counts of its own, of what it hears, and starts them anew with each run, while
the statistics of the run are counted where things happen. Between the turns both have counted the
same, and so has the line that the log tells when the run ends (`progress_agrees_with_statistics`).
-/

namespace ScenarioSampling

open Entry

/-- The log has counted what the statistics have. -/
structure ProgressLog.Agrees (log : ProgressLog) (s : Statistics) : Prop where
  samples : log.samples = s.samples
  faults : log.faults = s.faults
  scenarios : log.scenarios = s.emitted
  best : log.best = s.best

theorem iterate_countSuccWrapping (samples : Nat) : ∀ n : Nat,
    countSuccWrapping^[n + 1] samples = (samples + n + 1) % wordRange
  | 0 => rfl
  | n + 1 => by
    rw [Function.iterate_succ_apply', iterate_countSuccWrapping samples n, countSuccWrapping,
      Nat.mod_add_mod]
    rfl

theorem iterate_countSuccWrapping_zero : ∀ {k : Nat}, k ≤ maxCount → countSuccWrapping^[k] 0 = k
  | 0, _ => rfl
  | k + 1, h => by
    rw [iterate_countSuccWrapping, Nat.zero_add]
    exact Nat.mod_eq_of_lt (Nat.lt_succ_of_le h)

variable {cs : List Call}

/-- What a progress log has counted when it has heard these calls. -/
structure ProgressLog.Counted (log : ProgressLog) (cs : List Call) (log' : ProgressLog) : Prop where
  samples : log'.samples = countSuccWrapping^[(sampledIn cs).length] log.samples
  faults : log'.faults = countSucc^[(sampledIn cs).countP Option.isNone] log.faults
  scenarios : log'.scenarios = countSucc^[(reportedIn cs).length] log.scenarios
  best : log'.best = ((sampledIn cs).filterMap id).foldl Run.lower log.best

namespace ProgressLog

theorem count_eq (log : ProgressLog) (score : Option Nat) : log.count score = { log with
    samples := countSuccWrapping log.samples
    faults := if score.isNone then countSucc log.faults else log.faults
    best := score.toList.foldl Run.lower log.best } := by
  cases score with
  | none => rfl
  | some score =>
    simp only [count, Option.toList_some, List.foldl_cons, List.foldl_nil, Run.lower,
      Option.isNone_some, Bool.false_eq_true, if_false]
    split <;> rfl

/-- Whether a line is due changes nothing of what was counted. -/
theorem hear_sampled (log : ProgressLog) (s : Surroundings) (score : Option Nat) :
    ∃ lastLine, (log.hear s (.sampled score)).1
      = { log.count score with lastLine := lastLine } := by
  unfold hear
  simp only []
  split
  · exact ⟨s.now, rfl⟩
  · exact ⟨(log.count score).lastLine, rfl⟩

theorem Counted.concat {log log' : ProgressLog} (h : log.Counted cs log') (s : Surroundings)
    {c : Call} (hc : ∀ model, c ≠ .entered model) : log.Counted (cs ++ [c]) (log'.hear s c).1 := by
  obtain ⟨hsamples, hfaults, hscenarios, hbest⟩ := h
  cases c with
  | entered model => exact (hc model rfl).elim
  | left => constructor <;> simpa [hear, Call.sampled?, Call.reported?]
  | reported candidate score =>
    constructor <;> simp [hear, Call.sampled?, Call.reported?, Function.iterate_succ_apply', *]
  | sampled score =>
    obtain ⟨lastLine, hlog⟩ := log'.hear_sampled s score
    rw [hlog, count_eq]
    constructor <;> cases score <;>
      simp [Call.sampled?, Call.reported?, Function.iterate_succ_apply', *]

end ProgressLog

theorem Hears.progressLog {log : ProgressLog} {b' : Monitor} (h : Hears (.progressLog log) cs b')
    (hcs : WithinRun cs) : ∃ log', b' = .progressLog log' ∧ log.Counted cs log' := by
  induction h with
  | nil => exact ⟨log, rfl, rfl, rfl, rfl, rfl⟩
  | @snoc cs m' s c _ ih =>
    obtain ⟨hcs, hc⟩ := List.forall_mem_append.1 hcs
    obtain ⟨log', rfl, hlog⟩ := ih hcs
    exact ⟨_, rfl, hlog.concat s (hc c List.mem_cons_self)⟩

namespace ProgressLog.Counted

variable {log log' : ProgressLog} {events : List Event} {es : List Entry} {s : Statistics}

/-- Where every draw came to a result, the calls of a run count as the run does. -/
theorem agrees (h : log.Counted (es.flatMap calls) log') (hlog : log.Agrees .zero)
    (hs : Tallied events es .zero s) (hresults : (draws es).map Draw.scored? = (scored es).map some)
    (hn : (draws es).length ≤ maxCount) : log'.Agrees s := by
  refine ⟨?_, ?_, ?_, ?_⟩
  · rw [h.samples, hlog.samples, sampledIn, calls_sampled, List.length_map,
      scored_length hresults, hs.samples_eq hresults hn]
    exact iterate_countSuccWrapping_zero hn
  · rw [h.faults, hlog.faults, hs.faults, sampledIn, calls_sampled, List.countP_map]
    congr 2
    funext result
    rcases result with ⟨c, fault | score⟩ <;> rfl
  · rw [h.scenarios, hlog.scenarios, hs.emitted, reportedIn, calls_reported]
  · rw [h.best, hlog.best, hs.best, sampledIn, calls_sampled, scores, List.filterMap_map]
    rfl

end ProgressLog.Counted

namespace World

theorem noteAll_journal (w : World) (ns : List Notice) :
    (w.noteAll ns).journal.toList = w.journal.toList ++ ns := by
  induction ns generalizing w with
  | nil => simp [noteAll]
  | cons n ns ih =>
    change ((w.note n).noteAll ns).journal.toList = _
    rw [ih]
    simp [note]

theorem note_journal (w : World) (n : Notice) :
    w.journal.toList <+: (w.note n).journal.toList :=
  ⟨[n], by simp [note]⟩

theorem takeFresh_journal : ∀ (q : List Report) (w : World),
    w.journal.toList <+: (w.takeFresh q).2.journal.toList
  | [], _ => List.prefix_rfl
  | r :: q, w => by
    unfold takeFresh
    split
    · exact List.prefix_rfl
    · exact (note_journal w _).trans (takeFresh_journal q _)

theorem drainAtMost_journal : ∀ (n : Nat) (w : World),
    w.journal.toList <+: (w.drainAtMost n).2.journal.toList
  | 0, _ => List.prefix_rfl
  | n + 1, w => by
    have h : w.journal.toList <+: w.tryNext.2.journal.toList :=
      takeFresh_journal w.channel.outbound w
    unfold drainAtMost
    rcases hw : w.tryNext with ⟨_ | r, w'⟩ <;> rw [hw] at h
    · exact h
    · exact h.trans (drainAtMost_journal n w')

theorem act_journal (w : World) (a : Action) : w.journal.toList <+: (w.act a).journal.toList := by
  cases a with
  | notify e =>
    have hnote := note_journal w (.eventSent e)
    unfold act notify
    simp only []
    split_ifs
    · exact hnote
    · exact hnote
    · exact List.prefix_rfl
  | readReport =>
    unfold act
    split_ifs
    · exact takeFresh_journal w.channel.outbound w
    · exact List.prefix_rfl
  | drain =>
    unfold act
    split_ifs
    · exact drainAtMost_journal _ w
    · exact List.prefix_rfl
  | startReceiving =>
    unfold act
    split_ifs <;> exact List.prefix_rfl
  | stopReceiving | dropSearch | raiseStop | leaveToken | addOwner | dropOwner | interrupt | tick
  | favour => exact List.prefix_rfl

theorem dispatch_journal {η : Type} (handle : Handler η) (w : World) (h : η) (e : Event) :
    w.journal.toList <+: (dispatch handle w h e).2.1.journal.toList := by
  unfold dispatch
  simp only []
  split
  · exact note_journal (w.record (.read e)) _
  · rw [noteAll_journal]
    exact (note_journal (w.record (.read e)) _).trans (List.prefix_append _ _)

/-- What was told stays in the journal. -/
theorem lasting_journal {η : Type} (handle : Handler η) (told : List Notice) :
    Lasting handle fun w => told <+: w.journal.toList where
  act a hw := hw.trans (act_journal _ a)
  script _ hw := hw
  own {w w'} hstep hw := by
    cases hstep with
    | note n => exact hw.trans (note_journal w n)
    | @read e rest h hin => exact hw.trans (dispatch_journal handle (w.withInbound rest) h e)
    | exhausted | heed | bounce => exact hw
    | send => exact hw.trans (note_journal (w.record _) _)

end World

namespace Run

variable {σ ρ ν : Type}

section Finish

variable {μ : Type} [SamplingMonitor μ] {x y : World × Run σ ρ ν μ} {es : List Entry}
  {reason : TerminationReason}

theorem afterEmission_finishes {r : Run σ ρ ν μ} {score : Nat} {a : Emission × World × Sink}
    (h : (afterEmission r score a).2.stage = .ended reason) :
    ∃ w r', afterEmission r score a = finish w r' reason := by
  obtain ⟨(_ | stop) | v | q, w, sink⟩ := a
  · cases h
  · cases h
    exact ⟨_, _, rfl⟩
  · cases h
  · cases h

variable [Sampler σ ρ] [Scorer ν]

theorem DrawCourse.finishes (h : DrawCourse x es y) (hl : x.2.stage = .looping)
    (hy : y.2.stage = .ended reason) : ∃ w r, y = finish w r reason := by
  cases h with
  | undrawn | unscored => cases hy
  | discarded => cases hl.symm.trans hy
  | passed =>
    rw [judged_run] at hy
    cases hl.symm.trans hy
  | reported => exact afterEmission_finishes hy

/-- A run ends by telling its monitor. -/
theorem Course.finishes (h : Course x es y) (hx : x.2.isOver = false)
    (hy : y.2.stage = .ended reason) : ∃ w r, y = finish w r reason := by
  cases h with
  | idle hover => exact (Bool.false_ne_true (hx.symm.trans hover)).elim
  | stopped | aborted =>
    cases hy
    exact ⟨_, _, rfl⟩
  | drew ho hd => exact hd.finishes ho.looping_after hy
  | resumed => exact afterEmission_finishes hy

end Finish

/-- At the end of a run, every log among its monitors tells what it has counted. -/
theorem finish_told {w : World} {r : Run σ ρ ν Monitor} {reason : TerminationReason} {i : Nat}
    {log' : ProgressLog}
    (h : (finish w r reason).2.monitor.leaves[i]? = some (.progressLog log')) :
    ∃ log, r.monitor.leaves[i]? = some (.progressLog log)
      ∧ log' = { log with lastLine := w.surroundings.now }
      ∧ ∃ before after, (finish w r reason).1.journal.toList
        = w.journal.toList ++ before ++ (log.hear w.surroundings .left).2 ++ after := by
  obtain ⟨hleaves, htold⟩ := r.monitor.hear_leaves w.surroundings .left
  rw [show (finish w r reason).2.monitor.leaves = _ from hleaves, List.getElem?_map,
    Option.map_eq_some_iff] at h
  obtain ⟨b, hb, hlog⟩ := h
  cases b with
  | progressLog log =>
    refine ⟨log, hb, (Monitor.progressLog.inj hlog).symm, ?_⟩
    obtain ⟨before, after, hsplit⟩ := List.append_of_mem (List.mem_of_getElem? hb)
    refine ⟨before.flatMap fun b => (b.hear w.surroundings .left).2,
      after.flatMap fun b => (b.hear w.surroundings .left).2,
      (w.noteAll_journal (r.monitor.hear w.surroundings .left).2).trans ?_⟩
    rw [htold, hsplit, List.flatMap_append, List.flatMap_cons, List.append_assoc,
      List.append_assoc]
    rfl
  | sampleLimit | timeLimit | interrupt | recorder | composite => cases hlog

variable [Sampler σ ρ] [Scorer ν]

section Agreement

variable {w₀ w : World} {policy : ReportPolicy} {m : Model} {sampler : σ} {source : ρ} {scorer : ν}
  {monitor : Monitor} {r : Run σ ρ ν Monitor} {i : Nat} {log : ProgressLog}

/-- Unless it has crashed, what a run has counted is what a log among its monitors has. -/
theorem play_agrees (h : begin w₀ policy m sampler source scorer monitor = .ok (w, r))
    (hlog : monitor.leaves[i]? = some (.progressLog log)) (vs : List Move)
    (hdraws : (draws (chronicle (w, r) vs)).length ≤ maxCount)
    (hcrash : ∀ crash, (play (w, r) vs).2.stage ≠ .crashed crash) :
    ∃ log', (play (w, r) vs).2.monitor.leaves[i]? = some (.progressLog log')
      ∧ log'.Agrees (play (w, r) vs).2.sink.statistics
      ∧ log'.scenarios = (accepted (chronicle (w, r) vs)).length := by
  have hb := begun h
  obtain ⟨hsettled, ts, hbooks, htallied⟩ := hb.settles vs
  have hresults := hsettled.results hcrash
  have hentered : r.monitor.leaves[i]?
      = some (.progressLog (.ofInterval log.interval log.mask w₀.surroundings.now)) := by
    rw [show r.monitor.leaves = _ from hb.leaves, List.getElem?_map, hlog]
    rfl
  obtain ⟨b, hb', hears⟩ := hbooks.heard.leaf hentered
  obtain ⟨log', rfl, hcounted⟩ := hears.progressLog (withinRun_calls _)
  have hagrees := hcounted.agrees ⟨rfl, rfl, rfl, rfl⟩ htallied hresults hdraws
  have haccepted := (hsettled.accepted_length_le.trans (scored_length_le _)).trans hdraws
  exact ⟨log', hb', hagrees, hagrees.scenarios.trans (htallied.emitted_eq haccepted)⟩

/-- In a run whose monitor is a progress log or contains one somewhere, with whatever the log has
counted before and fewer than `2 ^ 64` draws, the log has counted what the statistics have whenever
the run is between two turns, or has ended; a report that was answered with a stop is counted by
neither. The line that the log tells when the run ends is that of the statistics of its outcome. -/
theorem progress_agrees_with_statistics
    (h : begin w₀ policy m sampler source scorer monitor = .ok (w, r))
    (hlog : monitor.leaves[i]? = some (.progressLog log)) (vs : List Move)
    (hdraws : (draws (chronicle (w, r) vs)).length ≤ maxCount) :
    let y := play (w, r) vs
    let s := y.2.sink.statistics
    ((∀ crash, y.2.stage ≠ .crashed crash) →
        ∃ log', y.2.monitor.leaves[i]? = some (.progressLog log') ∧ log'.Agrees s
          ∧ log'.scenarios = (accepted (chronicle (w, r) vs)).length)
      ∧ ∀ reason, y.2.stage = .ended reason →
        ∃ pre post v q last, vs = pre ++ .step :: post ∧ (play (w, r) pre).2.isOver = false
          ∧ play (w, r) (pre ++ [.step]) = finish v q reason
          ∧ q.monitor.leaves[i]? = some (.progressLog last)
          ∧ (last.hear v.surroundings .left).2
            = [.progress s.samples s.faults s.emitted s.best, .samplingFinished]
          ∧ ∃ before after, v.journal.toList <+: before
            ∧ y.1.journal.toList = before ++ (last.hear v.surroundings .left).2 ++ after := by
  intro y s
  refine ⟨play_agrees h hlog vs hdraws, fun reason hend => ?_⟩
  obtain ⟨log', hlog', hagrees, -⟩ := play_agrees h hlog vs hdraws (by
    rw [show (play (w, r) vs).2.stage = _ from hend]
    exact nofun)
  have hlooping : r.stage = .looping := (begun h).looping
  obtain ⟨pre, post, hsplit, hpre, hturn⟩ := exists_last_turn (x := (w, r)) vs
    (by simp [isOver, hlooping]) (by rw [isOver, show (play (w, r) vs).2.stage = _ from hend])
  have hstep : play (w, r) (pre ++ [.step]) = step (play (w, r) pre).1 (play (w, r) pre).2 :=
    play_append (w, r) pre [.step]
  obtain ⟨v, q, hfinish⟩ := (step_course (play (w, r) pre)).finishes hpre (hturn ▸ hend)
  rw [hturn, hfinish] at hlog'
  obtain ⟨last, hlast, rfl, before, after, hjournal⟩ := finish_told hlog'
  have hlater : (finish v q reason).1.journal.toList <+: y.1.journal.toList := by
    have hplay : y = play (finish v q reason) post := calc
      y = play (w, r) (pre ++ .step :: post) := congrArg (play (w, r)) hsplit
      _ = play (play (w, r) (pre ++ [.step])) post := by rw [List.append_cons, play_append]
      _ = play (finish v q reason) post := by rw [hstep, hfinish]
    rw [hplay]
    exact (World.lasting_journal Sink.handle _).play post List.prefix_rfl
  obtain ⟨later, hlater⟩ := hlater
  refine ⟨pre, post, v, q, last, hsplit, hpre, hstep.trans hfinish, hlast, ?_,
    v.journal.toList ++ before, after ++ later, List.prefix_append _ _, ?_⟩
  · obtain ⟨hsamples, hfaults, hscenarios, hbest⟩ := hagrees
    simp only [s, y, ProgressLog.hear, ProgressLog.line, ← hsamples, ← hfaults, ← hscenarios,
      ← hbest]
  · rw [← hlater, hjournal, List.append_assoc]

end Agreement

/-- For `2 ^ 62 * x == y` the candidate `(3, 0)` is discarded for an overflow. The candidate
`(0, 1)` is to be reported to a search that takes no reports, and is cut off when the search ends.
The log is nested, and has counted before. -/
theorem progress_agrees_with_statistics_cut_off :
    let domain : Domain := ⟨0, 3, by decide, by decide, by decide⟩
    let m : Model :=
      ⟨.closed,
        [⟨"x", ⟨0⟩, .decision .existential, .int, domain⟩,
          ⟨"y", ⟨1⟩, .decision .existential, .int, domain⟩],
        [.linear ⟨[⟨4611686018427387904, ⟨0⟩⟩], .eq, ⟨1⟩⟩], [("y", ⟨1⟩), ("x", ⟨0⟩)], 0⟩
    let source : WordCycle := ⟨#[13835058055282163712, 0, 0, 4611686018427387904], 0⟩
    let log : ProgressLog := ⟨.ofParts 1 0, 4095, 0, 0, 7, 3, 2, some 0⟩
    let monitor : Monitor := .composite [.recorder "all", .composite [.progressLog log]]
    let vs : List Move := [.step, .step, .act (.notify .globalFailure), .step]
    ∃ w r log', begin (.ofCapacity 0) ⟨1, false⟩ m UniformSampler.mk source ConstraintScorer.mk
        monitor = .ok (w, r)
      ∧ monitor.leaves[1]? = some (.progressLog log)
      ∧ (draws (chronicle (w, r) vs)).length = 2
      ∧ (play (w, r) vs).2.stage = .ended (.stopped .globalFailure)
      ∧ (play (w, r) vs).2.monitor.leaves[1]? = some (.progressLog log')
      ∧ (log'.samples, log'.faults, log'.scenarios, log'.best) = (2, 1, 0, some 1) := by
  intro domain m source log monitor vs
  obtain ⟨w, r, h, hdraws, hend, hstatistics⟩ : ∃ w r,
      begin (.ofCapacity 0) ⟨1, false⟩ m UniformSampler.mk source ConstraintScorer.mk monitor
        = .ok (w, r)
      ∧ (draws (chronicle (w, r) vs)).length = 2
      ∧ (play (w, r) vs).2.stage = .ended (.stopped .globalFailure)
      ∧ (let s := (play (w, r) vs).2.sink.statistics
        (s.samples, s.faults, s.emitted, s.best) = (2, 1, 0, some 1)) :=
    ⟨_, _, rfl, by decide +kernel, by decide +kernel, by decide +kernel⟩
  have hlog : monitor.leaves[1]? = some (.progressLog log) := rfl
  obtain ⟨hcounts, -⟩ := progress_agrees_with_statistics h hlog vs (by rw [hdraws]; decide)
  obtain ⟨log', hlog', ⟨hsamples, hfaults, hscenarios, hbest⟩, -⟩ :=
    hcounts (by rw [hend]; exact nofun)
  refine ⟨w, r, log', h, hlog, hdraws, hend, hlog', ?_⟩
  rw [hsamples, hfaults, hscenarios, hbest]
  exact hstatistics

end Run

end ScenarioSampling
