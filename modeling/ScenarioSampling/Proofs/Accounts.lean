import ScenarioSampling.Proofs.Bookkeeping

/-!
# The accounts of a run

A candidate is promising if its score is low enough, or, where improvements count, lower than all
scores before it. A run reports its promising candidates in the order of their draws and nothing
else, except that an attempt answered with a stop leaves the last one unreported; what it tells its
monitor, its statistics and the counts of its end of the bridge agree with that (`accounts_agree`).

Between the turns all promising candidates are reported but for the one whose attempt is open
(`Settled`).
-/

namespace ScenarioSampling

open Transfer Entry

/-- What happened at the queues from `w₀` to `w`. -/
def World.since (w₀ w : World) : List Transfer := w.history.toList.drop w₀.history.size

namespace Call

/-- The score, or that there was none, of a candidate that was drawn. -/
def sampled? : Call → Option (Option Nat)
  | sampled score => some score
  | _ => none

/-- The candidate and the score of a report. -/
def reported? : Call → Option (Candidate × Nat)
  | reported c score => some (c, score)
  | _ => none

end Call

namespace Entry

/-- What the monitor of a run on `m` is told, from the beginning. -/
def heard (m : Model) (es : List Entry) : List Call := .entered m :: es.flatMap calls

theorem result_drew {d : Draw} {s : Candidate × Except Fault Nat} (h : d.scored? = some s) :
    scored [.drew d] = [s] ∧ (draws [.drew d]).map Draw.scored? = (scored [.drew d]).map some := by
  have hone : scored [.drew d] = [s] := by
    rw [scored_drew, h]
    rfl
  refine ⟨hone, ?_⟩
  rw [hone]
  exact congrArg (fun r => [r]) h

theorem calls_sampled (es : List Entry) :
    (es.flatMap calls).filterMap Call.sampled? = (scored es).map fun s => s.2.toOption := by
  induction es with
  | nil => rfl
  | cons e es ih =>
    rw [List.flatMap_cons, List.filterMap_append, ih, ← List.singleton_append, scored_append,
      List.map_append]
    congr 1
    cases e with
    | drew d =>
      rw [scored_drew, calls]
      cases d.scored? <;> rfl
    | attempted a =>
      simp only [calls, Emission.sent]
      split <;> rfl
    | ended reason => rfl

theorem calls_reported (es : List Entry) :
    (es.flatMap calls).filterMap Call.reported? = accepted es := by
  induction es with
  | nil => rfl
  | cons e es ih =>
    rw [List.flatMap_cons, List.filterMap_append, ih, ← List.singleton_append, accepted_append]
    congr 1
    cases e with
    | drew d =>
      rw [calls]
      cases d.scored? <;> rfl
    | attempted a =>
      simp only [calls, Emission.sent, accepted, attempts_attempted, attempts_nil,
        List.flatMap_singleton]
      split <;> rfl
    | ended reason => rfl

theorem scored_length_le (es : List Entry) : (scored es).length ≤ (draws es).length :=
  List.length_filterMap_le _ _

theorem scored_length {es : List Entry}
    (h : (draws es).map Draw.scored? = (scored es).map some) :
    (scored es).length = (draws es).length := by
  simpa using (congrArg List.length h).symm

theorem heard_sampled (m : Model) (es : List Entry) :
    (heard m es).filterMap Call.sampled? = (scored es).map fun s => s.2.toOption :=
  calls_sampled es

theorem heard_reported (m : Model) (es : List Entry) :
    (heard m es).filterMap Call.reported? = accepted es :=
  calls_reported es

end Entry

/-- An event that does not end the search is of one of three kinds. -/
theorem Event.countP_kinds {events : List Event} (h : ∀ e ∈ events, e.isTerminal = false) :
    events.countP Event.isChoice + events.countP Event.isFailure + events.countP Event.isShared
      = events.length := by
  induction events with
  | nil => rfl
  | cons e events ih =>
    rw [List.forall_mem_cons] at h
    have hrest := ih h.2
    have hterminal := h.1
    cases e with
    | globalFailure | strategyFound => cases hterminal
    | choice | failure | shared =>
      simp [List.countP_cons, Event.isChoice, Event.isFailure, Event.isShared]
      omega

theorem Transfer.length_reads (ts : List Transfer) :
    (reads ts).length = (handed ts).length + (reads ts).countP Event.isTerminal := by
  rw [handed, ← List.countP_eq_length_filter, List.length_eq_countP_add_countP Event.isTerminal,
    Nat.add_comm]
  simp

namespace Tallied

variable {events : List Event} {es : List Entry} {s : Statistics}

theorem samples_eq (h : Tallied events es .zero s)
    (hresults : (draws es).map Draw.scored? = (scored es).map some)
    (hn : (draws es).length ≤ maxCount) : s.samples = (draws es).length := by
  have hall : ∀ d ∈ draws es, d.candidate.isOk = true := by
    intro d hd
    have hmem : d.scored? ∈ (scored es).map some := hresults ▸ List.mem_map_of_mem hd
    obtain ⟨result, -, hresult⟩ := List.mem_map.1 hmem
    unfold Draw.scored? at hresult
    split at hresult
    · rename_i c _ hc _
      rw [hc]
      rfl
    · cases hresult
  rw [h.samples, List.countP_eq_length.2 hall]
  exact iterate_countSucc_zero hn

theorem faults_eq (h : Tallied events es .zero s) (hn : (scored es).length ≤ maxCount) :
    s.faults = (scored es).countP fun x => !x.2.isOk := by
  rw [h.faults]
  exact iterate_countSucc_zero (List.countP_le_length.trans hn)

theorem emitted_eq (h : Tallied events es .zero s) (hn : (accepted es).length ≤ maxCount) :
    s.emitted = (accepted es).length := by
  rw [h.emitted]
  exact iterate_countSucc_zero hn

theorem events_eq (h : Tallied events es .zero s) (he : ∀ e ∈ events, e.isTerminal = false)
    (hn : events.length ≤ maxCount) : s.choices + s.failures + s.shared = events.length := by
  have hkinds := Event.countP_kinds he
  have hchoices : s.choices = events.countP Event.isChoice :=
    h.choices.trans (iterate_countSucc_zero (by omega))
  have hfailures : s.failures = events.countP Event.isFailure :=
    h.failures.trans (iterate_countSucc_zero (by omega))
  have hshared : s.shared = events.countP Event.isShared :=
    h.shared.trans (iterate_countSucc_zero (by omega))
  omega

end Tallied

/-- The candidates to report, in order, after candidates with the scores in `earlier`. -/
def ReportPolicy.promising (p : ReportPolicy) :
    List Nat → List (Candidate × Except Fault Nat) → List (Candidate × Nat)
  | _, [] => []
  | earlier, (_, .error _) :: rest => p.promising earlier rest
  | earlier, (c, .ok score) :: rest =>
    if score ≤ p.threshold ∨ (p.improvements = true ∧ ∀ t ∈ earlier, score < t) then
      (c, score) :: p.promising (earlier ++ [score]) rest
    else p.promising (earlier ++ [score]) rest

/-- The answer ends the run. -/
def Emission.isHalt : Emission → Bool
  | .flow f => f.isHalt
  | _ => false

namespace Entry

/-- What the last attempt was about, unless it was answered with going on. -/
def unsettled (es : List Entry) : List (Candidate × Nat) :=
  match (attempts es).getLast? with
  | some a => if a.answer = .flow .proceed then [] else [a.content]
  | none => []

/-- What the last attempt was about, if it was answered with a stop. -/
def cutOff (es : List Entry) : List (Candidate × Nat) :=
  match (attempts es).getLast? with
  | some a => if a.answer.isHalt then [a.content] else []
  | none => []

theorem unsettled_append_attempt (es : List Entry) (a : Attempt) (rest : List Entry)
    (h : attempts rest = []) : unsettled (es ++ .attempted a :: rest)
      = if a.answer = .flow .proceed then [] else [a.content] := by
  simp [unsettled, h]

theorem cutOff_append_attempt (es : List Entry) (a : Attempt) (rest : List Entry)
    (h : attempts rest = []) :
    cutOff (es ++ .attempted a :: rest) = if a.answer.isHalt then [a.content] else [] := by
  simp [cutOff, h]

theorem unsettled_append {es es' : List Entry} (h : attempts es' = []) :
    unsettled (es ++ es') = unsettled es := by
  simp [unsettled, h]

theorem cutOff_of_unsettled {es : List Entry} (h : unsettled es = []) : cutOff es = [] := by
  unfold unsettled at h
  unfold cutOff
  cases hl : (attempts es).getLast? with
  | none => rfl
  | some a =>
    rw [hl] at h
    have hp : a.answer = .flow .proceed := by
      by_contra hp
      simp [hp] at h
    simp [hp, Emission.isHalt, Flow.isHalt]

end Entry

namespace ReportPolicy

variable (p : ReportPolicy)

theorem promising_append : ∀ (xs ys : List (Candidate × Except Fault Nat)) (earlier : List Nat),
    p.promising earlier (xs ++ ys) = p.promising earlier xs
      ++ p.promising (earlier ++ xs.filterMap fun x => x.2.toOption) ys
  | [], ys, earlier => by simp [promising]
  | (c, .error fault) :: xs, ys, earlier => by
    have ih := promising_append xs ys earlier
    simpa [promising, Except.toOption] using ih
  | (c, .ok score) :: xs, ys, earlier => by
    have ih := promising_append xs ys (earlier ++ [score])
    simp only [List.cons_append, promising, ih]
    split <;> simp [Except.toOption]

theorem promising_scored_append (es es' : List Entry) : p.promising [] (scored (es ++ es'))
    = p.promising [] (scored es) ++ p.promising (scores es) (scored es') := by
  rw [scored_append, promising_append, List.nil_append, scores]

theorem promising_length_le : ∀ (xs : List (Candidate × Except Fault Nat)) (earlier : List Nat),
    (p.promising earlier xs).length ≤ xs.length
  | [], _ => Nat.le_refl _
  | (_, .error _) :: xs, earlier => Nat.le_succ_of_le (promising_length_le xs earlier)
  | (_, .ok score) :: xs, earlier => by
    have ih := promising_length_le xs (earlier ++ [score])
    simp only [promising]
    split <;> simp only [List.length_cons] <;> omega

end ReportPolicy

namespace Run

theorem improves_lower (best : Option Nat) (t score : Nat) :
    improves (lower best t) score = true ↔ improves best score = true ∧ score < t := by
  rcases best with _ | b
  · simp [improves, lower]
  · by_cases h : t < b
    · simp [improves, lower, h]
      omega
    · simp [improves, lower, h]
      omega

/-- The lowest score is beaten exactly if all are. -/
theorem improves_foldl_lower : ∀ (ss : List Nat) (best : Option Nat) (score : Nat),
    improves (ss.foldl lower best) score = true
      ↔ improves best score = true ∧ ∀ t ∈ ss, score < t
  | [], best, score => by simp
  | t :: ss, best, score => by
    rw [List.foldl_cons, improves_foldl_lower ss, improves_lower, List.forall_mem_cons, and_assoc]

variable {σ ρ ν μ : Type}

theorem ended_of_outcome {r : Run σ ρ ν μ} {o : Outcome} (h : r.outcome? = some o) :
    ∃ reason, r.stage = .ended reason ∧ o.statistics = r.sink.statistics :=
  ⟨o.reason, (of_outcome h).1, (of_outcome h).2.2⟩

/-- How far a run with the chronicle `es` has reported what there was to report. -/
structure Settled (p : ReportPolicy) (es : List Entry) (r : Run σ ρ ν μ) : Prop where
  policy : r.policy = p
  complete : p.promising [] (scored es) = accepted es ++ unsettled es
  looping : r.stage = .looping → unsettled es = []
  reporting : ∀ q, r.stage = .reporting q → unsettled es = [(r.candidate, q.score)]
  ended : ∀ reason, r.stage = .ended reason → unsettled es = cutOff es
  /-- Every candidate came to a result. -/
  results : (∀ crash, r.stage ≠ .crashed crash) → (draws es).map Draw.scored? = (scored es).map some

variable {p : ReportPolicy} {x y : World × Run σ ρ ν μ} {es es' : List Entry}

/-- No more is accepted than is promising, and no more is promising than has a score. -/
theorem Settled.accepted_length_le {r : Run σ ρ ν μ} (h : Settled p es r) :
    (accepted es).length ≤ (scored es).length := by
  have hpromising := p.promising_length_le (scored es) []
  rw [h.complete, List.length_append] at hpromising
  omega

theorem Begun.settled [SamplingMonitor μ] {w₀ : World} {m : Model} {monitor : μ}
    {x : World × Run σ ρ ν μ} (hb : Begun w₀ p m monitor x) : Settled p [] x.2 :=
  ⟨hb.policy, rfl, fun _ => rfl, by simp [hb.looping], fun _ _ => rfl, fun _ => rfl⟩

theorem Answered.settled [SamplingMonitor μ] {q : Report} {a : Emission × World × Sink}
    (h : Answered x q a) (hpolicy : x.2.policy = p)
    (hcomplete : p.promising [] (scored es) = accepted es ++ [(x.2.candidate, q.score)])
    (hresults : (draws es).map Draw.scored? = (scored es).map some) :
    Settled p (es ++ attemptEntries x q.score a.1) (afterEmission x.2 q.score a).2 := by
  obtain ⟨rest, heq, hrest, hundrawn⟩ := attemptEntries_eq x q.score a.1
  rw [heq]
  set es' : List Entry := .attempted ⟨x.1, x.2.candidate, q.score, a.1⟩ :: rest with hes'
  have hd : draws es' = [] := hundrawn
  have hnone : scored es' = [] := by
    rw [scored, hd]
    rfl
  have hresults' : (draws (es ++ es')).map Draw.scored? = (scored (es ++ es')).map some := by
    rw [draws_append, scored_append, hd, hnone, List.append_nil, List.append_nil, hresults]
  have haccepted : accepted es' = a.1.sent (x.2.candidate, q.score) := by
    rw [accepted, hes', attempts_attempted, hrest, List.flatMap_singleton]
    rfl
  have hunsettled := unsettled_append_attempt es ⟨x.1, x.2.candidate, q.score, a.1⟩ rest hrest
  have hcutOff := cutOff_append_attempt es ⟨x.1, x.2.candidate, q.score, a.1⟩ rest hrest
  have hall : p.promising [] (scored (es ++ es'))
      = accepted (es ++ es') ++ unsettled (es ++ es') := by
    rw [scored_append, hnone, List.append_nil, accepted_append, haccepted, hunsettled, hcomplete,
      List.append_assoc]
    congr 1
    by_cases hp : a.1 = .flow .proceed
    · rw [hp]
      rfl
    · rw [Emission.sent_eq_nil _ hp, if_neg hp]
      rfl
  obtain ⟨(_ | reason) | v | q', w, sink⟩ := a
  · refine ⟨hpolicy, hall, fun _ => hunsettled, fun _ hq => ?_, fun _ he => ?_, fun _ => hresults'⟩
    · cases hq
    · cases he
  · refine ⟨hpolicy, hall, fun hl => ?_, fun _ hq => ?_, fun _ _ => hunsettled.trans hcutOff.symm,
      fun _ => hresults'⟩
    · cases hl
    · cases hq
  · exact h.fits.elim
  · refine ⟨hpolicy, hall, fun hl => ?_, fun q'' hq => ?_, fun _ he => ?_, fun _ => hresults'⟩
    · cases hl
    · obtain rfl : q' = q := h.fits.1
      cases hq
      exact hunsettled
    · cases he

/-- What the run takes for an improvement is one. -/
theorem reportable_iff {r : Run σ ρ ν μ} (hpolicy : r.policy = p)
    (hbest : r.sink.statistics.best = (scores es).foldl lower none) (score : Nat) :
    reportable r score = true
      ↔ score ≤ p.threshold ∨ (p.improvements = true ∧ ∀ t ∈ scores es, score < t) := by
  have himproves : improves r.sink.statistics.best score = true ↔ ∀ t ∈ scores es, score < t := by
    rw [hbest, improves_foldl_lower]
    exact and_iff_right rfl
  simp only [reportable, ReportPolicy.isReportable, hpolicy, Bool.or_eq_true, decide_eq_true_eq,
    Bool.and_eq_true, himproves]

theorem promising_score {r : Run σ ρ ν μ} (hx : Settled p es r)
    (hbest : r.sink.statistics.best = (scores es).foldl lower none) (c : Candidate) (score : Nat) :
    p.promising (scores es) [(c, .ok score)]
      = if reportable r score then [(c, score)] else [] := by
  simp only [ReportPolicy.promising, reportable_iff hx.policy hbest]

/-- Entries with nothing to report. -/
theorem Settled.extend {r r' : Run σ ρ ν μ} (hx : Settled p es r) (hl : r.stage = .looping)
    (hpolicy : r'.policy = r.policy) (hattempts : attempts es' = [])
    (hnothing : p.promising (scores es) (scored es') = [])
    (hreporting : ∀ q, r'.stage ≠ .reporting q)
    (hresults : (∀ crash, r'.stage ≠ .crashed crash) →
      (draws es').map Draw.scored? = (scored es').map some) : Settled p (es ++ es') r' := by
  have hunsettled := hx.looping hl
  have hun : unsettled (es ++ es') = [] := (unsettled_append hattempts).trans hunsettled
  have haccepted : accepted es' = [] := by
    rw [accepted, hattempts]
    rfl
  refine ⟨hpolicy.trans hx.policy, ?_, fun _ => hun, fun q hq => (hreporting q hq).elim,
    fun _ _ => by rw [hun, cutOff_of_unsettled hun], fun hc => ?_⟩
  · rw [p.promising_scored_append, hnothing, hx.complete, accepted_append, haccepted, hun,
      hunsettled, List.append_nil]
  · rw [draws_append, scored_append, List.map_append, List.map_append,
      hx.results (by simp [hl]), hresults hc]

variable [Sampler σ ρ] [Scorer ν] [SamplingMonitor μ]

theorem DrawCourse.settled (h : DrawCourse x es' y) (hl : x.2.stage = .looping)
    (hs : x.1.channel.stopped = none) (hx : Settled p es x.2)
    (hbest : x.2.sink.statistics.best = (scores es).foldl lower none) :
    Settled p (es ++ es') y.2 := by
  cases h with
  | @undrawn crash hd =>
    refine hx.extend hl rfl rfl ?_ nofun fun hc => (hc crash rfl).elim
    rw [scored_drew, (drawing_undrawn hd).2]
    rfl
  | @unscored c crash hd hsc =>
    refine hx.extend hl rfl rfl ?_ nofun fun hc => (hc crash rfl).elim
    rw [scored_drew, (drawing_unscored hd hsc).2]
    rfl
  | @discarded c fault hd hsc =>
    obtain ⟨hscored, hresult⟩ := result_drew (drawing_scored hd hsc).2
    have hstage : (afterScore (withDrawn x c).1 (withDrawn x c).2 (.error fault)).2.stage
        = .looping := hl
    refine hx.extend hl rfl rfl ?_ (by simp [hstage]) fun _ => hresult
    rw [hscored]
    rfl
  | @passed c score hd hsc hr =>
    obtain ⟨hscored, hresult⟩ := result_drew (drawing_scored hd hsc).2
    have hrun := judged_run (withDrawn x c) score
    have hstage : (judged (withDrawn x c) score).2.stage = .looping := by
      rw [hrun]
      exact hl
    refine hx.extend hl (by rw [hrun]; rfl) rfl ?_ (by simp [hstage]) fun _ => hresult
    rw [hscored, promising_score hx hbest, hr]
    rfl
  | @reported c score z hd hsc hr hz =>
    obtain ⟨hscored, hresult⟩ := result_drew (drawing_scored hd hsc).2
    have hrun := judged_run (withDrawn x c) score
    rw [hz] at hrun
    have hlisten : z.1.channel.stopped = none := by
      rw [← hz]
      exact (quiet_judged x c score).disturbed.stopped.trans hs
    have hcomplete : p.promising [] (scored (es ++ [.drew (drawing x)]))
        = accepted (es ++ [.drew (drawing x)]) ++ [(z.2.candidate, score)] := by
      rw [p.promising_scored_append, hscored, promising_score hx hbest, hr, hx.complete,
        hx.looping hl, List.append_nil, hrun, accepted_append]
      simp [accepted, withDrawn]
    have hresults : (draws (es ++ [.drew (drawing x)])).map Draw.scored?
        = (scored (es ++ [.drew (drawing x)])).map some := by
      rw [draws_append, scored_append, List.map_append, List.map_append, hresult,
        hx.results (by simp [hl])]
    have hpolicy : z.2.policy = p := by
      rw [hrun]
      exact hx.policy
    obtain ⟨q, rfl, hq⟩ := emission_answered hlisten score
    rw [List.append_cons]
    exact hq.settled hpolicy hcomplete hresults

theorem Course.settled (h : Course x es' y) (hready : Ready x) (hx : Settled p es x.2)
    (hbest : x.2.sink.statistics.best = (scores es).foldl lower none) :
    Settled p (es ++ es') y.2 := by
  cases h with
  | idle => rwa [List.append_nil]
  | stopped hl => exact hx.extend hl rfl rfl rfl nofun fun _ => rfl
  | aborted hl => exact hx.extend hl rfl rfl rfl nofun fun _ => rfl
  | @drew z _ _ ho hd =>
    obtain ⟨ts, hpoll⟩ := poll_advances ho.polled
    rw [← ho.rest] at hpoll
    have hz : Settled p es z.2 := by
      rw [ho.rest]
      exact ⟨hx.policy, hx.complete, hx.looping, hx.reporting, hx.ended, hx.results⟩
    exact hd.settled ho.looping_after ho.listens hz (hpoll.tallied.best.trans hbest)
  | @resumed q hq =>
    have hcomplete := hx.complete
    rw [hx.reporting q hq] at hcomplete
    exact (hready.answered hq).settled hx.policy hcomplete (hx.results (by simp [hq]))

omit [Scorer ν] in
theorem Begun.since_eq {w₀ : World} {m : Model} {monitor : μ} {ts : List Transfer}
    (hb : Begun w₀ p m monitor x) (hbooks : Advances x ts es y) : w₀.since y.1 = ts := by
  rw [World.since, hbooks.intake.history, hb.history]
  exact List.drop_left' rfl

theorem play_settled : ∀ (vs : List Move) {x : World × Run σ ρ ν μ} {es : List Entry}, Ready x →
    Settled p es x.2 → x.2.sink.statistics.best = (scores es).foldl lower none →
    Settled p (es ++ chronicle x vs) (play x vs).2
  | [], _, _, _, hx, _ => by rwa [chronicle, List.append_nil]
  | v :: vs, x, es, hready, hx, hbest => by
    have hnext : Settled p (es ++ moveEntries x v) (next x v).2 := by
      cases v with
      | act | plan => rwa [moveEntries, List.append_nil]
      | step => exact (step_course x).settled hready hx hbest
    obtain ⟨ts, hbooks⟩ := next_advances hready v
    rw [chronicle, ← List.append_assoc]
    refine play_settled vs (next_ready hready v).1 hnext ?_
    rw [hbooks.tallied.best, hbest, scores_append, List.foldl_append]

/-- From its beginning on, a run is settled, and its statistics are counted from zero. -/
theorem Begun.settles {w₀ : World} {m : Model} {monitor : μ} {x : World × Run σ ρ ν μ}
    (hb : Begun w₀ p m monitor x) (vs : List Move) :
    Settled p (chronicle x vs) (play x vs).2
      ∧ ∃ ts, Advances x ts (chronicle x vs) (play x vs)
        ∧ Tallied (handed ts) (chronicle x vs) .zero (play x vs).2.sink.statistics := by
  have hready := Ready.of_looping hb.looping
  obtain ⟨ts, hbooks⟩ := play_advances vs hready
  have htallied := hbooks.tallied
  rw [hb.sink] at htallied
  exact ⟨play_settled vs hready hb.settled (by rw [hb.sink]; rfl), ts, hbooks, htallied⟩

/-- The books of a run that has ended with the outcome `o` in `x`, after `es`. -/
structure Accounted (w₀ : World) (p : ReportPolicy) (m : Model) (monitor : μ) (es : List Entry)
    (x : World × Run σ ρ ν μ) (o : Outcome) : Prop where
  /-- Every candidate that was drawn came to a result. -/
  results : (draws es).map Draw.scored? = (scored es).map some
  samples : o.statistics.samples = (draws es).length
  faults : o.statistics.faults = (scored es).countP fun s => !s.2.isOk
  told : Hears monitor (heard m es) x.2.monitor
  sampled : (heard m es).filterMap Call.sampled? = (scored es).map fun s => s.2.toOption
  reported : (heard m es).filterMap Call.reported? = accepted es
  /-- What is promising was reported, but for a last one whose attempt ended the run. -/
  complete : p.promising [] (scored es) = accepted es ++ cutOff es
  enqueued : (sends (w₀.since x.1)).map Report.content
    = (accepted es).map fun a => (Scenario.mk (a.1.values.map some), a.2)
  emitted : x.1.channel.emitted = w₀.channel.emitted + o.statistics.emitted
  observed : x.1.channel.observed = w₀.channel.observed + (o.statistics.choices
    + o.statistics.failures + o.statistics.shared
    + if (reads (w₀.since x.1)).any Event.isTerminal then 1 else 0)

/-- In every run that has ended, with fewer than `2 ^ 64` draws and events, the statistics, what the
monitor was told, the counters of the bridge and what was sent agree. -/
theorem accounts_agree {w₀ w : World} {policy : ReportPolicy} {m : Model} {sampler : σ}
    {source : ρ} {scorer : ν} {monitor : μ} {r : Run σ ρ ν μ}
    (h : begin w₀ policy m sampler source scorer monitor = .ok (w, r)) (vs : List Move)
    {o : Outcome} (ho : (play (w, r) vs).2.outcome? = some o)
    (hdraws : (draws (chronicle (w, r) vs)).length ≤ maxCount)
    (hevents : w₀.channel.observed + (reads (w₀.since (play (w, r) vs).1)).length ≤ maxCount) :
    Accounted w₀ policy m monitor (chronicle (w, r) vs) (play (w, r) vs) o := by
  have hb := begun h
  have hready := Ready.of_looping hb.looping
  have hsettled := play_settled vs hready hb.settled (by rw [hb.sink]; rfl)
  rw [List.nil_append] at hsettled
  obtain ⟨ts, hbooks⟩ := play_advances vs hready
  have hsince := hb.since_eq hbooks
  obtain ⟨reason, hend, hstat⟩ := ended_of_outcome ho
  have htallied := hbooks.tallied
  rw [← hstat, hb.sink] at htallied
  have hresults := hsettled.results (by simp [hend])
  have hscored := (scored_length_le (chronicle (w, r) vs)).trans hdraws
  have haccepted := hsettled.accepted_length_le.trans hscored
  have hemitted := htallied.emitted_eq haccepted
  rw [hsince] at hevents
  have hkinds := htallied.events_eq (by simp [handed]) (by rw [length_reads] at hevents; omega)
  refine ⟨hresults, htallied.samples_eq hresults hdraws, htallied.faults_eq hscored, ?_,
    heard_sampled m _, heard_reported m _, ?_, ?_, ?_, ?_⟩
  · have hheard := hbooks.heard
    rw [hb.entered] at hheard
    exact (Hears.one monitor _ _).trans hheard
  · rw [hsettled.complete, hsettled.ended reason hend]
  · rw [hsince]
    exact hbooks.sent
  · have hcount := congrArg List.length hbooks.sent
    rw [List.length_map, List.length_map] at hcount
    rw [hbooks.posted.emitted, hcount, hemitted, hb.channel]
  · rw [hbooks.intake.observed, hb.channel, iterate_countSucc _ hevents, hsince, length_reads,
      hkinds, hbooks.intake.countP_terminal]

/-- Of the candidates `(0, 3)`, `(3, 0)` and `(1, 2)` for `2 * x == y`, the first one is reported.
The last one has to wait, and is cut off by the end of the search. -/
theorem accounts_agree_cut_off :
    let domain : Domain := ⟨0, 3, by decide, by decide, by decide⟩
    let m : Model :=
      ⟨.closed,
        [⟨"x", ⟨0⟩, .decision .existential, .int, domain⟩,
          ⟨"y", ⟨1⟩, .decision .existential, .int, domain⟩],
        [.linear ⟨[⟨2, ⟨0⟩⟩], .eq, ⟨1⟩⟩], [("y", ⟨1⟩), ("x", ⟨0⟩)], 0⟩
    let source : WordCycle := ⟨#[0, 13835058055282163712, 13835058055282163712, 0,
      4611686018427387904, 9223372036854775808], 0⟩
    let vs : List Move := [.step, .step, .step, .act (.notify (.choice ⟨0⟩ 1 7)),
      .act (.notify .globalFailure), .step]
    ∃ w r o, begin (.ofCapacity 1) ⟨0, true⟩ m UniformSampler.mk source ConstraintScorer.mk
        (Monitor.recorder "all") = .ok (w, r)
      ∧ (play (w, r) vs).2.outcome? = some o
      ∧ accepted (chronicle (w, r) vs) = [(⟨[0, 3]⟩, 3)]
      ∧ cutOff (chronicle (w, r) vs) = [(⟨[1, 2]⟩, 0)]
      ∧ sends ((World.ofCapacity 1).since (play (w, r) vs).1) = [⟨⟨[some 0, some 3]⟩, 3, 0, 0⟩]
      ∧ Accounted (.ofCapacity 1) ⟨0, true⟩ m (Monitor.recorder "all") (chronicle (w, r) vs)
        (play (w, r) vs) o := by
  intro domain m source vs
  have h : begin (.ofCapacity 1) ⟨0, true⟩ m UniformSampler.mk source ConstraintScorer.mk
    (Monitor.recorder "all") = .ok (_, _) := rfl
  refine ⟨_, _, _, h, (Option.some_get (by decide +kernel)).symm, by decide +kernel,
    by decide +kernel, by decide +kernel, ?_⟩
  exact accounts_agree h vs (Option.some_get _).symm (by decide +kernel) (by decide +kernel)

end Run

end ScenarioSampling
