import ScenarioSampling.Proofs.ProgressCounts

/-!
# How often the clock is read

A mask of `2 ^ k - 1` lets one sample count in `2 ^ k` through, and since `2 ^ k` divides the range
of a word, that goes on as before when the count starts over (`clockChecks_eq`). Where the clock is
always past the limit, what a time limit and a progress log do is a matter of the counts alone: the
one ends the run, and the other tells a line, at every clock check (`clock_checks_are_regular`).
-/

namespace ScenarioSampling

variable {k : Nat}

/-- How many of the next `n` samples are clock checks. -/
def clockChecks (mask samples n : Nat) : Nat :=
  (List.range n).countP fun i => isClockCheck (countSuccWrapping^[i + 1] samples) mask

theorem isClockCheck_iff (hk : k ≤ 64) (n : Nat) :
    isClockCheck (n % wordRange) (2 ^ k - 1) = true ↔ 2 ^ k ∣ n := by
  have hword : 2 ^ k ∣ wordRange := Nat.pow_dvd_pow 2 hk
  rw [isClockCheck, beq_iff_eq, Nat.and_two_pow_sub_one_eq_mod, ← Nat.dvd_iff_mod_eq_zero,
    Nat.dvd_mod_iff hword]

theorem clockChecks_succ (mask samples n : Nat) : clockChecks mask samples (n + 1)
    = (if isClockCheck (countSuccWrapping samples) mask then 1 else 0)
      + clockChecks mask (countSuccWrapping samples) n := by
  rw [clockChecks, List.range_succ_eq_map, List.countP_cons, List.countP_map, Nat.add_comm]
  rfl

/-- Clock checks are the multiples of `2 ^ k`, counted on from `samples` without starting over. -/
theorem clockChecks_eq (hk : k ≤ 64) (samples : Nat) : ∀ n : Nat,
    samples / 2 ^ k + clockChecks (2 ^ k - 1) samples n = (samples + n) / 2 ^ k
  | 0 => rfl
  | n + 1 => by
    have ih := clockChecks_eq hk samples n
    have hlast : clockChecks (2 ^ k - 1) samples (n + 1) = clockChecks (2 ^ k - 1) samples n
        + if 2 ^ k ∣ samples + n + 1 then 1 else 0 := by
      simp only [clockChecks, List.range_succ, List.countP_append, List.countP_singleton,
        iterate_countSuccWrapping, isClockCheck_iff hk]
    rw [hlast, ← Nat.add_assoc, ih, ← Nat.add_assoc, Nat.succ_div]

theorem clockChecks_period (hk : k ≤ 64) (samples : Nat) :
    clockChecks (2 ^ k - 1) samples (2 ^ k) = 1 := by
  have h := clockChecks_eq hk samples (2 ^ k)
  rw [Nat.add_div_right samples (Nat.two_pow_pos k)] at h
  omega

theorem clockChecks_zero (hk : k ≤ 64) (n : Nat) : clockChecks (2 ^ k - 1) 0 n = n / 2 ^ k := by
  simpa using clockChecks_eq hk 0 n

/-- A sample, and where a monitor hears of it and is asked for a command after it. -/
structure PolledSample where
  score : Option Nat
  heardAt : Surroundings
  polledAt : Surroundings

namespace TimeLimit

/-- The answers of a monitor that is asked after every sample. -/
def polls (m : TimeLimit) : List PolledSample → List Command
  | [] => []
  | p :: ps =>
    let m := m.hear p.heardAt (.sampled p.score)
    m.command p.polledAt :: m.polls ps

theorem command_of_elapsed {m : TimeLimit} {s : Surroundings}
    (h : m.limit.nanos ≤ s.now - m.start) :
    (m.command s).isTerminate = isClockCheck m.samples m.mask := by
  rw [command, decide_eq_true h, Bool.and_true]
  split_ifs with hcheck
  · exact hcheck.symm
  · exact (Bool.eq_false_iff.2 hcheck).symm

/-- Once the time is over, every clock check ends the run, and nothing else does. -/
theorem polls_of_elapsed : ∀ (ps : List PolledSample) (m : TimeLimit),
    (∀ p ∈ ps, m.limit.nanos ≤ p.polledAt.now - m.start) →
      (m.polls ps).countP Command.isTerminate = clockChecks m.mask m.samples ps.length
  | [], _, _ => rfl
  | p :: ps, m, h => by
    obtain ⟨hp, hps⟩ := List.forall_mem_cons.1 h
    have ih := polls_of_elapsed ps (m.hear p.heardAt (.sampled p.score)) hps
    have hcommand := command_of_elapsed (m := m.hear p.heardAt (.sampled p.score)) hp
    rw [polls, List.countP_cons, ih, hcommand, List.length_cons, clockChecks_succ, Nat.add_comm]
    rfl

end TimeLimit

/-- The notice is a line about how far a run is. -/
def Notice.isProgress : Notice → Bool
  | progress .. => true
  | _ => false

/-- The call comes after the beginning of a run and before its end. -/
def Call.isMidway : Call → Bool
  | sampled _ | reported .. => true
  | entered _ | left => false

namespace ProgressLog

/-- What becomes of a log with these calls, and what it tells. -/
def hearAll (m : ProgressLog) : List (Surroundings × Call) → ProgressLog × List Notice
  | [] => (m, [])
  | (s, c) :: hs =>
    let (m, first) := m.hear s c
    let (m, rest) := m.hearAll hs
    (m, first ++ rest)

theorem hearAll_append (hs' : List (Surroundings × Call)) :
    ∀ (hs : List (Surroundings × Call)) (m : ProgressLog), m.hearAll (hs ++ hs')
      = (((m.hearAll hs).1.hearAll hs').1, (m.hearAll hs).2 ++ ((m.hearAll hs).1.hearAll hs').2)
  | [], _ => rfl
  | (s, c) :: hs, m => by
    simp only [List.cons_append, hearAll, hearAll_append hs' hs, List.append_assoc]

/-- Without an interval to wait for, a log tells a line at every clock check. -/
theorem lines_sampled {m : ProgressLog} (h : m.interval = .zero) (s : Surroundings)
    (score : Option Nat) : (m.hear s (.sampled score)).2.countP Notice.isProgress
      = if isClockCheck (countSuccWrapping m.samples) m.mask then 1 else 0 := by
  have hcount := m.count_eq score
  have hinterval : (m.count score).interval.nanos ≤ s.now - (m.count score).lastLine := by
    rw [hcount, h]
    exact Nat.zero_le _
  simp only [hear, decide_eq_true hinterval, Bool.and_true]
  rw [hcount]
  split_ifs <;> rfl

/-- In the middle of the calls: a report is counted in the lines, but none is told for it. -/
theorem lines_midway : ∀ (hs : List (Surroundings × Call)) (m : ProgressLog),
    m.interval = .zero → (∀ h ∈ hs, h.2.isMidway = true) →
      (m.hearAll hs).2.countP Notice.isProgress
        = clockChecks m.mask m.samples (sampledIn (hs.map Prod.snd)).length
  | [], _, _, _ => rfl
  | (s, c) :: hs, m, hzero, hmidway => by
    obtain ⟨hc, hs'⟩ := List.forall_mem_cons.1 hmidway
    cases c with
    | entered model => cases hc
    | left => cases hc
    | reported candidate score =>
      exact lines_midway hs { m with scenarios := countSucc m.scenarios } hzero hs'
    | sampled score =>
      obtain ⟨lastLine, hlog⟩ := m.hear_sampled s score
      have hinterval : (m.hear s (.sampled score)).1.interval = .zero := by
        rw [hlog, count_eq]
        exact hzero
      have ih := lines_midway hs (m.hear s (.sampled score)).1 hinterval hs'
      have hlength : (sampledIn (((s, Call.sampled score) :: hs).map Prod.snd)).length
          = (sampledIn (hs.map Prod.snd)).length + 1 := rfl
      rw [hlength, clockChecks_succ, ← lines_sampled hzero s score]
      simp only [hearAll, List.countP_append, ih]
      rw [hlog, count_eq]

end ProgressLog

/-- Of any `2 ^ k` samples in a row, with whatever count they begin and also where it starts over,
one is a clock check. So a time limit of no time that is asked after every sample ends the run with
one of any `2 ^ k` answers in a row, and at once when a run has begun. A progress log that waits for
no time has told, after some samples of a run and whatever came of them, a line for every `2 ^ k` of
them, and tells one more at the end. -/
theorem clock_checks_are_regular (hk : k ≤ 64) :
    (∀ samples, ((List.range (2 ^ k)).countP fun i =>
        isClockCheck (countSuccWrapping^[i + 1] samples) (2 ^ k - 1)) = 1)
      ∧ (∀ m : TimeLimit, m.limit = .zero → m.mask = 2 ^ k - 1 →
        (∀ ps, ps.length = 2 ^ k → (m.polls ps).countP Command.isTerminate = 1)
          ∧ ∀ s model s', ((m.hear s (.entered model)).command s').isTerminate = true)
      ∧ ∀ m : ProgressLog, m.interval = .zero → m.mask = 2 ^ k - 1 → ∀ s model hs s',
        (∀ h ∈ hs, h.2.isMidway = true) →
          let n := (sampledIn (hs.map Prod.snd)).length
          (m.hearAll ((s, .entered model) :: hs)).2.countP Notice.isProgress = n / 2 ^ k
            ∧ (m.hearAll ((s, .entered model) :: hs ++ [(s', .left)])).2.countP Notice.isProgress
              = n / 2 ^ k + 1 := by
  refine ⟨clockChecks_period hk, fun m hzero hmask => ⟨fun ps hps => ?_, fun s model s' => ?_⟩,
    fun m hzero hmask s model hs s' hmidway => ?_⟩
  · have helapsed : ∀ p ∈ ps, m.limit.nanos ≤ p.polledAt.now - m.start := by
      intro p _
      rw [hzero]
      exact Nat.zero_le _
    rw [TimeLimit.polls_of_elapsed ps m helapsed, hmask, hps, clockChecks_period hk]
  · have helapsed : m.limit.nanos ≤ s'.now - s.now := by
      rw [hzero]
      exact Nat.zero_le _
    rw [TimeLimit.command_of_elapsed (m := m.hear s (.entered model)) helapsed]
    exact beq_iff_eq.2 (Nat.zero_and m.mask)
  · have hrun : (m.hearAll ((s, .entered model) :: hs)).2.countP Notice.isProgress
        = (sampledIn (hs.map Prod.snd)).length / 2 ^ k := by
      rw [← clockChecks_zero hk, ← hmask]
      exact ProgressLog.lines_midway hs (.ofInterval m.interval m.mask s.now) hzero hmidway
    refine ⟨hrun, ?_⟩
    rw [ProgressLog.hearAll_append, List.countP_append, hrun]
    rfl

/-- The count starts over at the first of two samples. Of five, one discarded and one reported, the
second and the fourth are clock checks. -/
theorem clock_checks_are_regular_for_every_second_sample :
    let now : Surroundings := ⟨0, false⟩
    let limit : TimeLimit := ⟨.zero, 1, maxCount, 0⟩
    let log : ProgressLog := .ofInterval .zero 1 0
    let hs : List (Surroundings × Call) := [(now, .sampled (some 3)), (now, .sampled none),
      (now, .sampled (some 0)), (now, .reported ⟨[]⟩ 0), (now, .sampled (some 1)),
      (now, .sampled none)]
    (limit.polls [⟨some 1, now, now⟩, ⟨none, now, now⟩]).countP Command.isTerminate = 1
      ∧ (log.hearAll ((now, .entered .empty) :: hs)).2.countP Notice.isProgress = 2 := by
  intro now limit log hs
  obtain ⟨-, hlimit, hlog⟩ := clock_checks_are_regular (k := 1) (by decide)
  have hlines := (hlog log rfl rfl now .empty hs now (by decide)).1
  exact ⟨(hlimit limit rfl rfl).1 _ rfl, hlines.trans (by decide)⟩

end ScenarioSampling
