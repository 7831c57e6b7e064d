import ScenarioSampling.Proofs.Chronicle

/-!
# Rounds

A run comes to the top of its loop, and from there to one draw or to its end: it begins at most one
round more than it draws (`rounds_le`). Unless a report has to wait, every turn is a round, so a run
that takes a turn more than it draws is over (`play_rounds`). What a run is when it is over, it is
after one of its turns (`exists_last_turn`).
-/

namespace ScenarioSampling

namespace Run

open Entry

variable {σ ρ ν μ : Type}

theorem attempts_attemptEntries (x : World × Run σ ρ ν μ) (score : Nat) (answer : Emission) :
    attempts (attemptEntries x score answer) = [⟨x.1, x.2.candidate, score, answer⟩] := by
  obtain ⟨rest, heq, hrest, -⟩ := attemptEntries_eq x score answer
  rw [heq, attempts_attempted, hrest]

theorem draws_attemptEntries (x : World × Run σ ρ ν μ) (score : Nat) (answer : Emission) :
    draws (attemptEntries x score answer) = [] := by
  obtain ⟨rest, heq, -, hrest⟩ := attemptEntries_eq x score answer
  rw [heq]
  exact hrest

/-- No attempt to report is left waiting. -/
def Unwaiting (es : List Entry) : Prop := ∀ a ∈ attempts es, ∀ q, a.answer ≠ .waiting q

theorem Unwaiting.of_nil {es : List Entry} (h : attempts es = []) : Unwaiting es := by
  unfold Unwaiting
  rw [h]
  exact List.forall_mem_nil _

theorem Unwaiting.drew {es : List Entry} (h : Unwaiting es) (d : Draw) :
    Unwaiting (.drew d :: es) := by
  unfold Unwaiting
  rwa [attempts_drew]

theorem Unwaiting.append {es es' : List Entry} (h : Unwaiting es) (h' : Unwaiting es') :
    Unwaiting (es ++ es') := by
  unfold Unwaiting
  rw [attempts_append]
  exact List.forall_mem_append.2 ⟨h, h'⟩

theorem unwaiting_attemptEntries {x : World × Run σ ρ ν μ} {score : Nat} {answer : Emission}
    (h : ∀ q, answer ≠ .waiting q) : Unwaiting (attemptEntries x score answer) := by
  unfold Unwaiting
  rw [attempts_attemptEntries, List.forall_mem_singleton]
  exact h

theorem Unwaiting.left {es es' : List Entry} (h : Unwaiting (es ++ es')) : Unwaiting es :=
  fun a ha => h a (by rw [attempts_append]; exact List.mem_append_left _ ha)

theorem Unwaiting.right {es es' : List Entry} (h : Unwaiting (es ++ es')) : Unwaiting es' :=
  fun a ha => h a (by rw [attempts_append]; exact List.mem_append_right _ ha)

variable [Sampler σ ρ] [Scorer ν] [SamplingMonitor μ]

section Course

variable {x y : World × Run σ ρ ν μ} {es : List Entry}

theorem DrawCourse.draws_eq (h : DrawCourse x es y) : draws es = [drawing x] := by
  cases h with
  | undrawn | unscored | discarded | passed => rfl
  | @reported c score z =>
    exact congrArg (drawing x :: ·) (draws_attemptEntries z score (emission z score).1)

theorem Course.draws_cases (h : Course x es y) :
    draws es = [] ∨ (draws es).length = 1 ∧ ∃ z, Opens x z := by
  cases h with
  | idle | stopped | aborted => exact .inl rfl
  | drew ho hd => exact .inr ⟨by rw [hd.draws_eq]; rfl, _, ho⟩
  | resumed => exact .inl (draws_attemptEntries _ _ _)

/-- From the top of its loop a run comes to a draw, or to its end. -/
theorem Course.draws_one (h : Course x es y) (hl : x.2.stage = .looping) :
    y.2.isOver = true ∨ (draws es).length = 1 := by
  cases h with
  | idle hover => exact .inl hover
  | stopped | aborted => exact .inl rfl
  | drew _ hd => exact .inr (by rw [hd.draws_eq]; rfl)
  | resumed hq => cases hl.symm.trans hq

theorem DrawCourse.goes_on_or_over (h : DrawCourse x es y) (hl : x.2.stage = .looping)
    (hes : Unwaiting es) : y.2.stage = .looping ∨ y.2.isOver = true := by
  cases h with
  | undrawn | unscored => exact .inr rfl
  | discarded => exact .inl hl
  | passed =>
    rw [judged_run]
    exact .inl hl
  | @reported c score z =>
    have hanswer : ∀ q, (emission z score).1 ≠ .waiting q := by
      refine hes ⟨z.1, z.2.candidate, score, (emission z score).1⟩ ?_
      rw [attempts_drew, attempts_attemptEntries]
      exact List.mem_singleton_self _
    rcases ha : emission z score with ⟨(_ | reason) | v | q, w, sink⟩ <;> rw [ha] at hanswer
    · exact .inl rfl
    · exact .inr rfl
    · exact .inr rfl
    · exact (hanswer q rfl).elim

/-- A turn that leaves no report waiting is a whole round. -/
theorem Course.goes_on_or_over (h : Course x es y) (hl : x.2.stage = .looping)
    (hes : Unwaiting es) :
    y.2.isOver = true ∨ y.2.stage = .looping ∧ (draws es).length = 1 := by
  cases h with
  | idle hover => exact .inl hover
  | stopped | aborted => exact .inl rfl
  | drew ho hd =>
    refine (hd.goes_on_or_over ho.looping_after hes).symm.imp_right fun hy => ⟨hy, ?_⟩
    rw [hd.draws_eq]
    rfl
  | resumed hq => cases hl.symm.trans hq

end Course

/-- The move is a turn of the run. -/
def Move.isStep : Move → Bool
  | .act _ | .plan _ => false
  | .step => true

/-- How often a run comes to the top of its loop and goes on from there, while these moves
happen. -/
def rounds (x : World × Run σ ρ ν μ) : List Move → Nat
  | [] => 0
  | v :: vs => (if v.isStep = true ∧ x.2.stage = .looping then 1 else 0) + rounds (next x v) vs

theorem rounds_of_over : ∀ (vs : List Move) {x : World × Run σ ρ ν μ}, x.2.isOver = true →
    rounds x vs = 0
  | [], _, _ => rfl
  | v :: vs, x, h => by
    have hl : x.2.stage ≠ .looping := by
      intro hl
      simp [isOver, hl] at h
    have hnext : (next x v).2.isOver = true := by
      cases v with
      | act | plan => exact h
      | step =>
        rw [next, (entries_of_over h).2]
        exact h
    rw [rounds, if_neg fun hs => hl hs.2, rounds_of_over vs hnext]

theorem rounds_le : ∀ (vs : List Move) (x : World × Run σ ρ ν μ),
    rounds x vs ≤ (draws (chronicle x vs)).length + 1
  | [], _ => Nat.zero_le _
  | v :: vs, x => by
    have hrest := rounds_le vs (next x v)
    rw [rounds, chronicle, draws_append, List.length_append]
    split_ifs with hround
    · obtain ⟨hv, hl⟩ := hround
      cases v with
      | act | plan => cases hv
      | step =>
        rcases (step_course x).draws_one hl with hover | hone
        · have hnone : rounds (next x .step) vs = 0 := rounds_of_over vs hover
          omega
        · have hone' : (draws (moveEntries x .step)).length = 1 := hone
          omega
    · omega

/-- While no report waits, a run that is not over has drawn once in each turn. -/
theorem play_rounds : ∀ (vs : List Move) {x : World × Run σ ρ ν μ}, x.2.stage = .looping →
    Unwaiting (chronicle x vs) → (play x vs).2.isOver = true
      ∨ (play x vs).2.stage = .looping ∧ (draws (chronicle x vs)).length = vs.countP Move.isStep
  | [], _, hl, _ => .inr ⟨hl, rfl⟩
  | .act a :: vs, x, hl, hes => play_rounds vs (x := (x.1.act a, x.2)) hl hes
  | .plan script :: vs, x, hl, hes =>
    play_rounds vs (x := ({ x.1 with script := script }, x.2)) hl hes
  | .step :: vs, x, hl, hes => by
    rw [chronicle_step] at hes ⊢
    rw [play_step]
    rcases (step_course x).goes_on_or_over hl hes.left with hover | ⟨hl', hone⟩
    · left
      rwa [(play_over vs hover).2]
    · refine (play_rounds vs hl' hes.right).imp_right fun ⟨hlast, hcount⟩ => ⟨hlast, ?_⟩
      rw [draws_append, List.length_append, hone, hcount, List.countP_cons_of_pos (by rfl),
        Nat.add_comm]

/-- A run that has come to be over was so after one of its turns, and did not change any more. -/
theorem exists_last_turn : ∀ (vs : List Move) {x : World × Run σ ρ ν μ}, x.2.isOver = false →
    (play x vs).2.isOver = true → ∃ pre post, vs = pre ++ .step :: post
      ∧ (play x pre).2.isOver = false
      ∧ (play x vs).2 = (step (play x pre).1 (play x pre).2).2
  | [], _, hx, hend => (Bool.false_ne_true (hx.symm.trans hend)).elim
  | v :: vs, x, hx, hend => by
    by_cases hover : (next x v).2.isOver = true
    · cases v with
      | act | plan => exact (Bool.false_ne_true (hx.symm.trans hover)).elim
      | step => exact ⟨[], vs, rfl, hx, (play_over vs hover).2⟩
    · obtain ⟨pre, post, rfl, hturn⟩ := exists_last_turn vs (Bool.eq_false_iff.2 hover) hend
      exact ⟨v :: pre, post, rfl, hturn⟩

end Run

end ScenarioSampling
