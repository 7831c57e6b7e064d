import ScenarioSampling.Proofs.Inbound
import ScenarioSampling.Worker.Host

/-!
# The life of a worker

The owner of a worker starts it, asks it to stop, waits for it and lets go of it, while the thread
takes its own steps and others act on the bridge. A `Deed` is one of these, small enough that every
interleaving is a list of deeds.

A worker is idle, at work or ended (`Phase`), and no deed leads back (`Onward`). The thread lets go
of the bridge before the worker becomes stopped, however the run has ended, and the owner gets the
result of the run once (`lifecycle`).
-/

namespace ScenarioSampling

/-- The order in which a worker passes its states. -/
def WorkerState.rank : WorkerState → Nat
  | .idle => 0
  | .running => 1
  | .stopping => 2
  | .stopped => 3

theorem WorkerState.eq_stopped {s : WorkerState} (h : WorkerState.stopped.rank ≤ s.rank) :
    s = .stopped := by
  cases s with
  | stopped => rfl
  | idle | running | stopping => simp [rank] at h

/-- What the thread of a worker, its owner or others do next. -/
inductive Deed (σ : Type) where
  | start (model : Model) (world : World) (sampler : σ) (freshSeed : Nat)
  /-- A request to stop, as far as it is about the state of the worker. -/
  | mark
  | await
  /-- The thread takes a step. -/
  | step
  /-- Others act on the bridge, and so does the owner in the middle of a request or a release. -/
  | act (a : Action)
  | plan (script : List Turn)

/-- How the run has ended, once it has. -/
def ThreadStage.verdict? {σ : Type} : ThreadStage σ → Option WorkerResult
  | .sampling _ => none
  | .leaving outcome => some (.ok outcome)
  | .releasing result | .publishing result | .done result => some result

namespace Worker

variable {σ : Type}

/-- A worker at work begins to stop. -/
def mark (w : Worker σ) : Worker σ :=
  if w.state = .running then { w with state := .stopping }.onWorld (·.note .stopRequested) else w

/-- The result of the thread, once it has come to one. -/
def verdict? (w : Worker σ) : Option WorkerResult := w.thread.bind fun t => t.stage.verdict?

/-- Where a worker is in its life. -/
inductive Phase (config : WorkerConfig) : Worker σ → Prop where
  | idle : Phase config ⟨config, .idle, none⟩
  | working {state t} : state = .running ∨ state = .stopping → t.joinable = true →
      (∀ result, t.stage ≠ .done result) →
      (∀ result, t.stage = .publishing result → t.world.channel.workerAlive = false) →
      Phase config ⟨config, state, some t⟩
  | ended {t result} : t.stage = .done result → t.world.channel.workerAlive = false →
      Phase config ⟨config, .stopped, some t⟩

theorem Phase.config_eq {config : WorkerConfig} {w : Worker σ} (h : Phase config w) :
    w.config = config := by
  cases h with
  | idle | working | ended => rfl

theorem Phase.not_idle {config : WorkerConfig} {w : Worker σ} (h : Phase config w)
    (hw : w.thread ≠ none) : w.state ≠ .idle := by
  cases h with
  | idle => exact (hw rfl).elim
  | working hs => rcases hs with rfl | rfl <;> simp
  | ended => simp

theorem Phase.released {config : WorkerConfig} {w : Worker σ} (h : Phase config w)
    (hw : w.state = .stopped) : ∃ t result, w.thread = some t ∧ t.stage = .done result
      ∧ t.world.channel.workerAlive = false := by
  cases h with
  | idle => cases hw
  | working hs =>
    cases hw
    simp at hs
  | ended hdone ha => exact ⟨_, _, rfl, hdone, ha⟩

/-- What no deed undoes. -/
structure Onward (w w' : Worker σ) : Prop where
  rank : w.state.rank ≤ w'.state.rank
  started : w.thread ≠ none → w'.thread ≠ none
  verdict : ∀ result, w.verdict? = some result → w'.verdict? = some result
  /-- Once the thread is done, only others change the bridge, and a result that was taken is
  gone. -/
  ended : ∀ t result, w.thread = some t → t.stage = .done result →
    ∃ t', w'.thread = some t' ∧ t'.stage = .done result ∧ Disturbed t.world t'.world
      ∧ (t.joinable = false → t'.joinable = false)

namespace Onward

variable {w w' w'' : Worker σ}

theorem refl (w : Worker σ) : Onward w w where
  rank := Nat.le_refl _
  started := id
  verdict _ h := h
  ended t _ ht hdone := ⟨t, ht, hdone, .refl _, id⟩

theorem trans (h : Onward w w') (h' : Onward w' w'') : Onward w w'' where
  rank := Nat.le_trans h.rank h'.rank
  started hw := h'.started (h.started hw)
  verdict result hr := h'.verdict result (h.verdict result hr)
  ended t result ht hdone := by
    obtain ⟨t', ht', hdone', hd, hj⟩ := h.ended t result ht hdone
    obtain ⟨t'', ht'', hdone'', hd', hj'⟩ := h'.ended t' result ht' hdone'
    exact ⟨t'', ht'', hdone'', hd.trans hd', fun hf => hj' (hj hf)⟩

/-- The thread of a worker at work goes on. -/
theorem of_working {config : WorkerConfig} {state state' : WorkerState} {t t' : WorkerThread σ}
    (hrank : state.rank ≤ state'.rank) (ht : ∀ result, t.stage ≠ .done result)
    (hv : ∀ result, t.stage.verdict? = some result → t'.stage.verdict? = some result) :
    Onward ⟨config, state, some t⟩ ⟨config, state', some t'⟩ where
  rank := hrank
  started _ := Option.some_ne_none t'
  verdict := hv
  ended _ result h hdone := by
    cases h
    exact (ht result hdone).elim

end Onward

variable {config : WorkerConfig} {w : Worker σ}

/-- Others act on the bridge. -/
theorem Phase.onWorld {f : World → World} (hd : ∀ v, Disturbed v (f v))
    (hf : ∀ v, (f v).channel.workerAlive = v.channel.workerAlive) (h : Phase config w) :
    Phase config (w.onWorld f) ∧ Onward w (w.onWorld f) := by
  cases h with
  | idle => exact ⟨.idle, .refl _⟩
  | @working state t hs hj hdone hp =>
    refine ⟨.working hs hj hdone fun result hr => (hf _).trans (hp result hr), ?_⟩
    exact .of_working (Nat.le_refl _) hdone fun _ hv => hv
  | @ended t result hdone ha =>
    refine ⟨.ended hdone ((hf _).trans ha), Nat.le_refl _, fun _ => Option.some_ne_none _,
      fun _ hv => hv, fun _ _ ht hr => ?_⟩
    cases ht
    exact ⟨_, rfl, hr, hd _, id⟩

theorem Phase.mark (h : Phase config w) : Phase config w.mark ∧ Onward w w.mark := by
  unfold Worker.mark
  split_ifs with hw
  · cases h with
    | idle | ended => cases hw
    | @working state t _ hj hdone hp =>
      cases hw
      refine ⟨.working (.inr rfl) hj hdone hp, ?_⟩
      exact .of_working (Nat.le_succ 1) hdone fun _ hv => hv
  · exact ⟨h, .refl w⟩

/-- What an owner gets that does not have to wait. -/
theorem Phase.collect (h : Phase config w) {answer : Except WorkerError (Option Outcome)}
    {w' : Worker σ} (hc : w.collect? = some (answer, w')) :
    (answer = .ok none ∧ w' = w)
      ∨ ∃ t result, w = ⟨config, .stopped, some t⟩ ∧ t.stage = .done result
        ∧ config.discipline = .join ∧ t.joinable = true ∧ answer = result.map some
        ∧ w' = ⟨config, .stopped, some { t with joinable := false }⟩ := by
  unfold collect? at hc
  cases h with
  | idle =>
    cases hd : config.discipline <;> simp only [hd, Option.some.injEq, Prod.mk.injEq] at hc
    all_goals exact .inl ⟨hc.1.symm, hc.2.symm⟩
  | @working state t hs hj hdone hp =>
    cases hd : config.discipline <;> simp only [hd, hj, if_true] at hc
    · cases hc
    · cases hc
      exact .inl ⟨rfl, rfl⟩
  | @ended t result hdone ha =>
    cases hd : config.discipline <;> simp only [hd, hdone] at hc
    · split_ifs at hc with hj
      · cases hc
        exact .inr ⟨t, result, rfl, hdone, rfl, hj, rfl, by rw [hdone]⟩
      · cases hc
        exact .inl ⟨rfl, rfl⟩
    · cases hc
      exact .inl ⟨rfl, rfl⟩

/-- The result was there, and the owner has taken it. -/
def Taken (w : Worker σ) : Prop := ∃ t, w.thread = some t ∧ t.joinable = false

theorem collect_of_taken (ht : w.Taken) : w.collect? = some (.ok none, w) := by
  obtain ⟨t, ht, hj⟩ := ht
  unfold collect?
  rw [ht]
  cases w.config.discipline <;> simp [hj]

/-- Only a worker at work makes its owner wait. -/
theorem Phase.collect_eq_none_iff (h : Phase config w) : w.collect? = none ↔
    config.discipline = .join ∧ (w.state = .running ∨ w.state = .stopping) := by
  unfold collect?
  cases h with
  | idle => cases hd : config.discipline <;> simp
  | @working state t hs hj hdone hp => cases hd : config.discipline <;> simp [hj, hs]
  | @ended t result hdone ha =>
    cases hd : config.discipline <;> cases hj : t.joinable <;> simp [hdone, hj]

theorem Phase.await (h : Phase config w) {answer : Except WorkerError (Option Outcome)}
    {w' : Worker σ} (hc : w.collect? = some (answer, w')) : Phase config w' ∧ Onward w w' := by
  rcases h.collect hc with ⟨-, rfl⟩ | ⟨t, result, rfl, hdone, -, -, -, rfl⟩
  · exact ⟨h, .refl _⟩
  · cases h with
    | working hs => simp at hs
    | ended _ ha =>
      refine ⟨.ended hdone ha, Nat.le_refl _, fun _ => Option.some_ne_none _, fun _ hv => hv,
        fun _ _ ht hr => ?_⟩
      cases ht
      exact ⟨_, rfl, hr, .refl _, fun _ => rfl⟩

section Life

variable [Sampler σ ChaCha]

theorem Phase.threadStep (h : Phase config w) :
    Phase config w.threadStep ∧ Onward w w.threadStep := by
  cases h with
  | idle => exact ⟨.idle, .refl _⟩
  | @ended t result hdone ha =>
    have hstay : Worker.threadStep ⟨config, .stopped, some t⟩ = ⟨config, .stopped, some t⟩ := by
      simp only [Worker.threadStep, hdone]
    rw [hstay]
    exact ⟨.ended hdone ha, .refl _⟩
  | @working state t hs hj hdone hp =>
    unfold Worker.threadStep
    simp only []
    cases hstage : t.stage with
    | sampling run =>
      rcases run.step t.world with ⟨world, run'⟩
      refine ⟨.working hs hj ?_ ?_, .of_working (Nat.le_refl _) hdone ?_⟩
      · intro result
        simp only []
        split <;> simp
      · intro result
        simp only []
        split <;> simp
      · intro result hv
        simp [hstage, ThreadStage.verdict?] at hv
    | leaving outcome =>
      refine ⟨.working ?_ hj (by simp) (by simp), .of_working ?_ hdone ?_⟩
      · rcases hs with rfl | rfl
        · exact .inr rfl
        · exact .inr rfl
      · rcases hs with rfl | rfl
        · exact Nat.le_succ 1
        · exact Nat.le_refl 2
      · rw [hstage]
        exact fun _ hv => hv
    | releasing result =>
      refine ⟨.working hs hj (by simp) fun _ _ => ?_, .of_working (Nat.le_refl _) hdone ?_⟩
      · cases result with
        | ok | error => rfl
      · rw [hstage]
        exact fun _ hv => hv
    | publishing result =>
      refine ⟨.ended rfl (hp result hstage), .of_working ?_ hdone ?_⟩
      · rcases hs with rfl | rfl
        · decide
        · decide
      · rw [hstage]
        exact fun _ hv => hv
    | done result => exact (hdone result hstage).elim

theorem start_of_open (w : Worker σ) {model : Model} (hm : model.isClosed = false) (world : World)
    (sampler : σ) (freshSeed : Nat) :
    w.start model world sampler freshSeed = .error (.model .notClosed) := by
  simp [start, hm]

theorem start_of_started {w : Worker σ} (hw : w.state ≠ .idle) {model : Model}
    (hm : model.isClosed = true) (world : World) (sampler : σ) (freshSeed : Nat) :
    w.start model world sampler freshSeed = .error .alreadyStarted := by
  simp [start, hm, hw]

/-- A closed model starts an idle worker. -/
theorem start_of_idle {w : Worker σ} (hw : w.state = .idle) {model : Model}
    (hm : model.isClosed = true) (world : World) (sampler : σ) (freshSeed : Nat) :
    ∃ t, w.start model world sampler freshSeed = .ok ⟨w.config, .running, some t⟩
      ∧ t.joinable = true ∧ (∀ result, t.stage ≠ .done result)
      ∧ ∀ result, t.stage ≠ .publishing result := by
  unfold start
  simp only [hm, hw, Bool.not_true, Bool.false_eq_true, if_false, ne_eq, not_true_eq_false]
  refine ⟨_, rfl, rfl, fun result => ?_, fun result => ?_⟩
  all_goals
    simp only []
    split <;> simp

theorem start_ok {w w' : Worker σ} {model : Model} {world : World} {sampler : σ} {freshSeed : Nat}
    (hs : w.start model world sampler freshSeed = .ok w') :
    model.isClosed = true ∧ w.state = .idle := by
  cases hm : model.isClosed with
  | false =>
    rw [start_of_open w hm] at hs
    cases hs
  | true =>
    refine ⟨rfl, ?_⟩
    by_contra hw
    rw [start_of_started hw hm] at hs
    cases hs

theorem Phase.start (h : Phase config w) {model : Model} {world : World} {sampler : σ}
    {freshSeed : Nat} {w' : Worker σ} (hs : w.start model world sampler freshSeed = .ok w') :
    Phase config w' ∧ Onward w w' ∧ w.thread = none ∧ w'.thread ≠ none := by
  obtain ⟨hm, hidle⟩ := start_ok hs
  cases h with
  | idle =>
    obtain ⟨t, ht, hj, hdone, hp⟩ := start_of_idle hidle hm world sampler freshSeed
    rw [ht] at hs
    cases hs
    refine ⟨.working (.inl rfl) hj hdone fun result hr => (hp result hr).elim,
      ⟨Nat.zero_le _, fun hn => (hn rfl).elim, ?_, ?_⟩, rfl, Option.some_ne_none t⟩
    · intro _ hv
      cases hv
    · intro _ _ ht'
      cases ht'
  | working hstate =>
    cases hidle
    simp at hstate
  | ended => cases hidle

/-- A start that fails and a wait without an end leave the worker as it is. -/
def move (w : Worker σ) : Deed σ → Worker σ
  | .start model world sampler freshSeed =>
    match w.start model world sampler freshSeed with
    | .ok w' => w'
    | .error _ => w
  | .mark => w.mark
  | .await =>
    match w.collect? with
    | some (_, w') => w'
    | none => w
  | .step => w.threadStep
  | .act a => w.onWorld (·.act a)
  | .plan script => w.onWorld fun v => { v with script := script }

/-- The worker after these deeds. -/
def run (w : Worker σ) (ds : List (Deed σ)) : Worker σ := ds.foldl move w

theorem Phase.move (h : Phase config w) (d : Deed σ) :
    Phase config (w.move d) ∧ Onward w (w.move d) := by
  cases d with
  | start model world sampler freshSeed =>
    unfold Worker.move
    simp only []
    rcases hs : w.start model world sampler freshSeed with e | w'
    · exact ⟨h, .refl w⟩
    · exact ⟨(h.start hs).1, (h.start hs).2.1⟩
  | mark => exact h.mark
  | await =>
    unfold Worker.move
    simp only []
    rcases hc : w.collect? with _ | ⟨answer, w'⟩
    · exact ⟨h, .refl w⟩
    · exact h.await hc
  | step => exact h.threadStep
  | act a => exact h.onWorld (fun v => World.act_disturbed v a) fun v => World.act_workerAlive v a
  | plan script =>
    exact h.onWorld (f := fun v => { v with script := script }) (fun _ => .of_eq rfl rfl rfl)
      fun _ => rfl

theorem Phase.run : ∀ (ds : List (Deed σ)) {w : Worker σ}, Phase config w →
    Phase config (w.run ds) ∧ Onward w (w.run ds)
  | [], w, h => ⟨h, .refl w⟩
  | d :: ds, _, h => by
    obtain ⟨hphase, honward⟩ := h.move d
    obtain ⟨hphase', honward'⟩ := Phase.run ds hphase
    exact ⟨hphase', honward.trans honward'⟩

theorem run_append (w : Worker σ) (ds ds' : List (Deed σ)) :
    w.run (ds ++ ds') = (w.run ds).run ds' :=
  List.foldl_append

section Once

variable {α : Type}

/-- What the owner is told along a life, where `f` says what it is told by a single deed. -/
def told (f : Worker σ → Deed σ → Option α) (w : Worker σ) : List (Deed σ) → List α
  | [] => []
  | d :: ds => (f w d).toList ++ (w.move d).told f ds

/-- An answer for which `P` holds is only given before `Past`, which it brings about. -/
structure Once (config : WorkerConfig) (f : Worker σ → Deed σ → Option α) (P : α → Bool)
    (Past : Worker σ → Prop) : Prop where
  before : ∀ {w d a}, Phase config w → f w d = some a → P a = true → ¬ Past w
  brings : ∀ {w d a}, Phase config w → f w d = some a → P a = true → Past (w.move d)
  stays : ∀ {w d}, Phase config w → Past w → Past (w.move d)

namespace Once

variable {f : Worker σ → Deed σ → Option α} {P : α → Bool} {Past : Worker σ → Prop}
  (hf : Once config f P Past)
include hf

theorem countP_of_past : ∀ (ds : List (Deed σ)) {w : Worker σ}, Phase config w → Past w →
    (w.told f ds).countP P = 0
  | [], _, _, _ => rfl
  | d :: ds, w, h, hw => by
    have ih := countP_of_past ds (h.move d).1 (hf.stays h hw)
    unfold told
    rw [List.countP_append, ih, Nat.add_zero, List.countP_eq_zero]
    intro a ha hP
    exact hf.before h (Option.mem_toList.1 ha) hP hw

/-- It is given at most once. -/
theorem countP_le : ∀ (ds : List (Deed σ)) {w : Worker σ}, Phase config w →
    (w.told f ds).countP P ≤ 1
  | [], _, _ => Nat.zero_le 1
  | d :: ds, w, h => by
    have ih := countP_le ds (h.move d).1
    unfold told
    rw [List.countP_append]
    rcases ha : f w d with _ | a
    · simpa using ih
    · cases hP : P a with
      | false => simpa [hP] using ih
      | true =>
        rw [hf.countP_of_past ds (h.move d).1 (hf.brings h ha hP)]
        simp [hP]

theorem past_run : ∀ (ds : List (Deed σ)) {w : Worker σ}, Phase config w → Past w →
    Past (w.run ds)
  | [], _, _, hw => hw
  | d :: ds, _, h, hw => past_run ds (h.move d).1 (hf.stays h hw)

theorem past_of_told : ∀ (ds : List (Deed σ)) {w : Worker σ}, Phase config w →
    ∀ a ∈ w.told f ds, P a = true → Past (w.run ds)
  | [], _, _, a, ha, _ => by cases ha
  | d :: ds, w, h, a, ha, hP => by
    unfold told at ha
    rcases List.mem_append.1 ha with ha | ha
    · exact hf.past_run ds (h.move d).1 (hf.brings h (Option.mem_toList.1 ha) hP)
    · exact past_of_told ds (h.move d).1 a ha hP

end Once

end Once

/-- What a start answers. -/
def startAnswer? (w : Worker σ) : Deed σ → Option (Except WorkerError Unit)
  | .start model world sampler freshSeed =>
    some ((w.start model world sampler freshSeed).map fun _ => ())
  | _ => none

/-- What a wait answers, if it has an end. -/
def awaitAnswer? (w : Worker σ) : Deed σ → Option (Except WorkerError (Option Outcome))
  | .await => w.collect?.map Prod.fst
  | _ => none

/-- An answer that gives the result of the run. -/
def delivers : Except WorkerError (Option Outcome) → Bool
  | .ok none => false
  | _ => true

theorem once_started :
    Once config (startAnswer? (σ := σ)) Except.isOk fun w => w.thread ≠ none where
  before {w d a} h ha hok := by
    cases d with
    | start model world sampler freshSeed =>
      cases ha
      rcases hs : w.start model world sampler freshSeed with e | w'
      · rw [hs] at hok
        cases hok
      · exact fun hn => hn (h.start hs).2.2.1
    | mark | await | step | act | plan => cases ha
  brings {w d a} h ha hok := by
    cases d with
    | start model world sampler freshSeed =>
      cases ha
      rcases hs : w.start model world sampler freshSeed with e | w'
      · rw [hs] at hok
        cases hok
      · simp only [move, hs]
        exact (h.start hs).2.2.2
    | mark | await | step | act | plan => cases ha
  stays h hw := (h.move _).2.started hw

theorem once_delivered : Once config (awaitAnswer? (σ := σ)) delivers Taken where
  before {w d a} h ha hdel := by
    cases d with
    | await =>
      obtain ⟨⟨_, w'⟩, hc, rfl⟩ := Option.map_eq_some_iff.1 ha
      rcases h.collect hc with ⟨rfl, -⟩ | ⟨t, result, rfl, -, -, hj, -, -⟩
      · cases hdel
      · rintro ⟨_, ⟨⟩, hf⟩
        rw [hj] at hf
        cases hf
    | start | mark | step | act | plan => cases ha
  brings {w d a} h ha hdel := by
    cases d with
    | await =>
      obtain ⟨⟨_, w'⟩, hc, rfl⟩ := Option.map_eq_some_iff.1 ha
      simp only [move, hc]
      rcases h.collect hc with ⟨rfl, -⟩ | ⟨t, result, -, -, -, -, -, rfl⟩
      · cases hdel
      · exact ⟨_, rfl, rfl⟩
    | start | mark | step | act | plan => cases ha
  stays {w d} h hw := by
    obtain ⟨t, ht, hj⟩ := hw
    have honward := (h.move d).2
    cases h with
    | idle => cases ht
    | working _ htrue =>
      cases ht
      rw [htrue] at hj
      cases hj
    | ended hdone =>
      cases ht
      obtain ⟨t', ht', -, -, hj'⟩ := honward.ended _ _ rfl hdone
      exact ⟨t', ht', hj' hj⟩

/-- Before a start succeeds, no deed changes anything. -/
theorem run_unstarted : ∀ (ds : List (Deed σ)),
    (∀ a ∈ (ofConfig config : Worker σ).told startAnswer? ds, a.isOk = false) →
      (ofConfig config : Worker σ).run ds = ofConfig config
  | [], _ => rfl
  | d :: ds, h => by
    have hmove : (ofConfig config : Worker σ).move d = ofConfig config := by
      cases d with
      | start model world sampler freshSeed =>
        unfold move
        simp only []
        rcases hs : (ofConfig config : Worker σ).start model world sampler freshSeed with e | w'
        · rfl
        · have hfail := h (.ok ()) (by simp [told, startAnswer?, hs, Except.map])
          cases hfail
      | await =>
        unfold move collect?
        cases hd : (ofConfig config : Worker σ).config.discipline <;> rfl
      | mark | step | act | plan => rfl
    unfold run
    rw [List.foldl_cons, hmove]
    refine run_unstarted ds fun a ha => h a ?_
    unfold told
    rw [hmove]
    exact List.mem_append_right _ ha

/-- A request to stop, taken apart. -/
theorem Phase.requestStop (h : Phase config w) :
    w.requestStop = w.run [.mark, .act .raiseStop, .act .leaveToken] := by
  cases h with
  | idle | ended => rfl
  | working hs =>
    rcases hs with rfl | rfl
    · rfl
    · rfl

/-- What an owner in the join discipline gets from a wait. -/
theorem Phase.delivered (h : Phase config w) {answer : Except WorkerError (Option Outcome)}
    {w' : Worker σ} (hc : w.collect? = some (answer, w')) (hdel : delivers answer = true) :
    w.state = .stopped ∧ (∃ result, w.verdict? = some result ∧ answer = result.map some)
      ∧ ∀ later, (w'.run later).collect? = some (.ok none, w'.run later) := by
  have hphase := (h.await hc).1
  rcases h.collect hc with ⟨rfl, -⟩ | ⟨t, result, rfl, hdone, -, -, rfl, rfl⟩
  · cases hdel
  · refine ⟨rfl, ⟨result, by simp [verdict?, hdone, ThreadStage.verdict?], rfl⟩, fun later => ?_⟩
    exact collect_of_taken (once_delivered.past_run later hphase ⟨_, rfl, rfl⟩)

/-- In every interleaving of what an owner does with the steps of the thread and with others at the
bridge, the state of the worker only goes up, and stopped is final. At most one start succeeds; an
open model is refused, and so is every start after the one that succeeded. Before that nothing
changes the worker, not even a request to stop. A stopped worker has let go of the bridge, whatever
its result is, and from then on only others change the bridge. An owner that joins waits exactly
while the worker is at work, and gets the result of the run at most once, from a stopped worker, and
nothing afterwards. An owner that detaches never waits. -/
theorem lifecycle (config : WorkerConfig) (ds : List (Deed σ)) :
    let fresh : Worker σ := ofConfig config
    let w := fresh.run ds
    let started := ∃ a ∈ fresh.told startAnswer? ds, a.isOk = true
    (∀ later, w.state.rank ≤ (w.run later).state.rank)
      ∧ (w.state = .stopped → ∀ later, (w.run later).state = .stopped)
      ∧ (fresh.told startAnswer? ds).countP Except.isOk ≤ 1
      ∧ (∀ model world sampler seed,
        (model.isClosed = false → w.start model world sampler seed = .error (.model .notClosed))
        ∧ (model.isClosed = true → started →
          w.start model world sampler seed = .error .alreadyStarted)
        ∧ (model.isClosed = true → ¬ started → ∃ w', w.start model world sampler seed = .ok w'))
      ∧ (¬ started → w = fresh ∧ w.requestStop = w)
      ∧ (w.state = .stopped → ∃ t result, w.thread = some t ∧ t.stage = .done result
        ∧ t.world.channel.workerAlive = false
        ∧ ∀ later, ∃ t', (w.run later).thread = some t' ∧ Disturbed t.world t'.world)
      ∧ (config.discipline = .join →
        (w.collect? = none ↔ w.state = .running ∨ w.state = .stopping)
        ∧ (fresh.told awaitAnswer? ds).countP delivers ≤ 1
        ∧ ∀ answer w', w.collect? = some (answer, w') → delivers answer = true →
          w.state = .stopped ∧ (∃ result, w.verdict? = some result ∧ answer = result.map some)
          ∧ ∀ later, (w'.run later).collect? = some (.ok none, w'.run later))
      ∧ (∀ result, w.verdict? = some result → ∀ later, (w.run later).verdict? = some result)
      ∧ (config.discipline = .detach → w.collect? = some (.ok none, w)) := by
  intro fresh w started
  have hfresh : Phase config fresh := .idle
  have hphase : Phase config w := (hfresh.run ds).1
  have honward : ∀ later, Onward w (w.run later) := fun later => (hphase.run later).2
  have hunstarted : ¬ started → w = fresh := fun hn =>
    run_unstarted ds fun a ha => by simpa using fun hok => hn ⟨a, ha, hok⟩
  refine ⟨fun later => (honward later).rank, fun hs later => ?_, once_started.countP_le ds hfresh,
    fun model world sampler seed => ⟨fun hm => start_of_open w hm world sampler seed,
      fun hm => ?_, fun hm hn => ?_⟩, fun hn => ?_, fun hs => ?_, fun hj => ⟨?_, ?_, ?_⟩,
    fun result hr later => (honward later).verdict result hr, fun hd => ?_⟩
  · exact WorkerState.eq_stopped (hs ▸ (honward later).rank)
  · rintro ⟨a, ha, hok⟩
    have hthread : w.thread ≠ none := once_started.past_of_told ds hfresh a ha hok
    exact start_of_started (hphase.not_idle hthread) hm world sampler seed
  · rw [hunstarted hn]
    obtain ⟨t, ht, -⟩ := start_of_idle (w := fresh) rfl hm world sampler seed
    exact ⟨_, ht⟩
  · rw [hunstarted hn]
    exact ⟨rfl, rfl⟩
  · obtain ⟨t, result, ht, hdone, ha⟩ := hphase.released hs
    refine ⟨t, result, ht, hdone, ha, fun later => ?_⟩
    obtain ⟨t', ht', -, hd, -⟩ := (honward later).ended t result ht hdone
    exact ⟨t', ht', hd⟩
  · rw [hphase.collect_eq_none_iff, hj]
    simp
  · exact once_delivered.countP_le ds hfresh
  · exact fun answer w' hc hdel => hphase.delivered hc hdel
  · unfold collect?
    rw [hphase.config_eq, hd]

/-- A worker that is asked to stop before its first turn becomes stopped, gives its result to the
first wait only, and cannot be started again. -/
theorem lifecycle_of_worker_stopped_early :
    let m : Model := ⟨.closed, [], [], [], 0⟩
    let start : Deed UniformSampler := .start m (.ofCapacity 1) ⟨⟩ 7
    let w := (ofConfig .standard).run
      [start, .mark, .act .raiseStop, .act .leaveToken, .step, .step, .step, .step]
    w.state = .stopped ∧ w.start m (.ofCapacity 1) ⟨⟩ 7 = .error .alreadyStarted
      ∧ (∃ t result, w.thread = some t ∧ t.stage = .done result
        ∧ t.world.channel.workerAlive = false)
      ∧ ∃ outcome w', w.collect? = some (.ok (some outcome), w')
        ∧ w'.collect? = some (.ok none, w') := by
  intro m start w
  obtain ⟨-, -, -, hstarts, -, hstopped, hjoin, -⟩ := lifecycle (σ := UniformSampler) .standard
    [start, .mark, .act .raiseStop, .act .leaveToken, .step, .step, .step, .step]
  have hs : w.state = .stopped := rfl
  have hstart := (hstarts m (.ofCapacity 1) ⟨⟩ 7).2.1 rfl ⟨.ok (), List.mem_cons_self, rfl⟩
  obtain ⟨t, result, ht, hdone, halive, -⟩ := hstopped hs
  have hc : w.collect? = some (.ok (some _), _) := rfl
  obtain ⟨-, -, hafter⟩ := (hjoin rfl).2.2 _ _ hc rfl
  exact ⟨hs, hstart, ⟨t, result, ht, hdone, halive⟩, _, _, hc, hafter []⟩

end Life

end Worker

namespace Host

variable {σ : Type} [Sampler σ ChaCha]

theorem advance_run (enough : Worker σ → Bool) : ∀ (n : Nat) (w : Worker σ),
    ∃ k, w.advance enough n = w.run (List.replicate k .step)
  | 0, w => ⟨0, rfl⟩
  | n + 1, w => by
    unfold Worker.advance
    simp only []
    split_ifs
    · exact ⟨0, rfl⟩
    · exact ⟨1, rfl⟩
    · obtain ⟨k, hk⟩ := advance_run enough n w.threadStep
      exact ⟨k + 1, hk⟩

/-- What the owner of a worker does are deeds. -/
theorem calls_run {config : WorkerConfig} {h : Host σ} (hw : Worker.Phase config h.worker)
    (n : Nat) :
    (∀ model sampler onLast freshSeed, ∃ world,
        (h.start model sampler onLast freshSeed).2.worker
          = h.worker.run [.start model world sampler freshSeed])
      ∧ (∃ k, (h.await n).2.worker = h.worker.run (List.replicate k .step ++ [.await]))
      ∧ (h.released = false → ∃ k, (h.release n).worker
        = h.worker.run ([.mark, .act .raiseStop, .act .leaveToken] ++ List.replicate k .step
          ++ [.act .dropOwner])) := by
  have hsteps : ∀ h' : Host σ, ∃ k, (if h'.worker.config.discipline = .join then h'.runOut n
      else h').worker = h'.worker.run (List.replicate k .step) := by
    intro h'
    split_ifs
    · exact advance_run _ n h'.worker
    · exact ⟨0, rfl⟩
  refine ⟨fun model sampler onLast freshSeed => ?_, ?_, fun hr => ?_⟩
  · let fresh := World.ofCapacity h.worker.config.capacity
    refine ⟨(if onLast then h.spare.getD fresh else fresh.dropSearch).setInterrupted h.interrupted,
      ?_⟩
    unfold Host.start Worker.run Worker.move
    simp only [List.foldl_cons, List.foldl_nil]
    split
    · rename_i hs
      rw [hs]
    · rename_i hs
      rw [hs]
      cases onLast <;> rfl
  · obtain ⟨k, hk⟩ := hsteps h
    refine ⟨k, ?_⟩
    rw [Worker.run_append, ← hk]
    unfold Host.await Worker.run Worker.move
    simp only [List.foldl_cons, List.foldl_nil]
    split
    · rename_i hc
      rw [hc]
    · rename_i hc
      rw [hc]
  · obtain ⟨k, hk⟩ := hsteps { h with worker := h.worker.requestStop, released := true }
    refine ⟨k, ?_⟩
    rw [Worker.run_append, Worker.run_append, ← hw.requestStop, ← hk]
    unfold Host.release
    rw [if_neg (by simp [hr])]
    rfl

end Host

end ScenarioSampling
