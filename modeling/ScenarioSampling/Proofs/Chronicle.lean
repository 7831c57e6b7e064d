import ScenarioSampling.Proofs.Delivery
import ScenarioSampling.Proofs.SoundReports

/-!
# The chronicle of a run

The chronicle of a run lists what it drew, what it attempted to report and its end, each with the
world and the answer it met. It is read off the turns and takes no part in them.

`Course` lists what a turn can do, and all that is said about runs is checked on its cases. The
first thing it says is that a run never reports to an end of the bridge that has stopped
(`reports_never_refused`).
-/

namespace ScenarioSampling

/-- A candidate that a run draws, and what becomes of it. -/
structure Draw where
  /-- The world in which the sampler is called. -/
  world : World
  /-- What the sampler is given to draw from. -/
  region : Region
  candidate : Except Crash Candidate
  /-- What the scorer says about it, if it comes to that. -/
  result : Except Crash (Except Fault Nat)

/-- The candidate with its score or its fault, unless the sampler or the scorer crashed. -/
def Draw.scored? (d : Draw) : Option (Candidate × Except Fault Nat) :=
  match d.candidate, d.result with
  | .ok c, .ok result => some (c, result)
  | _, _ => none

/-- An attempt to report, from the beginning or after it had to wait. -/
structure Attempt where
  world : World
  candidate : Candidate
  score : Nat
  answer : Emission

/-- The attempt met an end of the bridge that listened, and was not refused. -/
def Attempt.Admitted (a : Attempt) : Prop :=
  a.world.channel.stopped = none ∧ ∀ v, a.answer ≠ .refused v

/-- What the attempt is to report. -/
def Attempt.content (a : Attempt) : Candidate × Nat := (a.candidate, a.score)

/-- What the chronicle of a run is made of. -/
inductive Entry where
  | drew (d : Draw)
  | attempted (a : Attempt)
  | ended (reason : TerminationReason)

namespace Entry

/-- The draw, if the entry is one. -/
def draw? : Entry → Option Draw
  | drew d => some d
  | _ => none

/-- The attempt to report, if the entry is one. -/
def attempt? : Entry → Option Attempt
  | attempted a => some a
  | _ => none

/-- What was drawn, in order. -/
def draws (es : List Entry) : List Draw := es.filterMap draw?

/-- What was attempted to report, in order. -/
def attempts (es : List Entry) : List Attempt := es.filterMap attempt?

/-- The candidates that came to a result, with that result. -/
def scored (es : List Entry) : List (Candidate × Except Fault Nat) :=
  (draws es).filterMap Draw.scored?

/-- The scores of the candidates that have one, in order. -/
def scores (es : List Entry) : List Nat := (scored es).filterMap fun x => x.2.toOption

/-- What was reported with the answer to go on. -/
def accepted (es : List Entry) : List (Candidate × Nat) :=
  (attempts es).flatMap fun a => a.answer.sent a.content

/-- What the monitor is told about an entry. -/
def calls : Entry → List Call
  | drew d => d.scored?.toList.map fun x => .sampled x.2.toOption
  | attempted a => a.answer.sent (.reported a.candidate a.score)
  | ended _ => [.left]

@[simp]
theorem draws_append (es es' : List Entry) : draws (es ++ es') = draws es ++ draws es' := by
  simp [draws]

@[simp]
theorem attempts_append (es es' : List Entry) :
    attempts (es ++ es') = attempts es ++ attempts es' := by
  simp [attempts]

@[simp]
theorem scored_append (es es' : List Entry) : scored (es ++ es') = scored es ++ scored es' := by
  simp [scored]

@[simp]
theorem scores_append (es es' : List Entry) : scores (es ++ es') = scores es ++ scores es' := by
  simp [scores]

@[simp]
theorem accepted_append (es es' : List Entry) :
    accepted (es ++ es') = accepted es ++ accepted es' := by
  simp [accepted]

theorem scored_drew (d : Draw) : scored [.drew d] = d.scored?.toList := by
  simp only [scored, draws, List.filterMap_cons, draw?, List.filterMap_nil]
  cases d.scored? <;> rfl

@[simp]
theorem attempts_drew (d : Draw) (es : List Entry) : attempts (.drew d :: es) = attempts es := rfl

@[simp]
theorem attempts_attempted (a : Attempt) (es : List Entry) :
    attempts (.attempted a :: es) = a :: attempts es := rfl

@[simp]
theorem attempts_ended (reason : TerminationReason) (es : List Entry) :
    attempts (.ended reason :: es) = attempts es := rfl

@[simp]
theorem attempts_nil : attempts [] = [] := rfl

end Entry

/-- Others act, and the worker looks after what is its own. -/
structure Quiet (w w' : World) : Prop where
  disturbed : Disturbed w w'
  posted : Posted w [] w'

namespace Quiet

theorem trans {w w' w'' : World} (h : Quiet w w') (h' : Quiet w' w'') : Quiet w w'' :=
  ⟨h.disturbed.trans h'.disturbed, h.posted.after h'.posted⟩

theorem visit (w : World) (p : Point) : Quiet w (w.visit p) :=
  ⟨w.visit_disturbed p, w.visit_posted p⟩

theorem note (w : World) (n : Notice) : Quiet w (w.note n) :=
  ⟨.of_eq rfl rfl rfl, .frame rfl rfl rfl rfl rfl⟩

theorem noteAll (w : World) (ns : List Notice) : Quiet w (w.noteAll ns) :=
  ⟨w.noteAll_disturbed ns, w.noteAll_posted ns⟩

theorem act (w : World) (a : Action) : Quiet w (w.act a) := ⟨w.act_disturbed a, w.act_posted a⟩

theorem plan (w : World) (script : List Turn) : Quiet w { w with script := script } :=
  ⟨.of_eq rfl rfl rfl, .frame rfl rfl rfl rfl rfl⟩

end Quiet

namespace Run

open Entry

variable {σ ρ ν μ : Type}

/-- The run after a call that leaves it this sink. -/
def withSink (r : Run σ ρ ν μ) (sink : Sink) : Run σ ρ ν μ := { r with sink := sink }

/-- The first attempt to report the candidate. -/
def emission (x : World × Run σ ρ ν μ) (score : Nat) : Emission × World × Sink :=
  x.1.emit Sink.handle x.2.sink (.ofCandidate x.2.candidate) score

/-- An attempt with its answer, and the end of the run if that is the answer. -/
def attemptEntries (x : World × Run σ ρ ν μ) (score : Nat) (answer : Emission) : List Entry :=
  .attempted ⟨x.1, x.2.candidate, score, answer⟩ ::
    match answer with
    | .flow (.halt reason) => [.ended (.stopped reason)]
    | _ => []

/-- An attempt to report `q` in `x` that is answered with `a`. -/
structure Answered (x : World × Run σ ρ ν μ) (q : Report) (a : Emission × World × Sink) : Prop where
  listens : x.1.channel.stopped = none
  scenario : q.scenario = .ofCandidate x.2.candidate
  sequence : q.sequence = x.1.channel.emitted
  accesses : Accesses Sink.handle (fun _ => True) (x.1, x.2.sink) a.2
  posted : Posted x.1 (a.1.sent q) a.2.1
  fits : World.Fits q a.2.1 a.1

/-- What holds of a run between its turns. -/
structure Ready (x : World × Run σ ρ ν μ) : Prop where
  waiting : ∀ q, x.2.stage = .reporting q → x.1.channel.stopped = none
    ∧ q.scenario = .ofCandidate x.2.candidate ∧ q.sequence = x.1.channel.emitted
  unviolated : ∀ v, x.2.stage ≠ .violated v

section Attempts

variable {x : World × Run σ ρ ν μ}

theorem emission_answered (hs : x.1.channel.stopped = none) (score : Nat) :
    ∃ q, q.score = score ∧ Answered x q (emission x score) := by
  obtain ⟨hacc, q, hq, hfits⟩ := World.emit_accesses Sink.handle x.2.sink
    (.ofCandidate x.2.candidate) score hs
  obtain ⟨q', hq', hposted⟩ := World.emit_posted Sink.handle x.1 x.2.sink
    (.ofCandidate x.2.candidate) score
  have hany := hacc.mono (Q := fun _ => True) fun _ _ => trivial
  change Accesses Sink.handle _ (x.1, x.2.sink) (emission x score).2 at hany
  change World.Fits q (emission x score).2.1 (emission x score).1 at hfits
  change Posted x.1 ((emission x score).1.sent q') (emission x score).2.1 at hposted
  rcases ha : emission x score with ⟨_ | v | q'', w, sink⟩ <;> rw [ha] at hany hfits hposted
  · exact ⟨q', hq'.2.1, hs, hq'.1, hq'.2.2, hany, hposted, hfits⟩
  · exact hfits.elim
  · exact ⟨q, hq.2.1, hs, hq.1, hq.2.2, hany, hposted, hfits⟩

theorem Ready.of_looping (h : x.2.stage = .looping) : Ready x := ⟨by simp [h], by simp [h]⟩

theorem Ready.answered (hx : Ready x) {q : Report} (hq : x.2.stage = .reporting q) :
    Answered x q (x.1.resume Sink.handle x.2.sink q) := by
  obtain ⟨hs, hscenario, hseq⟩ := hx.waiting q hq
  obtain ⟨hacc, hfits⟩ := World.resume_accesses Sink.handle (P := fun _ => True) x.2.sink hs
    (r := q) trivial
  exact ⟨hs, hscenario, hseq, hacc, World.resume_posted Sink.handle x.2.sink hs hseq, hfits⟩

/-- An attempt is one entry, which the end of the run may follow. -/
theorem attemptEntries_eq (x : World × Run σ ρ ν μ) (score : Nat) (answer : Emission) :
    ∃ rest, attemptEntries x score answer = .attempted ⟨x.1, x.2.candidate, score, answer⟩ :: rest
      ∧ attempts rest = [] ∧ draws rest = [] := by
  rcases answer with (_ | reason) | v | q
  · exact ⟨[], rfl, rfl, rfl⟩
  · exact ⟨[.ended (.stopped reason)], rfl, rfl, rfl⟩
  · exact ⟨[], rfl, rfl, rfl⟩
  · exact ⟨[], rfl, rfl, rfl⟩

theorem Answered.admitted {q : Report} {a : Emission × World × Sink} (h : Answered x q a) :
    ∀ b ∈ attempts (attemptEntries x q.score a.1), b.Admitted := by
  obtain ⟨rest, heq, hrest, -⟩ := attemptEntries_eq x q.score a.1
  have hne : ∀ v, a.1 ≠ .refused v := by
    intro v hv
    have hfits := h.fits
    rw [hv] at hfits
    exact hfits
  rw [heq, attempts_attempted, hrest]
  intro b hb
  rw [List.mem_singleton.1 hb]
  exact ⟨h.listens, hne⟩

theorem Answered.ready [SamplingMonitor μ] {q : Report} {a : Emission × World × Sink}
    (h : Answered x q a) : Ready (afterEmission x.2 q.score a) := by
  obtain ⟨(_ | reason) | v | q', w, sink⟩ := a
  · exact ⟨nofun, nofun⟩
  · exact ⟨nofun, nofun⟩
  · exact h.fits.elim
  · obtain ⟨rfl, hs⟩ := h.fits
    have hem : w.channel.emitted = x.1.channel.emitted := h.posted.emitted_eq
    refine ⟨fun _ hq => ?_, nofun⟩
    cases hq
    exact ⟨hs, h.scenario, h.sequence.trans hem.symm⟩

end Attempts

/-- The score is low enough, or lower than those before. -/
def reportable (r : Run σ ρ ν μ) (score : Nat) : Bool :=
  r.policy.isReportable score (improves r.sink.statistics.best score)

/-- The lower one of the best score and `score`. -/
def lower (best : Option Nat) (score : Nat) : Option Nat :=
  if improves best score then some score else best

theorem keepBest_eq (r : Run σ ρ ν μ) (score : Nat) : r.keepBest score =
    let best := r.sink.statistics.best
    ({ r with
      sink := ⟨r.sink.region, { r.sink.statistics with best := lower best score }⟩
      best := if improves best score then some (r.candidate, score) else r.best },
      improves best score) := by
  unfold keepBest Statistics.onScore lower
  cases h : improves r.sink.statistics.best score <;> simp [h]

section Scores

variable [SamplingMonitor μ]

/-- A run that has given its candidate a score. -/
def judged (x : World × Run σ ρ ν μ) (score : Nat) : World × Run σ ρ ν μ :=
  let told := tell x.1 x.2 (.sampled (some score))
  (told.1, (told.2.keepBest score).1)

/-- A score changes nothing but the monitor and what is known of the best one. -/
theorem judged_run (x : World × Run σ ρ ν μ) (score : Nat) : (judged x score).2 =
    let best := x.2.sink.statistics.best
    { x.2 with
      monitor := (SamplingMonitor.hear x.1.surroundings (.sampled (some score)) x.2.monitor).1
      sink := ⟨x.2.sink.region, { x.2.sink.statistics with best := lower best score }⟩
      best := if improves best score then some (x.2.candidate, score) else x.2.best } := by
  unfold judged
  simp only [keepBest_eq]
  rfl

theorem afterScore_score (x : World × Run σ ρ ν μ) (score : Nat) :
    afterScore x.1 x.2 (.ok score) =
      if reportable x.2 score then
        afterEmission (judged x score).2 score (emission (judged x score) score)
      else judged x score := by
  have heq : afterScore x.1 x.2 (.ok score) =
      let told := tell x.1 x.2 (.sampled (some score))
      if (told.2.keepBest score).1.policy.isReportable score (told.2.keepBest score).2 then
        afterEmission (judged x score).2 score (emission (judged x score) score)
      else judged x score := rfl
  rw [heq]
  simp only [keepBest_eq]
  rfl

/-- What a score adds to the chronicle. -/
def scoreEntries (x : World × Run σ ρ ν μ) : Except Fault Nat → List Entry
  | .error _ => []
  | .ok score =>
    if reportable x.2 score then
      attemptEntries (judged x score) score (emission (judged x score) score).1
    else []

end Scores

/-- The world and the run after a draw. -/
def withDrawn (x : World × Run σ ρ ν μ) (c : Candidate × σ × ρ) : World × Run σ ρ ν μ :=
  ((x.1.visit .draw).note (.drawn c.1),
    { x.2 with
      candidate := c.1
      sampler := c.2.1
      source := c.2.2
      sink := { x.2.sink with statistics := x.2.sink.statistics.onSample } })

theorem quiet_withDrawn (x : World × Run σ ρ ν μ) (c : Candidate × σ × ρ) :
    Quiet x.1 (withDrawn x c).1 :=
  (Quiet.visit x.1 .draw).trans (.note _ _)

theorem quiet_judged [SamplingMonitor μ] (x : World × Run σ ρ ν μ) (c : Candidate × σ × ρ)
    (score : Nat) : Quiet x.1 (judged (withDrawn x c) score).1 :=
  (quiet_withDrawn x c).trans (.noteAll _ _)

section Draws

variable [Sampler σ ρ] [Scorer ν]

/-- What the sampler gives. -/
def drawn (x : World × Run σ ρ ν μ) : Except Crash (Candidate × σ × ρ) :=
  Sampler.draw x.2.sampler x.2.sink.region x.2.source x.2.candidate

/-- What the scorer says about a candidate. -/
def rated (x : World × Run σ ρ ν μ) (c : Candidate) : Except Crash (Except Fault Nat) :=
  Scorer.score x.2.scorer x.2.model c

/-- The draw that the run makes next. -/
def drawing (x : World × Run σ ρ ν μ) : Draw where
  world := x.1.visit .draw
  region := x.2.sink.region
  candidate := (drawn x).map Prod.fst
  result := ((drawn x).map Prod.fst).bind (rated x)

variable {x : World × Run σ ρ ν μ} {c : Candidate × σ × ρ} {crash : Crash}

theorem drawing_undrawn (hd : drawn x = .error crash) :
    (drawing x).candidate = .error crash ∧ (drawing x).scored? = none := by
  have hc : (drawing x).candidate = .error crash := by
    simp only [drawing, hd]
    rfl
  exact ⟨hc, by simp only [Draw.scored?, hc]⟩

theorem drawing_drawn (hd : drawn x = .ok c) :
    (drawing x).candidate = .ok c.1 ∧ (drawing x).result = rated x c.1 := by
  simp only [drawing, hd]
  exact ⟨rfl, rfl⟩

theorem drawing_unscored (hd : drawn x = .ok c) (hs : rated x c.1 = .error crash) :
    (drawing x).candidate = .ok c.1 ∧ (drawing x).scored? = none := by
  obtain ⟨hc, hr⟩ := drawing_drawn hd
  exact ⟨hc, by simp only [Draw.scored?, hc, hr, hs]⟩

theorem drawing_scored {result : Except Fault Nat} (hd : drawn x = .ok c)
    (hs : rated x c.1 = .ok result) :
    (drawing x).candidate = .ok c.1 ∧ (drawing x).scored? = some (c.1, result) := by
  obtain ⟨hc, hr⟩ := drawing_drawn hd
  exact ⟨hc, by simp only [Draw.scored?, hc, hr, hs]⟩

end Draws

variable [SamplingMonitor μ]

/-- The run comes to a draw, in `y`. -/
structure Opens (x y : World × Run σ ρ ν μ) : Prop where
  looping : x.2.stage = .looping
  polled : x.1.poll Sink.handle x.2.sink = (.proceed, y.1, y.2.sink)
  goes : SamplingMonitor.command y.1.surroundings y.2.monitor = .proceed
  rest : y.2 = x.2.withSink y.2.sink

theorem Opens.listens {x y : World × Run σ ρ ν μ} (h : Opens x y) :
    y.1.channel.stopped = none := by
  have hp := h.polled
  rcases hs : x.1.channel.stopped with _ | reason
  · obtain ⟨-, hflow⟩ := World.poll_accesses Sink.handle (P := fun _ => True) x.1 x.2.sink hs
    rw [hp] at hflow
    exact World.stopped_of_flow hflow.symm
  · rw [World.poll_of_stopped Sink.handle hs] at hp
    cases hp

theorem Opens.looping_after {x y : World × Run σ ρ ν μ} (h : Opens x y) :
    y.2.stage = .looping := by
  rw [h.rest]
  exact h.looping

variable [Sampler σ ρ] [Scorer ν]

/-- What a draw and all that follows from it in the same turn add to the chronicle. -/
def drawEntries (x : World × Run σ ρ ν μ) : List Entry :=
  .drew (drawing x) ::
    match drawn x with
    | .error _ => []
    | .ok c =>
      match rated x c.1 with
      | .error _ => []
      | .ok result => scoreEntries (withDrawn x c) result

/-- What the next turn adds to the chronicle. -/
def entries (x : World × Run σ ρ ν μ) : List Entry :=
  match x.2.stage with
  | .looping =>
    match x.1.poll Sink.handle x.2.sink with
    | (.halt reason, _, _) => [.ended (.stopped reason)]
    | (.proceed, w, sink) =>
      match SamplingMonitor.command w.surroundings x.2.monitor with
      | .terminate cause => [.ended (.aborted cause)]
      | .proceed => drawEntries (w, x.2.withSink sink)
  | .reporting q => attemptEntries x q.score (x.1.resume Sink.handle x.2.sink q).1
  | .ended _ | .violated _ | .crashed _ => []

/-- What becomes of a draw: its entries, and what it leaves. -/
inductive DrawCourse (x : World × Run σ ρ ν μ) : List Entry → World × Run σ ρ ν μ → Prop where
  /-- The sampler crashes. -/
  | undrawn {crash} : drawn x = .error crash →
      DrawCourse x [.drew (drawing x)] (x.1.visit .draw, { x.2 with stage := .crashed crash })
  /-- The scorer crashes. -/
  | unscored {c crash} : drawn x = .ok c → rated x c.1 = .error crash →
      DrawCourse x [.drew (drawing x)]
        ((withDrawn x c).1, { (withDrawn x c).2 with stage := .crashed crash })
  | discarded {c fault} : drawn x = .ok c → rated x c.1 = .ok (.error fault) →
      DrawCourse x [.drew (drawing x)]
        (afterScore (withDrawn x c).1 (withDrawn x c).2 (.error fault))
  | passed {c score} : drawn x = .ok c → rated x c.1 = .ok (.ok score) →
      reportable x.2 score = false →
      DrawCourse x [.drew (drawing x)] (judged (withDrawn x c) score)
  | reported {c score y} : drawn x = .ok c → rated x c.1 = .ok (.ok score) →
      reportable x.2 score = true → judged (withDrawn x c) score = y →
      DrawCourse x (.drew (drawing x) :: attemptEntries y score (emission y score).1)
        (afterEmission y.2 score (emission y score))

/-- What a turn can do: its entries, and what it leaves. -/
inductive Course (x : World × Run σ ρ ν μ) : List Entry → World × Run σ ρ ν μ → Prop where
  | idle : x.2.isOver = true → Course x [] x
  | stopped {w sink reason} : x.2.stage = .looping →
      x.1.poll Sink.handle x.2.sink = (.halt reason, w, sink) →
      Course x [.ended (.stopped reason)] (finish w (x.2.withSink sink) (.stopped reason))
  | aborted {w sink cause} : x.2.stage = .looping →
      x.1.poll Sink.handle x.2.sink = (.proceed, w, sink) →
      SamplingMonitor.command w.surroundings x.2.monitor = .terminate cause →
      Course x [.ended (.aborted cause)] (finish w (x.2.withSink sink) (.aborted cause))
  | drew {y z es} : Opens x y → DrawCourse y es z → Course x es z
  | resumed {q} : x.2.stage = .reporting q →
      Course x (attemptEntries x q.score (x.1.resume Sink.handle x.2.sink q).1)
        (afterEmission x.2 q.score (x.1.resume Sink.handle x.2.sink q))

theorem drawAndScore_match (x : World × Run σ ρ ν μ) : drawAndScore x.1 x.2 =
    match drawn x with
    | .error crash => (x.1.visit .draw, { x.2 with stage := .crashed crash })
    | .ok c =>
      match rated x c.1 with
      | .error crash => ((withDrawn x c).1, { (withDrawn x c).2 with stage := .crashed crash })
      | .ok result => afterScore (withDrawn x c).1 (withDrawn x c).2 result := by
  unfold drawAndScore drawn
  cases Sampler.draw x.2.sampler x.2.sink.region x.2.source x.2.candidate <;> rfl

theorem drawAndScore_course (x : World × Run σ ρ ν μ) :
    DrawCourse x (drawEntries x) (drawAndScore x.1 x.2) := by
  rw [drawAndScore_match, drawEntries]
  cases hd : drawn x with
  | error crash => exact .undrawn hd
  | ok c =>
    simp only []
    cases hs : rated x c.1 with
    | error crash => exact .unscored hd hs
    | ok result =>
      cases result with
      | error fault => exact .discarded hd hs
      | ok score =>
        have hscore := afterScore_score (withDrawn x c) score
        have hsame : reportable (withDrawn x c).2 score = reportable x.2 score := rfl
        simp only [scoreEntries]
        rw [hsame] at hscore ⊢
        cases hr : reportable x.2 score with
        | false =>
          rw [hr] at hscore
          exact hscore ▸ .passed hd hs hr
        | true =>
          rw [hr] at hscore
          exact hscore ▸ .reported hd hs hr rfl

theorem step_eq (x : World × Run σ ρ ν μ) : step x.1 x.2 =
    match x.2.stage with
    | .looping =>
      match x.1.poll Sink.handle x.2.sink with
      | (.halt reason, w, sink) => finish w (x.2.withSink sink) (.stopped reason)
      | (.proceed, w, sink) =>
        match SamplingMonitor.command w.surroundings x.2.monitor with
        | .terminate cause => finish w (x.2.withSink sink) (.aborted cause)
        | .proceed => drawAndScore w (x.2.withSink sink)
    | .reporting q => afterEmission x.2 q.score (x.1.resume Sink.handle x.2.sink q)
    | .ended _ | .violated _ | .crashed _ => x :=
  rfl

theorem step_course (x : World × Run σ ρ ν μ) : Course x (entries x) (step x.1 x.2) := by
  rw [step_eq, entries]
  cases hstage : x.2.stage with
  | looping =>
    rcases hp : x.1.poll Sink.handle x.2.sink with ⟨_ | reason, w, sink⟩
    · simp only []
      cases hc : SamplingMonitor.command w.surroundings x.2.monitor with
      | terminate cause => exact .aborted hstage hp hc
      | proceed =>
        have hopens : Opens x (w, x.2.withSink sink) := ⟨hstage, hp, hc, rfl⟩
        exact .drew hopens (drawAndScore_course (w, x.2.withSink sink))
    · exact .stopped hstage hp
  | reporting q => exact .resumed hstage
  | ended | violated | crashed => exact .idle (by simp [isOver, hstage])

theorem DrawCourse.ready {x y : World × Run σ ρ ν μ} {es : List Entry} (h : DrawCourse x es y)
    (hl : x.2.stage = .looping) (hs : x.1.channel.stopped = none) :
    Ready y ∧ ∀ a ∈ attempts es, a.Admitted := by
  cases h with
  | undrawn => exact ⟨⟨nofun, nofun⟩, by simp⟩
  | unscored => exact ⟨⟨nofun, nofun⟩, by simp⟩
  | discarded => exact ⟨.of_looping hl, by simp⟩
  | passed => exact ⟨.of_looping (by rw [judged_run]; exact hl), by simp⟩
  | @reported c score z _ _ _ hz =>
    have hlisten : z.1.channel.stopped = none := by
      rw [← hz]
      exact (quiet_judged x c score).disturbed.stopped.trans hs
    obtain ⟨q, rfl, ha⟩ := emission_answered hlisten score
    exact ⟨ha.ready, ha.admitted⟩

theorem Course.ready {x y : World × Run σ ρ ν μ} {es : List Entry} (h : Course x es y)
    (hx : Ready x) : Ready y ∧ ∀ a ∈ attempts es, a.Admitted := by
  cases h with
  | idle => exact ⟨hx, by simp⟩
  | stopped => exact ⟨⟨nofun, nofun⟩, by simp⟩
  | aborted => exact ⟨⟨nofun, nofun⟩, by simp⟩
  | drew ho hd => exact hd.ready ho.looping_after ho.listens
  | resumed hq => exact ⟨(hx.answered hq).ready, (hx.answered hq).admitted⟩

/-- What is known of a run before its first turn. -/
structure Begun (w₀ : World) (policy : ReportPolicy) (m : Model) (monitor : μ)
    (x : World × Run σ ρ ν μ) : Prop where
  channel : x.1.channel = w₀.channel
  history : x.1.history = w₀.history
  delivered : x.1.delivered = w₀.delivered
  policy : x.2.policy = policy
  model : x.2.model = m
  sink : x.2.sink = ⟨.ofModel m, .zero⟩
  looping : x.2.stage = .looping
  entered : x.2.monitor = (SamplingMonitor.hear w₀.surroundings (.entered m) monitor).1

omit [Sampler σ ρ] [Scorer ν] in
theorem begun {w₀ w : World} {policy : ReportPolicy} {m : Model} {sampler : σ} {source : ρ}
    {scorer : ν} {monitor : μ} {r : Run σ ρ ν μ}
    (h : begin w₀ policy m sampler source scorer monitor = .ok (w, r)) :
    Begun w₀ policy m monitor (w, r) := by
  unfold begin at h
  split at h
  · rw [← Except.ok.inj h]
    exact ⟨World.noteAll_channel _ _, World.noteAll_history _ _, World.noteAll_delivered _ _,
      rfl, rfl, rfl, rfl, rfl⟩
  · cases h

/-- What others do leaves no entry. -/
def moveEntries (x : World × Run σ ρ ν μ) : Move → List Entry
  | .act _ | .plan _ => []
  | .step => entries x

/-- What a run draws, attempts to report and ends with, in order, while these moves happen. -/
def chronicle (x : World × Run σ ρ ν μ) : List Move → List Entry
  | [] => []
  | v :: vs => moveEntries x v ++ chronicle (next x v) vs

theorem next_ready {x : World × Run σ ρ ν μ} (hx : Ready x) (v : Move) :
    Ready (next x v) ∧ ∀ a ∈ attempts (moveEntries x v), a.Admitted := by
  cases v with
  | act a =>
    have hd := World.act_disturbed x.1 a
    refine ⟨⟨fun q hq => ?_, hx.unviolated⟩, by simp [moveEntries]⟩
    obtain ⟨hs, hscenario, hseq⟩ := hx.waiting q hq
    exact ⟨hd.stopped.trans hs, hscenario, hseq.trans hd.emitted.symm⟩
  | plan script => exact ⟨⟨hx.waiting, hx.unviolated⟩, by simp [moveEntries]⟩
  | step => exact (step_course x).ready hx

theorem play_ready : ∀ (vs : List Move) {x : World × Run σ ρ ν μ}, Ready x →
    Ready (play x vs) ∧ ∀ a ∈ attempts (chronicle x vs), a.Admitted
  | [], _, hx => ⟨hx, by simp [chronicle]⟩
  | v :: vs, x, hx => by
    obtain ⟨hnext, hentries⟩ := next_ready hx v
    obtain ⟨hrest, hadmitted⟩ := play_ready vs hnext
    refine ⟨hrest, fun a ha => ?_⟩
    rw [chronicle, attempts_append, List.mem_append] at ha
    exact ha.elim (hentries a) (hadmitted a)

theorem chronicle_step (x : World × Run σ ρ ν μ) (vs : List Move) :
    chronicle x (.step :: vs) = entries x ++ chronicle (step x.1 x.2) vs := rfl

theorem play_step (x : World × Run σ ρ ν μ) (vs : List Move) :
    play x (.step :: vs) = play (step x.1 x.2) vs := rfl

theorem entries_of_over {x : World × Run σ ρ ν μ} (h : x.2.isOver = true) :
    entries x = [] ∧ step x.1 x.2 = x := by
  rw [step_eq, entries]
  cases hs : x.2.stage with
  | looping | reporting => simp [isOver, hs] at h
  | ended | violated | crashed => exact ⟨rfl, rfl⟩

omit [SamplingMonitor μ] [Sampler σ ρ] [Scorer ν] in
theorem of_outcome {r : Run σ ρ ν μ} {o : Outcome} (h : r.outcome? = some o) :
    r.stage = .ended o.reason ∧ o.best = r.best ∧ o.statistics = r.sink.statistics := by
  unfold outcome? at h
  split at h
  · rename_i reason hend
    rw [← Option.some.inj h]
    exact ⟨hend, rfl, rfl⟩
  · cases h

/-- A run that is over stays as it is, whatever others do. -/
theorem play_over : ∀ (vs : List Move) {x : World × Run σ ρ ν μ}, x.2.isOver = true →
    chronicle x vs = [] ∧ (play x vs).2 = x.2
  | [], _, _ => ⟨rfl, rfl⟩
  | .act a :: vs, x, h => play_over vs (x := (x.1.act a, x.2)) h
  | .plan script :: vs, x, h => play_over vs (x := ({ x.1 with script := script }, x.2)) h
  | .step :: vs, x, h => by
    obtain ⟨hnone, hsame⟩ := entries_of_over h
    rw [chronicle_step, play_step, hnone, hsame]
    exact play_over vs h

/-- The first turn at an end of the bridge that has stopped ends the run. -/
theorem step_of_stopped {x : World × Run σ ρ ν μ} {reason : StopReason}
    (hl : x.2.stage = .looping) (hs : x.1.channel.stopped = some reason) :
    entries x = [.ended (.stopped reason)]
      ∧ step x.1 x.2 = finish x.1 (x.2.withSink x.2.sink) (.stopped reason) := by
  rw [step_eq, entries, hl]
  simp only [World.poll_of_stopped Sink.handle hs, and_self]

theorem play_stopped {reason : StopReason} {vs : List Move} (hv : .step ∈ vs)
    {x : World × Run σ ρ ν μ} (hl : x.2.stage = .looping)
    (hs : x.1.channel.stopped = some reason) :
    chronicle x vs = [.ended (.stopped reason)]
      ∧ ∃ o, (play x vs).2.outcome? = some o ∧ o.reason = .stopped reason
        ∧ o.statistics.samples = x.2.sink.statistics.samples := by
  induction vs generalizing x with
  | nil => cases hv
  | cons v vs ih =>
    cases v with
    | act a =>
      have hact : (x.1.act a).channel.stopped = some reason :=
        (World.act_disturbed x.1 a).stopped.trans hs
      exact ih (by simpa using hv) (x := (x.1.act a, x.2)) hl hact
    | plan script => exact ih (by simpa using hv) (x := ({ x.1 with script := script }, x.2)) hl hs
    | step =>
      obtain ⟨hentries, hstep⟩ := step_of_stopped hl hs
      obtain ⟨hnone, hsame⟩ := play_over vs (x := finish x.1 (x.2.withSink x.2.sink)
        (.stopped reason)) rfl
      rw [chronicle_step, play_step, hentries, hstep, hnone, hsame]
      exact ⟨rfl, _, rfl, rfl, rfl⟩

/-- In every run, whatever the others do and wherever its end of the bridge is when it begins, each
attempt to report meets an end that listens and is not refused. A run that is over has an outcome
unless its sampler or its scorer crashed, and one that begins after a stop ends with the reason for
it, without a draw or a report. -/
theorem reports_never_refused {w₀ w : World} {policy : ReportPolicy} {m : Model} {sampler : σ}
    {source : ρ} {scorer : ν} {monitor : μ} {r : Run σ ρ ν μ}
    (h : begin w₀ policy m sampler source scorer monitor = .ok (w, r)) (vs : List Move) :
    let x := play (w, r) vs
    (∀ a ∈ attempts (chronicle (w, r) vs), a.world.channel.stopped = none
        ∧ ∀ v, a.answer ≠ .refused v)
      ∧ (∀ v, x.2.stage ≠ .violated v)
      ∧ (x.2.isOver = true → (∃ o, x.2.outcome? = some o) ∨ ∃ crash, x.2.stage = .crashed crash)
      ∧ ∀ reason, w₀.channel.stopped = some reason → .step ∈ vs →
        chronicle (w, r) vs = [.ended (.stopped reason)]
          ∧ ∃ o, x.2.outcome? = some o ∧ o.reason = .stopped reason
            ∧ o.statistics.samples = 0 := by
  intro x
  have hb := begun h
  obtain ⟨hx, hadmitted⟩ := play_ready vs (Ready.of_looping hb.looping)
  refine ⟨hadmitted, hx.unviolated, fun hover => ?_, fun reason hs hv => ?_⟩
  · cases hstage : x.2.stage with
    | looping | reporting => simp [isOver, hstage] at hover
    | ended reason => exact .inl ⟨_, by rw [outcome?, hstage]⟩
    | violated v => exact (hx.unviolated v hstage).elim
    | crashed crash => exact .inr ⟨crash, rfl⟩
  · have hsamples : r.sink.statistics.samples = 0 := by
      have hsink : r.sink = ⟨.ofModel m, .zero⟩ := hb.sink
      rw [hsink]
      rfl
    have hstopped : w.channel.stopped = some reason := by
      have hchannel : w.channel = w₀.channel := hb.channel
      rw [hchannel, hs]
    obtain ⟨hentries, o, ho, hreason, hcount⟩ := play_stopped hv hb.looping hstopped
    exact ⟨hentries, o, ho, hreason, hcount.trans hsamples⟩

/-- On an endpoint where a strategy was found before the run, the run draws nothing. -/
theorem never_refused_after_strategyFound :
    let domain : Domain := ⟨0, 3, by decide, by decide, by decide⟩
    let m : Model :=
      ⟨.closed, [⟨"x", ⟨0⟩, .decision .existential, .int, domain⟩], [], [("x", ⟨0⟩)], 0⟩
    let w₀ : World := ((World.ofCapacity 1).halt .strategyFound).2
    ∃ w r, begin w₀ ⟨0, false⟩ m UniformSampler.mk (⟨#[], 0⟩ : WordCycle) ConstraintScorer.mk
        (Monitor.recorder "all") = .ok (w, r)
      ∧ chronicle (w, r) [.act (.notify .failure), .step]
        = [.ended (.stopped .strategyFound)] := by
  intro domain m w₀
  have h : begin w₀ ⟨0, false⟩ m UniformSampler.mk (⟨#[], 0⟩ : WordCycle) ConstraintScorer.mk
    (Monitor.recorder "all") = .ok (_, _) := rfl
  obtain ⟨-, -, -, hstopped⟩ := reports_never_refused h [.act (.notify .failure), .step]
  exact ⟨_, _, h, (hstopped .strategyFound rfl (by simp)).1⟩

end Run

end ScenarioSampling
