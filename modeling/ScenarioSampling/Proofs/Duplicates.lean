import Mathlib.Data.List.Basic
import ScenarioSampling.Bridge.World

/-!
# Duplicates

The search's end remembers the number of the report that it accepted last and drops every report
that is not above it. Whatever numbers come, and however the reads are mixed, what is returned are
the reports that are above the number remembered at first and above all reports in front of them
(`returned_lead`). So the numbers returned only ever rise, and of a rising stream in which reports
are delivered again each one is returned once.
-/

namespace ScenarioSampling

/-- The report has a higher number than `last` and all reports `ahead` of it. -/
def Report.Leads (last : Option Nat) (ahead : List Report) (r : Report) : Prop :=
  (∀ l ∈ last, l < r.sequence) ∧ ∀ q ∈ ahead, q.sequence < r.sequence

instance (last : Option Nat) (ahead : List Report) (r : Report) :
    Decidable (r.Leads last ahead) :=
  inferInstanceAs (Decidable (_ ∧ _))

/-- The reports of a queue that are above `last` and all those in front of them. -/
def Report.leaders (last : Option Nat) (queue : List Report) : List Report :=
  (queue.zipIdx.filter fun p => p.1.Leads last (queue.take p.2)).map Prod.fst

/-- Numbers that rise along a list of reports. -/
def Report.Rising (rs : List Report) : Prop := rs.Pairwise fun r s => r.sequence < s.sequence

/-- What happens at the search's end of the outbound queue. -/
inductive QueueStep where
  /-- A report comes, whatever its number. -/
  | arrive (r : Report)
  /-- The search begins or ceases to wait; while it waits, it tries again. -/
  | await (flag : Bool)
  | tryNext
  | drain

/-- The report that arrives in this step. -/
def QueueStep.arrival? : QueueStep → Option Report
  | .arrive r => some r
  | .await _ | .tryNext | .drain => none

/-- The reports that arrive, in order. -/
def QueueStep.arrivals (steps : List QueueStep) : List Report := steps.filterMap arrival?

namespace World

/-- What one step returns to the search. -/
def takeStep (w : World) : QueueStep → List Report × World
  | .arrive r => ([], { w with channel := { w.channel with outbound := w.channel.outbound ++ [r] } })
  | .await flag => ([], w.setReceiving flag)
  | .tryNext => (w.tryNext.1.toList, w.tryNext.2)
  | .drain => w.drain

/-- All that the steps return to the search, in order. -/
def takeSteps (w : World) : List QueueStep → List Report × World
  | [] => ([], w)
  | s :: steps =>
    let (now, w) := w.takeStep s
    let (later, w) := w.takeSteps steps
    (now ++ later, w)

end World

namespace Report

variable {last : Option Nat} {ahead queue : List Report} {r : Report}

theorem leads_nil : r.Leads last [] ↔ ∀ l ∈ last, l < r.sequence :=
  ⟨And.left, fun h => ⟨h, by simp⟩⟩

theorem leads_some {n : Nat} : r.Leads (some n) [] ↔ n < r.sequence := by
  simp [leads_nil]

theorem leads_cons {q : Report} :
    r.Leads last (q :: ahead) ↔ q.sequence < r.sequence ∧ r.Leads last ahead := by
  simp only [Leads, List.forall_mem_cons]
  exact and_left_comm

theorem leads_of_lt {q : Report} (hq : q.Leads last []) (h : q.sequence < r.sequence) :
    r.Leads last [] :=
  leads_nil.mpr fun l hl => Nat.lt_trans (leads_nil.mp hq l hl) h

/-- Above a report that leads is what is above `last` and that report. -/
theorem leads_some_of_leads {q : Report} (hq : q.Leads last []) :
    r.Leads (some q.sequence) ahead ↔ r.Leads last (q :: ahead) := by
  rw [leads_cons]
  constructor
  · rintro ⟨hr, ha⟩
    have hr' : q.sequence < r.sequence := hr _ rfl
    exact ⟨hr', (leads_of_lt hq hr').1, ha⟩
  · rintro ⟨hr, -, ha⟩
    exact ⟨by simpa using hr, ha⟩

/-- One that does not lead is no obstacle to those behind it. -/
theorem leads_of_not_leads {q : Report} (hq : ¬ q.Leads last []) :
    r.Leads last ahead ↔ r.Leads last (q :: ahead) := by
  rw [leads_cons, iff_and_self]
  intro hr
  refine Nat.lt_of_not_le fun hle => hq (leads_nil.mpr fun l hl => ?_)
  exact Nat.lt_of_lt_of_le (hr.1 l hl) hle

theorem leaders_cons (last : Option Nat) (q : Report) (queue : List Report) :
    leaders last (q :: queue)
      = if q.Leads last [] then q :: leaders (some q.sequence) queue else leaders last queue := by
  have htail : ∀ last', (∀ (i : Nat) (r : Report),
      r.Leads last' (queue.take i) ↔ r.Leads last (q :: queue.take i)) →
      ((queue.zipIdx.map (Prod.map id (· + 1))).filter fun p =>
        p.1.Leads last ((q :: queue).take p.2)).map Prod.fst = leaders last' queue := by
    intro last' h
    rw [List.filter_map, List.map_map, leaders]
    congr 1
    refine List.filter_congr fun p _ => ?_
    exact decide_eq_decide.mpr (h p.2 p.1).symm
  rw [leaders, List.zipIdx_cons']
  by_cases hq : q.Leads last []
  · rw [List.filter_cons_of_pos (by exact decide_eq_true hq), if_pos hq, List.map_cons,
      htail (some q.sequence) fun i r => leads_some_of_leads hq]
  · rw [List.filter_cons_of_neg (by exact fun h => hq (of_decide_eq_true h)), if_neg hq,
      htail last fun i r => leads_of_not_leads hq]

theorem leaders_rise : ∀ (queue : List Report) (last : Option Nat),
    Rising (leaders last queue) ∧ ∀ r ∈ leaders last queue, r.Leads last []
  | [], last => ⟨.nil, by simp [leaders]⟩
  | q :: queue, last => by
    rw [leaders_cons]
    split
    · rename_i hq
      obtain ⟨hrise, hlead⟩ := leaders_rise queue (some q.sequence)
      refine ⟨List.pairwise_cons.mpr ⟨fun r hr => leads_some.mp (hlead r hr), hrise⟩, ?_⟩
      intro r hr
      rcases List.mem_cons.mp hr with rfl | hr
      · exact hq
      · exact leads_of_lt hq (leads_some.mp (hlead r hr))
    · exact leaders_rise queue last

/-- Reports that are not above `last` can be left out. -/
theorem leaders_filter (keep : Report → Bool) : ∀ (queue : List Report) (last : Option Nat),
    (∀ r ∈ queue, keep r = false → ¬ r.Leads last []) →
      leaders last (queue.filter keep) = leaders last queue
  | [], _, _ => rfl
  | q :: queue, last, h => by
    obtain ⟨hq, hqueue⟩ := List.forall_mem_cons.mp h
    have hrest := leaders_filter keep queue last hqueue
    rcases hk : keep q with _ | _
    · rw [List.filter_cons_of_neg (by simp [hk]), leaders_cons, if_neg (hq hk), hrest]
    · rw [List.filter_cons_of_pos hk, leaders_cons, leaders_cons, hrest]
      split
      · rename_i hlead
        rw [leaders_filter keep queue (some q.sequence) fun r hr hkr hl =>
          hqueue r hr hkr (leads_of_lt hlead (leads_some.mp hl))]
      · rfl

/-- Of a rising stream whose reports come again and again, each is taken once, unless it was not
above `last` at first. -/
theorem leaders_of_repeated : ∀ (queue : List Report) (last : Option Nat),
    Rising queue.eraseDups →
      leaders last queue = queue.eraseDups.filter fun r => r.Leads last []
  | [], _, _ => rfl
  | q :: queue, last, h => by
    rw [List.eraseDups_cons] at h ⊢
    obtain ⟨hq, hrise⟩ := List.pairwise_cons.mp h
    have hlen : (queue.filter fun r => !r == q).length < queue.length + 1 :=
      Nat.lt_succ_of_le (List.length_filter_le _ _)
    have hagain : ∀ last', ¬ q.Leads last' [] →
        leaders last' (queue.filter fun r => !r == q) = leaders last' queue := by
      refine fun last' hlast => leaders_filter _ queue last' fun r _ hr => ?_
      obtain rfl : r = q := by simpa using hr
      exact hlast
    rw [leaders_cons]
    by_cases hlead : q.Leads last []
    · have hself : ¬ q.Leads (some q.sequence) [] := by simp [leads_some]
      rw [if_pos hlead, ← hagain _ hself, leaders_of_repeated _ _ hrise,
        List.filter_cons_of_pos (by exact decide_eq_true hlead)]
      congr 1
      refine List.filter_congr fun r hr => decide_eq_decide.mpr ?_
      exact ⟨fun hr' => leads_of_lt hlead (leads_some.mp hr'), fun _ => leads_some.mpr (hq r hr)⟩
    · rw [if_neg hlead, ← hagain _ hlead, leaders_of_repeated _ _ hrise,
        List.filter_cons_of_neg (by exact fun hl => hlead (of_decide_eq_true hl))]
termination_by queue => queue.length

end Report

namespace World

open Report QueueStep

/-- Between `w` and `w'` the reports `arrived` came and `returned` went to the search: with
whatever else may come, they are the leaders that were due and are no longer. -/
def Filtered (w : World) (arrived returned : List Report) (w' : World) : Prop :=
  ∀ more, returned ++ leaders w'.channel.lastSequence (w'.channel.outbound ++ more)
    = leaders w.channel.lastSequence (w.channel.outbound ++ arrived ++ more)

variable {w w' w'' : World}

theorem Filtered.refl (w : World) : Filtered w [] [] w := fun _ => by
  rw [List.nil_append, List.append_nil]

theorem Filtered.trans {as bs rs ts : List Report} (h : Filtered w as rs w')
    (h' : Filtered w' bs ts w'') : Filtered w (as ++ bs) (rs ++ ts) w'' := fun more => by
  have hrest := h (bs ++ more)
  rw [← List.append_assoc, ← h' more] at hrest
  rw [List.append_assoc, hrest]
  simp only [List.append_assoc]

theorem isFresh_iff {c : Channel} {r : Report} :
    c.isFresh r = true ↔ r.Leads c.lastSequence [] := by
  unfold Channel.isFresh
  rcases c.lastSequence with _ | l <;> simp [leads_nil]

theorem takeFresh_leaders : ∀ (queue : List Report) (w : World) (more : List Report),
    (w.takeFresh queue).1.toList ++ leaders (w.takeFresh queue).2.channel.lastSequence
        ((w.takeFresh queue).2.channel.outbound ++ more)
      = leaders w.channel.lastSequence (queue ++ more)
  | [], _, _ => rfl
  | r :: queue, w, more => by
    unfold takeFresh
    rw [List.cons_append, leaders_cons]
    split
    · rename_i hr
      rw [if_pos (isFresh_iff.mp hr)]
      rfl
    · rename_i hr
      rw [if_neg fun hl => hr (isFresh_iff.mpr hl)]
      exact takeFresh_leaders queue (w.note (.duplicateDropped r.sequence)) more

theorem tryNext_filtered (w : World) : Filtered w [] w.tryNext.1.toList w.tryNext.2 := fun more => by
  rw [List.append_nil]
  exact takeFresh_leaders w.channel.outbound w more

theorem drainAtMost_filtered : ∀ (n : Nat) (w : World),
    Filtered w [] (w.drainAtMost n).1 (w.drainAtMost n).2
  | 0, w => .refl w
  | n + 1, w => by
    have hfirst := tryNext_filtered w
    unfold drainAtMost
    rcases hr : w.tryNext with ⟨_ | r, w'⟩ <;> rw [hr] at hfirst
    · exact hfirst
    · exact hfirst.trans (drainAtMost_filtered n w')

/-- A read that returns nothing has emptied the queue, and any other has shortened it. -/
theorem takeFresh_remaining : ∀ (queue : List Report) (w : World),
    match w.takeFresh queue with
    | (none, w') => w'.channel.outbound = []
    | (some _, w') => w'.channel.outbound.length < queue.length
  | [], _ => rfl
  | r :: queue, w => by
    have hrest := takeFresh_remaining queue (w.note (.duplicateDropped r.sequence))
    unfold takeFresh
    by_cases hf : w.channel.isFresh r = true
    · rw [if_pos hf]
      exact Nat.lt_succ_self _
    · rw [if_neg hf]
      rcases hr : (w.note (.duplicateDropped r.sequence)).takeFresh queue with ⟨_ | q, w'⟩ <;>
        rw [hr] at hrest
      · exact hrest
      · exact Nat.lt_succ_of_lt hrest

theorem drainAtMost_empties : ∀ (n : Nat) (w : World), w.channel.outbound.length < n →
    (w.drainAtMost n).2.channel.outbound = []
  | 0, _, h => absurd h (Nat.not_lt_zero _)
  | n + 1, w, h => by
    have hremaining : match w.tryNext with
      | (none, w') => w'.channel.outbound = []
      | (some _, w') => w'.channel.outbound.length < w.channel.outbound.length :=
        takeFresh_remaining w.channel.outbound w
    unfold drainAtMost
    rcases hr : w.tryNext with ⟨_ | r, w'⟩ <;> rw [hr] at hremaining
    · exact hremaining
    · exact drainAtMost_empties n w' (Nat.lt_of_lt_of_le hremaining (Nat.le_of_lt_succ h))

theorem drain_empties (w : World) : w.drain.2.channel.outbound = [] :=
  drainAtMost_empties _ w (Nat.lt_succ_self _)

theorem takeStep_filtered (w : World) (s : QueueStep) :
    Filtered w s.arrival?.toList (w.takeStep s).1 (w.takeStep s).2 := by
  cases s with
  | arrive r => exact fun more => rfl
  | await flag => exact .refl w
  | tryNext => exact tryNext_filtered w
  | drain => exact drainAtMost_filtered _ w

theorem takeSteps_filtered : ∀ (steps : List QueueStep) (w : World),
    Filtered w (arrivals steps) (w.takeSteps steps).1 (w.takeSteps steps).2
  | [], w => .refl w
  | s :: steps, w => by
    have harrivals : arrivals (s :: steps) = s.arrival?.toList ++ arrivals steps := by
      rw [arrivals, List.filterMap_cons]
      rcases s.arrival? with _ | r <;> rfl
    rw [harrivals]
    exact (takeStep_filtered w s).trans (takeSteps_filtered steps _)

/-- From any state of the search's end, with any reports in its queue and others that come, the
reads return what leads, in order and however they are mixed: once the queue is empty, the reports
above the number remembered at first and above all those in front of them. The numbers returned
rise in any case. If the reports that came are a rising stream, some of them again and again, each
one that is above the number remembered is returned once. A drain empties the queue. -/
theorem returned_lead (w : World) (steps : List QueueStep) :
    let last := w.channel.lastSequence
    let queue := w.channel.outbound ++ arrivals steps
    let returned := (w.takeSteps steps).1
    let w' := (w.takeSteps steps).2
    (w'.channel.outbound = [] → returned = leaders last queue)
      ∧ (Rising returned ∧ ∀ r ∈ returned, ∀ l ∈ last, l < r.sequence)
      ∧ (w'.channel.outbound = [] → Rising queue.eraseDups →
        returned = queue.eraseDups.filter fun r => r.Leads last [])
      ∧ w'.drain.2.channel.outbound = [] := by
  intro last queue returned w'
  have hall : returned ++ leaders w'.channel.lastSequence w'.channel.outbound
      = leaders last queue := by
    have hfiltered := takeSteps_filtered steps w []
    rwa [List.append_nil, List.append_nil] at hfiltered
  have hempty : w'.channel.outbound = [] → returned = leaders last queue := by
    intro hout
    rw [hout] at hall
    exact (List.append_nil returned).symm.trans hall
  obtain ⟨hrise, hlead⟩ := leaders_rise queue last
  rw [← hall] at hrise hlead
  refine ⟨hempty, ⟨(List.pairwise_append.mp hrise).1, fun r hr => ?_⟩, fun hout hstream => ?_,
    drain_empties w'⟩
  · exact leads_nil.mp (hlead r (List.mem_append_left _ hr))
  · rw [hempty hout, leaders_of_repeated queue last hstream]

/-- Number 1 was read before, and 3 and 4 come again, the latter between two reads. -/
theorem returned_lead_of_repeated :
    let r : Nat → Report := fun n => ⟨⟨[some 7]⟩, 0, n, 0⟩
    let fresh := World.ofCapacity 8
    let w := { fresh with channel := { fresh.channel with
      outbound := [r 1, r 3, r 1, r 3, r 4, r 3]
      lastSequence := some 2 } }
    let steps : List QueueStep := [.tryNext, .arrive (r 4), .await true, .arrive (r 6), .drain]
    let came := w.channel.outbound ++ arrivals steps
    (w.takeSteps steps).2.channel.outbound = [] ∧ Rising came.eraseDups
      ∧ (w.takeSteps steps).1 = came.eraseDups.filter (fun q => q.Leads (some 2) [])
      ∧ (w.takeSteps steps).1 = leaders (some 2) came
      ∧ leaders (some 2) came = [r 3, r 4, r 6] := by
  intro r fresh w steps came
  have hout : (w.takeSteps steps).2.channel.outbound = [] := by decide
  have hrise : Rising came.eraseDups := by
    unfold Rising
    decide
  obtain ⟨hleaders, -, honce, -⟩ := returned_lead w steps
  exact ⟨hout, hrise, honce hout hrise, hleaders hout, by decide⟩

end World

end ScenarioSampling
