import ScenarioSampling.Proofs.Decisions

/-!
# Going back

The search goes back in two ways. It fails, which takes its latest choice off the stack, or it
chooses anew for a variable that is on the stack, which is the same as failing down to that decision
and choosing there (`rechoice_is_failures_then_choice`). Either way the pins go, so a stretch in
which every choice is taken back by a failure leaves no trace, whatever was shared meanwhile
(`excursion_leaves_no_trace`).
-/

namespace ScenarioSampling

theorem Interval.exists_within_iff {f : IntFormat} {a : Interval f} {lo hi : Int} :
    (∃ d, a.within? lo hi = some d) ↔
      f.Fits lo ∧ f.Fits hi ∧ ∃ v, lo ≤ v ∧ v ≤ hi ∧ a.contains v = true := by
  constructor
  · rintro ⟨d, hd⟩
    have hv := (contains_within hd d.lo).mp (by simpa [contains] using d.lo_le_hi)
    unfold within? at hd
    split at hd
    · rename_i h
      exact ⟨h.1, h.2.1, d.lo, hv⟩
    · cases hd
  · rintro ⟨hlo, hhi, v, hlv, hvh, hv⟩
    rw [contains_iff] at hv
    exact ⟨_, dif_pos ⟨hlo, hhi, by omega⟩⟩

/-- Bounds between which there is a value of the declared domain of `x`. -/
def Region.Meets (declared : List Domain) (x : VarIndex) (lo hi : Int) : Prop :=
  IntFormat.int64.Fits lo ∧ IntFormat.int64.Fits hi ∧
    ∃ a, declared[x.val]? = some a ∧ ∃ v, lo ≤ v ∧ v ≤ hi ∧ a.contains v = true

/-- What the search may say while it goes down from a node and comes all the way back. The variables
`chosen` are on the stack there; it chooses others only, and takes each choice back by a failure.
Below a choice of its own it may also share scenarios. -/
inductive Region.Excursion (declared : List Domain) : Bool → List VarIndex → List Event → Prop
  | done {below : Bool} {chosen : List VarIndex} : Excursion declared below chosen []
  | ignored {below : Bool} {chosen : List VarIndex} {x : VarIndex} {lo hi : Int} {es : List Event} :
    ¬ Meets declared x lo hi → Excursion declared below chosen es →
      Excursion declared below chosen (.choice x lo hi :: es)
  | shared {chosen : List VarIndex} {es : List Event} (s : Scenario) :
    Excursion declared true chosen es → Excursion declared true chosen (.shared s :: es)
  | undone {below : Bool} {chosen : List VarIndex} {x : VarIndex} {lo hi : Int}
    {es fs : List Event} : x ∉ chosen → Meets declared x lo hi →
      Excursion declared true (chosen ++ [x]) es → Excursion declared below chosen fs →
      Excursion declared below chosen (.choice x lo hi :: (es ++ .failure :: fs))

namespace Decisions

open Region

variable {declared : List Domain} {n : Decisions} {x : VarIndex} {lo hi : Int}

theorem meets_iff : Meets declared x lo hi ↔
    ∃ d, (declared[x.val]?.bind fun a => a.within? lo hi) = some d := by
  constructor
  · rintro ⟨hlo, hhi, a, ha, hv⟩
    obtain ⟨d, hd⟩ := Interval.exists_within_iff.mpr ⟨hlo, hhi, hv⟩
    exact ⟨d, by rw [ha, Option.bind_some, hd]⟩
  · rintro ⟨d, hd⟩
    obtain ⟨a, ha, had⟩ := Option.bind_eq_some_iff.mp hd
    obtain ⟨hlo, hhi, hv⟩ := Interval.exists_within_iff.mp ⟨d, had⟩
    exact ⟨hlo, hhi, a, ha, hv⟩

/-- What a choice puts on the stack does not depend on what is there. -/
theorem choose_of_meets (h : Meets declared x lo hi) :
    ∃ d, ∀ n : Decisions, n.choose declared x lo hi = ofStack (n.below x ++ [⟨x, d⟩]) := by
  obtain ⟨d, hd⟩ := meets_iff.mp h
  refine ⟨d, fun n => ?_⟩
  rw [choose, hd]

theorem choose_of_not_meets (h : ¬ Meets declared x lo hi) (n : Decisions) :
    n.choose declared x lo hi = n := by
  have hnone : (declared[x.val]?.bind fun a => a.within? lo hi) = none := by
    rw [Option.eq_none_iff_forall_ne_some]
    exact fun d hd => h (meets_iff.mpr ⟨d, hd⟩)
  rw [choose, hnone]

/-- A choice is accepted exactly if its bounds meet the declared domain. -/
theorem choose_eq_ok_iff (hn : n.Valid declared) {d : Region} :
    (n.region declared).choose x lo hi = .ok d ↔
      Meets declared x lo hi ∧ (n.choose declared x lo hi).region declared = d := by
  have hok : (n.region declared).choose x lo hi = .ok d ↔
      ((n.region declared).choose x lo hi).toOption = some d := by
    rcases (n.region declared).choose x lo hi with _ | _ <;> simp [Except.toOption]
  rw [hok, choose_region hn, meets_iff, choose]
  rcases declared[x.val]?.bind fun a => a.within? lo hi with _ | a <;> simp

section Rechoice

theorem split_stack {p : Nat} {c : Choice} (hp : n.stack[p]? = some c) :
    n.stack = n.stack.take p ++ c :: n.stack.drop (p + 1) := by
  obtain ⟨hlt, hc⟩ := List.getElem?_eq_some_iff.mp hp
  rw [← hc, ← List.drop_eq_getElem_cons, List.take_append_drop]

theorem ne_of_mem_take {p : Nat} {c e : Choice} (h : (n.stack.map Choice.var).Nodup)
    (hp : n.stack[p]? = some c) (he : e ∈ n.stack.take p) : e.var ≠ c.var := by
  rw [split_stack hp, List.map_append, List.map_cons, List.nodup_middle, List.nodup_cons] at h
  exact fun heq => h.1 (List.mem_append_left _ (List.mem_map.mpr ⟨e, he, heq⟩))

theorem below_of_getElem? {p : Nat} {c : Choice} (h : (n.stack.map Choice.var).Nodup)
    (hp : n.stack[p]? = some c) : n.below c.var = n.stack.take p := by
  have hbefore : ∀ e ∈ n.stack.take p, decide (e.var ≠ c.var) = true := fun e he =>
    decide_eq_true (ne_of_mem_take h hp he)
  calc n.below c.var
      = (n.stack.take p ++ c :: n.stack.drop (p + 1)).takeWhile fun e => e.var ≠ c.var := by
        rw [← split_stack hp]
        rfl
    _ = n.stack.take p := by
        rw [List.takeWhile_append_of_pos hbefore, List.takeWhile_cons_of_neg (by simp),
          List.append_nil]

theorem below_concat (n : Decisions) (x : VarIndex) (d : Domain) :
    (ofStack (n.below x ++ [⟨x, d⟩])).below x = n.below x := by
  have hbefore : ∀ e ∈ n.below x, decide (e.var ≠ x) = true := fun e he =>
    decide_eq_true (ne_of_mem_below he)
  rw [below, ofStack, List.takeWhile_append_of_pos hbefore, List.takeWhile_cons_of_neg (by simp),
    List.append_nil]

/-- Choosing again what was just chosen changes nothing. -/
theorem choose_choose (n : Decisions) :
    (n.choose declared x lo hi).choose declared x lo hi = n.choose declared x lo hi := by
  by_cases h : Meets declared x lo hi
  · obtain ⟨d, hd⟩ := choose_of_meets h
    rw [hd n, hd, below_concat]
  · rw [choose_of_not_meets h n, choose_of_not_meets h n]

theorem failures_stack : ∀ (k : Nat) (n : Decisions),
    ((List.replicate k .fail).foldl (perform declared) n).stack = n.stack.take (n.stack.length - k)
  | 0, n => by simp
  | k + 1, n => by
    have hfail : (n.perform declared .fail).stack = n.stack.dropLast := rfl
    rw [List.replicate_succ, List.foldl_cons, failures_stack k, hfail, List.dropLast_eq_take,
      List.take_take, List.length_take]
    congr 1
    omega

/-- After failing down to the entry on a variable, the choices below it are the same. -/
theorem below_failures {p : Nat} {c : Choice} (hn : n.Valid declared)
    (hp : n.stack[p]? = some c) :
    ((List.replicate (n.stack.length - p) .fail).foldl (perform declared) n).below c.var
      = n.below c.var := by
  have hlt : p < n.stack.length := (List.getElem?_eq_some_iff.mp hp).1
  have hstack : ((List.replicate (n.stack.length - p) .fail).foldl (perform declared) n).stack
      = n.stack.take p := by
    rw [failures_stack, Nat.sub_sub_self (Nat.le_of_lt hlt)]
  rw [below_of_getElem? hn.distinct hp, ← hstack, below_eq_stack, hstack]
  exact fun e he => ne_of_mem_take hn.distinct hp he

end Rechoice

section Undone

/-- An accepted choice with what is said below it and the failure that takes it back: the pins are
gone, and else nothing has changed. -/
theorem foldl_undone {es fs : List Event} (hx : x ∉ n.stack.map Choice.var)
    (h : Meets declared x lo hi)
    (hes : ∀ n' : Decisions, n'.stack.map Choice.var = n.stack.map Choice.var ++ [x] →
      (es.foldl (apply declared) n').stack = n'.stack) :
    (Event.choice x lo hi :: (es ++ .failure :: fs)).foldl (apply declared) n
      = fs.foldl (apply declared) (ofStack n.stack) := by
  obtain ⟨d, hd⟩ := choose_of_meets h
  have hbelow : n.below x = n.stack :=
    below_eq_stack.mpr fun c hc heq => hx (List.mem_map.mpr ⟨c, hc, heq⟩)
  have hchosen : n.apply declared (.choice x lo hi) = ofStack (n.stack ++ [⟨x, d⟩]) := by
    rw [apply, hd, hbelow]
  have hstack := hes (ofStack (n.stack ++ [⟨x, d⟩])) (by simp [ofStack])
  have hfail : (es.foldl (apply declared) (ofStack (n.stack ++ [⟨x, d⟩]))).apply declared .failure
      = ofStack n.stack := by
    rw [apply, fail, hstack]
    exact congrArg ofStack List.dropLast_concat
  rw [List.foldl_cons, hchosen, List.foldl_append, List.foldl_cons, hfail]

/-- An excursion brings back the stack. The part that is taken back may have had pins, so the rest
comes back only above it and if there were none. -/
theorem foldl_excursion {below : Bool} {chosen : List VarIndex} {es : List Event}
    (h : Excursion declared below chosen es) :
    ∀ n : Decisions, n.stack.map Choice.var = chosen →
      (es.foldl (apply declared) n).stack = n.stack
        ∧ (below = false → n = ofStack n.stack → es.foldl (apply declared) n = n) := by
  induction h with
  | done => exact fun n _ => ⟨rfl, fun _ _ => rfl⟩
  | ignored hx _ ih =>
    intro n hn
    rw [List.foldl_cons, apply, choose_of_not_meets hx]
    exact ih n hn
  | shared s _ ih => exact fun n hn => ⟨(ih (n.share declared s) hn).1, by simp⟩
  | undone hx hmeets _ _ ihes ihfs =>
    intro n hn
    subst hn
    rw [foldl_undone hx hmeets fun n' hn' => (ihes n' hn').1]
    obtain ⟨hstack, hrest⟩ := ihfs (ofStack n.stack) rfl
    refine ⟨hstack, fun hbelow hpins => ?_⟩
    rw [hrest hbelow rfl, ← hpins]

end Undone

end Decisions

namespace Region

theorem performAll_follows (declared : List Domain) (ops : List Operation) :
    (ops.foldl perform (ofDeclared declared)).Follows declared := by
  rw [Decisions.ofDeclared_region]
  obtain ⟨heq, hvalid⟩ := Decisions.performAll_region ops _ Decisions.initial_valid
  exact ⟨_, hvalid, heq⟩

/-- A choice on the variable at position `p` of the stack, within bounds that meet its declared
domain, leads where failures down to that position followed by the choice would lead. A choice that
was accepted changes nothing when it is made once more. -/
theorem rechoice_is_failures_then_choice (declared : List Domain) (ops : List Operation) :
    let d := ops.foldl perform (ofDeclared declared)
    (∀ p c lo hi, d.choices[p]? = some c → Meets declared c.var lo hi →
        ∃ d', d.choose c.var lo hi = .ok d' ∧
          ((List.replicate (d.depth - p) .fail).foldl perform d).choose c.var lo hi = .ok d')
      ∧ ∀ x lo hi d', d.choose x lo hi = .ok d' → d'.choose x lo hi = .ok d' := by
  intro d
  obtain ⟨n, hn, hd⟩ := performAll_follows declared ops
  change d = n.region declared at hd
  rw [hd]
  refine ⟨fun p c lo hi hp hmeets => ?_, fun x lo hi d' hok => ?_⟩
  · obtain ⟨a, ha⟩ := Decisions.choose_of_meets hmeets
    obtain ⟨hfailed, hvalid⟩ :=
      Decisions.performAll_region (List.replicate (n.stack.length - p) .fail) n hn
    have hbelow := Decisions.below_failures hn hp
    refine ⟨(n.choose declared c.var lo hi).region declared, ?_, ?_⟩
    · exact (Decisions.choose_eq_ok_iff hn).mpr ⟨hmeets, rfl⟩
    · change (((List.replicate (n.stack.length - p) Operation.fail).foldl perform
        (n.region declared)).choose c.var lo hi) = _
      rw [hfailed, Decisions.choose_eq_ok_iff hvalid, ha, ha, hbelow]
      exact ⟨hmeets, rfl⟩
  · obtain ⟨hmeets, rfl⟩ := (Decisions.choose_eq_ok_iff hn).mp hok
    rw [Decisions.choose_eq_ok_iff (Decisions.choose_valid hn x lo hi), Decisions.choose_choose]
    exact ⟨hmeets, rfl⟩

/-- Back to the second of three choices, while two variables are pinned. -/
theorem rechoice_is_failures_then_choice_under_pins :
    let declared : List Domain := [⟨1, 40, by decide, by decide, by decide⟩,
      ⟨-1, 1, by decide, by decide, by decide⟩, ⟨0, 10, by decide, by decide, by decide⟩]
    let d := [Operation.choose ⟨0⟩ 10 10, .choose ⟨1⟩ 1 7, .choose ⟨2⟩ 3 4,
      .share ⟨[some 7, none, some 9]⟩].foldl perform (ofDeclared declared)
    d.numPinned = 2
      ∧ d.choices[1]? = some ⟨⟨1⟩, ⟨1, 1, by decide, by decide, by decide⟩⟩
      ∧ Meets declared ⟨1⟩ (-5) 0
      ∧ ∃ d', d.choose ⟨1⟩ (-5) 0 = .ok d'
        ∧ ([Operation.fail, .fail].foldl perform d).choose ⟨1⟩ (-5) 0 = .ok d'
        ∧ d'.choose ⟨1⟩ (-5) 0 = .ok d'
        ∧ (d'.depth, d'.numPinned) = (2, 0) := by
  intro declared d
  have hpins : d.numPinned = 2 := by decide
  have hp : d.choices[1]? = some ⟨⟨1⟩, ⟨1, 1, by decide, by decide, by decide⟩⟩ := by decide
  have hmeets : Meets declared ⟨1⟩ (-5) 0 :=
    ⟨by decide, by decide, _, rfl, 0, by decide, by decide, by decide⟩
  obtain ⟨hback, hagain⟩ := rechoice_is_failures_then_choice declared
    [.choose ⟨0⟩ 10 10, .choose ⟨1⟩ 1 7, .choose ⟨2⟩ 3 4, .share ⟨[some 7, none, some 9]⟩]
  obtain ⟨d', hok, hfailed⟩ := hback 1 _ (-5) 0 hp hmeets
  have hshape : (d.choose ⟨1⟩ (-5) 0).map (fun r => (r.depth, r.numPinned)) = .ok (2, 0) := by
    decide
  rw [hok] at hshape
  exact ⟨hpins, hp, hmeets, d', hok, hfailed, hagain _ _ _ _ hok, Except.ok.inj hshape⟩

/-- From a region without pins, the search goes down and comes all the way back: every choice that
is accepted is on a new variable and taken back by a failure, others are ignored, and below a choice
scenarios are shared. The region is then what it was. -/
theorem excursion_leaves_no_trace (declared : List Domain) (ops : List Operation)
    (es : List Event) :
    let d := ops.foldl perform (ofDeclared declared)
    d.numPinned = 0 → Excursion declared false (d.choices.map Choice.var) es →
      es.foldl Region.apply d = d := by
  intro d hpins hes
  obtain ⟨n, hn, hd⟩ := performAll_follows declared ops
  change d = n.region declared at hd
  rw [hd] at hpins hes ⊢
  have hback := (Decisions.foldl_excursion hes n rfl).2 rfl (Decisions.eq_ofStack hn hpins)
  calc es.foldl Region.apply (n.region declared)
      = (es.foldl (Decisions.apply declared) n).region declared :=
        (Decisions.applyAll_region es hn).1
    _ = n.region declared := by rw [hback]

/-- Below the choice that stays, one of two levels with scenarios shared on both, then another; two
choices are ignored on the way. -/
theorem excursion_leaves_no_trace_of_shares :
    let declared : List Domain := [⟨1, 40, by decide, by decide, by decide⟩,
      ⟨-1, 1, by decide, by decide, by decide⟩, ⟨0, 10, by decide, by decide, by decide⟩]
    let d := [Operation.choose ⟨0⟩ 10 20].foldl perform (ofDeclared declared)
    let inner : List Event := [.shared ⟨[some 7, some 1]⟩, .choice ⟨2⟩ 5 5,
      .shared ⟨[some 11, none, some 2]⟩, .failure, .choice ⟨2⟩ 3 1, .shared ⟨[some 3]⟩]
    let es : List Event := .choice ⟨7⟩ 0 0 ::
      .choice ⟨1⟩ 0 9 :: (inner ++ .failure :: [.choice ⟨2⟩ 1 1, .failure])
    d.numPinned = 0 ∧ Excursion declared false (d.choices.map Choice.var) es
      ∧ es.foldl Region.apply d = d := by
  intro declared d inner es
  have hpins : d.numPinned = 0 := by decide
  have hunknown : ¬ Meets declared ⟨7⟩ 0 0 := by
    rintro ⟨-, -, a, ha, -⟩
    cases ha
  have hempty : ¬ Meets declared ⟨2⟩ 3 1 := by
    rintro ⟨-, -, a, -, v, hlo, hhi, -⟩
    omega
  have hzero : Meets declared ⟨1⟩ 0 9 :=
    ⟨by decide, by decide, _, rfl, 0, by decide, by decide, by decide⟩
  have hfive : Meets declared ⟨2⟩ 5 5 :=
    ⟨by decide, by decide, _, rfl, 5, by decide, by decide, by decide⟩
  have hone : Meets declared ⟨2⟩ 1 1 :=
    ⟨by decide, by decide, _, rfl, 1, by decide, by decide, by decide⟩
  have hinner : Excursion declared true [⟨0⟩, ⟨1⟩] inner :=
    .shared _ (.undone (by decide) hfive (.shared _ .done) (.ignored hempty (.shared _ .done)))
  have hlast : Excursion declared false [⟨0⟩] [.choice ⟨2⟩ 1 1, .failure] :=
    .undone (by decide) hone .done .done
  have hes : Excursion declared false (d.choices.map Choice.var) es :=
    .ignored hunknown (.undone (by decide) hzero hinner hlast)
  exact ⟨hpins, hes, excursion_leaves_no_trace declared _ es hpins hes⟩

end Region

end ScenarioSampling
