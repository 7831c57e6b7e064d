import ScenarioSampling.Proofs.Draw

/-!
# What can be drawn

Every value of a domain can be drawn from it. The least word whose product with the number of values
reaches the value's offset, in units of `2 ^ 64`, leaves a low half that is smaller than that
number, and where a second word is asked for, zero changes nothing any more. A candidate takes its
words from one stream, variable after variable: the words that lead to its values, put in a row,
lead to the candidate (`draws_exactly_the_product`).
-/

namespace ScenarioSampling

namespace WordStream

/-- The stream after `n` more words. -/
def skip (s : WordStream) (n : Nat) : WordStream := { s with position := s.position + n }

/-- The next `n` words. -/
def ahead (s : WordStream) (n : Nat) : List UInt64 :=
  List.ofFn fun i : Fin n => s.word (s.position + i)

/-- Starts with the words `ws`. -/
def ofWords (ws : List UInt64) : WordStream := ⟨fun i => ws.getD i 0, 0⟩

variable (s : WordStream)

theorem skip_skip (n k : Nat) : (s.skip n).skip k = s.skip (n + k) := by
  rw [skip, skip, skip, Nat.add_assoc]

theorem ahead_add (n k : Nat) : s.ahead (n + k) = s.ahead n ++ (s.skip n).ahead k := by
  unfold ahead skip
  rw [List.ofFn_add]
  simp [Nat.add_assoc]

theorem ahead_length (n : Nat) : (s.ahead n).length = n := List.length_ofFn

theorem ofWords_ahead (ws : List UInt64) : (ofWords ws).ahead ws.length = ws := by
  refine List.ext_getElem (ahead_length _ _) fun i h _ => ?_
  simp [ahead, ofWords]

variable {s}

theorem next_of_ahead {w : UInt64} (h : s.ahead 1 = [w]) : WordSource.next s = (w, s.skip 1) := by
  rw [← List.cons.inj h |>.1]
  rfl

/-- The words ahead start with the first of two lists, and go on with the second. -/
theorem ahead_append (ws ws' : List UInt64) (h : s.ahead (ws ++ ws').length = ws ++ ws') :
    s.ahead ws.length = ws ∧ (s.skip ws.length).ahead ws'.length = ws' := by
  rw [List.length_append, ahead_add] at h
  exact List.append_inj h (ahead_length _ _)

end WordStream

/-- Next words that are `ws` lead to `v` and are used up, whatever follows them. -/
def Leads {α : Type} (draw : WordStream → α × WordStream) (ws : List UInt64) (v : α) : Prop :=
  ∀ s : WordStream, s.ahead ws.length = ws → draw s = (v, s.skip ws.length)

section Number

variable {range : Nat} {w : UInt64}

theorem drawBelow_one (hw : w.toNat * range % wordRange ≤ wordRange - range) :
    Leads (drawBelow range) [w] (w.toNat * range / wordRange) := by
  intro s hs
  unfold drawBelow
  rw [WordStream.next_of_ahead hs]
  exact if_neg (Nat.not_lt.2 hw)

theorem drawBelow_two (hw : wordRange - range < w.toNat * range % wordRange) (w' : UInt64) :
    Leads (drawBelow range) [w, w']
      (if wordRange ≤ w.toNat * range % wordRange + w'.toNat * range / wordRange
        then w.toNat * range / wordRange + 1 else w.toNat * range / wordRange) := by
  intro s hs
  obtain ⟨hfirst, hsecond⟩ := WordStream.ahead_append [w] [w'] hs
  have hnext : WordSource.next (s.skip 1) = (w', s.skip 2) := WordStream.next_of_ahead hsecond
  unfold drawBelow
  rw [WordStream.next_of_ahead hfirst]
  simp only [hw, if_true, hnext]
  rfl

/-- One word or two decide on the number. -/
theorem drawBelow_decided (range : Nat) (s : WordStream) :
    ∃ ws : List UInt64, s.ahead ws.length = ws ∧ (ws.length = 1 ∨ ws.length = 2)
      ∧ Leads (drawBelow range) ws (drawBelow range s).1 := by
  by_cases hw : (s.word s.position).toNat * range % wordRange ≤ wordRange - range
  · refine ⟨[s.word s.position], rfl, .inl rfl, ?_⟩
    have hleads := drawBelow_one hw
    rwa [hleads s rfl]
  · refine ⟨[s.word s.position, s.word (s.position + 1)], rfl, .inr rfl, ?_⟩
    have hleads := drawBelow_two (Nat.lt_of_not_le hw) (s.word (s.position + 1))
    rwa [hleads s rfl]

/-- The least word whose product with `range` reaches `k` times `2 ^ 64`. -/
theorem exists_word {k : Nat} (hk : k < range) (hr : range < wordRange) :
    ∃ w : UInt64, w.toNat * range / wordRange = k ∧ w.toNat * range % wordRange < range := by
  have hceil := Nat.div_add_mod (k * wordRange + (range - 1)) range
  have hmod : (k * wordRange + (range - 1)) % range < range := Nat.mod_lt _ (by omega)
  generalize (k * wordRange + (range - 1)) / range = w at hceil
  rw [Nat.mul_comm] at hceil
  have hk' : k * wordRange + wordRange ≤ range * wordRange := by
    rw [← Nat.succ_mul]
    exact Nat.mul_le_mul_right _ hk
  have hword : w < UInt64.size := by
    refine Nat.lt_of_mul_lt_mul_right (a := range) ?_
    rw [Nat.mul_comm UInt64.size]
    show w * range < range * wordRange
    omega
  obtain ⟨low, hlow, hproduct⟩ : ∃ low, low < range ∧ w * range = low + k * wordRange :=
    ⟨w * range - k * wordRange, by omega, by omega⟩
  refine ⟨UInt64.ofNatLT w hword, ?_⟩
  rw [UInt64.toNat_ofNatLT, hproduct, Nat.add_mul_div_right _ _ (by omega),
    Nat.add_mul_mod_self_right, Nat.div_eq_of_lt (by omega), Nat.mod_eq_of_lt (by omega)]
  exact ⟨Nat.zero_add k, hlow⟩

theorem drawBelow_reaches {k : Nat} (hk : k < range) (hr : range < wordRange) :
    ∃ ws : List UInt64, (ws.length = 1 ∨ ws.length = 2) ∧ Leads (drawBelow range) ws k := by
  obtain ⟨w, rfl, hlow⟩ := exists_word hk hr
  by_cases hw : w.toNat * range % wordRange ≤ wordRange - range
  · exact ⟨[w], .inl rfl, drawBelow_one hw⟩
  · refine ⟨[w, 0], .inr rfl, ?_⟩
    have hleads := drawBelow_two (Nat.lt_of_not_le hw) 0
    rwa [if_neg] at hleads
    show ¬ wordRange ≤ w.toNat * range % wordRange + 0 * range / wordRange
    rw [Nat.zero_mul, Nat.zero_div]
    omega

end Number

/-- Drawn from `a` with the words `ws`. -/
structure DrawnBy (a : Domain) (ws : List UInt64) (v : Int) : Prop where
  contained : a.contains v = true
  free : a.isSingleton = true → ws.length = 0
  paid : a.isSingleton = false → ws.length = 1 ∨ ws.length = 2
  leads : Leads (drawFrom a) ws v

section Value

variable {a : Domain} {ws : List UInt64} {v : Int}

/-- What the words lead to is in the domain, like all that is drawn. -/
theorem Leads.contained (h : Leads (drawFrom a) ws v) : a.contains v = true := by
  have hdrawn := drawFrom_contains a (WordStream.ofWords ws)
  rwa [h _ (WordStream.ofWords_ahead ws)] at hdrawn

theorem drawnBy_of_singleton (h : a.isSingleton = true) : DrawnBy a [] a.lo := by
  have hleads : Leads (drawFrom a) [] a.lo := by
    intro s _
    rw [drawFrom, if_pos h]
    rfl
  exact ⟨hleads.contained, fun _ => rfl, by simp [h], hleads⟩

theorem drawnBy_of_widest (h : a.isSingleton = false) (hr : (a.hi - a.lo + 1).toNat = wordRange)
    (w : UInt64) : DrawnBy a [w] (signedWord w) := by
  have hleads : Leads (drawFrom a) [w] (signedWord w) := by
    intro s hs
    simp only [drawFrom, h, hr, if_true, WordStream.next_of_ahead hs]
    rfl
  exact ⟨hleads.contained, by simp [h], fun _ => .inl rfl, hleads⟩

theorem drawnBy_of_below {k : Nat} (h : a.isSingleton = false)
    (hr : (a.hi - a.lo + 1).toNat ≠ wordRange) (hws : ws.length = 1 ∨ ws.length = 2)
    (hk : Leads (drawBelow (a.hi - a.lo + 1).toNat) ws k) : DrawnBy a ws (a.lo + k) := by
  have hleads : Leads (drawFrom a) ws (a.lo + k) := by
    intro s hs
    simp [drawFrom, h, hr, hk s hs]
  exact ⟨hleads.contained, by simp [h], fun _ => hws, hleads⟩

theorem exists_signedWord (h : IntFormat.int64.Fits v) : ∃ w : UInt64, signedWord w = v := by
  rw [int64_fits_iff] at h
  exact ⟨(Int64.ofInt v).toUInt64, Int64.toInt_ofInt_of_le h.1 (by omega)⟩

theorem exists_drawnBy (hv : a.contains v = true) : ∃ ws, DrawnBy a ws v := by
  have hbounds := hv
  rw [Interval.contains_iff] at hbounds
  by_cases hone : a.isSingleton = true
  · have heq : a.lo = a.hi := eq_of_beq hone
    obtain rfl : v = a.lo := by omega
    exact ⟨[], drawnBy_of_singleton hone⟩
  · rw [Bool.not_eq_true] at hone
    by_cases hr : (a.hi - a.lo + 1).toNat = wordRange
    · obtain ⟨w, rfl⟩ := exists_signedWord (Interval.fits_of_contains hv)
      exact ⟨[w], drawnBy_of_widest hone hr w⟩
    · have hlo : (-9223372036854775808 : Int) ≤ a.lo := a.least_le
      have hhi : a.hi ≤ (9223372036854775807 : Int) := a.le_greatest
      obtain ⟨k, hk, rfl⟩ : ∃ k : Nat, k < (a.hi - a.lo + 1).toNat ∧ v = a.lo + k :=
        ⟨(v - a.lo).toNat, by omega, by omega⟩
      obtain ⟨ws, hws, hleads⟩ := drawBelow_reaches hk (by rw [wordRange] at hr ⊢; omega)
      exact ⟨ws, drawnBy_of_below hone hr hws hleads⟩

theorem drawFrom_drawnBy (a : Domain) (s : WordStream) :
    ∃ ws, s.ahead ws.length = ws ∧ DrawnBy a ws (drawFrom a s).1 := by
  suffices h : ∃ ws v, s.ahead ws.length = ws ∧ DrawnBy a ws v by
    obtain ⟨ws, v, hs, hdrawn⟩ := h
    refine ⟨ws, hs, ?_⟩
    rwa [hdrawn.leads s hs]
  by_cases hone : a.isSingleton = true
  · exact ⟨[], _, rfl, drawnBy_of_singleton hone⟩
  · rw [Bool.not_eq_true] at hone
    by_cases hr : (a.hi - a.lo + 1).toNat = wordRange
    · exact ⟨[s.word s.position], _, rfl, drawnBy_of_widest hone hr _⟩
    · obtain ⟨ws, hs, hws, hleads⟩ := drawBelow_decided (a.hi - a.lo + 1).toNat s
      exact ⟨ws, _, hs, drawnBy_of_below hone hr hws hleads⟩

end Value

section Values

/-- The words and the values drawn from `as`, one after the other. -/
abbrev DrawnInTurn (as : List Domain) (ds : List (List UInt64 × Int)) : Prop :=
  List.Forall₂ (fun d a => DrawnBy a d.1 d.2) ds as

/-- The words of all draws, one after the other. -/
def wordsOf (ds : List (List UInt64 × Int)) : List UInt64 := (ds.map Prod.fst).flatten

theorem drawnInTurn_of_stream : ∀ (as : List Domain) (s : WordStream),
    ∃ ds, DrawnInTurn as ds ∧ s.ahead (wordsOf ds).length = wordsOf ds
  | [], _ => ⟨[], .nil, rfl⟩
  | a :: as, s => by
    obtain ⟨ws, hs, hdrawn⟩ := drawFrom_drawnBy a s
    obtain ⟨ds, hds, hrest⟩ := drawnInTurn_of_stream as (s.skip ws.length)
    refine ⟨(ws, _) :: ds, .cons hdrawn hds, ?_⟩
    show s.ahead (ws ++ wordsOf ds).length = ws ++ wordsOf ds
    rw [List.length_append, WordStream.ahead_add, hs, hrest]

theorem drawnInTurn_of_values : ∀ (as : List Domain) (vs : List Int),
    List.Forall₂ (fun v a => a.contains v = true) vs as →
      ∃ ds, DrawnInTurn as ds ∧ ds.map Prod.snd = vs
  | _, _, .nil => ⟨[], .nil, rfl⟩
  | _, _, .cons (a := v) hv hvs => by
    obtain ⟨ws, hdrawn⟩ := exists_drawnBy hv
    obtain ⟨ds, hds, hvalues⟩ := drawnInTurn_of_values _ _ hvs
    exact ⟨(ws, v) :: ds, .cons hdrawn hds, congrArg (v :: ·) hvalues⟩

/-- Old values are overwritten without being looked at. -/
theorem overwrite_leads {as : List Domain} {ds : List (List UInt64 × Int)}
    (h : DrawnInTurn as ds) : ∀ us : List Int, us.length = as.length →
      Leads (overwrite us as) (wordsOf ds) (ds.map Prod.snd) := by
  induction h with
  | nil =>
    intro us hus s _
    obtain rfl := List.eq_nil_of_length_eq_zero hus
    rfl
  | @cons d a ds as hdrawn hds ih =>
    intro us hus s hs
    obtain ⟨u, us, rfl⟩ := List.exists_cons_of_length_eq_add_one hus
    obtain ⟨hfirst, hrest⟩ := WordStream.ahead_append d.1 (wordsOf ds) hs
    have hvs := ih us (Nat.succ.inj hus) _ hrest
    simp only [overwrite, hdrawn.leads s hfirst, hvs, WordStream.skip_skip]
    rw [← List.length_append]
    rfl

theorem sampleInto_leads {declared : List Domain} {d : Region} (h : d.Follows declared)
    {ds : List (List UInt64 × Int)} (hds : DrawnInTurn d.current ds) (c : Candidate) :
    Leads (fun s => UniformSampler.sampleInto d s c) (wordsOf ds) ⟨ds.map Prod.snd⟩ := by
  intro s hs
  have hlength : d.length = d.current.length := by rw [h.current_length, h.length_eq]
  have hvs := overwrite_leads hds (if c.length = d.length then c else c.resize d.length).values
    (by
      split
      · rwa [← hlength]
      · rw [← hlength]
        exact resize_length c d.length) s hs
  simp only [UniformSampler.sampleInto, hvs]

/-- Whatever was chosen and shared before: a stream of words leads to a candidate with one value for
every variable, each in its current domain and drawn with its own words, none for a domain of one
value and one or two for any other; and every candidate like that is what some stream leads to. The
candidate that is overwritten has no part in it. -/
theorem draws_exactly_the_product (declared : List Domain) (ops : List Region.Operation) :
    let d := ops.foldl Region.perform (Region.ofDeclared declared)
    d.current.length = d.length
      ∧ (∀ s : WordStream, ∃ ds, DrawnInTurn d.current ds
        ∧ s.ahead (wordsOf ds).length = wordsOf ds
        ∧ ∀ c, UniformSampler.sampleInto d s c
          = (⟨ds.map Prod.snd⟩, s.skip (wordsOf ds).length))
      ∧ ∀ c' : Candidate, List.Forall₂ (fun v a => a.contains v = true) c'.values d.current →
        ∃ s : WordStream, ∀ c, (UniformSampler.sampleInto d s c).1 = c' := by
  intro d
  have hd : d.Follows declared :=
    ⟨_, (Region.follows_decisions declared ops).2, (Region.follows_decisions declared ops).1⟩
  refine ⟨by rw [hd.current_length, hd.length_eq], fun s => ?_, fun c' hc' => ?_⟩
  · obtain ⟨ds, hds, hs⟩ := drawnInTurn_of_stream d.current s
    exact ⟨ds, hds, hs, fun c => sampleInto_leads hd hds c s hs⟩
  · obtain ⟨ds, hds, hvalues⟩ := drawnInTurn_of_values _ _ hc'
    refine ⟨.ofWords (wordsOf ds), fun c => ?_⟩
    show ((fun s => UniformSampler.sampleInto d s c) (WordStream.ofWords (wordsOf ds))).1 = c'
    rw [sampleInto_leads hd hds c _ (WordStream.ofWords_ahead _), hvalues]

/-- The greatest number that there is, a choice of one value, and the end of a domain. -/
theorem draws_exactly_the_product_at_ends :
    let a : Domain := ⟨-9223372036854775808, 9223372036854775807, by decide, by decide, by decide⟩
    let b : Domain := ⟨0, 2, by decide, by decide, by decide⟩
    let d := [Region.Operation.choose ⟨1⟩ 1 1].foldl Region.perform (.ofDeclared [a, b, b])
    let c' : Candidate := ⟨[9223372036854775807, 1, 2]⟩
    List.Forall₂ (fun v a => a.contains v = true) c'.values d.current
      ∧ ∃ s : WordStream, ∀ c, (UniformSampler.sampleInto d s c).1 = c' := by
  intro a b d c'
  have hc' : List.Forall₂ (fun v a => Interval.contains a v = true) c'.values d.current :=
    .cons (by decide) (.cons (by decide) (.cons (by decide) .nil))
  exact ⟨hc', (draws_exactly_the_product [a, b, b] [.choose ⟨1⟩ 1 1]).2.2 c' hc'⟩

end Values

end ScenarioSampling
