import Mathlib.Data.List.Nodup
import ScenarioSampling.Proofs.Editing

/-!
# What a model holds

Variables, constraints, the table of names and the count of auxiliary variables are written by
different calls, and any call may be refused. Whatever was called in whatever order, the four agree
(`Coherent`), and the model holds what was registered: read back in order, with names for indices,
its variables and constraints are the registrations that were accepted (`Records`).
-/

namespace ScenarioSampling

open Model

/-- What a type asks of the bounds of a domain. -/
def VarType.Admits (t : VarType) (min max : Int) : Prop :=
  min ≤ max ∧ (t = .bool → 0 ≤ min ∧ max ≤ 1)

instance (t : VarType) (min max : Int) : Decidable (t.Admits min max) :=
  inferInstanceAs (Decidable (_ ∧ _))

theorem VarType.admits_iff (t : VarType) (d : Domain) :
    t.Admits d.lo d.hi ↔ ∀ widest, t.admissible? = some widest → d.isSubsetOf widest = true := by
  have hd := d.lo_le_hi
  cases t with
  | int => simp [Admits, admissible?, hd]
  | bool => simp [Admits, admissible?, hd, Interval.isSubsetOf, truthValues]

theorem Model.validDomain_eq (name : String) (varType : VarType) (min max : Int) :
    validDomain name varType min max = match Interval.of? .int64 min max with
      | none => .error (.invalidDomain name varType min max)
      | some domain => if varType.Admits min max then .ok domain
        else .error (.invalidDomain name varType min max) := by
  unfold validDomain
  rcases hd : Interval.of? .int64 min max with _ | domain
  · rfl
  · obtain ⟨rfl, rfl⟩ := Interval.of?_eq_some_iff.1 hd
    simp only [VarType.admits_iff]
    rcases varType.admissible? with _ | widest
    · simp
    · simp

/-- What has to be registered to get the variable. -/
def Variable.registration (x : Variable) : Registration :=
  .declare x.name x.kind x.varType x.domain.lo x.domain.hi

/-- The registration adds a variable. -/
def Registration.isDeclaration : Registration → Bool
  | .decision .. | .auxiliary .. => true
  | .linear .. | .product .. => false

@[simp]
theorem Registration.isDeclaration_declare (name : String) (kind : VarKind) (varType : VarType)
    (min max : Int) : (declare name kind varType min max).isDeclaration = true := by
  cases kind <;> rfl

namespace Constraint.Restates

variable {D D' : VarIndex → String → Prop} {c : Constraint} {r : Registration}

theorem mono (hD : ∀ x name, D x name → D' x name) (h : c.Restates D r) : c.Restates D' r := by
  cases h with
  | linear hts hy => exact .linear (hts.imp fun _ _ ht => ht.imp_right (hD _ _)) (hD _ _ hy)
  | product hx hy hz => exact .product (hD _ _ hx) (hD _ _ hy) (hD _ _ hz)

theorem isDeclaration (h : c.Restates D r) : r.isDeclaration = false := by
  cases h with
  | linear | product => rfl

theorem terms_denote {ts : List Term} {terms : List (Int × String)}
    (h : List.Forall₂ (fun t p => t.coefficient = p.1 ∧ D t.var p.2) ts terms) :
    ∀ x ∈ ts.map Term.var, ∃ name, D x name := by
  induction h with
  | nil => simp
  | cons ht _ ih => exact List.forall_mem_cons.2 ⟨⟨_, ht.2⟩, ih⟩

/-- Every index stands for some name. -/
theorem denotes (h : c.Restates D r) : ∀ x ∈ c.vars, ∃ name, D x name := by
  cases h with
  | linear hts hy =>
    exact List.forall_mem_append.2 ⟨terms_denote hts, List.forall_mem_singleton.2 ⟨_, hy⟩⟩
  | product hx hy hz => simpa [vars] using ⟨⟨_, hx⟩, ⟨_, hy⟩, ⟨_, hz⟩⟩

end Constraint.Restates

namespace Model

variable {m m' : Model}

/-- The index is that of a variable with this name. -/
def Denotes (m : Model) (x : VarIndex) (name : String) : Prop :=
  ∃ v, m.getVariable? x = some v ∧ v.name = name

theorem Denotes.lt {x : VarIndex} {name : String} (h : m.Denotes x name) :
    x.val < m.numVariables := by
  obtain ⟨v, hv, -⟩ := h
  exact (List.getElem?_eq_some_iff.1 hv).1

/-- A constraint whose indices stand for names mentions no variable but the model's. -/
theorem vars_lt_of_restates {c : Constraint} {r : Registration} (h : c.Restates m.Denotes r) :
    ∀ x ∈ c.vars, x.val < m.numVariables := by
  intro x hx
  obtain ⟨name, hx⟩ := h.denotes x hx
  exact hx.lt

/-- The table of names, the indices, the count and the types all fit the variables. -/
structure Coherent (m : Model) : Prop where
  indexed : ∀ x v, m.getVariable? x = some v → v.index = x
  named : ∀ name x, m.index? name = some x ↔ m.Denotes x name
  auxiliary : m.numAux = m.vars.countP Variable.isAuxiliary
  typed : ∀ v ∈ m.vars, v.varType.Admits v.domain.lo v.domain.hi

/-- Read back in order, the model is what was registered. -/
structure Records (m : Model) (rs : List Registration) : Prop where
  declarations : m.vars.map Variable.registration = rs.filter Registration.isDeclaration
  constraints : List.Forall₂ (Constraint.Restates m.Denotes) m.constraints
    (rs.filter fun r => !r.isDeclaration)

theorem coherent_empty : Coherent empty where
  indexed := by simp [empty, getVariable?]
  named := by simp [empty, index?, Denotes, getVariable?]
  auxiliary := rfl
  typed := by simp [empty]

theorem records_empty : Records empty [] := ⟨rfl, .nil⟩

section NewVariable

variable {name : String} {kind : VarKind} {varType : VarType} {domain : Domain}

theorem validDomain_ok {min max : Int} (h : validDomain name varType min max = .ok domain) :
    domain.lo = min ∧ domain.hi = max ∧ varType.Admits min max := by
  rw [validDomain_eq] at h
  rcases hd : Interval.of? .int64 min max with _ | d <;> rw [hd] at h
  · cases h
  · obtain ⟨hlo, hhi⟩ := Interval.of?_eq_some_iff.1 hd
    split_ifs at h with hadmits
    cases h
    exact ⟨hlo, hhi, hadmits⟩

theorem getVariable?_declare (x : VarIndex) : (m.declare name kind varType domain).getVariable? x
    = if x = ⟨m.vars.length⟩ then some ⟨name, ⟨m.vars.length⟩, kind, varType, domain⟩
      else m.getVariable? x := by
  obtain ⟨i⟩ := x
  simp only [getVariable?, declare, Index.mk.injEq, List.getElem?_append]
  split_ifs with hlt hi hi
  · omega
  · rfl
  · simp [hi]
  · rw [List.getElem?_eq_none (by simp; omega), List.getElem?_eq_none (by omega)]

theorem denotes_declare {x : VarIndex} {other : String} :
    (m.declare name kind varType domain).Denotes x other
      ↔ (x = ⟨m.vars.length⟩ ∧ name = other) ∨ m.Denotes x other := by
  unfold Denotes
  rw [getVariable?_declare]
  split_ifs with hx
  · have hnone : m.getVariable? ⟨m.vars.length⟩ = none := List.getElem?_eq_none (Nat.le_refl _)
    simp [hx, hnone]
  · simp [hx]

theorem index?_declare (other : String) : (m.declare name kind varType domain).index? other
    = if other = name then some ⟨m.vars.length⟩ else m.index? other := by
  unfold index? declare
  simp only [List.lookup_cons]
  split <;> simp_all

theorem Coherent.declare {min max : Int} (hm : m.Coherent)
    (hdomain : validDomain name varType min max = .ok domain) (hname : m.index? name = none) :
    (m.declare name kind varType domain).Coherent where
  indexed x v hv := by
    rw [getVariable?_declare] at hv
    split_ifs at hv with hx
    · cases hv
      exact hx.symm
    · exact hm.indexed x v hv
  named other x := by
    rw [index?_declare, denotes_declare, ← hm.named]
    split_ifs with ho
    · subst ho
      simp [hname, eq_comm]
    · simp [Ne.symm ho]
  auxiliary := by
    have hm := hm.auxiliary
    cases kind <;> simp [Model.declare, Variable.isAuxiliary, hm]
  typed v hv := by
    obtain ⟨rfl, rfl, hadmits⟩ := validDomain_ok hdomain
    rcases List.mem_append.1 hv with hv | hv
    · exact hm.typed v hv
    · rw [List.mem_singleton.1 hv]
      exact hadmits

end NewVariable

variable {e : Edit} {n : Option Nat} {rs : List Registration}

theorem Coherent.accepts (hm : m.Coherent) (h : m.Accepts e n m') : m'.Coherent := by
  cases h with
  | declare kind _ hdomain hname => exact hm.declare hdomain hname
  | post | close => exact ⟨hm.indexed, hm.named, hm.auxiliary, hm.typed⟩

theorem Coherent.after (hm : m.Coherent) (e : Edit) : (m.after e).Coherent := by
  rcases m.after_cases e with ⟨_, -, h⟩ | ⟨n, -, h⟩
  · rw [h]
    exact hm
  · exact hm.accepts h

end Model

/-- What the edit registers, if it is no closing. -/
def Edit.registration? : Edit → Option Registration
  | .register r => some r
  | .close => none

namespace Model

variable {m m' : Model} {e : Edit} {n : Option Nat} {rs : List Registration}

/-- The registrations among some calls that were accepted, in order. -/
def accepted (m : Model) : List Edit → List Registration
  | [] => []
  | e :: es =>
    match m.answer e with
    | .ok _ => e.registration?.toList ++ (m.after e).accepted es
    | .error _ => (m.after e).accepted es

theorem Records.accepts (hr : m.Records rs) (hm : m.Coherent) (h : m.Accepts e n m') :
    m'.Records (rs ++ e.registration?.toList) := by
  have hvars := hr.declarations
  cases h with
  | @declare name kind varType min max domain hopen hdomain hname =>
    obtain ⟨rfl, rfl, -⟩ := validDomain_ok hdomain
    refine ⟨by simp [Model.declare, Edit.registration?, hvars, Variable.registration], ?_⟩
    rw [List.filter_append, Edit.registration?, Option.toList_some,
      List.filter_cons_of_neg (by simp), List.filter_nil, List.append_nil]
    exact hr.constraints.imp fun c r hc => hc.mono fun x other hx => denotes_declare.2 (.inr hx)
  | @post r c hopen hc =>
    refine ⟨by simp [Model.post, Edit.registration?, hvars, hc.isDeclaration], ?_⟩
    rw [List.filter_append, Edit.registration?, Option.toList_some,
      List.filter_cons_of_pos (by simp [hc.isDeclaration]), List.filter_nil]
    exact List.rel_append hr.constraints (.cons (hc.mono fun x name => (hm.named name x).1) .nil)
  | close => simpa [Edit.registration?] using ⟨hvars, hr.constraints⟩

theorem afterAll_records : ∀ (es : List Edit) {m : Model} {rs : List Registration}, m.Coherent →
    m.Records rs → (m.afterAll es).Coherent ∧ (m.afterAll es).Records (rs ++ m.accepted es)
  | [], m, rs, hm, hr => ⟨hm, by simpa [accepted, afterAll] using hr⟩
  | e :: es, m, rs, hm, hr => by
    unfold accepted
    rcases m.after_cases e with ⟨err, ha, h⟩ | ⟨n, ha, h⟩
    · simp only [ha]
      exact afterAll_records es (hm.after e) (h.symm ▸ hr)
    · simp only [ha]
      rw [← List.append_assoc]
      exact afterAll_records es (hm.after e) (hr.accepts hm h)

theorem Coherent.nodup (hm : m.Coherent) : (m.vars.map Variable.name).Nodup := by
  rw [List.nodup_iff_injective_getElem]
  rintro ⟨i, hi⟩ ⟨j, hj⟩ hij
  rw [List.length_map] at hi hj
  simp only [List.getElem_map] at hij
  have hx : m.Denotes ⟨i⟩ m.vars[j].name := ⟨_, List.getElem?_eq_getElem hi, hij⟩
  have hy : m.Denotes ⟨j⟩ m.vars[j].name := ⟨_, List.getElem?_eq_getElem hj, rfl⟩
  rw [← hm.named] at hx hy
  simpa [hx] using hy

theorem lookupIndex_eq_ok {name : String} {x : VarIndex} :
    m.lookupIndex name = .ok x ↔ m.index? name = some x := by
  unfold lookupIndex
  split <;> simp [*]

theorem lookupIndex_eq_error {name : String} :
    m.lookupIndex name = .error (.notFound name) ↔ m.index? name = none := by
  unfold lookupIndex
  split <;> simp [*]

theorem Coherent.decision (hm : m.Coherent) :
    m.numDecision = m.vars.countP (fun v => v.quantifier?.isSome)
      ∧ m.numDecision + m.numAux = m.numVariables := by
  have hkind : (fun v : Variable => v.quantifier?.isSome)
      = fun v => decide (¬ v.isAuxiliary = true) := by
    funext v
    cases hv : v.kind <;> simp [Variable.quantifier?, Variable.isAuxiliary, hv]
  have hsum : m.vars.length = m.vars.countP Variable.isAuxiliary
    + m.vars.countP fun v => decide (¬ v.isAuxiliary = true) := List.length_eq_countP_add_countP _
  have hm := hm.auxiliary
  rw [hkind]
  unfold numDecision numVariables
  omega

/-- After any calls the model holds what was registered, and its parts agree: variables are numbered
by position and found by their names, which differ, whatever their roles; the count is that of the
auxiliary ones, the rest are quantified; domains are not empty and fit their types. Every index in a
constraint is that of the variable whose name was given when the constraint was registered. -/
theorem edits_recorded (es : List Edit) :
    let m := empty.afterAll es
    let rs := empty.accepted es
    m.vars.map Variable.registration = rs.filter Registration.isDeclaration
      ∧ List.Forall₂ (fun c r => c.Restates m.Denotes r ∧ ∀ x ∈ c.vars, x.val < m.numVariables)
        m.constraints (rs.filter fun r => !r.isDeclaration)
      ∧ (∀ x v, m.getVariable? x = some v → v.index = x)
      ∧ (∀ name x, m.lookupIndex name = .ok x ↔ m.Denotes x name)
      ∧ (∀ name, m.lookupIndex name = .error (.notFound name) ↔ ∀ x, ¬ m.Denotes x name)
      ∧ (m.vars.map Variable.name).Nodup
      ∧ m.numAux = m.vars.countP Variable.isAuxiliary
      ∧ m.numDecision = m.vars.countP (fun v => v.quantifier?.isSome)
      ∧ m.numDecision + m.numAux = m.numVariables
      ∧ ∀ v ∈ m.vars, v.domain.lo ≤ v.domain.hi
        ∧ (v.varType = .bool → 0 ≤ v.domain.lo ∧ v.domain.hi ≤ 1) := by
  intro m rs
  obtain ⟨hm, hr⟩ := afterAll_records es coherent_empty records_empty
  refine ⟨hr.declarations, hr.constraints.imp fun c r hc => ⟨hc, vars_lt_of_restates hc⟩,
    hm.indexed, fun name x => lookupIndex_eq_ok.trans (hm.named name x), fun name => ?_, hm.nodup,
    hm.auxiliary, hm.decision.1, hm.decision.2, fun v hv => hm.typed v hv⟩
  rw [lookupIndex_eq_error, Option.eq_none_iff_forall_ne_some]
  exact forall_congr' fun x => not_congr (hm.named name x)

/-- Refused in between: a name for the second time, a domain too wide for its type, a name that no
variable has. -/
theorem edits_recorded_around_refusals :
    let x : Registration := .decision "x" .existential .int 0 9
    let b : Registration := .auxiliary "b" .bool 0 1
    let c : Registration := .linear [(2, "b")] .le "x"
    let v : Variable := ⟨"b", ⟨1⟩, .auxiliary, .bool, 0, 1, by decide, by decide, by decide⟩
    let es : List Edit := [.register x, .register (.auxiliary "x" .int 0 1),
      .register (.auxiliary "b" .bool 0 2), .register b, .register (.product 1 "b" "y" .eq "x"),
      .register c, .close, .register (.auxiliary "z" .int 0 0)]
    let m := empty.afterAll es
    empty.accepted es = [x, b, c] ∧ m.vars.map Variable.registration = [x, b]
      ∧ m.constraints = [.linear ⟨[⟨2, ⟨1⟩⟩], .le, ⟨0⟩⟩] ∧ m.lookupIndex "b" = .ok ⟨1⟩
      ∧ m.getVariable? ⟨1⟩ = some v ∧ v.index = ⟨1⟩
      ∧ v ∈ m.vars ∧ v.varType = .bool ∧ 0 ≤ v.domain.lo ∧ v.domain.hi ≤ 1 := by
  intro x b c v es
  obtain ⟨hvars, -, hindexed, hfound, -, -, -, -, -, htyped⟩ := edits_recorded es
  have haccepted : empty.accepted es = [x, b, c] := by decide +kernel
  have hv : (empty.afterAll es).getVariable? ⟨1⟩ = some v := by decide +kernel
  have hmem : v ∈ (empty.afterAll es).vars := List.mem_of_getElem? hv
  rw [haccepted] at hvars
  exact ⟨haccepted, hvars, by decide +kernel, (hfound "b" ⟨1⟩).2 ⟨v, hv, rfl⟩, hv,
    hindexed ⟨1⟩ v hv, hmem, rfl, (htyped v hmem).2 rfl⟩

end Model

end ScenarioSampling
