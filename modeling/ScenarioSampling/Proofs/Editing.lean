import Mathlib.Data.List.Forall2
import ScenarioSampling.Proofs.ExactScore

/-!
# Edits

A model is edited in place, one call after the other, whatever the answers are. `InPlace` takes a
call apart into what it checks and what it writes, in order; a refusal leaves behind what was
written before it. No call checks anything after its first write, so that nothing is left behind: a
call does what `Model.edit` says or nothing (`perform_eq_atomic`).

`Accepts` lists what a call that is not refused does to the model.
-/

namespace ScenarioSampling

/-- A call that may change a model. -/
inductive Edit where
  | register (r : Registration)
  | close
  deriving DecidableEq, Repr

/-- Works on a model in place. -/
abbrev InPlace := EStateM ModelError Model

section Stepwise

namespace InPlace

variable {α β : Type}

/-- Looks at the model without writing to it. -/
def check (f : Model → Except ModelError α) : InPlace α := fun m =>
  match f m with
  | .ok a => .ok a m
  | .error e => .error e m

/-- Checks the phase, the domain and the name, and only then writes. -/
def addVariable (name : String) (kind : VarKind) (varType : VarType) (min max : Int) :
    InPlace VarIndex := do
  check Model.ensureBuilding
  let domain ← check fun _ => Model.validDomain name varType min max
  check fun m => if (m.index? name).isSome then .error (.duplicateName name) else .ok ()
  let index : VarIndex := ⟨(← get).vars.length⟩
  modify fun m => { m with names := (name, index) :: m.names }
  modify fun m => { m with vars := m.vars ++ [⟨name, index, kind, varType, domain⟩] }
  return index

/-- Adds a variable and counts it. -/
def addAuxiliary (name : String) (varType : VarType) (min max : Int) : InPlace VarIndex := do
  let index ← addVariable name .auxiliary varType min max
  modify fun m => { m with numAux := m.numAux + 1 }
  return index

/-- Writes a constraint with the next index. -/
def post (c : Constraint) : InPlace ConstraintIndex := do
  let index : ConstraintIndex := ⟨(← get).constraints.length⟩
  modify fun m => { m with constraints := m.constraints ++ [c] }
  return index

/-- Resolves all names before anything is written. -/
def addLinear (terms : List (Int × String)) (comparison : Comparison) (rhs : String) :
    InPlace ConstraintIndex := do
  check Model.ensureBuilding
  let terms ← check (Model.resolveTerms · terms)
  let rhs ← check (Model.resolve · rhs)
  post (.linear ⟨terms, comparison, rhs⟩)

/-- Resolves all names before anything is written. -/
def addProduct (factor : Int) (left right : String) (comparison : Comparison) (result : String) :
    InPlace ConstraintIndex := do
  check Model.ensureBuilding
  let left ← check (Model.resolve · left)
  let right ← check (Model.resolve · right)
  let result ← check (Model.resolve · result)
  post (.product ⟨factor, left, right, comparison, result⟩)

/-- Adds what the registration is about. -/
def register : Registration → InPlace Nat
  | .decision name quantifier varType min max => do
    return (← addVariable name (.decision quantifier) varType min max).val
  | .auxiliary name varType min max => do
    return (← addAuxiliary name varType min max).val
  | .linear terms comparison rhs => do
    return (← addLinear terms comparison rhs).val
  | .product factor left right comparison result => do
    return (← addProduct factor left right comparison result).val

/-- Closes the model unless it is closed. -/
def close : InPlace Unit := do
  check fun m => if m.isClosed then .error .alreadyClosed else .ok ()
  modify fun m => { m with phase := .closed }

end InPlace

/-- The answer to a registration is the number that the new entry got among its kind. -/
def Edit.perform : Edit → InPlace (Option Nat)
  | .register r => do return some (← InPlace.register r)
  | .close => do
    InPlace.close
    return none

namespace Model

/-- The answer to a call. -/
def answer (m : Model) (e : Edit) : Except ModelError (Option Nat) :=
  match e.perform m with
  | .ok n _ => .ok n
  | .error err _ => .error err

/-- What a call leaves, whatever its answer. -/
def after (m : Model) (e : Edit) : Model :=
  match e.perform m with
  | .ok _ m' => m'
  | .error _ m' => m'

/-- The model after these edits, the refused ones included. -/
def afterAll (m : Model) (es : List Edit) : Model := es.foldl after m

/-- What an edit gives, and the model after it. -/
def edit (m : Model) : Edit → Except ModelError (Option Nat × Model)
  | .register r => do
    let (n, m) ← m.register r
    return (some n, m)
  | .close => do
    let m ← m.close
    return (none, m)

end Model

end Stepwise

section AllOrNothing

namespace InPlace

variable {α β : Type}

/-- Does what `f` says, or nothing. -/
def atomic (f : Model → Except ModelError (α × Model)) : InPlace α := fun m =>
  match f m with
  | .ok (a, m') => .ok a m'
  | .error e => .error e m

/-- A check in front of what is done as a whole is part of it. -/
theorem check_bind {f : Model → Except ModelError α} {next : α → InPlace β}
    {g : α → Model → Except ModelError (β × Model)} (h : ∀ a, next a = atomic (g a)) :
    (check f >>= next) = atomic fun m => f m >>= fun a => g a m := by
  funext m
  rcases hf : f m with e | a <;> simp [bind, EStateM.bind, Except.bind, check, atomic, hf, h]

/-- So is a write behind it, since a write is not refused. -/
theorem bind_write {x : InPlace α} {f : Model → Except ModelError (α × Model)} (h : x = atomic f)
    (g : α → Model → β × Model) :
    (x >>= fun a m => .ok (g a m).1 (g a m).2)
      = atomic fun m => f m >>= fun p => .ok (g p.1 p.2) := by
  subst h
  funext m
  rcases hf : f m with e | p <;> simp [bind, EStateM.bind, Except.bind, atomic, hf]

theorem addVariable_eq (name : String) (kind : VarKind) (varType : VarType) (min max : Int) :
    addVariable name kind varType min max
      = atomic fun m => m.addVariable name kind varType min max := by
  refine check_bind fun _ => check_bind fun domain => ?_
  funext m
  rcases hm : m.index? name with _ | x <;> simp [bind, EStateM.bind, check, atomic, hm] <;> rfl

theorem addAuxiliary_eq (name : String) (varType : VarType) (min max : Int) :
    addAuxiliary name varType min max = atomic fun m => m.addAuxiliary name varType min max :=
  bind_write (addVariable_eq name .auxiliary varType min max)
    fun index m => (index, { m with numAux := m.numAux + 1 })

theorem addLinear_eq (terms : List (Int × String)) (comparison : Comparison) (rhs : String) :
    addLinear terms comparison rhs = atomic fun m => m.addLinear terms comparison rhs :=
  check_bind fun _ => check_bind fun _ => check_bind fun _ => rfl

theorem addProduct_eq (factor : Int) (left right : String) (comparison : Comparison)
    (result : String) : addProduct factor left right comparison result
      = atomic fun m => m.addProduct factor left right comparison result :=
  check_bind fun _ => check_bind fun _ => check_bind fun _ => check_bind fun _ => rfl

theorem register_eq (r : Registration) : register r = atomic fun m => m.register r := by
  cases r with
  | decision name quantifier varType min max =>
    exact bind_write (addVariable_eq name (.decision quantifier) varType min max)
      fun index m => (index.val, m)
  | auxiliary name varType min max =>
    exact bind_write (addAuxiliary_eq name varType min max) fun index m => (index.val, m)
  | linear terms comparison rhs =>
    exact bind_write (addLinear_eq terms comparison rhs) fun index m => (index.val, m)
  | product factor left right comparison result =>
    exact bind_write (addProduct_eq factor left right comparison result)
      fun index m => (index.val, m)

end InPlace

/-- A call does what the model's own operations say, or nothing. -/
theorem Edit.perform_eq_atomic (e : Edit) : e.perform = InPlace.atomic fun m => m.edit e := by
  cases e with
  | register r => exact InPlace.bind_write (InPlace.register_eq r) fun n m => (some n, m)
  | close =>
    funext m
    simp only [perform, InPlace.close, InPlace.check, InPlace.atomic, Model.edit, Model.close, bind,
      EStateM.bind, Except.bind]
    cases m.isClosed
    · rfl
    · rfl

namespace Model

variable {m m' : Model} {e : Edit}

theorem answer_eq (m : Model) (e : Edit) : m.answer e = (m.edit e).map Prod.fst := by
  unfold answer
  rw [Edit.perform_eq_atomic]
  unfold InPlace.atomic
  rcases h : m.edit e with err | p <;> simp [Except.map, h]

theorem after_eq (m : Model) (e : Edit) :
    m.after e = ((m.edit e).map Prod.snd).toOption.getD m := by
  unfold after
  rw [Edit.perform_eq_atomic]
  unfold InPlace.atomic
  rcases h : m.edit e with err | p <;> simp [Except.map, Except.toOption, h]

theorem edit_of_answer {n : Option Nat} (h : m.answer e = .ok n) :
    m.edit e = .ok (n, m.after e) := by
  rw [answer_eq] at h
  rw [after_eq]
  rcases he : m.edit e with err | ⟨n', m'⟩ <;> rw [he] at h
  · cases h
  · cases h
    rfl

/-- A refusal leaves nothing behind. -/
theorem after_of_refusal {err : ModelError} (h : m.answer e = .error err) : m.after e = m := by
  rw [answer_eq] at h
  rw [after_eq]
  rcases he : m.edit e with err' | p <;> rw [he] at h
  · rfl
  · cases h

end Model

end AllOrNothing

section Accepted

/-- The constraint says what was registered, with names for variables. -/
inductive Constraint.Restates (denotes : VarIndex → String → Prop) :
    Constraint → Registration → Prop where
  | linear {ts terms comparison y rhs} :
      List.Forall₂ (fun (t : Term) (p : Int × String) => t.coefficient = p.1 ∧ denotes t.var p.2)
        ts terms →
      denotes y rhs →
      Restates denotes (.linear ⟨ts, comparison, y⟩) (.linear terms comparison rhs)
  | product {factor x y z left right comparison result} :
      denotes x left → denotes y right → denotes z result →
      Restates denotes (.product ⟨factor, x, y, comparison, z⟩)
        (.product factor left right comparison result)

/-- The registration of a variable of either kind. -/
def Registration.declare (name : String) (kind : VarKind) (varType : VarType) (min max : Int) :
    Registration :=
  match kind with
  | .decision quantifier => .decision name quantifier varType min max
  | .auxiliary => .auxiliary name varType min max

namespace Model

/-- The model with one more variable. -/
def declare (m : Model) (name : String) (kind : VarKind) (varType : VarType) (domain : Domain) :
    Model :=
  { m with
    names := (name, ⟨m.vars.length⟩) :: m.names
    vars := m.vars ++ [⟨name, ⟨m.vars.length⟩, kind, varType, domain⟩]
    numAux := m.numAux + if kind = .auxiliary then 1 else 0 }

/-- All that a call which is not refused can do. -/
inductive Accepts (m : Model) : Edit → Option Nat → Model → Prop where
  | declare {name} (kind) {varType min max domain} :
      m.isClosed = false → validDomain name varType min max = .ok domain → m.index? name = none →
      Accepts m (.register (.declare name kind varType min max)) (some m.vars.length)
        (m.declare name kind varType domain)
  | post {r c} : m.isClosed = false → c.Restates (fun x name => m.index? name = some x) r →
      Accepts m (.register r) (some m.constraints.length) (m.post c).2
  | close : m.isClosed = false → Accepts m .close none { m with phase := .closed }

variable {m m' : Model} {e : Edit}

theorem ensureBuilding_ok (h : m.ensureBuilding = .ok ()) : m.isClosed = false := by
  unfold ensureBuilding at h
  split at h
  · cases h
  · simpa using ‹¬ m.isClosed = true›

theorem resolve_ok {name : String} {x : VarIndex} (h : m.resolve name = .ok x) :
    m.index? name = some x := by
  unfold resolve at h
  split at h
  · cases h
    assumption
  · cases h

theorem resolveTerms_ok : ∀ {terms : List (Int × String)} {ts : List Term},
    m.resolveTerms terms = .ok ts →
      List.Forall₂ (fun (t : Term) (p : Int × String) =>
        t.coefficient = p.1 ∧ m.index? p.2 = some t.var) ts terms
  | [], ts, h => by
    cases h
    exact .nil
  | (coefficient, name) :: rest, ts, h => by
    obtain ⟨x, hx, h⟩ := of_bind_ok h
    obtain ⟨ts', hts, h⟩ := of_bind_ok h
    cases h
    exact .cons ⟨rfl, resolve_ok hx⟩ (resolveTerms_ok hts)

theorem addVariable_ok {name : String} {kind : VarKind} {varType : VarType} {min max : Int}
    {x : VarIndex} (h : m.addVariable name kind varType min max = .ok (x, m')) :
    ∃ domain, m.isClosed = false ∧ validDomain name varType min max = .ok domain
      ∧ m.index? name = none ∧ x = ⟨m.vars.length⟩
      ∧ m' = { m with
        names := (name, ⟨m.vars.length⟩) :: m.names
        vars := m.vars ++ [⟨name, ⟨m.vars.length⟩, kind, varType, domain⟩] } := by
  obtain ⟨_, hopen, h⟩ := of_bind_ok h
  obtain ⟨domain, hdomain, h⟩ := of_bind_ok h
  split at h
  · cases h
  · rename_i hname
    cases h
    exact ⟨domain, ensureBuilding_ok hopen, hdomain, hname, rfl, rfl⟩

theorem register_accepts {r : Registration} {n : Nat} (h : m.register r = .ok (n, m')) :
    m.Accepts (.register r) (some n) m' := by
  cases r with
  | decision name quantifier varType min max =>
    obtain ⟨⟨x, m₁⟩, hadd, h⟩ := of_bind_ok h
    obtain ⟨domain, hopen, hdomain, hname, rfl, rfl⟩ := addVariable_ok hadd
    cases h
    exact .declare (.decision quantifier) hopen hdomain hname
  | auxiliary name varType min max =>
    obtain ⟨⟨x, m₁⟩, hadd, h⟩ := of_bind_ok h
    obtain ⟨⟨x', m₂⟩, hadd, h'⟩ := of_bind_ok hadd
    obtain ⟨domain, hopen, hdomain, hname, rfl, rfl⟩ := addVariable_ok hadd
    cases h'
    cases h
    exact .declare .auxiliary hopen hdomain hname
  | linear terms comparison rhs =>
    obtain ⟨⟨i, m₁⟩, hadd, h⟩ := of_bind_ok h
    obtain ⟨_, hopen, hadd⟩ := of_bind_ok hadd
    obtain ⟨ts, hts, hadd⟩ := of_bind_ok hadd
    obtain ⟨y, hy, hadd⟩ := of_bind_ok hadd
    cases hadd
    cases h
    exact .post (ensureBuilding_ok hopen) (.linear (resolveTerms_ok hts) (resolve_ok hy))
  | product factor left right comparison result =>
    obtain ⟨⟨i, m₁⟩, hadd, h⟩ := of_bind_ok h
    obtain ⟨_, hopen, hadd⟩ := of_bind_ok hadd
    obtain ⟨x, hx, hadd⟩ := of_bind_ok hadd
    obtain ⟨y, hy, hadd⟩ := of_bind_ok hadd
    obtain ⟨z, hz, hadd⟩ := of_bind_ok hadd
    cases hadd
    cases h
    exact .post (ensureBuilding_ok hopen) (.product (resolve_ok hx) (resolve_ok hy) (resolve_ok hz))

theorem close_accepts (h : m.close = .ok m') : m.Accepts .close none m' := by
  unfold close at h
  split at h
  · cases h
  · cases h
    exact .close (by simpa using ‹¬ m.isClosed = true›)

theorem edit_accepts {n : Option Nat} (h : m.edit e = .ok (n, m')) : m.Accepts e n m' := by
  cases e with
  | register r =>
    obtain ⟨⟨n', m₁⟩, hr, h⟩ := of_bind_ok h
    cases h
    exact register_accepts hr
  | close =>
    obtain ⟨m₁, hc, h⟩ := of_bind_ok h
    cases h
    exact close_accepts hc

/-- A call leaves the model as it was, or does what an accepted call does. -/
theorem after_cases (m : Model) (e : Edit) :
    (∃ err, m.answer e = .error err ∧ m.after e = m)
      ∨ ∃ n, m.answer e = .ok n ∧ m.Accepts e n (m.after e) := by
  rcases h : m.answer e with err | n
  · exact .inl ⟨err, rfl, after_of_refusal h⟩
  · exact .inr ⟨n, rfl, edit_accepts (edit_of_answer h)⟩

end Model

end Accepted

end ScenarioSampling
