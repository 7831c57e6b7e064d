import ScenarioSampling.Proofs.Registry

/-!
# What a call answers

The answer to a call follows from the phase of the model, the names of its variables and the
arguments of the call (`verdict`), and the first thing that is wrong is what the caller is told. A
refusal leaves the model as it was, a registration adds one entry behind the others, and a closed
model stays as it is (`answers_exact`).
-/

namespace ScenarioSampling

namespace Model

/-- A constraint is told about the first name that no variable has. -/
def verdictOnNames (m : Model) (names : List String) : Except ModelError (Option Nat) :=
  match names.find? fun name => decide (name ∉ m.vars.map Variable.name) with
  | some name => .error (.unknownVariable name)
  | none => .ok (some m.numConstraints)

/-- What a call has to answer. -/
def verdict (m : Model) : Edit → Except ModelError (Option Nat)
  | .close => if m.isClosed then .error .alreadyClosed else .ok none
  | .register r =>
    if m.isClosed then .error .modelClosed
    else match r with
      | .decision name _ varType min max | .auxiliary name varType min max =>
        if ¬ varType.Admits min max then .error (.invalidDomain name varType min max)
        else if name ∈ m.vars.map Variable.name then .error (.duplicateName name)
        else .ok (some m.numVariables)
      | .linear terms _ rhs => m.verdictOnNames (terms.map Prod.snd ++ [rhs])
      | .product _ left right _ result => m.verdictOnNames [left, right, result]

end Model

/-- The bounds of a variable are 64-bit integers. -/
def Edit.InRange : Edit → Prop
  | .register (.decision _ _ _ min max) | .register (.auxiliary _ _ min max) =>
    IntFormat.int64.Fits min ∧ IntFormat.int64.Fits max
  | _ => True

namespace Model

variable {m : Model}

theorem Coherent.index?_eq_none (hm : m.Coherent) (name : String) :
    m.index? name = none ↔ name ∉ m.vars.map Variable.name := by
  rw [Option.eq_none_iff_forall_ne_some, List.mem_map, ← not_exists, not_iff_not]
  simp only [hm.named, List.mem_iff_getElem?]
  constructor
  · rintro ⟨x, v, hv, hname⟩
    exact ⟨v, ⟨x.val, hv⟩, hname⟩
  · rintro ⟨v, ⟨i, hv⟩, hname⟩
    exact ⟨⟨i⟩, v, hv, hname⟩

/-- Names are resolved one after the other. -/
theorem Coherent.verdictOnNames_cons (hm : m.Coherent) (name : String) (rest : List String) :
    m.verdictOnNames (name :: rest) = m.resolve name >>= fun _ => m.verdictOnNames rest := by
  have hnone := hm.index?_eq_none name
  unfold verdictOnNames resolve
  rcases hi : m.index? name with _ | x
  · simp only [List.find?_cons, hnone.1 hi, not_false_eq_true, decide_true]
    rfl
  · have hmem : name ∈ m.vars.map Variable.name := by
      rw [← not_not (a := name ∈ _), ← hnone, hi]
      simp
    simp only [List.find?_cons, hmem, not_true_eq_false, decide_false]
    rfl

theorem Coherent.verdictOnNames_terms (hm : m.Coherent) (rest : List String) :
    ∀ terms : List (Int × String), m.verdictOnNames (terms.map Prod.snd ++ rest)
      = m.resolveTerms terms >>= fun _ => m.verdictOnNames rest
  | [] => rfl
  | (coefficient, name) :: terms => by
    rw [List.map_cons, List.cons_append, hm.verdictOnNames_cons, hm.verdictOnNames_terms rest terms,
      resolveTerms]
    rcases m.resolve name with _ | x
    · rfl
    · rcases m.resolveTerms terms with _ | ts
      · rfl
      · rfl

theorem ensureBuilding_of_open (h : m.isClosed = false) : m.ensureBuilding = .ok () := by
  unfold ensureBuilding
  rw [h]
  rfl

theorem answer_of_closed (h : m.isClosed = true) (r : Registration) :
    m.answer (.register r) = .error .modelClosed := by
  have hb : m.ensureBuilding = .error .modelClosed := by
    unfold ensureBuilding
    rw [h]
    rfl
  rw [answer_eq, edit]
  cases r with
  | decision | auxiliary =>
    simp only [register, addDecision, addAuxiliary, addVariable, hb]
    rfl
  | linear | product =>
    simp only [register, addLinear, addProduct, hb]
    rfl

theorem addLinear_answer (hm : m.Coherent) (hopen : m.isClosed = false)
    (terms : List (Int × String)) (comparison : Comparison) (rhs : String) :
    m.answer (.register (.linear terms comparison rhs))
      = m.verdictOnNames (terms.map Prod.snd ++ [rhs]) := by
  rw [answer_eq, hm.verdictOnNames_terms, hm.verdictOnNames_cons]
  rw [edit, register, addLinear, ensureBuilding_of_open hopen]
  rcases m.resolveTerms terms with _ | ts
  · rfl
  · rcases m.resolve rhs with _ | x
    · rfl
    · rfl

theorem addProduct_answer (hm : m.Coherent) (hopen : m.isClosed = false) (factor : Int)
    (left right : String) (comparison : Comparison) (result : String) :
    m.answer (.register (.product factor left right comparison result))
      = m.verdictOnNames [left, right, result] := by
  rw [answer_eq, hm.verdictOnNames_cons, hm.verdictOnNames_cons, hm.verdictOnNames_cons]
  rw [edit, register, addProduct, ensureBuilding_of_open hopen]
  rcases m.resolve left with _ | x
  · rfl
  · rcases m.resolve right with _ | y
    · rfl
    · rcases m.resolve result with _ | z
      · rfl
      · rfl

section Declaration

variable {name : String} {varType : VarType} {min max : Int}

theorem validDomain_admitted (name : String) (hmin : IntFormat.int64.Fits min)
    (hmax : IntFormat.int64.Fits max) (h : varType.Admits min max) :
    ∃ domain, validDomain name varType min max = .ok domain := by
  rw [validDomain_eq, Interval.of?, dif_pos ⟨hmin.1, h.1, hmax.2⟩]
  exact ⟨_, if_pos h⟩

theorem validDomain_refused (h : ¬ varType.Admits min max) :
    validDomain name varType min max = .error (.invalidDomain name varType min max) := by
  rw [validDomain_eq]
  split
  · rfl
  · exact if_neg h

theorem declare_answer (hm : m.Coherent) (hopen : m.isClosed = false) (kind : VarKind)
    (hmin : IntFormat.int64.Fits min) (hmax : IntFormat.int64.Fits max) :
    m.answer (.register (.declare name kind varType min max))
      = if ¬ varType.Admits min max then .error (.invalidDomain name varType min max)
        else if name ∈ m.vars.map Variable.name then .error (.duplicateName name)
        else .ok (some m.numVariables) := by
  have hadd : m.answer (.register (.declare name kind varType min max))
      = (m.addVariable name kind varType min max).map fun p => some p.1.val := by
    rw [answer_eq]
    cases kind with
    | decision quantifier =>
      simp only [edit, Registration.declare, register, addDecision]
      rcases m.addVariable name (.decision quantifier) varType min max with _ | p <;> rfl
    | auxiliary =>
      simp only [edit, Registration.declare, register, addAuxiliary]
      rcases m.addVariable name .auxiliary varType min max with _ | p <;> rfl
  rw [hadd, addVariable, ensureBuilding_of_open hopen]
  by_cases hadmits : varType.Admits min max
  · obtain ⟨domain, hdomain⟩ := validDomain_admitted name hmin hmax hadmits
    rw [hdomain, if_neg (not_not.2 hadmits)]
    split_ifs with hname
    · rcases hi : m.index? name with _ | x
      · exact ((hm.index?_eq_none name).1 hi hname).elim
      · rfl
    · rw [(hm.index?_eq_none name).2 hname]
      rfl
  · rw [validDomain_refused hadmits, if_pos hadmits]
    rfl

end Declaration

/-- The first thing that is wrong with a call is its answer. -/
theorem answer_eq_verdict (hm : m.Coherent) {e : Edit} (he : e.InRange) :
    m.answer e = m.verdict e := by
  cases e with
  | close =>
    rw [answer_eq]
    simp only [edit, close, verdict]
    split_ifs
    · rfl
    · rfl
  | register r =>
    unfold verdict
    split_ifs with hc
    · exact answer_of_closed hc r
    · have hopen : m.isClosed = false := by simpa using hc
      cases r with
      | decision name quantifier varType min max =>
        exact declare_answer hm hopen (.decision quantifier) he.1 he.2
      | auxiliary name varType min max => exact declare_answer hm hopen .auxiliary he.1 he.2
      | linear terms comparison rhs => exact addLinear_answer hm hopen terms comparison rhs
      | product factor left right comparison result =>
        exact addProduct_answer hm hopen factor left right comparison result

/-- A registration that is accepted puts one entry behind the others. -/
theorem Coherent.register_appends (hm : m.Coherent) {r : Registration} {n : Option Nat}
    (h : m.answer (.register r) = .ok n) :
    (∃ v, v.registration = r ∧ v.index = ⟨m.numVariables⟩ ∧ m.after (.register r) = { m with
        vars := m.vars ++ [v]
        names := (v.name, v.index) :: m.names
        numAux := m.numAux + if v.isAuxiliary then 1 else 0 })
      ∨ ∃ c : Constraint, c.Restates m.Denotes r
        ∧ m.after (.register r) = { m with constraints := m.constraints ++ [c] } := by
  have haccepts := edit_accepts (edit_of_answer h)
  generalize m.after (.register r) = m' at haccepts
  cases haccepts with
  | @declare name kind varType min max domain hopen hdomain hname =>
    obtain ⟨rfl, rfl, -⟩ := validDomain_ok hdomain
    refine .inl ⟨⟨name, ⟨m.vars.length⟩, kind, varType, domain⟩, rfl, rfl, ?_⟩
    simp [Model.declare, Variable.isAuxiliary]
  | post hopen hc => exact .inr ⟨_, hc.mono fun x name => (hm.named name x).1, rfl⟩

theorem isClosed_after_close (m : Model) : (m.after .close).isClosed = true := by
  rw [after_eq]
  unfold edit close
  rcases hc : m.isClosed with _ | _
  · rfl
  · exact hc

/-- A closed model refuses every call. -/
theorem after_of_closed (h : m.isClosed = true) (e : Edit) : m.after e = m := by
  rcases m.after_cases e with ⟨_, -, he⟩ | ⟨n, -, he⟩
  · exact he
  · generalize m.after e = m' at he
    cases he with
    | declare _ hopen | post hopen | close hopen =>
      rw [h] at hopen
      cases hopen

theorem afterAll_of_closed (h : m.isClosed = true) : ∀ es : List Edit, m.afterAll es = m
  | [] => rfl
  | e :: es => by
    have he := after_of_closed h e
    change (m.after e).afterAll es = m
    rw [he]
    exact afterAll_of_closed h es

/-- After any calls, a call answers what its verdict is, a call that is refused leaves all as it
was, and a registration that is accepted puts one entry behind the others. From the first time the
model is closed on, no calls change it. -/
theorem answers_exact (es : List Edit) :
    let m := empty.afterAll es
    (∀ e : Edit, e.InRange → m.answer e = m.verdict e)
      ∧ (∀ e err, m.answer e = .error err → m.after e = m)
      ∧ (∀ r n, m.answer (.register r) = .ok n →
        (∃ v, v.registration = r ∧ v.index = ⟨m.numVariables⟩ ∧ m.after (.register r) = { m with
            vars := m.vars ++ [v]
            names := (v.name, v.index) :: m.names
            numAux := m.numAux + if v.isAuxiliary then 1 else 0 })
          ∨ ∃ c : Constraint, c.Restates m.Denotes r
            ∧ m.after (.register r) = { m with constraints := m.constraints ++ [c] })
      ∧ (m.after .close).isClosed = true
      ∧ ∀ later, (m.after .close).afterAll later = m.after .close := by
  intro m
  have hm : m.Coherent := (afterAll_records es coherent_empty records_empty).1
  exact ⟨fun e he => answer_eq_verdict hm he, fun e err he => after_of_refusal he,
    fun r n hr => hm.register_appends hr, isClosed_after_close m,
    afterAll_of_closed (isClosed_after_close m)⟩

/-- Both bounds and name of the second `x` are wrong, two names of the constraint are unknown, and
after closing the latter changes nothing either. -/
theorem answers_exact_first_cause :
    let es : List Edit := [.register (.decision "x" .existential .int 0 9)]
    let m := empty.afterAll es
    let again : Edit := .register (.auxiliary "x" .bool 0 2)
    let unknown : Edit := .register (.linear [(1, "x"), (2, "u"), (3, "v")] .le "w")
    again.InRange ∧ m.answer again = .error (.invalidDomain "x" .bool 0 2) ∧ m.after again = m
      ∧ unknown.InRange ∧ m.answer unknown = .error (.unknownVariable "u")
      ∧ (m.after .close).afterAll [unknown, .close] = m.after .close := by
  intro es m again unknown
  obtain ⟨hanswer, hrefusal, -, -, hfrozen⟩ := answers_exact es
  have hagain : again.InRange := ⟨by decide, by decide⟩
  have hbounds : m.answer again = .error (.invalidDomain "x" .bool 0 2) :=
    (hanswer again hagain).trans (by decide +kernel)
  exact ⟨hagain, hbounds, hrefusal again _ hbounds, trivial,
    (hanswer unknown trivial).trans (by decide +kernel), hfrozen [unknown, .close]⟩

end Model

end ScenarioSampling
