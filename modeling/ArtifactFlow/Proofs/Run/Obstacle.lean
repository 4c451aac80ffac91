import ArtifactFlow.Proofs.Run.Calls

/-!
What can stand in the way of a call before it delivers anything: a requirement without a value, the
function, what the function has returned, or a volatile that is there already. What the context and
the store hold is not changed by finding that out.
-/

namespace ArtifactFlow

theorem Context.checkFree_eq_error {c : Context} {craft name : String} {e : Fault} :
    c.checkFree craft name = .error e ↔
      c.volatile? name ≠ none ∧ e = .volatileCollision craft name := by
  rw [checkFree, Fields.contains, volatile?]
  cases Fields.get? name c.volatiles <;> simp [eq_comm]

namespace Craft

/-- What can stand in the way of a call before it delivers anything. -/
inductive Obstacle (craft : Craft) (catalog : Catalog) (s : RunState) (args : Mapping) :
    Fault → Prop where
  | parameter {r : Requirement} : r ∈ craft.contract.required → r.kind = .param →
      Fields.get? r.name args = none →
      Obstacle craft catalog s args (.missingParameter craft.name r.name)
  | volatile {r : Requirement} : r ∈ craft.contract.required → r.kind = .volatile →
      s.context.volatile? r.name = none →
      Obstacle craft catalog s args (.unresolvedVolatile craft.name r.name)
  | artifact {r : Requirement} {e : Fault} : r ∈ craft.contract.required → r.kind = .artifact →
      r.default? = none → catalog.load r.name args s.store = .error e →
      Obstacle craft catalog s args e
  | body {inputs : Inputs} {source : Failure} :
      craft.inputs catalog s.context s.store args = .ok inputs →
      craft.body inputs = .error source →
      Obstacle craft catalog s args (.craftFailed craft.name source)
  /-- The names of what the function has returned are not those that are declared. -/
  | mismatch {inputs : Inputs} {outputs : Mapping} {reason : String} :
      craft.inputs catalog s.context s.store args = .ok inputs →
      craft.body inputs = .ok outputs →
      (¬ ∀ name, name ∈ Fields.keys outputs ↔ name ∈ craft.contract.producedNames) →
      Obstacle craft catalog s args (.outputMismatch craft.name reason)
  /-- A volatile of the contract is there already. -/
  | collision {name : String} : ⟨name, .volatile⟩ ∈ craft.contract.produced →
      s.context.volatile? name ≠ none →
      Obstacle craft catalog s args (.volatileCollision craft.name name)

variable {craft : Craft} {catalog : Catalog} {args : Mapping} {s : RunState} {e : Fault}

/-- Why a requirement has no value. -/
theorem input_cases {context : Context} {store : Store} {r : Requirement}
    (h : craft.input catalog context store args r = .error e) :
    (r.kind = .artifact ∧ r.default? = none ∧ catalog.load r.name args store = .error e) ∨
      (r.kind = .volatile ∧ context.volatile? r.name = none ∧
        e = .unresolvedVolatile craft.name r.name) ∨
      (r.kind = .param ∧ Fields.get? r.name args = none ∧
        e = .missingParameter craft.name r.name) := by
  rw [input] at h
  cases hkind : r.kind with
  | artifact =>
      rw [hkind] at h
      cases hload : catalog.load r.name args store with
      | ok v => simp [hload] at h
      | error fault =>
          cases hdefault : r.default? with
          | some v => simp [hload, hdefault] at h
          | none =>
              obtain rfl : fault = e := by simpa [hload, hdefault] using h
              exact .inl ⟨rfl, rfl, rfl⟩
  | volatile =>
      rw [hkind] at h
      cases hvolatile : context.volatile? r.name with
      | some v => simp [hvolatile] at h
      | none => exact .inr (.inl ⟨rfl, rfl, by simpa [hvolatile, eq_comm] using h⟩)
  | param =>
      rw [hkind] at h
      cases hget : Fields.get? r.name args with
      | some v => simp [hget] at h
      | none => exact .inr (.inr ⟨rfl, rfl, by simpa [hget, eq_comm] using h⟩)

theorem mismatch?_of_same {returned : List String}
    (h : ∀ name, name ∈ returned ↔ name ∈ craft.contract.producedNames) :
    craft.mismatch? returned = none := by
  have hmissing : namesMissing craft.contract.producedNames returned = [] :=
    namesMissing_eq_nil.2 fun name => (h name).2
  have hunexpected : namesMissing returned craft.contract.producedNames = [] :=
    namesMissing_eq_nil.2 fun name => (h name).1
  simp [mismatch?, hmissing, hunexpected]

theorem obstacle_of_outputs {inputs : Inputs}
    (hinputs : craft.inputs catalog s.context s.store args = .ok inputs)
    (h : craft.outputs inputs = .error e) : craft.Obstacle catalog s args e := by
  rcases bind_eq_error.1 h with hbody | ⟨returned, hbody, h⟩
  · obtain ⟨source, hsource, rfl⟩ := mapError_eq_error.1 hbody
    exact .body hinputs hsource
  · cases hmismatch : craft.mismatch? (Fields.keys returned) with
    | none => simp [hmismatch] at h
    | some fault =>
        obtain rfl : fault = e := by simpa [hmismatch] using h
        have hdiffer : ¬ ∀ name, name ∈ Fields.keys returned ↔
            name ∈ craft.contract.producedNames := fun hsame => by
          simp [mismatch?_of_same hsame] at hmismatch
        rw [mismatch?] at hmismatch
        split at hmismatch
        · cases hmismatch
        · obtain rfl := Option.some.inj hmismatch
          exact .mismatch hinputs (mapError_eq_ok.1 hbody) hdiffer

theorem obstacle_of_compute
    (h : craft.compute catalog s.context s.store args = .error e) :
    craft.Obstacle catalog s args e := by
  rcases bind_eq_error.1 h with hinputs | ⟨inputs, hinputs, h⟩
  · obtain ⟨acc, r, hr, hstep⟩ := exists_of_foldlM_eq_error hinputs
    rcases bind_eq_error.1 hstep with hinput | ⟨value, -, hadd⟩
    · rcases input_cases hinput with ⟨hkind, hdefault, hload⟩ | ⟨hkind, hnone, rfl⟩ |
        ⟨hkind, hnone, rfl⟩
      · exact .artifact hr hkind hdefault hload
      · exact .volatile hr hkind hnone
      · exact .parameter hr hkind hnone
    · cases hadd
  · rcases bind_eq_error.1 h with houtputs | ⟨outputs, -, h⟩
    · exact obstacle_of_outputs hinputs houtputs
    · rcases bind_eq_error.1 h with hfree | ⟨_, -, hpure⟩
      · obtain ⟨name, hname, hcheck⟩ := exists_of_forM_eq_error hfree
        obtain ⟨hpresent, rfl⟩ := Context.checkFree_eq_error.1 hcheck
        exact .collision (Contract.mem_productionsOf.1 hname) hpresent
      · cases hpure

end Craft
end ArtifactFlow
