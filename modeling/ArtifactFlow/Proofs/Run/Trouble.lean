import ArtifactFlow.Proofs.Catalog.Faults
import ArtifactFlow.Proofs.Run.Obstacle

/-!
How a call of a craft can fail: a hook ends it, or it has trouble of its own. Which trouble that is
decides what can be wrong with the run as a whole.
-/

namespace ArtifactFlow

namespace Craft

variable {craft : Craft} {catalog : Catalog} {args outputs : Mapping} {s t : RunState}

/-- Why a requirement has no value. -/
theorem input_eq_error {context : Context} {store : Store} {r : Requirement} {e : Fault}
    (h : craft.input catalog context store args r = .error e) :
    e.OfCatalog ∨
      (r.kind = .volatile ∧ context.volatile? r.name = none ∧
        e = .unresolvedVolatile craft.name r.name) ∨
      (r.kind = .param ∧ e = .missingParameter craft.name r.name) := by
  rcases input_cases h with ⟨-, -, hload⟩ | ⟨hkind, hnone, he⟩ | ⟨hkind, -, he⟩
  · exact .inl (catalog.load_failsWith r.name args store e hload)
  · exact .inr (.inl ⟨hkind, hnone, he⟩)
  · exact .inr (.inr ⟨hkind, he⟩)

/-- Why a call fails that no hook has ended. -/
inductive Trouble (craft : Craft) (catalog : Catalog) (s : RunState) : Fault → Prop where
  /-- A requirement has no value. -/
  | input {r : Requirement} {e : Fault} : r ∈ craft.contract.required →
      craft.input catalog s.context s.store (craft.namespaceFor s.context []) r = .error e →
      Trouble craft catalog s e
  | body {source : Failure} : Trouble craft catalog s (.craftFailed craft.name source)
  | mismatch {reason : String} : Trouble craft catalog s (.outputMismatch craft.name reason)
  /-- A volatile of the contract is there already. -/
  | collision {name : String} : ⟨name, .volatile⟩ ∈ craft.contract.produced →
      s.context.volatile? name ≠ none →
      Trouble craft catalog s (.volatileCollision craft.name name)
  | saving {e : Fault} : e.OfCatalog → Trouble craft catalog s e

theorem trouble_of_compute {e : Fault} (h : craft.compute catalog s.context s.store
    (craft.namespaceFor s.context []) = .error e) : craft.Trouble catalog s e := by
  cases obstacle_of_compute h with
  | parameter hr hkind hnone => exact .input hr (by simp [input, hkind, hnone])
  | volatile hr hkind hnone => exact .input hr (by simp [input, hkind, hnone])
  | artifact hr hkind hdefault hload => exact .input hr (by simp [input, hkind, hdefault, hload])
  | body _ _ => exact .body
  | mismatch _ _ _ => exact .mismatch
  | collision hname hpresent => exact .collision hname hpresent

/-- Volatiles that are new and of different names do not collide, so that an output can only fail
to be saved. -/
theorem ofCatalog_of_deliverAll {ps : List Production} {e : Fault}
    (present : Production.Present outputs ps) (distinct : (ps.map (·.name)).Nodup)
    (fresh : ∀ name, ⟨name, .volatile⟩ ∈ ps → s.context.volatile? name = none)
    (h : Run.exec (craft.deliverAll catalog args outputs ps) s = (.error e, t)) :
    e.OfCatalog := by
  induction ps generalizing s with
  | nil => cases h
  | cons p ps ih =>
      obtain ⟨⟨value, hvalue⟩, present⟩ := List.forall_mem_cons.1 present
      obtain ⟨hnew, distinct⟩ := List.nodup_cons.1 distinct
      rcases Run.exec_bind_eq_error.1 h with hfirst | ⟨⟨⟩, u, hfirst, hrest⟩
      · obtain ⟨name, kind⟩ := p
        cases kind with
        | artifact =>
            rw [exec_deliver_artifact] at hfirst
            have hfails := catalog.save_failsWith name ((Fields.get? name outputs).getD .null)
              args s.store
            rcases hsave : catalog.save name ((Fields.get? name outputs).getD .null) args s.store
              with ⟨fault | ⟨⟩, store⟩
            · rw [hsave] at hfirst hfails
              cases hfirst
              exact failsWith_error.1 hfails
            · simp [hsave] at hfirst
        | volatile =>
            rw [exec_deliver_volatile,
              Context.insertVolatile_of_free (fresh name List.mem_cons_self)] at hfirst
            cases hfirst
      · refine ih present distinct ?_ hrest
        intro name hname
        have hfree := fresh name (List.mem_cons_of_mem p hname)
        rw [Context.volatile?, Fields.get?_eq_none_iff] at hfree ⊢
        rw [(moves_deliver hvalue hfirst).volatiles, Fields.keys, List.map_append, List.mem_append]
        rintro (hmem | hmem)
        · exact hfree hmem
        · obtain ⟨_, hentry, rfl⟩ := List.mem_map.1 hmem
          obtain rfl := List.mem_singleton.1 (Production.mem_delivered_iff.1 hentry).1
          exact hnew (List.mem_map_of_mem hname)

theorem trouble_of_perform {e : Fault} (distinct : craft.contract.producedNames.Nodup)
    (h : Run.exec (craft.perform catalog []) s = (.error e, t)) : craft.Trouble catalog s e := by
  rw [exec_perform] at h
  cases hcompute : craft.compute catalog s.context s.store (craft.namespaceFor s.context []) with
  | error fault =>
      rw [hcompute] at h
      cases h
      exact trouble_of_compute hcompute
  | ok outputs =>
      rw [hcompute] at h
      obtain ⟨inputs, -, houtputs, -⟩ := compute_eq_ok.1 hcompute
      exact .saving (ofCatalog_of_deliverAll (outputs_eq_ok houtputs).2 distinct
        (fun _ => free_of_compute hcompute) h)

theorem Trouble.of_unchanged {e : Fault} (h : craft.Trouble catalog t e)
    (hcontext : t.context = s.context) (hstore : t.store = s.store) :
    craft.Trouble catalog s e := by
  cases h with
  | input hr hinput => exact .input hr (by rwa [hcontext, hstore] at hinput)
  | body => exact .body
  | mismatch => exact .mismatch
  | collision hname hpresent => exact .collision hname (by rwa [hcontext] at hpresent)
  | saving hcatalog => exact .saving hcatalog

/-- A call that fails was ended by a hook of the craft or has trouble of its own. -/
theorem trouble_of_invoke {e : Fault} (distinct : craft.contract.producedNames.Nodup)
    (h : Run.exec (craft.invoke catalog []) s = (.error e, t)) :
    (∃ source, e = Hook.refusal craft.name source) ∨ craft.Trouble catalog s e := by
  rcases Run.exec_bind_eq_error.1 h with hbefore | ⟨⟨⟩, u, hbefore, h⟩
  · exact .inl ((Hook.watches_callBefore _ _).refused hbefore)
  · obtain ⟨hcontext, hstore⟩ := (Hook.watches_callBefore _ _).unchanged hbefore
    rcases Run.exec_bind_eq_error.1 h with htold | ⟨⟨⟩, v, -, hafter⟩
    · obtain ⟨w, hperform, -⟩ := Run.exec_told_eq_error.1 htold
      exact .inr ((trouble_of_perform distinct hperform).of_unchanged hcontext hstore)
    · exact .inl ((Hook.watches_callAfter _ _).refused hafter)

end Craft
end ArtifactFlow
