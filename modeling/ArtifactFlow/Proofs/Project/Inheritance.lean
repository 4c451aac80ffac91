import ArtifactFlow.Project.ParameterSets
import ArtifactFlow.Proofs.Except
import ArtifactFlow.Proofs.Fields
import Mathlib.Data.List.Chain
import Mathlib.Data.List.Forall2
import Mathlib.Logic.Relation

/-!
What a set of arguments expands to. A set expands exactly if all that it builds on is there and
nothing in that builds on itself; it may build on one set in several ways. What was on the stack
does not show in a result, so that each parent counts for what it expands to by itself. The bound
on the levels is never met.
-/

namespace ArtifactFlow.ParameterSets

/-- The set is there and names the other one as a parent. -/
def BuildsOn (sets : ParameterSets) (name parent : String) : Prop :=
  ∃ set, Fields.get? name sets = some set ∧ parent ∈ set.parents

/-- The set itself, or one that it builds on through any number of others. -/
def Reaches (sets : ParameterSets) : String → String → Prop :=
  Relation.ReflTransGen sets.BuildsOn

variable {sets : ParameterSets} {levels more : Nat} {stack fewer : List String}
  {first name parent other : String} {values : Mapping} {e : Fault}

theorem BuildsOn.contains (h : sets.BuildsOn name parent) : Fields.contains name sets := by
  obtain ⟨set, hset, -⟩ := h
  exact Fields.contains_iff.2 ⟨set, hset⟩

/-- A fold over results succeeds exactly if each of them does. -/
theorem foldlM_results_eq_ok {ε : Type u} {α β σ : Type v} {f : α → Except ε β} {g : σ → β → σ}
    {l : List α} {s t : σ} :
    l.foldlM (fun s a => f a >>= fun b => pure (g s b)) s = .ok t ↔
      ∃ bs, List.Forall₂ (fun a b => f a = .ok b) l bs ∧ t = bs.foldl g s := by
  induction l generalizing s with
  | nil => simp [eq_comm]
  | cons a l ih =>
      simp only [List.foldlM_cons, bind_eq_ok, pure_eq_ok, Except.ok.injEq]
      constructor
      · rintro ⟨_, ⟨b, hb, rfl⟩, hrest⟩
        obtain ⟨bs, hbs, rfl⟩ := ih.1 hrest
        exact ⟨b :: bs, .cons hb hbs, rfl⟩
      · rintro ⟨_, hall, rfl⟩
        cases hall with
        | cons hb hbs => exact ⟨_, ⟨_, hb, rfl⟩, ih.2 ⟨_, hbs, rfl⟩⟩

theorem expandWithin_succ_eq_ok : sets.expandWithin (levels + 1) stack name = .ok values ↔
    name ∉ stack ∧ ∃ set inherited, Fields.get? name sets = some set ∧
      List.Forall₂ (fun parent values =>
        sets.expandWithin levels (name :: stack) parent = .ok values) set.parents inherited ∧
      values = set.method.apply (inherited.foldl Mapping.merge []) set.values := by
  rw [expandWithin]
  by_cases hstack : name ∈ stack
  · simp [hstack]
  · cases hset : Fields.get? name sets with
    | none => simp [hstack]
    | some set =>
        simp only [List.contains_iff_mem, hstack, if_false, bind_eq_ok, foldlM_results_eq_ok]
        simp only [pure_eq_ok, Except.ok.injEq, not_false_eq_true, true_and, Option.some.injEq]
        constructor
        · rintro ⟨_, ⟨inherited, hall, rfl⟩, rfl⟩
          exact ⟨set, inherited, rfl, hall, rfl⟩
        · rintro ⟨_, inherited, rfl, hall, rfl⟩
          exact ⟨_, ⟨inherited, hall, rfl⟩, rfl⟩

theorem of_expandWithin_succ_eq_error
    (h : sets.expandWithin (levels + 1) stack name = .error e) :
    (name ∈ stack ∧ e = cyclic stack name) ∨
      (Fields.get? name sets = none ∧ e = .unknownParameterSet name) ∨
      name ∉ stack ∧ ∃ parent, sets.BuildsOn name parent ∧
        sets.expandWithin levels (name :: stack) parent = .error e := by
  rw [expandWithin] at h
  by_cases hstack : name ∈ stack
  · left
    simpa [hstack, eq_comm] using h
  · right
    cases hset : Fields.get? name sets with
    | none =>
        left
        simpa [hstack, hset, eq_comm] using h
    | some set =>
        right
        simp only [List.contains_iff_mem, hstack, if_false, hset] at h
        cases bind_eq_error.1 h with
        | inl hparents =>
            obtain ⟨_, parent, hmem, hstep⟩ := exists_of_foldlM_eq_error hparents
            cases bind_eq_error.1 hstep with
            | inl hparent => exact ⟨hstack, parent, ⟨set, hset, hmem⟩, hparent⟩
            | inr hmerge =>
                obtain ⟨_, -, hmerge⟩ := hmerge
                exact nomatch hmerge
        | inr hown =>
            obtain ⟨_, -, hown⟩ := hown
            exact nomatch hown

/-- What a set expands to is the same with more levels and inside fewer sets. -/
theorem expandWithin_mono (h : sets.expandWithin levels stack name = .ok values)
    (hlevels : levels ≤ more) (hsub : fewer ⊆ stack) :
    sets.expandWithin more fewer name = .ok values := by
  induction levels generalizing more stack fewer name values with
  | zero => exact nomatch h
  | succ levels ih =>
      obtain ⟨more, rfl⟩ := Nat.exists_eq_add_of_lt hlevels
      obtain ⟨hnew, set, inherited, hset, hall, rfl⟩ := expandWithin_succ_eq_ok.1 h
      refine expandWithin_succ_eq_ok.2
        ⟨fun hmem => hnew (hsub hmem), set, inherited, hset, hall.imp ?_, rfl⟩
      intro parent values hparent
      exact ih hparent (Nat.le_add_right _ _) (List.cons_subset_cons name hsub)

/-- A set that expands has parents that expand inside it. -/
theorem exists_expandWithin_parent (h : sets.expandWithin levels stack name = .ok values)
    (hparent : sets.BuildsOn name parent) :
    ∃ levels values, sets.expandWithin levels (name :: stack) parent = .ok values := by
  cases levels with
  | zero => exact nomatch h
  | succ levels =>
      obtain ⟨-, set, inherited, hset, hall, -⟩ := expandWithin_succ_eq_ok.1 h
      obtain ⟨_, hset', hmem⟩ := hparent
      obtain rfl := Option.some.inj (hset.symm.trans hset')
      have hparents : ∀ parent ∈ set.parents,
          ∃ values, sets.expandWithin levels (name :: stack) parent = .ok values :=
        ((List.forall₂_and_left _ _).1 (hall.imp fun _ values h => ⟨⟨values, h⟩, h⟩)).1
      exact ⟨levels, hparents parent hmem⟩

/-- What a set that expands builds on expands inside it. -/
theorem exists_expandWithin_below (h : sets.expandWithin levels stack name = .ok values)
    (below : Relation.TransGen sets.BuildsOn name other) :
    ∃ levels stack values, name ∈ stack ∧ sets.expandWithin levels stack other = .ok values := by
  induction below with
  | single hparent =>
      obtain ⟨levels, values, hvalues⟩ := exists_expandWithin_parent h hparent
      exact ⟨levels, name :: stack, values, List.mem_cons_self, hvalues⟩
  | tail _ hparent ih =>
      obtain ⟨levels, stack, values, hmem, hvalues⟩ := ih
      obtain ⟨levels, values, hvalues⟩ := exists_expandWithin_parent hvalues hparent
      exact ⟨levels, _, values, List.mem_cons_of_mem _ hmem, hvalues⟩

theorem exists_expandWithin_of_reaches (h : sets.expandWithin levels stack name = .ok values)
    (hreach : sets.Reaches name other) :
    ∃ levels stack values, sets.expandWithin levels stack other = .ok values := by
  cases Relation.reflTransGen_iff_eq_or_transGen.1 hreach with
  | inl heq => exact ⟨levels, stack, values, heq ▸ h⟩
  | inr below =>
      obtain ⟨levels, stack, values, -, hvalues⟩ := exists_expandWithin_below h below
      exact ⟨levels, stack, values, hvalues⟩

theorem of_expandWithin_eq_ok (h : sets.expandWithin levels stack name = .ok values) :
    Fields.contains name sets ∧ name ∉ stack := by
  cases levels with
  | zero => exact nomatch h
  | succ levels =>
      obtain ⟨hnew, set, -, hset, -⟩ := expandWithin_succ_eq_ok.1 h
      exact ⟨Fields.contains_iff.2 ⟨set, hset⟩, hnew⟩

/-- Where expansion stands: a line of parents leads from the first set through the stack, latest
first, to this name, and levels are left for all sets that are not on the stack. -/
structure Descent (sets : ParameterSets) (first : String) (levels : Nat) (stack : List String)
    (name : String) : Prop where
  steps : (name :: stack).IsChain fun parent child => sets.BuildsOn child parent
  start : (name :: stack).getLast? = some first
  nodup : stack.Nodup
  room : sets.length < levels + stack.length

namespace Descent

theorem leads (h : Descent sets first levels stack name) {child : String} (hmem : child ∈ stack) :
    Relation.TransGen sets.BuildsOn child name := by
  have steps := h.steps
  clear h
  induction stack generalizing name with
  | nil => exact absurd hmem List.not_mem_nil
  | cons next stack ih =>
      obtain ⟨hnext, hrest⟩ := List.isChain_cons_cons.1 steps
      cases List.mem_cons.1 hmem with
      | inl heq => exact heq ▸ .single hnext
      | inr hlater => exact (ih hlater hrest).tail hnext

theorem reaches (h : Descent sets first levels stack name) : sets.Reaches first name := by
  cases stack with
  | nil =>
      obtain rfl := Option.some.inj h.start
      exact .refl
  | cons next stack =>
      have hfirst := h.start
      rw [List.getLast?_cons_cons] at hfirst
      exact (h.leads (List.mem_of_getLast? hfirst)).to_reflTransGen

theorem levels_ne_zero (h : Descent sets first 0 stack name) : False := by
  have inside : ∀ child ∈ stack, Fields.contains child sets := by
    intro child hmem
    obtain ⟨_, hchild, -⟩ := Relation.TransGen.head'_iff.1 (h.leads hmem)
    exact hchild.contains
  have hle := Fields.length_le_of_contains h.nodup inside
  have room := h.room
  omega

theorem step (h : Descent sets first (levels + 1) stack name) (hnew : name ∉ stack)
    (hparent : sets.BuildsOn name parent) : Descent sets first levels (name :: stack) parent where
  steps := List.isChain_cons_cons.2 ⟨hparent, h.steps⟩
  start := by rw [List.getLast?_cons_cons, h.start]
  nodup := List.nodup_cons.2 ⟨hnew, h.nodup⟩
  room := by
    have := h.room
    simp only [List.length_cons]
    omega

end Descent

/-- Levels that leave room for all sets are enough: more of them change nothing. -/
theorem expandWithin_congr (h : Descent sets first levels stack name)
    (h' : Descent sets first more stack name) :
    sets.expandWithin levels stack name = sets.expandWithin more stack name := by
  induction levels generalizing more stack name with
  | zero => exact h.levels_ne_zero.elim
  | succ levels ih =>
      cases more with
      | zero => exact h'.levels_ne_zero.elim
      | succ more =>
          rw [expandWithin, expandWithin]
          by_cases hstack : name ∈ stack
          · simp [hstack]
          · cases hset : Fields.get? name sets with
            | none => rfl
            | some set =>
                simp only [List.contains_iff_mem, hstack, if_false]
                congr 1
                apply foldlM_congr
                intro acc parent hmem
                have hparent : sets.BuildsOn name parent := ⟨set, hset, hmem⟩
                rw [ih (h.step hstack hparent) (h'.step hstack hparent)]

/-- Expansion fails for a parent that is not there, or at the end of a line of parents that comes
back to one of them. -/
theorem of_expandWithin_eq_error (h : Descent sets first levels stack name)
    (he : sets.expandWithin levels stack name = .error e) :
    (∃ missing, e = .unknownParameterSet missing ∧ sets.Reaches first missing ∧
      Fields.get? missing sets = none) ∨
    ∃ line again, e = .configuration
        ("cyclic parameter set inheritance: " ++ Text.joinWith " → " line) ∧
      line.head? = some first ∧ line.IsChain sets.BuildsOn ∧ line.getLast? = some again ∧
      sets.Reaches first again ∧ Relation.TransGen sets.BuildsOn again again := by
  induction levels generalizing stack name with
  | zero => exact h.levels_ne_zero.elim
  | succ levels ih =>
      rcases of_expandWithin_succ_eq_error he with hcyclic | hmissing | hparent
      · obtain ⟨hstack, rfl⟩ := hcyclic
        refine .inr ⟨(name :: stack).reverse, name, rfl, ?_, ?_, ?_, h.reaches, h.leads hstack⟩
        · rw [List.head?_reverse, h.start]
        · exact List.isChain_reverse.2 h.steps
        · rw [List.getLast?_reverse, List.head?_cons]
      · obtain ⟨hnone, rfl⟩ := hmissing
        exact .inl ⟨name, rfl, h.reaches, hnone⟩
      · obtain ⟨hnew, parent, hparent, hfault⟩ := hparent
        exact ih (h.step hnew hparent) hfault

/-- A set expands exactly if all that it reaches is there and none of that reaches itself; then it
is the merge of what its parents expand to, under its own values. If it does not expand, a set is
missing or there is a cycle, and the error says which of both. -/
theorem expand_account (sets : ParameterSets) (name : String) :
    ((∃ values, sets.expand name = .ok values) ↔ ∀ other, sets.Reaches name other →
      Fields.contains other sets ∧ ¬ Relation.TransGen sets.BuildsOn other other) ∧
    (∀ values, sets.expand name = .ok values → ∃ set inherited,
      Fields.get? name sets = some set ∧
      List.Forall₂ (fun parent values => sets.expand parent = .ok values) set.parents inherited ∧
      values = set.method.apply (inherited.foldl Mapping.merge []) set.values) ∧
    (∀ e, sets.expand name = .error e →
      (∃ missing, e = .unknownParameterSet missing ∧ sets.Reaches name missing ∧
        Fields.get? missing sets = none) ∨
      ∃ line again, e = .configuration
          ("cyclic parameter set inheritance: " ++ Text.joinWith " → " line) ∧
        line.head? = some name ∧ line.IsChain sets.BuildsOn ∧ line.getLast? = some again ∧
        sets.Reaches name again ∧ Relation.TransGen sets.BuildsOn again again) ∧
    ∀ levels, sets.length < levels → sets.expandWithin levels [] name = sets.expand name := by
  have descent {levels : Nat} (h : sets.length < levels) : Descent sets name levels [] name :=
    ⟨List.isChain_singleton name, rfl, List.nodup_nil, by simpa using h⟩
  have enough : sets.length < sets.length + 1 := Nat.lt_succ_self _
  refine ⟨⟨?_, ?_⟩, ?_, fun e => of_expandWithin_eq_error (descent enough),
    fun levels h => expandWithin_congr (descent h) (descent enough)⟩
  · intro ⟨values, h⟩ other hreach
    obtain ⟨_, _, _, hother⟩ := exists_expandWithin_of_reaches h hreach
    refine ⟨(of_expandWithin_eq_ok hother).1, fun cycle => ?_⟩
    -- On the way back to itself the set is on the stack, where it would not expand again.
    obtain ⟨_, _, _, hmem, hagain⟩ := exists_expandWithin_below hother cycle
    exact (of_expandWithin_eq_ok hagain).2 hmem
  · intro hall
    cases h : sets.expand name with
    | ok values => exact ⟨values, rfl⟩
    | error e =>
        rcases of_expandWithin_eq_error (descent enough) h with
          ⟨missing, -, hreach, hnone⟩ | ⟨_, again, -, -, -, -, hreach, cycle⟩
        · have hthere := (hall missing hreach).1
          rw [Fields.contains, hnone] at hthere
          cases hthere
        · exact absurd cycle (hall again hreach).2
  · intro values h
    obtain ⟨-, set, inherited, hset, hall, hvalues⟩ := expandWithin_succ_eq_ok.1 h
    refine ⟨set, inherited, hset, hall.imp fun parent values hparent => ?_, hvalues⟩
    exact expandWithin_mono hparent (Nat.le_succ _) (List.nil_subset _)

namespace Orchard

/-- Two ways from `graft` to `stock`, one set with a parent that nobody planted, and two that are
parents of each other. -/
def planted : ParameterSets :=
  [("graft", ⟨["pear", "plum"], .override, 0, [("rows", .int 5)]⟩),
    ("hedge", ⟨["pear", "quince"], .recursive, 0, []⟩),
    ("ivy", ⟨["vine"], .recursive, 0, []⟩),
    ("pear", ⟨["stock"], .recursive, 0, [("fruit", .mapping [("pear", .int 1)])]⟩),
    ("plum", ⟨["stock"], .recursive, 0, [("fruit", .mapping [("plum", .int 2)])]⟩),
    ("stock", ⟨[], .recursive, 0, [("rows", .int 3)]⟩),
    ("vine", ⟨["ivy"], .recursive, 0, []⟩)]

end Orchard

open Orchard in
theorem expand_account_orchard :
    planted.expand "graft" = .ok [("rows", .int 5),
      ("fruit", .mapping [("pear", .int 1), ("plum", .int 2)])] ∧
    (∀ other, planted.Reaches "graft" other →
      Fields.contains other planted ∧ ¬ Relation.TransGen planted.BuildsOn other other) ∧
    (∃ missing, planted.expand "hedge" = .error (.unknownParameterSet missing) ∧
      planted.Reaches "hedge" missing ∧ Fields.get? missing planted = none) ∧
    planted.expand "ivy" = .error (.configuration
      "cyclic parameter set inheritance: ivy → vine → ivy") ∧
    ∃ again, planted.Reaches "ivy" again ∧ Relation.TransGen planted.BuildsOn again again := by
  have hgraft : planted.expand "graft" = .ok [("rows", .int 5),
      ("fruit", .mapping [("pear", .int 1), ("plum", .int 2)])] := rfl
  have hhedge : planted.expand "hedge" = .error (.unknownParameterSet "quince") := rfl
  have hivy : planted.expand "ivy" = .error (.configuration
      "cyclic parameter set inheritance: ivy → vine → ivy") := rfl
  obtain ⟨⟨hsound, -⟩, -⟩ := expand_account planted "graft"
  obtain ⟨-, -, herror, -⟩ := expand_account planted "hedge"
  obtain ⟨-, -, hcycle, -⟩ := expand_account planted "ivy"
  refine ⟨hgraft, hsound ⟨_, hgraft⟩, ?_, hivy, ?_⟩
  · rcases herror _ hhedge with ⟨missing, heq, hmissing⟩ | ⟨_, _, heq, -⟩
    · exact ⟨missing, heq ▸ hhedge, hmissing⟩
    · cases heq
  · rcases hcycle _ hivy with ⟨_, heq, -⟩ | ⟨_, again, -, -, -, -, hreach, cycle⟩
    · cases heq
    · exact ⟨again, hreach, cycle⟩

end ArtifactFlow.ParameterSets
