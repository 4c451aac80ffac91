import ArtifactFlow.Pipeline.Definitions
import ArtifactFlow.Proofs.Fields
import Mathlib.Logic.Relation

/-!
What definitions come down to. An operator stands below a name if definitions lead to it; below a
grounded name no definition stands below itself, and whatever is not defined is a registered craft.
A name is grounded exactly if its operators are, which is the step that building takes.
-/

namespace ArtifactFlow.Definitions

/-- The operator stands in the definition of the name. -/
def Uses (ds : Definitions) (name operator : String) : Prop :=
  ∃ operators, Fields.get? name ds = some operators ∧ operator ∈ operators

/-- The operator is the name itself, or stands below it through any number of definitions. -/
def Reaches (ds : Definitions) : String → String → Prop :=
  Relation.ReflTransGen ds.Uses

/-- A name comes down to a craft: the craft is registered for an operator below the name that is
not defined. -/
def Gathers (ds : Definitions) (crafts : CraftRegistry) (name : String) (c : Craft) : Prop :=
  ∃ operator, ds.Reaches name operator ∧ Fields.get? operator ds = none ∧
    Fields.get? operator crafts = some c

/-- Below the name no definition on the stack stands and none that stands below itself, and all
that is not defined is registered. -/
structure Grounded (ds : Definitions) (crafts : CraftRegistry) (stack : List String)
    (name : String) : Prop where
  fresh : ∀ other, ds.Reaches name other → Fields.contains other ds → other ∉ stack
  no_recursion : ∀ other, ds.Reaches name other → ¬ Relation.TransGen ds.Uses other other
  registered : ∀ operator, ds.Reaches name operator → Fields.get? operator ds = none →
    Fields.contains operator crafts

variable {ds : Definitions} {crafts : CraftRegistry} {stack : List String} {name : String}
  {operators : List String}

theorem uses_iff (hname : Fields.get? name ds = some operators) {operator : String} :
    ds.Uses name operator ↔ operator ∈ operators := by
  simp [Uses, hname]

theorem not_uses (hname : Fields.get? name ds = none) (operator : String) :
    ¬ ds.Uses name operator := by
  simp [Uses, hname]

theorem reaches_iff (hname : Fields.get? name ds = some operators) {other : String} :
    ds.Reaches name other ↔ name = other ∨ ∃ operator ∈ operators, ds.Reaches operator other := by
  rw [Reaches, Relation.ReflTransGen.cases_head_iff]
  simp only [uses_iff hname]

theorem reaches_undefined_iff (hname : Fields.get? name ds = none) {other : String} :
    ds.Reaches name other ↔ name = other := by
  rw [Reaches, Relation.ReflTransGen.cases_head_iff]
  simp only [not_uses hname, false_and, exists_false, or_false]

theorem gathers_iff (hname : Fields.get? name ds = some operators) {c : Craft} :
    ds.Gathers crafts name c ↔ ∃ operator ∈ operators, ds.Gathers crafts operator c := by
  constructor
  · intro ⟨leaf, hleaf, hnone, hcraft⟩
    cases (reaches_iff hname).1 hleaf with
    | inl heq => exact absurd (heq ▸ hname) (by simp [hnone])
    | inr hbelow =>
        obtain ⟨operator, hmem, hreach⟩ := hbelow
        exact ⟨operator, hmem, leaf, hreach, hnone, hcraft⟩
  · intro ⟨operator, hmem, leaf, hreach, hnone, hcraft⟩
    exact ⟨leaf, (reaches_iff hname).2 (.inr ⟨operator, hmem, hreach⟩), hnone, hcraft⟩

theorem gathers_undefined_iff (hname : Fields.get? name ds = none) {c : Craft} :
    ds.Gathers crafts name c ↔ Fields.get? name crafts = some c := by
  simp only [Gathers, reaches_undefined_iff hname]
  constructor
  · intro ⟨_, rfl, _, hcraft⟩
    exact hcraft
  · intro hcraft
    exact ⟨name, rfl, hname, hcraft⟩

theorem grounded_undefined_iff (hname : Fields.get? name ds = none) :
    ds.Grounded crafts stack name ↔ Fields.contains name crafts := by
  constructor
  · intro grounded
    exact grounded.registered name .refl hname
  · intro hcraft
    constructor
    · intro other hreach hother
      rw [← (reaches_undefined_iff hname).1 hreach, Fields.contains, hname] at hother
      exact absurd hother (by simp)
    · intro other hreach cycle
      rw [← (reaches_undefined_iff hname).1 hreach] at cycle
      obtain ⟨next, huse, -⟩ := Relation.TransGen.head'_iff.1 cycle
      exact not_uses hname next huse
    · intro operator hreach _
      exact (reaches_undefined_iff hname).1 hreach ▸ hcraft

/-- A definition is grounded if it is not on the stack and its operators are grounded with it on
the stack. -/
theorem grounded_iff (hname : Fields.get? name ds = some operators) :
    ds.Grounded crafts stack name ↔
      name ∉ stack ∧ ∀ operator ∈ operators, ds.Grounded crafts (name :: stack) operator := by
  have hdefined : Fields.contains name ds := Fields.contains_iff.2 ⟨operators, hname⟩
  constructor
  · intro grounded
    refine ⟨grounded.fresh name .refl hdefined, ?_⟩
    intro operator hmem
    have hbelow {other : String} (h : ds.Reaches operator other) : ds.Reaches name other :=
      (reaches_iff hname).2 (.inr ⟨operator, hmem, h⟩)
    constructor
    · intro other hreach hother hstack
      cases List.mem_cons.1 hstack with
      | inl heq =>
          -- What leads back to the name closes a cycle through it.
          subst heq
          exact grounded.no_recursion other .refl (.head' ((uses_iff hname).2 hmem) hreach)
      | inr hstack => exact grounded.fresh other (hbelow hreach) hother hstack
    · exact fun other hreach => grounded.no_recursion other (hbelow hreach)
    · exact fun leaf hreach => grounded.registered leaf (hbelow hreach)
  · intro ⟨hnew, hall⟩
    constructor
    · intro other hreach hother
      cases (reaches_iff hname).1 hreach with
      | inl heq => exact heq ▸ hnew
      | inr hbelow =>
          obtain ⟨operator, hmem, hreach⟩ := hbelow
          intro hstack
          exact (hall operator hmem).fresh other hreach hother (List.mem_cons_of_mem _ hstack)
    · intro other hreach cycle
      cases (reaches_iff hname).1 hreach with
      | inl heq =>
          subst heq
          obtain ⟨operator, huse, hback⟩ := Relation.TransGen.head'_iff.1 cycle
          have hfresh := (hall operator ((uses_iff hname).1 huse)).fresh name hback hdefined
          exact hfresh List.mem_cons_self
      | inr hbelow =>
          obtain ⟨operator, hmem, hreach⟩ := hbelow
          exact (hall operator hmem).no_recursion other hreach cycle
    · intro leaf hreach hnone
      cases (reaches_iff hname).1 hreach with
      | inl heq => exact absurd (heq ▸ hname) (by simp [hnone])
      | inr hbelow =>
          obtain ⟨operator, hmem, hreach⟩ := hbelow
          exact (hall operator hmem).registered leaf hreach hnone

end ArtifactFlow.Definitions
