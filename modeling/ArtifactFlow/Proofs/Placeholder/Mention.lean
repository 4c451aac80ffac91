import ArtifactFlow.Proofs.Placeholder.Rebinding

/-!
What rendering depends on. Two ways to bind placeholders are compared on those that stand in the
texts of a value, before any is bound: where they bind these alike the value is rendered alike. What
a value brings into a text is not looked at again.
-/

namespace ArtifactFlow

universe u

variable {α β : Type u} {same : Prop}

/-- Both fail, with the same fault, or neither does; and then they come to the same if `same`
holds. -/
def Alike (same : Prop) : Except Fault α → Except Fault α → Prop
  | .ok a, .ok b => same → a = b
  | .error e, .error f => e = f
  | _, _ => False

theorem Alike.refl (same : Prop) (x : Except Fault α) : Alike same x x := by
  cases x with
  | ok a => exact fun _ => rfl
  | error e => exact Eq.refl e

theorem Alike.eq {x y : Except Fault α} (h : Alike same x y) (hsame : same) : x = y := by
  cases x with
  | ok a =>
      cases y with
      | ok b => exact congrArg _ (h hsame)
      | error f => exact absurd h id
  | error e =>
      cases y with
      | ok b => exact absurd h id
      | error f => exact congrArg _ h

theorem Alike.error_iff {x y : Except Fault α} (h : Alike same x y) (e : Fault) :
    x = .error e ↔ y = .error e := by
  cases x with
  | ok a =>
      cases y with
      | ok b => exact ⟨nofun, nofun⟩
      | error f => exact absurd h id
  | error e =>
      cases y with
      | ok b => exact absurd h id
      | error f =>
          obtain rfl : e = f := h
          rfl

theorem Alike.bind {x y : Except Fault α} {f g : α → Except Fault β} (h : Alike same x y)
    (hrest : ∀ a b, (same → a = b) → Alike same (f a) (g b)) : Alike same (x >>= f) (y >>= g) := by
  cases x with
  | ok a =>
      cases y with
      | ok b => exact hrest a b h
      | error e => exact absurd h id
  | error e =>
      cases y with
      | ok b => exact absurd h id
      | error f => exact h

/-- Results that are put together from such as come to the same. -/
theorem alike_ok {a b : α} (f : α → β) (h : same → a = b) :
    Alike same (.ok (f a) : Except Fault β) (.ok (f b)) :=
  fun hsame => congrArg f (h hsame)

/-- A placeholder in a text inside the value. -/
def Value.Mentions (v : Value) (p : Placeholder) : Prop :=
  ∃ s found, v.Holds s ∧ Segment.parse s = .ok found ∧ .placeholder p ∈ found

namespace Expression

variable {bind other : Binder}

theorem alike_concat {segments : List Segment}
    (h : ∀ p, .placeholder p ∈ segments → Alike same (bind p) (other p)) :
    Alike same (concat bind segments) (concat other segments) := by
  induction segments with
  | nil => exact .refl same _
  | cons segment rest ih =>
      have hrest := ih fun p hp => h p (List.mem_cons_of_mem segment hp)
      cases segment with
      | literal text => exact hrest.bind fun _ _ => alike_ok (text ++ ·)
      | placeholder p =>
          refine (h p List.mem_cons_self).bind fun v w hvw => ?_
          refine hrest.bind fun s t hst hsame => ?_
          rw [hvw hsame, hst hsame]

theorem alike_renderText {text : String}
    (h : ∀ p, (Value.string text).Mentions p → Alike same (bind p) (other p)) :
    Alike same (renderText bind text) (renderText other text) := by
  rw [renderText, renderText]
  cases hparse : Segment.parse text with
  | error e => exact .refl same _
  | ok segments =>
      have hbind : ∀ p, .placeholder p ∈ segments → Alike same (bind p) (other p) :=
        fun p hp => h p ⟨text, segments, .text, hparse, hp⟩
      rw [ok_bind, ok_bind]
      split
      · exact (hbind _ List.mem_cons_self).bind fun _ _ =>
          alike_ok (fun v : Option Value => v.getD (.string text))
      · exact (alike_concat hbind).bind fun _ _ => alike_ok Value.string

end Expression

section

variable {scope other : Scope} {mode mode' : RenderMode}

mutual

theorem alike_renderValue : ∀ v : Value,
    (∀ p, v.Mentions p → Alike same (mode.binder scope p) (mode'.binder other p)) →
    Alike same (renderValue scope mode v) (renderValue other mode' v)
  | .string _, h => Expression.alike_renderText h
  | .list items, h =>
      (alike_renderItems items fun _ hv p ⟨s, found, hs, hp⟩ =>
        h p ⟨s, found, .item hv hs, hp⟩).bind fun _ _ => alike_ok Value.list
  | .mapping fields, h =>
      (alike_renderFields fields fun _ _ hv p ⟨s, found, hs, hp⟩ =>
        h p ⟨s, found, .field hv hs, hp⟩).bind fun _ _ => alike_ok Value.mapping
  | .null, _ | .bool _, _ | .int _, _ | .float _, _ => .refl same _
  termination_by structural v => v

theorem alike_renderItems : ∀ items : List Value,
    (∀ v ∈ items, ∀ p, v.Mentions p → Alike same (mode.binder scope p) (mode'.binder other p)) →
    Alike same (renderItems scope mode items) (renderItems other mode' items)
  | [], _ => .refl same _
  | v :: rest, h => by
      obtain ⟨hv, hrest⟩ := List.forall_mem_cons.1 h
      refine (alike_renderValue v hv).bind fun w w' hw => ?_
      refine (alike_renderItems rest hrest).bind fun out out' hout hsame => ?_
      rw [hw hsame, hout hsame]
  termination_by structural items => items

theorem alike_renderFields : ∀ fields : List (String × Value),
    (∀ key v, (key, v) ∈ fields → ∀ p, v.Mentions p →
      Alike same (mode.binder scope p) (mode'.binder other p)) →
    Alike same (renderFields scope mode fields) (renderFields other mode' fields)
  | [], _ => .refl same _
  | (key, v) :: rest, h => by
      refine (alike_renderValue v (h key v List.mem_cons_self)).bind fun w w' hw => ?_
      refine (alike_renderFields rest fun k u hu =>
        h k u (List.mem_cons_of_mem _ hu)).bind fun out out' hout hsame => ?_
      rw [hw hsame, hout hsame]
  termination_by structural fields => fields

end

end

end ArtifactFlow
