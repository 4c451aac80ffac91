import ArtifactFlow.Proofs.Expression.Evaluation
import ArtifactFlow.Proofs.Fields
import Mathlib.Data.Fintype.EquivFin
import Mathlib.Logic.Relation
import Mathlib.Order.WellFounded

/-!
Names that stand for names. A value that is one placeholder, of any kind, for an entry of the table
is an alias of that entry. An alias is followed by a pass if its placeholder is static or dynamic,
and by a nested evaluation if it is an expression, so that a path of aliases is bounded by both
budgets together: a short path is followed to its end, and a cycle uses them up.
-/

namespace ArtifactFlow

open Expression Relation

/-- The value is a text that is one placeholder for the target. -/
def Value.AliasOf (v : Value) (target : String) : Prop :=
  ∃ s p, v = .string s ∧ Segment.parse s = .ok [.placeholder p] ∧ p.body = target

/-- Entries that are settled or aliases of entries, the same in the arguments and in the
configuration. -/
structure AliasTable (scope : Scope) (table : Fields Value) : Prop where
  names : ∀ name v, Fields.get? name table = some v → Text.IsName name
  args : ∀ name v, Fields.get? name table = some v → Fields.get? name scope.args = some v
  config : ∀ name v, Fields.get? name table = some v →
    Fields.get? name scope.config.merged = some v
  values : ∀ name v, Fields.get? name table = some v →
    v.Settled ∨ ∃ target, v.AliasOf target ∧ Fields.contains target table

namespace AliasTable

/-- The entry is an alias of the target. -/
def Hop (table : Fields Value) (name target : String) : Prop :=
  ∃ v, Fields.get? name table = some v ∧ v.AliasOf target

/-- The path from a name ends, after that many hops, on an entry with a settled value. -/
inductive Ends (table : Fields Value) : String → Nat → Value → Prop where
  | here {name : String} {v : Value} :
      Fields.get? name table = some v → v.Settled → Ends table name 0 v
  | hop {name target : String} {hops : Nat} {v : Value} :
      Hop table name target → Ends table target hops v → Ends table name (hops + 1) v

/-- The path from a name comes to an entry from which it comes back to that entry. -/
def RunsIntoCycle (table : Fields Value) (name : String) : Prop :=
  ∃ other, ReflTransGen (Hop table) name other ∧ TransGen (Hop table) other other

variable {scope : Scope} {table : Fields Value} {name target : String} {v w : Value}

theorem exists_string_of_aliasOf (h : v.AliasOf target) :
    ∃ s, v = .string s ∧ hasPlaceholders s := by
  obtain ⟨s, p, rfl, hparse, -⟩ := h
  refine ⟨s, rfl, ?_⟩
  rw [hasPlaceholders, hparse]
  rfl

theorem not_settled_of_aliasOf (h : v.AliasOf target) : ¬ v.Settled := by
  obtain ⟨s, hs, hplaceholder⟩ := exists_string_of_aliasOf h
  intro settled
  exact absurd hplaceholder (by simp [settled s hs])

theorem aliasOf_unique {other : String} (h : v.AliasOf target) (h' : v.AliasOf other) :
    target = other := by
  obtain ⟨s, p, rfl, hparse, rfl⟩ := h
  obtain ⟨s', p', hs, hparse', rfl⟩ := h'
  cases hs
  rw [hparse] at hparse'
  cases hparse'
  rfl

theorem hop_iff (hget : Fields.get? name table = some v) : Hop table name target ↔
    v.AliasOf target := by
  simp [Hop, hget]

/-- Where a path goes on is determined. -/
theorem Hop.unique {other : String} (h : Hop table name target) (h' : Hop table name other) :
    target = other := by
  obtain ⟨v, hget, hv⟩ := h
  exact aliasOf_unique hv ((hop_iff hget).1 h')

theorem Ends.exists_get? {hops : Nat} (h : Ends table name hops v) :
    ∃ w, Fields.get? name table = some w := by
  cases h with
  | here hget _ => exact ⟨_, hget⟩
  | hop hhop _ => exact hhop.imp fun _ => And.left

theorem Ends.settled {hops : Nat} (h : Ends table name hops v) : v.Settled := by
  induction h with
  | here _ settled => exact settled
  | hop _ _ ih => exact ih

/-- A name on a path that ends is no alias of itself. -/
theorem Ends.not_hop_self {hops : Nat} (h : Ends table name hops v) : ¬ Hop table name name := by
  induction h with
  | here hget settled => exact fun hself => not_settled_of_aliasOf ((hop_iff hget).1 hself) settled
  | hop hhop _ ih =>
      intro hself
      cases hhop.unique hself
      exact ih hself

theorem RunsIntoCycle.next (h : RunsIntoCycle table name) :
    ∃ target, Hop table name target ∧ RunsIntoCycle table target := by
  obtain ⟨other, hreach, hcycle⟩ := h
  cases hreach.cases_head with
  | inl heq =>
      subst heq
      obtain ⟨target, hhop, hback⟩ := TransGen.head'_iff.1 hcycle
      exact ⟨target, hhop, name, hback, hcycle⟩
  | inr hnext =>
      obtain ⟨target, hhop, hreach⟩ := hnext
      exact ⟨target, hhop, other, hreach, hcycle⟩

theorem RunsIntoCycle.exists_get? (h : RunsIntoCycle table name) :
    ∃ w, Fields.get? name table = some w := by
  obtain ⟨target, hhop, -⟩ := h.next
  exact hhop.imp fun _ => And.left

section Evaluation

variable (aliases : AliasTable scope table)
include aliases

/-- An alias is rendered to the value of its target, or to what its target evaluates to. -/
theorem renderWithin_alias {s : String} (hv : (Value.string s).AliasOf target)
    (hget : Fields.get? target table = some w) (levels : Nat) :
    renderWithin scope levels s = .ok w ∨
      renderWithin scope levels s = evaluateWithin scope levels target := by
  obtain ⟨_, p, hs, hparse, rfl⟩ := hv
  cases hs
  have hrender : renderWithin scope levels s = resolve scope (evaluateWithin scope levels) p := by
    simp only [renderWithin, Expression.renderText, hparse, ok_bind]
    cases resolve scope (evaluateWithin scope levels) p <;> rfl
  have hname := aliases.names _ _ hget
  rw [hrender]
  cases hkind : p.kind with
  | static =>
      left
      rw [resolve, hkind, StaticConfig.resolve, StaticConfig.get?, Mapping.lookup?_name hname,
        aliases.config _ _ hget]
  | dynamic =>
      left
      rw [resolve, hkind, resolveArgument, Mapping.lookup?_name hname, aliases.args _ _ hget]
  | expression =>
      right
      rw [resolve, hkind]

/-- Every hop takes a pass or a level, and neither budget runs out before the path does. -/
theorem settle_of_ends {hops levels passes : Nat} {expression : String}
    (h : Ends table name hops v) (hget : Fields.get? name table = some w)
    (hlevels : hops ≤ levels) (hpasses : hops ≤ passes) (hrounds : hops ≤ maxRounds) :
    settle (renderWithin scope levels) expression passes w = .ok v := by
  induction h generalizing w levels passes expression with
  | here hget' settled =>
      cases hget.symm.trans hget'
      exact settle_settled settled
  | @hop name target hops v hhop hends ih =>
      have halias := (hop_iff hget).1 hhop
      obtain ⟨s, hs, hplaceholder⟩ := exists_string_of_aliasOf halias
      subst hs
      obtain ⟨u, hu⟩ := hends.exists_get?
      obtain ⟨passes, rfl⟩ : ∃ rest, passes = rest + 1 := ⟨passes - 1, by omega⟩
      cases aliases.renderWithin_alias halias hu levels with
      | inl hrender =>
          have hne : u ≠ .string s := by
            intro heq
            exact hends.not_hop_self ((hop_iff hu).2 (heq ▸ halias))
          rw [settle_succ hplaceholder hrender hne]
          exact ih hu (by omega) (by omega) (by omega)
      | inr hrender =>
          -- The nested evaluation has all passes again, but a level less.
          obtain ⟨levels, rfl⟩ : ∃ rest, levels = rest + 1 := ⟨levels - 1, by omega⟩
          have hvalue : renderWithin scope (levels + 1) s = .ok v := by
            rw [hrender, evaluateWithin_name (aliases.names _ _ hu) (aliases.args _ _ hu)]
            exact ih hu (by omega) (by omega) (by omega)
          have hne : v ≠ .string s := by
            intro heq
            exact not_settled_of_aliasOf halias (heq ▸ hends.settled)
          rw [settle_succ hplaceholder hvalue hne]
          exact settle_settled hends.settled

/-- On the way into a cycle no pass comes to an end, if no nested evaluation does. -/
theorem settle_of_cycle {levels passes : Nat} {expression : String}
    (nested : ∀ name, RunsIntoCycle table name → Unresolved (evaluateWithin scope levels name))
    (h : RunsIntoCycle table name) (hget : Fields.get? name table = some w) :
    Unresolved (settle (renderWithin scope levels) expression passes w) := by
  induction passes generalizing name w with
  | zero =>
      obtain ⟨target, hhop, -⟩ := h.next
      obtain ⟨s, rfl, hplaceholder⟩ := exists_string_of_aliasOf ((hop_iff hget).1 hhop)
      rw [settle_zero hplaceholder]
      exact unresolved_exhausted expression
  | succ passes ih =>
      obtain ⟨target, hhop, hcycle⟩ := h.next
      have halias := (hop_iff hget).1 hhop
      obtain ⟨s, rfl, hplaceholder⟩ := exists_string_of_aliasOf halias
      obtain ⟨u, hu⟩ := hcycle.exists_get?
      cases aliases.renderWithin_alias halias hu levels with
      | inl hrender =>
          by_cases heq : u = .string s
          · rw [settle_same hplaceholder (heq ▸ hrender)]
            exact unresolved_circular expression
          · rw [settle_succ hplaceholder hrender heq]
            exact ih hcycle hu
      | inr hrender =>
          obtain ⟨inner, reason, hfault⟩ := nested target hcycle
          rw [settle_error hplaceholder (hrender.trans hfault)]
          exact ⟨inner, reason, rfl⟩

theorem evaluateWithin_of_cycle (levels : Nat) (h : RunsIntoCycle table name) :
    Unresolved (evaluateWithin scope levels name) := by
  induction levels generalizing name with
  | zero => exact unresolved_exhausted name
  | succ levels ih =>
      obtain ⟨w, hget⟩ := h.exists_get?
      rw [evaluateWithin_name (aliases.names _ _ hget) (aliases.args _ _ hget)]
      exact aliases.settle_of_cycle (fun _ => ih) h hget

/-- A table has no room for a path that goes on without a cycle. -/
theorem exists_ends (acyclic : ¬ RunsIntoCycle table name) (entry : name ∈ Fields.keys table) :
    ∃ hops v, Ends table name hops v := by
  let below (a b : {key // key ∈ Fields.keys table}) : Prop :=
    ReflTransGen (Hop table) name b ∧ TransGen (Hop table) b a
  have : IsTrans _ below := ⟨fun a b c hab hbc => ⟨hbc.1, hbc.2.trans hab.2⟩⟩
  have : Std.Irrefl below := ⟨fun a ha => acyclic ⟨a, ha⟩⟩
  have wf : WellFounded below := Finite.wellFounded_of_trans_of_irrefl below
  have hall (key : {key // key ∈ Fields.keys table}) :
      ReflTransGen (Hop table) name key → ∃ hops v, Ends table key hops v := by
    induction key using wf.induction with
    | _ key ih =>
        intro hreach
        obtain ⟨w, hget⟩ := Fields.mem_keys_iff.1 key.2
        cases aliases.values _ _ hget with
        | inl settled => exact ⟨0, w, .here hget settled⟩
        | inr halias =>
            obtain ⟨target, halias, htarget⟩ := halias
            have hhop := (hop_iff hget).2 halias
            have hkey := Fields.mem_keys_iff.2 (Fields.contains_iff.1 htarget)
            obtain ⟨hops, v, hends⟩ :=
              ih ⟨target, hkey⟩ ⟨hreach, .single hhop⟩ (hreach.tail hhop)
            exact ⟨hops + 1, v, .hop hhop hends⟩
  exact hall ⟨name, entry⟩ .refl

/-- Evaluating an entry gives the value at the end of its path if that is at most seven hops away,
and fails if the path runs into a cycle; every path does one or the other. -/
theorem evaluate_entry (entry : name ∈ Fields.keys table) :
    ((∃ hops v, Ends table name hops v) ∨ RunsIntoCycle table name) ∧
      (∀ hops v, Ends table name hops v → hops ≤ 7 → evaluate scope name = .ok v) ∧
      (RunsIntoCycle table name → ∃ expression reason,
        evaluate scope name = .error (.unresolvedExpression expression reason)) := by
  refine ⟨?_, ?_, aliases.evaluateWithin_of_cycle _⟩
  · by_cases hcycle : RunsIntoCycle table name
    · exact .inr hcycle
    · exact .inl (aliases.exists_ends hcycle entry)
  · intro hops v hends hshort
    obtain ⟨w, hget⟩ := hends.exists_get?
    have hname := aliases.names _ _ hget
    have hrounds : hops ≤ maxRounds := by
      rw [maxRounds]
      omega
    -- The name itself takes the first of the eight levels.
    have hlookup := evaluateWithin_name hname (aliases.args _ _ hget) 7
    rw [evaluate]
    exact hlookup.trans (aliases.settle_of_ends hends hget hshort hrounds hrounds)

end Evaluation

theorem aliasOf_span (kind : Placeholder.Kind) (inner : List Char)
    (hspan : Placeholder.Spans kind inner) (hbody : Text.trim inner ≠ []) :
    (Value.string (String.ofList (Piece.span kind inner).text)).AliasOf
      (String.ofList (Text.trim inner)) :=
  ⟨_, _, rfl, Segment.parse_span hspan hbody, rfl⟩

/-- A path of three hops, one of each kind, and a cycle of two. -/
def hosts : Fields Value :=
  [("default", .string "\x7b\x7b primary \x7d\x7d"), ("primary", .string "!\x7bsite\x7d"),
    ("site", .string "+\x7b port_1 \x7d+"), ("port_1", .int 80),
    ("left", .string "+\x7bright\x7d+"), ("right", .string "\x7b\x7bleft\x7d\x7d")]

theorem hop_default : Hop hosts "default" "primary" :=
  ⟨_, rfl, aliasOf_span .static " primary ".toList (fun _ _ => rfl) (by decide)⟩

theorem hop_primary : Hop hosts "primary" "site" :=
  ⟨_, rfl, aliasOf_span .dynamic "site".toList (fun _ _ => rfl) (by decide)⟩

theorem hop_site : Hop hosts "site" "port_1" :=
  ⟨_, rfl, aliasOf_span .expression " port_1 ".toList
    (Placeholder.spans_expression (by decide) (by decide)) (by decide)⟩

theorem hop_left : Hop hosts "left" "right" :=
  ⟨_, rfl, aliasOf_span .expression "right".toList
    (Placeholder.spans_expression (by decide) (by decide)) (by decide)⟩

theorem hop_right : Hop hosts "right" "left" :=
  ⟨_, rfl, aliasOf_span .static "left".toList (fun _ _ => rfl) (by decide)⟩

theorem ends_default : Ends hosts "default" 3 (.int 80) :=
  .hop hop_default (.hop hop_primary (.hop hop_site (.here rfl nofun)))

theorem runsIntoCycle_left : RunsIntoCycle hosts "left" :=
  ⟨"left", .refl, .head hop_left (.single hop_right)⟩

def hostScope : Scope := ⟨⟨hosts, []⟩, hosts, "hosts"⟩

theorem aliasTable_hosts : AliasTable hostScope hosts := by
  constructor
  · intro name v hget
    have hall : (Fields.keys hosts).all (fun key => Text.IsName key) = true := by decide +kernel
    have hkey := List.all_eq_true.1 hall name (Fields.mem_keys_iff.2 ⟨v, hget⟩)
    exact of_decide_eq_true hkey
  · exact fun _ _ hget => hget
  · exact fun _ _ hget => hget
  · intro name v hget
    have hall : ∀ entry ∈ hosts,
        entry.2.Settled ∨ ∃ target, entry.2.AliasOf target ∧ Fields.contains target hosts := by
      simp only [hosts, List.forall_mem_cons]
      exact ⟨.inr ⟨_, (hop_iff rfl).1 hop_default, rfl⟩,
        .inr ⟨_, (hop_iff rfl).1 hop_primary, rfl⟩,
        .inr ⟨_, (hop_iff rfl).1 hop_site, rfl⟩, .inl nofun,
        .inr ⟨_, (hop_iff rfl).1 hop_left, rfl⟩,
        .inr ⟨_, (hop_iff rfl).1 hop_right, rfl⟩, List.forall_mem_nil _⟩
    exact hall (name, v) (Fields.mem_of_get?_eq_some hget)

theorem evaluate_entry_hosts :
    evaluate hostScope "default" = .ok (.int 80) ∧
      ∃ expression reason,
        evaluate hostScope "left" = .error (.unresolvedExpression expression reason) :=
  ⟨(evaluate_entry aliasTable_hosts (by decide)).2.1 3 _ ends_default (by decide),
    (evaluate_entry aliasTable_hosts (by decide)).2.2 runsIntoCycle_left⟩

end AliasTable
end ArtifactFlow
