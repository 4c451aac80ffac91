import ArtifactFlow.Proofs.Catalog.Location
import ArtifactFlow.Proofs.Placeholder.Mention

/-!
Arguments matter by what is found under their names. Two mappings that bind the same names to the
same values, in whatever order, resolve artifacts alike; so artifacts are kept at the same locations
and loaded with the same results.
-/

namespace ArtifactFlow

variable {args others : Mapping} {config : StaticConfig} {artifact : String}

section Placeholders

variable (agree : args.Agree others)
include agree

theorem Mapping.lookup?_congr (path : String) : lookup? args path = lookup? others path := by
  rw [lookup?, lookup?]
  split
  · rfl
  · rw [agree]

theorem resolveArgument_congr (name artifact : String) :
    resolveArgument args name artifact = resolveArgument others name artifact := by
  rw [resolveArgument, resolveArgument, Mapping.lookup?_congr agree]

namespace Expression

theorem applyChain_congr (expression text : String) :
    applyChain ⟨config, args, artifact⟩ expression text =
      applyChain ⟨config, others, artifact⟩ expression text := by
  simp only [applyChain, Mapping.lookup?_congr agree]

theorem resolve_congr (expression : String → Except Fault Value) :
    resolve ⟨config, args, artifact⟩ expression =
      resolve ⟨config, others, artifact⟩ expression := by
  funext p
  simp only [resolve, resolveArgument_congr agree]

theorem evaluateWithin_congr (levels : Nat) :
    evaluateWithin ⟨config, args, artifact⟩ levels =
      evaluateWithin ⟨config, others, artifact⟩ levels := by
  induction levels with
  | zero => rfl
  | succ levels ih =>
      funext body
      simp only [evaluateWithin, ih, resolve_congr agree, applyChain_congr agree]

end Expression

theorem RenderMode.binder_congr (mode : RenderMode) :
    mode.binder ⟨config, args, artifact⟩ = mode.binder ⟨config, others, artifact⟩ := by
  funext p
  simp only [binder, resolveArgument_congr agree, Expression.evaluate,
    Expression.evaluateWithin_congr agree]

theorem renderValue_congr (mode : RenderMode) (v : Value) :
    renderValue ⟨config, args, artifact⟩ mode v = renderValue ⟨config, others, artifact⟩ mode v := by
  have halike : Alike True (renderValue ⟨config, args, artifact⟩ mode v)
      (renderValue ⟨config, others, artifact⟩ mode v) :=
    alike_renderValue v fun p _ => by
      rw [RenderMode.binder_congr agree]
      exact .refl True _
  exact halike.eq trivial

end Placeholders

namespace Catalog

variable {c : Catalog} (agree : args.Agree others)
include agree

theorem resolveFields_congr (d : Declaration) (fields : Mapping) :
    c.resolveFields d artifact args fields = c.resolveFields d artifact others fields := by
  induction fields with
  | nil => rfl
  | cons entry rest ih =>
      simp only [resolveFields, resolveField, renderValue_congr agree, ih]

theorem resolve_congr (name : String) : c.resolve name args = c.resolve name others := by
  simp only [resolve, resolveFields_congr agree]

theorem location?_congr (name : String) : c.location? name args = c.location? name others := by
  rw [location?, location?, resolve_congr agree]

/-- With file adapters the arguments of a call do nothing but to resolve its artifact. -/
theorem load_congr_args (files : c.FileAdapters) (name : String) (s : Store) :
    c.load name args s = c.load name others s := by
  simp only [load, prepare, resolve_congr agree]
  cases c.resolve name others with
  | error e => rfl
  | ok rd =>
      rw [ok_bind, ok_bind]
      cases hadapter : c.adapterFor rd with
      | error e => rfl
      | ok adapter =>
          obtain ⟨codec, rfl⟩ := files _ _ (adapterFor_eq_ok.1 hadapter)
          rfl

end Catalog
end ArtifactFlow
