import ArtifactFlow.Project.CatalogFile
import ArtifactFlow.Proofs.Catalog.Location
import ArtifactFlow.Proofs.Placeholder.Rebinding

/-!
Text fields of a declaration, from the file to a call. Whether a field keeps the type of a value is
decided twice, by the text in the file and by the text that loading leaves of it. A text of several
segments stays one unless loading leaves a single placeholder of it, which takes a static value that
is empty or that brings an opener with it.
-/

namespace ArtifactFlow

open Placeholder

/-- The text is exactly one placeholder. -/
def OnePlaceholder (s : String) : Prop :=
  ∃ p, Segment.parse s = .ok [.placeholder p]

theorem onePlaceholder_iff {s : String} : OnePlaceholder s ↔
    ∃ kind inner, Piece.Legible [.span kind inner] ∧ Piece.join [.span kind inner] = s.toList := by
  constructor
  · rintro ⟨p, hp⟩
    obtain ⟨ps, legible, hjoin, hsegments⟩ := Segment.parse_eq_ok.1 hp
    obtain ⟨kind, inner, rfl⟩ := Piece.segments_eq_singleton hsegments
    exact ⟨kind, inner, legible, hjoin⟩
  · rintro ⟨kind, inner, legible, hjoin⟩
    exact ⟨_, Segment.parse_eq_ok.2 ⟨_, legible, hjoin, rfl⟩⟩

section Render

variable {scope : Scope} {mode : RenderMode} {s : String} {v : Value}

/-- A text that is not one placeholder is rendered to a text. -/
theorem renderText_of_mixed (mixed : ¬ OnePlaceholder s) (h : renderText scope mode s = .ok v) :
    ∃ t, v = .string t := by
  obtain ⟨found, hparse, h⟩ := bind_eq_ok.1 h
  split at h
  · rename_i p
    exact absurd ⟨p, hparse⟩ mixed
  · obtain ⟨t, -, h⟩ := bind_eq_ok.1 h
    exact ⟨t, (Except.ok.inj h).symm⟩

/-- Static values that are there and open nothing leave no single placeholder of a text that was
none. -/
theorem mixed_of_staticOnly {config : StaticConfig} {loadArgs : Mapping} {artifact t : String}
    (mixed : ¬ OnePlaceholder s) (inert : config.InertIn s)
    (h : renderText ⟨config, loadArgs, artifact⟩ .staticOnly s = .ok (.string t)) :
    ¬ OnePlaceholder t := by
  obtain ⟨found, hparse, -⟩ := bind_eq_ok.1 h
  obtain ⟨ps, legible, hjoin, -⟩ := Segment.parse_eq_ok.1 hparse
  have hmixed : ∀ kind inner, ps ≠ [.span kind inner] := by
    rintro kind inner rfl
    exact mixed (onePlaceholder_iff.2 ⟨kind, inner, legible, hjoin⟩)
  have hs : String.ofList (Piece.join ps) = s := by rw [hjoin, String.ofList_toList]
  rw [← hs] at h
  obtain ⟨ht, bound⟩ := renderText_staticOnly_pieces legible hmixed h
  have harmless := Piece.harmless_of_inertIn legible hjoin inert bound
  rintro ⟨p, hp⟩
  have hleft := Segment.parse_eq_ok.2
    ⟨_, Piece.legible_settleAll legible harmless, String.toList_ofList.symm, rfl⟩
  rw [← Value.string.inj ht, hp] at hleft
  obtain ⟨kind, inner, hspan⟩ := Piece.segments_eq_singleton (Except.ok.inj hleft).symm
  exact hmixed kind inner (Piece.settleAll_eq_singleton harmless hspan)

theorem get?_renderFields {fields out : Mapping} {field : String}
    (h : renderFields scope mode fields = .ok out) (hfield : Fields.get? field fields = some v) :
    ∃ w, Fields.get? field out = some w ∧ renderValue scope mode v = .ok w :=
  Fields.get?_traversed (f := fun _ v => renderValue scope mode v) (fun _ _ _ => rfl) h hfield

end Render

namespace Catalog

variable {c : Catalog} {d : Declaration} {artifact field : String} {args : Mapping} {v w : Value}

/-- The field is left `null`, because it is nullable and an argument of it is missing. -/
def Nulls (c : Catalog) (d : Declaration) (artifact : String) (args : Mapping) (field : String)
    (v : Value) : Prop :=
  d.isNullable field ∧ ∃ missing inside,
    renderValue ⟨c.config, args, artifact⟩ (.call (d.isExpression field)) v =
      .error (.unresolvedDynamic missing inside)

theorem resolveField_eq_ok (h : c.resolveField d artifact args field v = .ok w) :
    renderValue ⟨c.config, args, artifact⟩ (.call (d.isExpression field)) v = .ok w ∨
      c.Nulls d artifact args field v ∧ w = .null := by
  rw [resolveField] at h
  split at h
  · rename_i u hrender
    exact .inl (hrender.trans h)
  · rename_i missing inside hrender
    split at h
    · rename_i hnullable
      exact .inr ⟨⟨hnullable, missing, inside, hrender⟩, (Except.ok.inj h).symm⟩
    · exact nomatch h
  · exact nomatch h

theorem get?_resolveFields {fields out : Mapping}
    (h : c.resolveFields d artifact args fields = .ok out)
    (hfield : Fields.get? field fields = some v) :
    ∃ w, Fields.get? field out = some w ∧ c.resolveField d artifact args field v = .ok w :=
  Fields.get?_traversed (f := c.resolveField d artifact args) (fun _ _ _ => rfl) h hfield

end Catalog

theorem Result.ofFault_eq_ok {α : Type} {x : Except Fault α} {a : α} :
    Result.ofFault x = .ok a ↔ x = .ok a := by
  cases x <;> simp [Result.ofFault]

theorem Project.readDeclaration_eq_ok {config : StaticConfig} {name : String} {entry : Value}
    {d source : Declaration} (hsource : declarationOf? name entry = some source)
    (h : readDeclaration config name entry = .ok d) :
    renderFields ⟨config, [], name⟩ .staticOnly source.extra = .ok d.extra := by
  obtain ⟨d', hd', h⟩ := bind_eq_ok.1 h
  rw [hsource] at hd'
  obtain rfl := Except.ok.inj hd'
  obtain ⟨extra, hextra, h⟩ := bind_eq_ok.1 h
  obtain rfl := Except.ok.inj h
  exact Result.ofFault_eq_ok.1 hextra

/-- A text of a declaration that is not one placeholder is a text again when the field is resolved,
or `null` where the field is nulled. Anything else needs static values that leave a single
placeholder of the text when the declaration is read. -/
theorem Catalog.text_of_resolve {c : Catalog} {name field s : String} {entry : Value}
    {source d : Declaration} {args : Mapping} {r : ResolvedDeclaration}
    (hsource : Project.declarationOf? name entry = some source)
    (hfield : Fields.get? field source.extra = some (.string s)) (mixed : ¬ OnePlaceholder s)
    (hload : Project.readDeclaration c.config name entry = .ok d)
    (hd : c.declaration? name = some d) (hresolve : c.resolve name args = .ok r) :
    ∃ left v, Fields.get? field d.extra = some (.string left) ∧
      Fields.get? field r.extra = some v ∧
      ((∃ t, v = .string t) ∨ (c.Nulls d name args field (.string left) ∧ v = .null) ∨
        (OnePlaceholder left ∧ ¬ c.config.InertIn s)) := by
  obtain ⟨u, hu, hbound⟩ := get?_renderFields (Project.readDeclaration_eq_ok hsource hload) hfield
  obtain ⟨left, rfl⟩ := renderText_of_mixed mixed hbound
  obtain ⟨e, he, -, -, hfields⟩ := resolve_eq_ok hresolve
  rw [lookup, hd] at he
  obtain rfl := Except.ok.inj he
  obtain ⟨v, hv, hfinal⟩ := get?_resolveFields hfields hu
  refine ⟨left, v, hu, hv, ?_⟩
  rcases resolveField_eq_ok hfinal with hrender | hnull
  · by_cases single : OnePlaceholder left
    · exact .inr (.inr ⟨single, fun inert => mixed_of_staticOnly mixed inert hbound single⟩)
    · exact .inl (renderText_of_mixed single hrender)
  · exact .inr (.inl hnull)

/-- A size that is put together from a static prefix and a number that comes with the call. -/
def batchEntry : Value :=
  .mapping [("type", .string "text"), ("size", .string "\x7b\x7b prefix \x7d\x7d!\x7b n \x7d")]

def batchConfig (front : String) : StaticConfig :=
  ⟨[("prefix", .string front)], []⟩

def batchWith (size : String) : Declaration :=
  ⟨"batch", "text", [("size", .string size)], [], [], [], []⟩

/-- The catalog of one declaration, after the prefix is bound. -/
def batchCatalog (front size : String) : Catalog :=
  ⟨batchConfig front, [("batch", batchWith size)], Adapter.builtin⟩

theorem declarationOf?_batch : Project.declarationOf? "batch" batchEntry =
    some (batchWith "\x7b\x7b prefix \x7d\x7d!\x7b n \x7d") := rfl

theorem parse_batchSize : Segment.parse "\x7b\x7b prefix \x7d\x7d!\x7b n \x7d" =
    .ok [.placeholder ⟨.static, "prefix", "\x7b\x7b prefix \x7d\x7d", 0⟩,
      .placeholder ⟨.dynamic, "n", "!\x7b n \x7d", 12⟩] := by
  have h : Segment.ofChars "\x7b\x7b prefix \x7d\x7d!\x7b n \x7d".toList =
      .ok [.placeholder ⟨.static, "prefix", "\x7b\x7b prefix \x7d\x7d", 0⟩,
        .placeholder ⟨.dynamic, "n", "!\x7b n \x7d", 12⟩] := by
    decide +kernel
  rw [Segment.parse, h]

theorem mixed_batchSize : ¬ OnePlaceholder "\x7b\x7b prefix \x7d\x7d!\x7b n \x7d" := by
  rintro ⟨p, hp⟩
  rw [parse_batchSize] at hp
  exact nomatch hp

/-- Reading the declaration leaves the prefix and the number's placeholder. -/
theorem readDeclaration_batch (front : String) :
    Project.readDeclaration (batchConfig front) "batch" batchEntry =
      .ok (batchWith (front ++ "!\x7b n \x7d")) := by
  have hsize : renderText ⟨batchConfig front, [], "batch"⟩ .staticOnly
      "\x7b\x7b prefix \x7d\x7d!\x7b n \x7d" = .ok (.string (front ++ "!\x7b n \x7d")) := by
    rw [renderText, Expression.renderText, parse_batchSize]
    rfl
  rw [Project.readDeclaration, declarationOf?_batch]
  simp only [batchWith, ConfigFile.shaped, ok_bind, renderFields, renderValue, hsize]
  rfl

namespace Catalog

theorem resolve_batch {front size : String} {args : Mapping} {v : Value}
    (h : renderText ⟨batchConfig front, args, "batch"⟩ (.call false) size = .ok v) :
    (batchCatalog front size).resolve "batch" args =
      .ok ⟨"batch", "text", [("size", v)], [], []⟩ := by
  have hlookup : (batchCatalog front size).lookup "batch" = .ok (batchWith size) := rfl
  have hfield : (batchCatalog front size).resolveField (batchWith size) "batch" args "size"
      (.string size) = .ok v := by
    have hmode : (batchWith size).isExpression "size" = false := rfl
    have hconfig : (batchCatalog front size).config = batchConfig front := rfl
    rw [resolveField, hmode, hconfig, renderValue, h]
  rw [resolve, hlookup]
  simp only [batchWith, ok_bind, resolveFields] at hfield ⊢
  rw [hfield]
  rfl

/-- A prefix that is there and opens nothing keeps the number in a text. -/
theorem text_of_resolve_batch :
    (batchCatalog "out" "out!\x7b n \x7d").resolve "batch" [("n", .int 5)] =
        .ok ⟨"batch", "text", [("size", .string "out5")], [], []⟩ ∧
      ∃ left v, Fields.get? "size" (batchWith "out!\x7b n \x7d").extra = some (.string left) ∧
        Fields.get? "size" [("size", Value.string "out5")] = some v ∧
        ((∃ t, v = .string t) ∨
          ((batchCatalog "out" "out!\x7b n \x7d").Nulls (batchWith "out!\x7b n \x7d") "batch"
            [("n", .int 5)] "size" (.string left) ∧ v = .null) ∨
          (OnePlaceholder left ∧
            ¬ (batchConfig "out").InertIn "\x7b\x7b prefix \x7d\x7d!\x7b n \x7d")) := by
  have hparse : Segment.ofChars "out!\x7b n \x7d".toList =
      .ok [.literal "out", .placeholder ⟨.dynamic, "n", "!\x7b n \x7d", 3⟩] := by
    decide +kernel
  have hrender : renderText ⟨batchConfig "out", [("n", .int 5)], "batch"⟩ (.call false)
      "out!\x7b n \x7d" = .ok (.string "out5") := by
    rw [renderText, Expression.renderText, Segment.parse, hparse]
    rfl
  have hresolve := resolve_batch hrender
  have hleft : "out" ++ "!\x7b n \x7d" = "out!\x7b n \x7d" := by decide +kernel
  have hload : Project.readDeclaration (batchCatalog "out" "out!\x7b n \x7d").config "batch"
      batchEntry = .ok (batchWith "out!\x7b n \x7d") := by
    rw [← hleft]
    exact readDeclaration_batch "out"
  have hd : (batchCatalog "out" "out!\x7b n \x7d").declaration? "batch" =
    some (batchWith "out!\x7b n \x7d") := rfl
  exact ⟨hresolve, text_of_resolve declarationOf?_batch rfl mixed_batchSize hload hd hresolve⟩

/-- An empty prefix leaves a single placeholder of the text, and the number in place of it. -/
theorem not_string_of_resolve :
    ¬ ∀ (c : Catalog) (name field s : String) (entry : Value) (source d : Declaration)
      (args : Mapping) (r : ResolvedDeclaration) (found : List Segment),
      Project.declarationOf? name entry = some source →
      Fields.get? field source.extra = some (.string s) →
      Segment.parse s = .ok found → 2 ≤ found.length →
      Project.readDeclaration c.config name entry = .ok d → c.declaration? name = some d →
      c.resolve name args = .ok r →
      (∀ left, Fields.get? field d.extra = some left → ¬ c.Nulls d name args field left) →
      ∃ t, Fields.get? field r.extra = some (.string t) := by
  intro hall
  have hparse : Segment.ofChars "!\x7b n \x7d".toList =
      .ok [.placeholder ⟨.dynamic, "n", "!\x7b n \x7d", 0⟩] := by
    decide +kernel
  have hrender : renderText ⟨batchConfig "", [("n", .int 5)], "batch"⟩ (.call false)
      "!\x7b n \x7d" = .ok (.int 5) := by
    rw [renderText, Expression.renderText, Segment.parse, hparse]
    rfl
  have hplain : (batchWith "!\x7b n \x7d").isNullable "size" = false := rfl
  obtain ⟨t, ht⟩ := hall (batchCatalog "" "!\x7b n \x7d") "batch" "size" _ batchEntry _
    (batchWith "!\x7b n \x7d") _ _ _ declarationOf?_batch rfl parse_batchSize (by decide)
    (readDeclaration_batch "") rfl (resolve_batch hrender)
    fun _ _ hnulls => Bool.false_ne_true (hplain.symm.trans hnulls.1)
  have hnumber : Value.int 5 = .string t := Option.some.inj ht
  cases hnumber

end Catalog
end ArtifactFlow
