import ArtifactFlow.Catalog.Basic
import ArtifactFlow.Proofs.Storage.Memory

/-!
Where an artifact is kept for given arguments. With file adapters that location is the only part of
a store that loading looks at, and the only one that saving changes; what is saved there does not
depend on the store.
-/

namespace ArtifactFlow

/-- A payload for the catalog, with the arguments that it is saved with. -/
structure Saving where
  name : String
  payload : Value
  args : Mapping

namespace Catalog

/-- The location that an artifact resolves to. -/
def location? (c : Catalog) (name : String) (args : Mapping) : Option Location :=
  match c.resolve name args with
  | .ok d => d.path?.map .parse
  | .error _ => none

/-- All adapters keep payloads in files, by some codec. -/
def FileAdapters (c : Catalog) : Prop :=
  ∀ artifactType adapter, Fields.get? artifactType c.adapters = some adapter →
    ∃ codec, adapter = .ofCodec codec

theorem fileAdapters_builtin (config : StaticConfig) (declarations : Fields Declaration) :
    FileAdapters ⟨config, declarations, Adapter.builtin⟩ := by
  intro artifactType adapter h
  have hmem := Fields.mem_of_get?_eq_some h
  simp only [Adapter.builtin, List.mem_cons, List.not_mem_nil, Prod.mk.injEq, or_false] at hmem
  obtain ⟨-, rfl⟩ | ⟨-, rfl⟩ | ⟨-, rfl⟩ | ⟨-, rfl⟩ := hmem <;> exact ⟨_, rfl⟩

/-- The artifact is kept by this codec, with these options for saving. -/
def Keeps (c : Catalog) (name : String) (codec : Codec) (options : Mapping) : Prop :=
  ∃ d, c.lookup name = .ok d ∧ d.saveOptions = options ∧
    Fields.get? d.artifactType c.adapters = some (.ofCodec codec)

variable {c : Catalog} {name : String} {args : Mapping} {codec : Codec} {options : Mapping}
  {rd : ResolvedDeclaration} {s t : Store} {l : Location} {bytes : ByteArray}

theorem resolve_eq_ok (h : c.resolve name args = .ok rd) :
    ∃ d, c.lookup name = .ok d ∧ rd.artifactType = d.artifactType ∧
      rd.saveOptions = d.saveOptions ∧ c.resolveFields d name args d.extra = .ok rd.extra := by
  obtain ⟨d, hd, h⟩ := bind_eq_ok.1 h
  obtain ⟨extra, hextra, h⟩ := bind_eq_ok.1 h
  obtain rfl := Except.ok.inj h
  exact ⟨d, hd, rfl, rfl, hextra⟩

theorem location?_eq_some : c.location? name args = some l ↔
    ∃ rd path, c.resolve name args = .ok rd ∧ rd.path? = some path ∧ .parse path = l := by
  rw [location?]
  cases c.resolve name args <;> simp

theorem adapterFor_eq_ok {adapter : Adapter} : c.adapterFor rd = .ok adapter ↔
    Fields.get? rd.artifactType c.adapters = some adapter := by
  rw [adapterFor]
  cases Fields.get? rd.artifactType c.adapters <;> simp

/-- Arguments decide where an artifact is kept, but not how. -/
theorem Keeps.prepare_eq_ok (h : c.Keeps name codec options)
    (hresolve : c.resolve name args = .ok rd) :
    c.prepare name args = .ok (.ofCodec codec, ⟨rd, args⟩) ∧ rd.saveOptions = options := by
  obtain ⟨d, hd, rfl, hadapter⟩ := h
  obtain ⟨e, he, htype, hoptions, -⟩ := resolve_eq_ok hresolve
  obtain rfl := Except.ok.inj (hd.symm.trans he)
  refine ⟨?_, hoptions⟩
  rw [prepare, hresolve, ok_bind, adapterFor_eq_ok.2 (htype ▸ hadapter)]
  rfl

theorem exists_keeps_of_prepare (files : c.FileAdapters) {found : Adapter × Request}
    (h : c.prepare name args = .ok found) :
    ∃ codec options rd, c.Keeps name codec options ∧ c.resolve name args = .ok rd := by
  obtain ⟨rd, hresolve, h⟩ := bind_eq_ok.1 h
  obtain ⟨adapter, hadapter, -⟩ := bind_eq_ok.1 h
  obtain ⟨d, hd, htype, -⟩ := resolve_eq_ok hresolve
  rw [adapterFor_eq_ok, htype] at hadapter
  obtain ⟨codec, rfl⟩ := files _ _ hadapter
  exact ⟨codec, d.saveOptions, rd, ⟨d, hd, rfl, hadapter⟩, hresolve⟩

theorem exists_keeps (files : c.FileAdapters) {payload : Value}
    (h : c.save name payload args s = (.ok (), t)) :
    ∃ codec options, c.Keeps name codec options := by
  rw [save] at h
  cases hprepare : c.prepare name args with
  | error e => simp [hprepare] at h
  | ok found =>
      obtain ⟨codec, options, -, keeps, -⟩ := exists_keeps_of_prepare files hprepare
      exact ⟨codec, options, keeps⟩

theorem Keeps.load_eq (h : c.Keeps name codec options)
    (hresolve : c.resolve name args = .ok rd) (s : Store) : c.load name args s =
      (Adapter.loadFile codec ⟨rd, args⟩ s).mapError (adapterFault ⟨rd, args⟩) := by
  rw [load, (h.prepare_eq_ok hresolve).1]
  rfl

/-- Loading looks at the location of the artifact alone. -/
theorem load_congr (files : c.FileAdapters)
    (h : ∀ l, c.location? name args = some l → s.readAt l = t.readAt l) :
    c.load name args s = c.load name args t := by
  cases hprepare : c.prepare name args with
  | error e =>
      rw [load, load, hprepare]
      rfl
  | ok found =>
      obtain ⟨codec, options, rd, keeps, hresolve⟩ := exists_keeps_of_prepare files hprepare
      rw [keeps.load_eq hresolve, keeps.load_eq hresolve]
      simp only [Adapter.loadFile, Request.path]
      cases hpath : rd.path? with
      | none => rfl
      | some path =>
          have hread : s.read path = t.read path :=
            h _ (location?_eq_some.2 ⟨rd, path, hresolve, hpath, rfl⟩)
          simp only [ok_bind, hread]

/-- Loading an artifact decodes the bytes at its location. -/
theorem Keeps.load_eq_ok_iff (h : c.Keeps name codec options)
    (hlocation : c.location? name args = some l) (hread : s.readAt l = .ok bytes) {v : Value} :
    c.load name args s = .ok v ↔ codec.decode bytes = .ok v := by
  obtain ⟨rd, path, hresolve, hpath, rfl⟩ := location?_eq_some.1 hlocation
  have hbytes : s.read path = .ok bytes := hread
  rw [h.load_eq hresolve]
  simp only [Adapter.loadFile, Request.path, hpath, ok_bind, hbytes]
  cases codec.decode bytes <;> simp [Result.context, Except.mapError]

/-- Saving by a codec fails without a trace, or writes what the payload is encoded to to the same
location of any store. -/
theorem Keeps.save_cases (h : c.Keeps name codec options) (payload : Value) (args : Mapping) :
    (∃ e, ∀ s, c.save name payload args s = (.error e, s)) ∨
      ∃ l bytes fault, c.location? name args = some l ∧
        codec.encode options payload = .ok bytes ∧ ∀ s, c.save name payload args s =
          ((s.writeAt l bytes).1.mapError fault, (s.writeAt l bytes).2) := by
  cases hresolve : c.resolve name args with
  | error e =>
      refine .inl ⟨e, fun s => ?_⟩
      rw [save, prepare, hresolve]
      rfl
  | ok rd =>
      obtain ⟨hprepare, rfl⟩ := h.prepare_eq_ok hresolve
      simp only [save, hprepare, Adapter.ofCodec, Adapter.saveFile, Request.path]
      cases hpath : rd.path? with
      | none => exact .inl ⟨_, fun _ => rfl⟩
      | some path =>
          cases codec.encode rd.saveOptions payload with
          | error e => exact .inl ⟨_, fun _ => rfl⟩
          | ok bytes =>
              refine .inr ⟨.parse path, bytes, adapterFault ⟨rd, args⟩, ?_, rfl, fun _ => rfl⟩
              exact location?_eq_some.2 ⟨rd, path, hresolve, hpath, rfl⟩

theorem save_cases (files : c.FileAdapters) (name : String) (payload : Value) (args : Mapping) :
    (∃ e, ∀ s, c.save name payload args s = (.error e, s)) ∨
      ∃ l bytes fault, c.location? name args = some l ∧ ∀ s, c.save name payload args s =
        ((s.writeAt l bytes).1.mapError fault, (s.writeAt l bytes).2) := by
  cases hprepare : c.prepare name args with
  | error e =>
      refine .inl ⟨e, fun s => ?_⟩
      rw [save, hprepare]
  | ok found =>
      obtain ⟨codec, options, -, keeps, -⟩ := exists_keeps_of_prepare files hprepare
      rcases keeps.save_cases payload args with hfail | ⟨l, bytes, fault, hlocation, -, hsave⟩
      · exact .inl hfail
      · exact .inr ⟨l, bytes, fault, hlocation, hsave⟩

theorem Keeps.save_eq_ok (h : c.Keeps name codec options) {payload : Value}
    (hsave : c.save name payload args s = (.ok (), t)) : ∃ l bytes,
      c.location? name args = some l ∧ codec.encode options payload = .ok bytes ∧
        s.writeAt l bytes = (.ok (), t) := by
  rcases h.save_cases payload args with ⟨e, hfail⟩ | ⟨l, bytes, fault, hlocation, hencode, hwrite⟩
  · simp [hfail] at hsave
  · rw [hwrite] at hsave
    obtain ⟨hresult, rfl⟩ := Prod.mk.inj hsave
    exact ⟨l, bytes, hlocation, hencode, Prod.ext (mapError_eq_ok.1 hresult) rfl⟩

end Catalog
end ArtifactFlow
