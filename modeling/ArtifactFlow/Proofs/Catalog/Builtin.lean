import ArtifactFlow.Proofs.Catalog.Faults
import ArtifactFlow.Proofs.Catalog.Location
import ArtifactFlow.Proofs.Storage.Files

/-!
Catalogs with the built-in adapters, on stores with the default backends. What is saved in memory
is the payload by the codec of the artifact's type, and nothing but the lack of it makes a load fail
for want of stored bytes.
-/

namespace ArtifactFlow

/-- The codecs of the built-in types of artifacts. -/
def Codec.builtin : Fields Codec :=
  [("json", .structured .json), ("text", .plain), ("toml", .structured .toml),
    ("yaml", .structured .yaml)]

theorem Adapter.builtin_eq : builtin = Fields.mapValues ofCodec Codec.builtin := rfl

namespace Store

/-- Plain paths and `file` locations are files below a directory, `memory` locations a table, and
there are no others. -/
def Default (root : Path) (s : Store) : Prop :=
  ∃ contents, s.backends = [("", .files root), ("file", .files root), ("memory", .memory contents)]

/-- What is stored at a path in memory. -/
def stored? (s : Store) (path : String) : Option ByteArray :=
  (s.readAt ⟨"memory", path⟩).toOption

/-- What an attempt to write to a location of a file may leave behind: the directories on the way to
it. No file and nothing in memory is touched. -/
structure Attempted (l : Location) (s t : Store) : Prop where
  scheme : l.scheme = "" ∨ l.scheme = "file"
  backends : t.backends = s.backends
  files : s.disk.SameFiles t.disk
  directories : ∃ root, s.backend l = .ok (.files root) ∧
    s.disk.MakesDirectories (Disk.artifactDirectory (root.join ⟨l.path⟩)).ancestors t.disk

variable {s t : Store} {root : Path} {l : Location} {bytes : ByteArray} {path : String}

theorem Default.fresh (disk : Disk) (root : Path) :
    Default root ⟨disk, Backend.defaults root⟩ :=
  ⟨[], rfl⟩

theorem stored?_eq {contents : Fields ByteArray}
    (h : Fields.get? "memory" s.backends = some (.memory contents)) (path : String) :
    s.stored? path = Fields.get? path contents := by
  rw [stored?, readAt_of_memory h]
  cases Fields.get? path contents <;> rfl

theorem stored?_defaults (disk : Disk) (root : Path) (path : String) :
    stored? ⟨disk, Backend.defaults root⟩ path = none := rfl

section Default

variable (defaults : s.Default root)
include defaults

theorem Default.hasMemory : s.HasMemory := by
  obtain ⟨contents, hbackends⟩ := defaults
  exact ⟨contents, by rw [hbackends]; rfl⟩

theorem Default.backend_cases (l : Location) :
    (l.scheme = "" ∨ l.scheme = "file") ∧ s.backend l = .ok (.files root) ∨
      (l.scheme = "memory" ∧ ∃ contents, s.backend l = .ok (.memory contents)) ∨
        s.backend l = Fault.throw (.unknownBackend l.scheme l.text) := by
  obtain ⟨contents, hbackends⟩ := defaults
  rw [backend, hbackends]
  by_cases hplain : l.scheme = ""
  · exact .inl ⟨.inl hplain, by simp [Fields.get?, hplain]⟩
  · by_cases hfile : l.scheme = "file"
    · exact .inl ⟨.inr hfile, by simp [Fields.get?, hfile]⟩
    · by_cases hmemory : l.scheme = "memory"
      · exact .inr (.inl ⟨hmemory, contents, by simp [Fields.get?, hmemory]⟩)
      · refine .inr (.inr ?_)
        simp [Fields.get?, Ne.symm hplain, Ne.symm hfile, Ne.symm hmemory]

theorem Default.stored?_of_backends (h : t.backends = s.backends) (path : String) :
    t.stored? path = s.stored? path := by
  obtain ⟨contents, hmemory⟩ := defaults.hasMemory
  rw [stored?_eq hmemory, stored?_eq (h ▸ hmemory)]

theorem Default.writeAt (l : Location) (bytes : ByteArray) :
    (s.writeAt l bytes).2.Default root := by
  have hcases := defaults.backend_cases l
  obtain ⟨contents, hbackends⟩ := defaults
  rcases hcases with ⟨-, hback⟩ | ⟨hscheme, found, hback⟩ | hback
  · rw [Store.writeAt, hback]
    exact ⟨contents, hbackends⟩
  · rw [Store.writeAt, hback, hscheme]
    refine ⟨Fields.insert l.path bytes found, ?_⟩
    simp [register, hbackends, Fields.insert]
  · rw [Store.writeAt, hback]
    exact ⟨contents, hbackends⟩

theorem Default.attempted {source : Failure} (h : s.writeAt l bytes = (.error source, t)) :
    t = s ∨ s.Attempted l t := by
  rcases writeAt_eq_error h with rfl | ⟨root', hback, hbackends, hmade⟩
  · exact .inl rfl
  · rw [← backend_eq_ok] at hback
    rcases defaults.backend_cases l with ⟨hscheme, -⟩ | ⟨-, contents, hother⟩ | hother
    · exact .inr ⟨hscheme, hbackends, hmade.sameFiles, root', hback, hmade⟩
    · simp [hback] at hother
    · simp [hback, Fault.throw] at hother

theorem Default.stored?_writeAt (h : s.writeAt l bytes = (.ok (), t)) (path : String) :
    t.stored? path = if l = ⟨"memory", path⟩ then some bytes else s.stored? path := by
  rcases defaults.backend_cases l with ⟨hscheme, hback⟩ | ⟨hscheme, -⟩ | hback
  · have hne : l ≠ ⟨"memory", path⟩ := by
      rintro rfl
      simp at hscheme
    rw [if_neg hne]
    rw [Store.writeAt, hback] at h
    exact defaults.stored?_of_backends ((Prod.mk.inj h).2 ▸ rfl) path
  · obtain ⟨u, hwrite, -, -, hread⟩ := writeAt_memory defaults.hasMemory hscheme bytes
    obtain rfl : u = t := (Prod.mk.inj (hwrite.symm.trans h)).2
    rw [stored?, hread]
    by_cases heq : l = ⟨"memory", path⟩
    · simp [heq, Except.toOption]
    · rw [if_neg (Ne.symm heq), if_neg heq]
      rfl
  · simp [Store.writeAt, hback, Fault.throw] at h

theorem Default.readAt_of_none (hnone : s.stored? path = none) : s.readAt ⟨"memory", path⟩ =
    .error (.message ("nothing stored at '" ++ Location.text ⟨"memory", path⟩ ++ "'")) := by
  obtain ⟨contents, hmemory⟩ := defaults.hasMemory
  rw [stored?_eq hmemory] at hnone
  rw [readAt_of_memory hmemory, hnone]

theorem Default.none_of_readAt {text : String} (hread : s.readAt l = .error (.message text)) :
    ∃ path, l = ⟨"memory", path⟩ ∧ s.stored? path = none := by
  rcases defaults.backend_cases l with ⟨-, hback⟩ | ⟨hscheme, -⟩ | hback
  · simp only [Store.readAt, hback, ok_bind, Disk.readArtifact] at hread
    split at hread <;> simp at hread
  · obtain ⟨scheme, path⟩ := l
    obtain rfl : scheme = "memory" := hscheme
    exact ⟨path, rfl, by rw [stored?, hread]; rfl⟩
  · simp [Store.readAt, hback, Fault.throw] at hread

end Default

end Store

/-- The fault of an adapter that finds nothing at the location of an artifact in memory. -/
def Fault.NothingStored (e : Fault) : Prop :=
  ∃ name artifactType place, e = .adapter name artifactType
    (.message ("nothing stored at '" ++ place ++ "'"))

namespace Catalog

variable {c : Catalog} {name : String} {args : Mapping} {codec : Codec} {options : Mapping}
  {x : Saving} {s t : Store} {root : Path} {path : String}

/-- The codec that an artifact of a built-in type is kept by, with its options for saving. -/
def codec? (c : Catalog) (name : String) : Option (Codec × Mapping) := do
  let d ← c.declaration? name
  let codec ← Fields.get? d.artifactType Codec.builtin
  return (codec, d.saveOptions)

/-- What a payload is saved as. -/
def encoding? (c : Catalog) (x : Saving) : Option ByteArray := do
  let (codec, options) ← c.codec? x.name
  (codec.encode options x.payload).toOption

theorem lookup_eq_ok {d : Declaration} : c.lookup name = .ok d ↔ c.declaration? name = some d := by
  rw [lookup]
  cases c.declaration? name <;> simp

section Builtin

variable (builtin : c.adapters = Adapter.builtin)
include builtin

theorem keeps_of_codec? (h : c.codec? name = some (codec, options)) :
    c.Keeps name codec options := by
  obtain ⟨d, hd, h⟩ := Option.bind_eq_some_iff.1 h
  obtain ⟨found, hfound, h⟩ := Option.bind_eq_some_iff.1 h
  obtain ⟨rfl, rfl⟩ := Prod.mk.inj (Option.some.inj h)
  refine ⟨d, lookup_eq_ok.2 hd, rfl, ?_⟩
  rw [builtin, Adapter.builtin_eq, Fields.get?_mapValues, hfound]
  rfl

theorem exists_codec? {found : Adapter × Request} (h : c.prepare name args = .ok found) :
    ∃ codec options, c.codec? name = some (codec, options) := by
  obtain ⟨rd, hresolve, h⟩ := bind_eq_ok.1 h
  obtain ⟨adapter, hadapter, -⟩ := bind_eq_ok.1 h
  obtain ⟨d, hd, htype, -⟩ := resolve_eq_ok hresolve
  rw [adapterFor_eq_ok, htype, builtin, Adapter.builtin_eq, Fields.get?_mapValues] at hadapter
  obtain ⟨codec, hcodec, -⟩ := Option.map_eq_some_iff.1 hadapter
  refine ⟨codec, d.saveOptions, ?_⟩
  simp [codec?, lookup_eq_ok.1 hd, hcodec]

/-- Saving fails without a trace, or it is an attempt to write what the payload is saved as. -/
theorem save_builtin (x : Saving) :
    (∃ e, ∀ s, c.save x.name x.payload x.args s = (.error e, s)) ∨
      ∃ l bytes fault, c.location? x.name x.args = some l ∧ c.encoding? x = some bytes ∧
        ∀ s, c.save x.name x.payload x.args s =
          ((s.writeAt l bytes).1.mapError fault, (s.writeAt l bytes).2) := by
  cases hprepare : c.prepare x.name x.args with
  | error e =>
      refine .inl ⟨e, fun s => ?_⟩
      rw [save, hprepare]
  | ok found =>
      obtain ⟨codec, options, hcodec⟩ := exists_codec? builtin hprepare
      rcases (keeps_of_codec? builtin hcodec).save_cases x.payload x.args with
        hfail | ⟨l, bytes, fault, hlocation, hencode, hsave⟩
      · exact .inl hfail
      · refine .inr ⟨l, bytes, fault, hlocation, ?_, hsave⟩
        simp [encoding?, hcodec, hencode, Except.toOption]

end Builtin

theorem location?_eq_memory_iff : c.location? name args = some ⟨"memory", path⟩ ↔
    ∃ rd scheme, c.resolve name args = .ok rd ∧ scheme.toLower = "memory" ∧
      rd.path? = some (scheme ++ "://" ++ path) := by
  rw [location?_eq_some]
  constructor
  · rintro ⟨rd, raw, hresolve, hraw, hparse⟩
    obtain ⟨scheme, hscheme, rfl⟩ := Location.parse_eq_memory_iff.1 hparse
    exact ⟨rd, scheme, hresolve, hscheme, hraw⟩
  · rintro ⟨rd, scheme, hresolve, hscheme, hraw⟩
    exact ⟨rd, _, hresolve, hraw, Location.parse_eq_memory_iff.2 ⟨scheme, hscheme, rfl⟩⟩

theorem resolve_failsWith_of_lookup {d : Declaration} (h : c.lookup name = .ok d)
    (args : Mapping) : FailsWith Fault.OfPlaceholders (c.resolve name args) := by
  rw [resolve, h, ok_bind]
  exact (c.resolveFields_failsWith d name args d.extra).bind fun _ => failsWith_ok _

/-- Loading a file reports that nothing is stored only where nothing is stored in memory. -/
theorem loadFile_unstored {r : Request} {place : String} (defaults : s.Default root)
    (h : Adapter.loadFile codec r s = .error (.message ("nothing stored at '" ++ place ++ "'"))) :
    ∃ raw path, r.declaration.path? = some raw ∧ Location.parse raw = ⟨"memory", path⟩ ∧
      s.stored? path = none := by
  cases hraw : r.declaration.path? with
  | none =>
      -- A declaration without a path is reported in other words.
      simp only [Adapter.loadFile, Request.path, hraw, error_bind] at h
      have htext := Failure.message.inj (Except.error.inj h)
      have hfirst := congrArg (fun text => text.toList.head?) htext
      simp at hfirst
  | some raw =>
      simp only [Adapter.loadFile, Request.path, hraw, ok_bind] at h
      rcases bind_eq_error.1 h with hread | ⟨bytes, -, hdecode⟩
      · obtain ⟨path, hparse, hnone⟩ := defaults.none_of_readAt hread
        exact ⟨raw, path, rfl, hparse, hnone⟩
      · cases hdecoded : codec.decode bytes <;> simp [hdecoded, Result.context] at hdecode

theorem Keeps.nothingStored_iff (keeps : c.Keeps name codec options) (defaults : s.Default root) :
    (∃ e, c.load name args s = .error e ∧ e.NothingStored) ↔
      ∃ path, c.location? name args = some ⟨"memory", path⟩ ∧ s.stored? path = none := by
  constructor
  · rintro ⟨_, hload, artifact, artifactType, place, rfl⟩
    obtain ⟨d, hd, -⟩ := id keeps
    cases hresolve : c.resolve name args with
    | error e =>
        have hplaceholders := resolve_failsWith_of_lookup hd args e hresolve
        rw [load, prepare, hresolve] at hload
        obtain rfl := Except.error.inj hload
        exact hplaceholders.elim
    | ok rd =>
        rw [keeps.load_eq hresolve] at hload
        obtain ⟨source, hsource, hfault⟩ := mapError_eq_error.1 hload
        obtain ⟨-, -, rfl⟩ := Fault.adapter.inj hfault
        obtain ⟨raw, path, hraw, hparse, hnone⟩ := loadFile_unstored defaults hsource
        exact ⟨path, location?_eq_some.2 ⟨rd, raw, hresolve, hraw, hparse⟩, hnone⟩
  · rintro ⟨path, hlocation, hnone⟩
    obtain ⟨rd, raw, hresolve, hraw, hparse⟩ := location?_eq_some.1 hlocation
    refine ⟨_, ?_, rd.name, rd.artifactType, Location.text ⟨"memory", path⟩, rfl⟩
    rw [keeps.load_eq hresolve]
    simp only [Adapter.loadFile, Request.path, hraw, ok_bind, Store.read, hparse,
      defaults.readAt_of_none hnone]
    rfl

end Catalog
end ArtifactFlow
