import ArtifactFlow.Proofs.Catalog.Builtin

/-!
Histories of calls to a catalog. Whatever is called, and whichever calls fail, a place in memory
holds what the last successful save to it was encoded to. Calls that fail leave everything that is
stored as it is, and a load misses its bytes only if no save to their place has succeeded.
-/

namespace ArtifactFlow
namespace Catalog

inductive Action where
  | resolve (name : String) (args : Mapping)
  | load (name : String) (args : Mapping)
  | save (x : Saving)

/-- How a call ends, and the store that it leaves. -/
def act (c : Catalog) (s : Store) : Action → Except Fault Unit × Store
  | .resolve name args => ((c.resolve name args).map fun _ => (), s)
  | .load name args => ((c.load name args s).map fun _ => (), s)
  | .save x => c.save x.name x.payload x.args s

/-- The store after calls one after another, whether they succeed or fail. -/
def actAll (c : Catalog) (s : Store) (actions : List Action) : Store :=
  actions.foldl (fun s a => (c.act s a).2) s

/-- What a call saves, if it is a save and succeeds. -/
def saved? (c : Catalog) (s : Store) (a : Action) : Option Saving :=
  match a, (c.act s a).1 with
  | .save x, .ok () => some x
  | _, _ => none

/-- The saves among some calls that succeed, in order. -/
def savings (c : Catalog) (s : Store) : List Action → List Saving
  | [] => []
  | a :: rest => (c.saved? s a).toList ++ c.savings (c.act s a).2 rest

def lastAt? (c : Catalog) (l : Location) (saved : List Saving) : Option Saving :=
  saved.reverse.find? fun x => c.location? x.name x.args = some l

variable {c : Catalog} {s t : Store} {root : Path} {a : Action} {l : Location}

theorem lastAt?_eq_none {saved : List Saving} :
    c.lastAt? l saved = none ↔ ∀ x ∈ saved, c.location? x.name x.args ≠ some l := by
  simp [lastAt?]

theorem lastAt?_append (first second : List Saving) :
    c.lastAt? l (first ++ second) = (c.lastAt? l second).or (c.lastAt? l first) := by
  simp [lastAt?]

section Builtin

variable (builtin : c.adapters = Adapter.builtin) (defaults : s.Default root)
include builtin defaults

/-- A call that fails leaves the store as it is, or was an attempt to write to a file. -/
theorem act_eq_error {e : Fault} (h : c.act s a = (.error e, t)) :
    t = s ∨ ∃ x l, a = .save x ∧ c.location? x.name x.args = some l ∧ s.Attempted l t := by
  cases a with
  | resolve name args => exact .inl (Prod.mk.inj h).2.symm
  | load name args => exact .inl (Prod.mk.inj h).2.symm
  | save x =>
      rw [act] at h
      rcases save_builtin builtin x with ⟨fault, hfail⟩ | ⟨l, bytes, fault, hlocation, -, hsave⟩
      · rw [hfail] at h
        exact .inl (Prod.mk.inj h).2.symm
      · rw [hsave] at h
        obtain ⟨hresult, hstore⟩ := Prod.mk.inj h
        obtain ⟨source, hsource, -⟩ := mapError_eq_error.1 hresult
        rcases defaults.attempted (Prod.ext hsource hstore) with hsame | hattempted
        · exact .inl hsame
        · exact .inr ⟨x, l, rfl, hlocation, hattempted⟩

theorem default_act (a : Action) : (c.act s a).2.Default root := by
  cases a with
  | resolve name args => exact defaults
  | load name args => exact defaults
  | save x =>
      rw [act]
      rcases save_builtin builtin x with ⟨fault, hfail⟩ | ⟨l, bytes, fault, -, -, hsave⟩
      · rw [hfail]
        exact defaults
      · rw [hsave]
        exact defaults.writeAt l bytes

theorem stored?_of_error {e : Fault} (h : c.act s a = (.error e, t)) (path : String) :
    t.stored? path = s.stored? path := by
  rcases act_eq_error builtin defaults h with rfl | ⟨x, l, -, -, attempted⟩
  · rfl
  · exact defaults.stored?_of_backends attempted.backends path

theorem stored?_of_ok {x : Saving} (h : c.act s (.save x) = (.ok (), t)) :
    ∃ bytes, c.encoding? x = some bytes ∧ ∀ path, t.stored? path =
      if c.location? x.name x.args = some ⟨"memory", path⟩ then some bytes else s.stored? path := by
  rw [act] at h
  rcases save_builtin builtin x with ⟨fault, hfail⟩ | ⟨l, bytes, fault, hlocation, hencoding, hsave⟩
  · simp [hfail] at h
  · rw [hsave] at h
    obtain ⟨hresult, hstore⟩ := Prod.mk.inj h
    have hwrite : s.writeAt l bytes = (.ok (), t) := Prod.ext (mapError_eq_ok.1 hresult) hstore
    refine ⟨bytes, hencoding, fun path => ?_⟩
    rw [defaults.stored?_writeAt hwrite, hlocation]
    simp only [Option.some.injEq]

theorem stored?_act (a : Action) :
    (∀ x ∈ c.saved? s a, ∃ bytes, c.encoding? x = some bytes) ∧
      ∀ path, (c.act s a).2.stored? path =
        match c.lastAt? ⟨"memory", path⟩ (c.saved? s a).toList with
        | some x => c.encoding? x
        | none => s.stored? path := by
  cases a with
  | resolve name args => simp [saved?, act, lastAt?]
  | load name args => simp [saved?, act, lastAt?]
  | save x =>
      rcases hact : c.act s (.save x) with ⟨e | ⟨⟩, t⟩
      · simp [saved?, hact, lastAt?, stored?_of_error builtin defaults hact]
      · obtain ⟨bytes, hencoding, hstored⟩ := stored?_of_ok builtin defaults hact
        refine ⟨by simp [saved?, hact, hencoding], fun path => ?_⟩
        rw [hstored]
        by_cases hlocation : c.location? x.name x.args = some ⟨"memory", path⟩
        · simp [saved?, hact, lastAt?, hlocation, hencoding]
        · simp [saved?, hact, lastAt?, hlocation]

theorem default_actAll (actions : List Action) : (c.actAll s actions).Default root := by
  induction actions generalizing s with
  | nil => exact defaults
  | cons a rest ih => exact ih (default_act builtin defaults a)

/-- What calls one after another do to what is stored in memory. -/
theorem stored?_actAll (actions : List Action) :
    (∀ x ∈ c.savings s actions, ∃ bytes, c.encoding? x = some bytes) ∧
      ∀ path, (c.actAll s actions).stored? path =
        match c.lastAt? ⟨"memory", path⟩ (c.savings s actions) with
        | some x => c.encoding? x
        | none => s.stored? path := by
  induction actions generalizing s with
  | nil => simp [savings, lastAt?, actAll]
  | cons a rest ih =>
      obtain ⟨hencoded, hstored⟩ := stored?_act builtin defaults a
      obtain ⟨hrest, hlast⟩ := ih (default_act builtin defaults a)
      constructor
      · intro x hx
        rcases List.mem_append.1 hx with hx | hx
        · exact hencoded x (Option.mem_toList.1 hx)
        · exact hrest x hx
      · intro path
        have hstep := hlast path
        rw [savings, lastAt?_append]
        rw [actAll, List.foldl_cons, ← actAll, hstep]
        cases c.lastAt? ⟨"memory", path⟩ (c.savings (c.act s a).2 rest) with
        | some x => rfl
        | none => simpa using hstored path

end Builtin

/-- What can be said of a store that was fresh before some calls. -/
structure Lawful (c : Catalog) (start : Store) (actions : List Action) : Prop where
  /-- Whatever has been saved has an encoding. -/
  encoded : ∀ x ∈ c.savings start actions, ∃ bytes, c.encoding? x = some bytes
  /-- A place in memory holds what the last save to it was encoded to. -/
  stored : ∀ path, (c.actAll start actions).stored? path =
    c.lastAt? ⟨"memory", path⟩ (c.savings start actions) >>= c.encoding?
  /-- A call that fails changes nothing, but for directories on the way to a file. -/
  failed : ∀ a e t, c.act (c.actAll start actions) a = (.error e, t) →
    t = c.actAll start actions ∨ ∃ x l, a = .save x ∧ c.location? x.name x.args = some l ∧
      (c.actAll start actions).Attempted l t
  /-- A load finds nothing stored if its place is in memory and no save to it has succeeded. -/
  missing : ∀ name args, (c.codec? name).isSome →
    ((∃ e, c.load name args (c.actAll start actions) = .error e ∧ e.NothingStored) ↔
      ∃ path, c.location? name args = some ⟨"memory", path⟩ ∧
        ∀ x ∈ c.savings start actions, c.location? x.name x.args ≠ some ⟨"memory", path⟩)

/-- The law of calls to a catalog of built-in adapters on a fresh store with the default backends.
The scheme of a place in memory may be written in either case. -/
theorem lawful_of_builtin (builtin : c.adapters = Adapter.builtin) (disk : Disk) (root : Path)
    (actions : List Action) :
    c.Lawful ⟨disk, Backend.defaults root⟩ actions ∧
      ∀ name args path, c.location? name args = some ⟨"memory", path⟩ ↔
        ∃ rd scheme, c.resolve name args = .ok rd ∧ scheme.toLower = "memory" ∧
          rd.path? = some (scheme ++ "://" ++ path) := by
  have fresh := Store.Default.fresh disk root
  have defaults := default_actAll builtin fresh actions
  obtain ⟨hencoded, hstored⟩ := stored?_actAll builtin fresh actions
  have stored (path : String) : (c.actAll ⟨disk, Backend.defaults root⟩ actions).stored? path =
      c.lastAt? ⟨"memory", path⟩ (c.savings ⟨disk, Backend.defaults root⟩ actions) >>=
        c.encoding? := by
    rw [hstored]
    cases c.lastAt? ⟨"memory", path⟩ _ with
    | some x => rfl
    | none => exact Store.stored?_defaults disk root path
  refine ⟨⟨hencoded, stored, fun a e t h => act_eq_error builtin defaults h, ?_⟩,
    fun name args path => location?_eq_memory_iff⟩
  intro name args hcodec
  obtain ⟨⟨codec, options⟩, hcodec⟩ := Option.isSome_iff_exists.1 hcodec
  rw [(keeps_of_codec? builtin hcodec).nothingStored_iff defaults]
  refine exists_congr fun path => and_congr_right fun _ => ?_
  rw [stored, ← lastAt?_eq_none]
  cases hlast : c.lastAt? ⟨"memory", path⟩ (c.savings ⟨disk, Backend.defaults root⟩ actions) with
  | none => simp
  | some x =>
      obtain ⟨bytes, hbytes⟩ := hencoded x (List.mem_reverse.1 (List.mem_of_find?_eq_some hlast))
      simp [hbytes]

end Catalog

namespace Larder

def declared (name artifactType path : String) : String × Declaration :=
  (name, ⟨name, artifactType, [("path", .string path)], [], [], [], []⟩)

def catalog : Catalog :=
  ⟨.empty, [declared "jam" "text" "shelf/jam/", declared "oak" "text" "shelf",
    declared "plum" "text" "Memory://!{ jar }", declared "rye" "json" "memory://1"],
    Adapter.builtin⟩

def store : Store :=
  ⟨⟨.empty, []⟩, Backend.defaults ⟨"data"⟩⟩

/-- Jam cannot be kept: its path names a directory, into which no file can be put. -/
def saveJam : Catalog.Action :=
  .save ⟨"jam", .string "plum", []⟩

def saveOak : Catalog.Action :=
  .save ⟨"oak", .string "board", []⟩

def actions : List Catalog.Action :=
  [.save ⟨"rye", .int 3, []⟩, .save ⟨"plum", .string "sweet", [("jar", .string "1")]⟩,
    .save ⟨"plum", .int 4, [("jar", .string "1")]⟩, saveJam]

end Larder

open Larder in
theorem Catalog.lawful_of_builtin_larder :
    (catalog.actAll store actions).stored? "1" = some "sweet".toUTF8 ∧
      ∃ e, catalog.load "plum" [("jar", .string "2")] (catalog.actAll store actions) = .error e ∧
        e.NothingStored := by
  obtain ⟨lawful, -⟩ := lawful_of_builtin (c := catalog) rfl ⟨.empty, []⟩ ⟨"data"⟩ actions
  have hlast : (catalog.lastAt? ⟨"memory", "1"⟩ (catalog.savings store actions) >>=
      catalog.encoding?) = some "sweet".toUTF8 := by
    decide +kernel
  have hnone : (catalog.lastAt? ⟨"memory", "2"⟩ (catalog.savings store actions)).isNone := by
    decide +kernel
  refine ⟨(lawful.stored "1").trans hlast, (lawful.missing _ _ (by decide)).2 ⟨"2", ?_, ?_⟩⟩
  · decide +kernel
  · exact lastAt?_eq_none.1 (Option.isNone_iff_eq_none.1 hnone)

open Larder in
/-- A save that fails may leave directories behind, and be the reason why a later save fails. -/
theorem Catalog.not_unchanged_of_error :
    (∃ e t f u, catalog.act store saveJam = (.error e, t) ∧ catalog.act t saveOak = (.error f, u) ∧
      (catalog.act store saveOak).1 = .ok ()) ∧
    ¬ ∀ (c : Catalog) (disk : Disk) (root : Path) (actions : List Action) (a : Action) (e : Fault)
      (t : Store), c.adapters = Adapter.builtin →
      c.act (c.actAll ⟨disk, Backend.defaults root⟩ actions) a = (.error e, t) →
      t = c.actAll ⟨disk, Backend.defaults root⟩ actions := by
  have hjam : (catalog.act store saveJam).1.isOk = false := by decide +kernel
  have hafter : (catalog.act (catalog.act store saveJam).2 saveOak).1.isOk = false := by
    decide +kernel
  have hbefore : (catalog.act store saveOak).1.isOk := by decide +kernel
  rcases heq : catalog.act store saveJam with ⟨e | ⟨⟩, t⟩
  · rw [heq] at hafter
    refine ⟨?_, fun hall => ?_⟩
    · rcases hoak : catalog.act t saveOak with ⟨f | ⟨⟩, u⟩
      · rcases hfresh : catalog.act store saveOak with ⟨_ | ⟨⟩, _⟩
        · simp [hfresh, Except.isOk, Except.toBool] at hbefore
        · exact ⟨e, t, f, u, rfl, hoak, rfl⟩
      · simp [hoak, Except.isOk, Except.toBool] at hafter
    · obtain rfl : t = store := hall catalog ⟨.empty, []⟩ ⟨"data"⟩ [] saveJam e t rfl heq
      simp [hbefore] at hafter
  · simp [heq, Except.isOk, Except.toBool] at hjam

end ArtifactFlow
