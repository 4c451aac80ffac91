import ArtifactFlow.Proofs.Storage.Memory

/-!
Which backend serves a location after any number of registrations. Locations know their scheme in
small letters alone, and a backend is found under the scheme as it was registered; so among the
spellings of a scheme only the one in small letters counts, and for it the last registration.
-/

namespace ArtifactFlow

namespace Store

/-- The store after registrations, one after another. -/
def registerAll (s : Store) (registrations : Fields Backend) : Store :=
  registrations.foldl (fun s (scheme, b) => s.register scheme b) s

variable {s : Store} {registrations : Fields Backend} {l : Location}

theorem registerAll_eq (s : Store) (registrations : Fields Backend) :
    s.registerAll registrations =
      { s with backends := Fields.insertAll s.backends registrations } := by
  induction registrations generalizing s with
  | nil => rfl
  | cons entry rest ih =>
      change (s.register entry.1 entry.2).registerAll rest = _
      rw [ih]
      rfl

theorem backend_registerAll (s : Store) (registrations : Fields Backend) (l : Location) :
    (s.registerAll registrations).backend l =
      match Fields.get? l.scheme registrations.reverse with
      | some b => .ok b
      | none => s.backend l := by
  rw [registerAll_eq, backend, Fields.get?_insertAll_reverse]
  cases Fields.get? l.scheme registrations.reverse <;> rfl

/-- A location is served by the backend that was registered last under its scheme in small letters,
and by none but those that were there before if there is no such registration; other spellings of
the scheme are of no account. -/
theorem backend_of_scheme {scheme : String} (hne : scheme ≠ "")
    (hchars : ∀ c ∈ scheme.toList, Location.isSchemeChar c) (path : String) (s : Store)
    (registrations : Fields Backend) :
    (s.registerAll registrations).backend (.parse (scheme ++ "://" ++ path)) =
      match Fields.get? scheme.toLower registrations.reverse with
      | some b => .ok b
      | none => s.backend ⟨scheme.toLower, path⟩ := by
  rw [Location.parse_scheme hne hchars, backend_registerAll]

def depot : Store :=
  ⟨⟨.empty, []⟩, Backend.defaults ⟨"data"⟩⟩

/-- Of three backends of one scheme the latest has a spelling of its own and is passed over. -/
theorem backend_of_scheme_depot :
    (∀ c ∈ "Git+S3".toList, Location.isSchemeChar c) ∧
      (depot.registerAll [("git+s3", .memory []), ("git+s3", .files ⟨"mirror"⟩),
        ("Git+S3", .memory [])]).backend (.parse ("Git+S3" ++ "://" ++ "seed/1")) =
          .ok (.files ⟨"mirror"⟩) := by
  have hchars : ∀ c ∈ "Git+S3".toList, Location.isSchemeChar c :=
    List.all_eq_true.1 (by decide)
  have hlower : "Git+S3".toLower = "git+s3" := by decide +kernel
  refine ⟨hchars, ?_⟩
  rw [backend_of_scheme (by decide) hchars, hlower]
  rfl

/-- A backend serves no location if it is registered under a spelling with a capital letter, though
locations are written with the same spelling. -/
theorem not_served_by_latest :
    ¬ ∀ (s : Store) (before after : Fields Backend) (registered scheme path : String)
      (b : Backend), scheme ≠ "" → (∀ c ∈ scheme.toList, Location.isSchemeChar c) →
      (∃ entry ∈ before ++ (registered, b) :: after, entry.1 = scheme) →
      registered.toLower = scheme.toLower → (∀ entry ∈ after, entry.1.toLower ≠ scheme.toLower) →
      (s.registerAll (before ++ (registered, b) :: after)).backend
        (.parse (scheme ++ "://" ++ path)) = .ok b := by
  intro hall
  have hchars : ∀ c ∈ "S3".toList, Location.isSchemeChar c := List.all_eq_true.1 (by decide)
  have hlower : "S3".toLower = "s3" := by decide +kernel
  have hserved := hall depot [] [] "S3" "S3" "seed/1" (.memory []) (by decide) hchars
    ⟨_, List.mem_cons_self, rfl⟩ rfl nofun
  rw [Location.parse_scheme (by decide) hchars, hlower] at hserved
  exact nomatch hserved

end Store
end ArtifactFlow
