import ArtifactFlow.Proofs.Except
import ArtifactFlow.Proofs.Fields
import ArtifactFlow.Proofs.Text.Split
import ArtifactFlow.Storage.Store

/-!
Locations in memory, and stores with a table for them. Writing to such a location always succeeds,
and it changes what is read there and nowhere else.
-/

namespace ArtifactFlow

namespace Location

theorem toLower_eq_ofList (s : String) : s.toLower = String.ofList (s.toList.map Char.toLower) := by
  change s.map Char.toLower = _
  rw [← String.toList_map, String.ofList_toList]

theorem isSchemeChar_of_toLower {c : Char} (h : c.toLower.isAlpha) : isSchemeChar c := by
  have halpha : c.isAlpha := by
    by_cases hupper : c.isUpper
    · exact Bool.or_eq_true_iff.2 (.inl hupper)
    · have hsame : c.toLower = c := dif_neg fun hrange => hupper (decide_eq_true hrange)
      rwa [hsame] at h
  simp [isSchemeChar, Char.isAlphanum, halpha]

theorem parse_scheme {scheme : String} (hne : scheme ≠ "")
    (hchars : ∀ c ∈ scheme.toList, isSchemeChar c) (path : String) :
    parse (scheme ++ "://" ++ path) = ⟨scheme.toLower, path⟩ := by
  have hcolon : ':' ∉ scheme.toList := fun hmem => absurd (hchars _ hmem) (by decide)
  have hempty : scheme.toList ≠ [] := by simpa using hne
  have hall : scheme.toList.all isSchemeChar := List.all_eq_true.2 hchars
  have htext : (scheme ++ "://" ++ path).toList =
      scheme.toList ++ (':' :: ['/', '/'] ++ path.toList) := by
    simp
  rw [parse, htext, Text.cutAt?_append_of_notMem hcolon, toLower_eq_ofList]
  simp [hempty, hall]

theorem parse_of_toLower {scheme : String} (h : scheme.toLower = "memory") (path : String) :
    parse (scheme ++ "://" ++ path) = ⟨"memory", path⟩ := by
  have hlower : scheme.toList.map Char.toLower = "memory".toList := by
    rw [← h, toLower_eq_ofList, String.toList_ofList]
  have hletters : "memory".toList.all Char.isAlpha := by decide
  have halpha : ∀ c ∈ scheme.toList, c.toLower.isAlpha := fun c hc =>
    List.all_eq_true.1 hletters _ (hlower ▸ List.mem_map_of_mem hc)
  have hne : scheme ≠ "" := by
    rintro rfl
    exact absurd hlower (by decide)
  rw [parse_scheme hne fun c hc => isSchemeChar_of_toLower (halpha c hc), h]

/-- The texts that stand for a location in memory. -/
theorem parse_eq_memory_iff {raw path : String} : parse raw = ⟨"memory", path⟩ ↔
    ∃ scheme : String, scheme.toLower = "memory" ∧ raw = scheme ++ "://" ++ path := by
  constructor
  · intro h
    rw [parse] at h
    split at h
    · rename_i before after hcut
      split at h
      · obtain ⟨hscheme, hpath⟩ := Location.mk.inj h
        refine ⟨String.ofList before, ?_, ?_⟩
        · rw [toLower_eq_ofList, String.toList_ofList, hscheme]
        · apply String.toList_injective
          rw [Text.cutAt?_eq_some hcut, ← hpath]
          simp
      · exact absurd (Location.mk.inj h).1 (by decide)
    · exact absurd (Location.mk.inj h).1 (by decide)
  · rintro ⟨scheme, hscheme, rfl⟩
    exact parse_of_toLower hscheme path

theorem parse_memory (rest : String) : parse ("memory://" ++ rest) = ⟨"memory", rest⟩ := by
  have hparse := parse_of_toLower (show "memory".toLower = "memory" by decide +kernel) rest
  rwa [show "memory" ++ "://" = "memory://" from rfl] at hparse

end Location

namespace Store

/-- Locations under `memory` are kept in a table. -/
def HasMemory (s : Store) : Prop :=
  ∃ contents, Fields.get? "memory" s.backends = some (.memory contents)

theorem backend_eq_ok {s : Store} {l : Location} {b : Backend} :
    s.backend l = .ok b ↔ Fields.get? l.scheme s.backends = some b := by
  rw [backend]
  cases Fields.get? l.scheme s.backends with
  | none => simp [Fault.throw]
  | some _ => simp

theorem backend_register_of_ne {s : Store} {scheme : String} {l : Location}
    (h : scheme ≠ l.scheme) (b : Backend) : (s.register scheme b).backend l = s.backend l := by
  simp [backend, register, Fields.get?_insert, h]

theorem readAt_of_memory {s : Store} {l : Location} {contents : Fields ByteArray}
    (h : Fields.get? l.scheme s.backends = some (.memory contents)) :
    s.readAt l = match Fields.get? l.path contents with
      | some bytes => .ok bytes
      | none => .error (.message ("nothing stored at '" ++ l.text ++ "'")) := by
  rw [readAt, backend_eq_ok.2 h]
  rfl

/-- A write to memory succeeds and is read back. -/
theorem writeAt_memory {s : Store} (h : s.HasMemory) {l : Location} (hl : l.scheme = "memory")
    (bytes : ByteArray) : ∃ t, s.writeAt l bytes = (.ok (), t) ∧ t.HasMemory ∧
      t.disk = s.disk ∧
        ∀ other, t.readAt other = if other = l then .ok bytes else s.readAt other := by
  obtain ⟨contents, hcontents⟩ := h
  have hback : Fields.get? l.scheme s.backends = some (.memory contents) := hl ▸ hcontents
  refine ⟨s.register l.scheme (.memory (Fields.insert l.path bytes contents)), ?_, ?_, rfl, ?_⟩
  · rw [writeAt, backend_eq_ok.2 hback]
  · exact ⟨_, by rw [register, hl, Fields.get?_insert_self]⟩
  · intro other
    by_cases hscheme : other.scheme = l.scheme
    · have hnew : Fields.get? other.scheme
          (s.register l.scheme (.memory (Fields.insert l.path bytes contents))).backends =
            some (.memory (Fields.insert l.path bytes contents)) := by
        rw [hscheme, register, Fields.get?_insert_self]
      rw [readAt_of_memory hnew, readAt_of_memory (hscheme ▸ hback), Fields.get?_insert]
      have hpath : l.path = other.path ↔ other = l := by
        constructor
        · intro h
          cases other
          cases l
          simp_all
        · rintro rfl
          rfl
      by_cases heq : other = l
      · simp [heq]
      · simp [hpath, heq]
    · have hne : other ≠ l := fun h => hscheme (h ▸ rfl)
      rw [if_neg hne, readAt, backend_register_of_ne (Ne.symm hscheme)]
      rfl

end Store
end ArtifactFlow
