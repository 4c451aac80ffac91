import ArtifactFlow.Catalog.Basic
import ArtifactFlow.Proofs.Ascending
import ArtifactFlow.Proofs.Catalog.Edits
import ArtifactFlow.Proofs.FirstLeast

/-!
What is suggested for a name that is not declared: of the declared names that few edits lead to, the
first one of those that the fewest edits lead to. Edits count characters, and the limit to them
counts the bytes of the name, which is the same only for names of characters of one byte.
-/

namespace ArtifactFlow

/-- What can be suggested for a name is at a distance of at most `limit`. Of such names the nearest
one is suggested, and of several nearest ones the first in the order of names. -/
structure Suggests (asked : String) (limit : Nat) (names : List String)
    (suggestion : Option String) : Prop where
  nearest : ∀ best, suggestion = some best → best ∈ names ∧
    ∃ n, Distance asked.toList best.toList n ∧ n ≤ limit ∧
      ∀ other ∈ names, ∀ m, Distance asked.toList other.toList m →
        n ≤ m ∧ (m = n → best ≤ other)
  absent : suggestion = none ↔
    ∀ other ∈ names, ∀ m, Distance asked.toList other.toList m → limit < m

section Nearest

variable {asked best : String} {names : List String}

/-- Candidates carry their distances with them, but are kept for these alone. -/
theorem foldl_nearer (key : String → Nat) (names : List String) (best : Option String) :
    (names.map fun name => (key name, name)).foldl nearer (best.map fun name => (key name, name)) =
      (names.foldl (keepLeast key) best).map fun name => (key name, name) := by
  induction names generalizing best with
  | nil => rfl
  | cons name rest ih =>
      rw [List.map_cons, List.foldl_cons, List.foldl_cons, ← ih]
      congr 1
      cases best with
      | none => rfl
      | some kept =>
          rw [Option.map_some, nearer, keepLeast]
          split <;> rfl

/-- The names within the limit. -/
def candidates (asked : String) (names : List String) : List String :=
  names.filter fun name => editDistance asked.toList name.toList ≤ suggestionLimit asked

theorem mem_candidates : best ∈ candidates asked names ↔
    best ∈ names ∧ editDistance asked.toList best.toList ≤ suggestionLimit asked := by
  simp [candidates]

theorem nearestName?_eq (asked : String) (names : List String) : nearestName? asked names =
    (candidates asked names).foldl
      (keepLeast fun name => editDistance asked.toList name.toList) none := by
  have hfold := foldl_nearer (fun name => editDistance asked.toList name.toList)
    (candidates asked names) none
  rw [Option.map_none] at hfold
  simp only [nearestName?, List.filter_map]
  change ((((candidates asked names).map _).foldl nearer none).map _) = _
  rw [hfold, Option.map_map]
  exact Option.map_id'

theorem suggestionLimit_eq (asked : String) :
    suggestionLimit asked = max 1 (asked.utf8ByteSize / 2) := by
  rw [suggestionLimit]
  omega

theorem suggests_nearestName? (ascending : names.Pairwise (· < ·)) (asked : String) :
    Suggests asked (suggestionLimit asked) names (nearestName? asked names) := by
  have computed {other : String} {m : Nat} (h : Distance asked.toList other.toList m) :
      m = editDistance asked.toList other.toList :=
    h.unique (distance_editDistance _ _)
  rw [nearestName?_eq]
  constructor
  · intro best h
    have first := foldl_keepLeast_eq_some.1 h
    obtain ⟨hbest, hlimit⟩ := mem_candidates.1 first.mem
    refine ⟨hbest, _, distance_editDistance _ _, hlimit, fun other hother m hm => ?_⟩
    obtain rfl := computed hm
    refine ⟨?_, fun htie => ?_⟩
    · by_cases hnear : editDistance asked.toList other.toList ≤ suggestionLimit asked
      · exact first.le (mem_candidates.2 ⟨hother, hnear⟩)
      · omega
    · have hmem := mem_candidates.2 ⟨hother, htie ▸ hlimit⟩
      have hsorted : (candidates asked names).Pairwise (· < ·) := ascending.filter _
      obtain ⟨before, after, hsplit, hbefore, -⟩ := first
      rw [hsplit] at hmem hsorted
      rcases List.mem_append.1 hmem with hmem | hmem
      · exact absurd htie (hbefore other hmem).ne'
      · rcases List.mem_cons.1 hmem with rfl | hmem
        · exact String.le_refl _
        · obtain ⟨-, hbehind, -⟩ := List.pairwise_append.1 hsorted
          have hlt := (List.pairwise_cons.1 hbehind).1 other hmem
          exact String.not_lt.1 (String.lt_asymm hlt)
  · rw [foldl_keepLeast_eq_none, List.eq_nil_iff_forall_not_mem]
    constructor
    · intro h other hother m hm
      rw [computed hm]
      exact not_le.1 fun hnear => h other (mem_candidates.2 ⟨hother, hnear⟩)
    · intro h other hmem
      obtain ⟨hother, hnear⟩ := mem_candidates.1 hmem
      exact absurd hnear (not_le.2 (h other hother _ (distance_editDistance _ _)))

end Nearest

namespace Catalog

/-- Catalogs as they come about: empty at first, then declarations and adapters are added. -/
inductive Built : Catalog → Prop where
  | empty (config : StaticConfig) : Built (.empty config)
  | insert {c c' : Catalog} (d : Declaration) : Built c → c.insert d = .ok c' → Built c'
  | registerAdapter {c : Catalog} (artifactType : String) (adapter : Adapter) :
      Built c → Built (c.registerAdapter artifactType adapter)

variable {c : Catalog} {name : String}

theorem Built.ascending (built : c.Built) : c.declarations.Ascending := by
  induction built with
  | empty => exact Fields.ascending_nil
  | insert d _ h ih =>
      rw [Catalog.insert] at h
      split at h
      · exact absurd h (by simp)
      · rw [← Except.ok.inj h]
        exact ih.insertSorted _ _
  | registerAdapter _ _ _ ih => exact ih

/-- Whatever is done with a name that is not declared ends with the suggestion for it. -/
theorem Built.suggests (built : c.Built) (undeclared : name ∉ c.names) :
    ∃ suggestion, Suggests name (max 1 (name.utf8ByteSize / 2)) c.names suggestion ∧ ∀ args,
      c.resolve name args = .error (.unknownArtifact name suggestion) ∧
      (∀ s, c.load name args s = .error (.unknownArtifact name suggestion)) ∧
      ∀ payload s, c.save name payload args s =
        (.error (.unknownArtifact name suggestion), s) := by
  refine ⟨nearestName? name c.names, ?_, fun args => ?_⟩
  · rw [← suggestionLimit_eq]
    exact suggests_nearestName? built.ascending name
  · have hnone : c.declaration? name = none := Fields.get?_eq_none_iff.2 undeclared
    have hresolve : c.resolve name args =
        .error (.unknownArtifact name (nearestName? name c.names)) := by
      rw [resolve, lookup, hnone]
      rfl
    have hprepare : c.prepare name args =
        .error (.unknownArtifact name (nearestName? name c.names)) := by
      rw [prepare, hresolve]
      rfl
    refine ⟨hresolve, fun s => ?_, fun payload s => ?_⟩
    · rw [load, hprepare]
      rfl
    · rw [save, hprepare]

namespace Cupboard

def jar (name : String) : Declaration :=
  ⟨name, "text", [], [], [], [], []⟩

def cupboard : Catalog :=
  { Catalog.empty ⟨[], []⟩ with
    declarations := [("pear", jar "pear"), ("peas", jar "peas"), ("tea", jar "tea")] }

theorem built : cupboard.Built := by
  have hpeas : (Catalog.empty ⟨[], []⟩).insert (jar "peas") = .ok
      { Catalog.empty ⟨[], []⟩ with declarations := [("peas", jar "peas")] } := rfl
  have htea := Built.insert (jar "tea") (.insert (jar "peas") (.empty ⟨[], []⟩) hpeas) rfl
  exact .insert (jar "pear") htea rfl

end Cupboard

open Cupboard

/-- All three names are one edit away. -/
theorem Built.suggests_cupboard : cupboard.Built ∧ "pea" ∉ cupboard.names ∧
    cupboard.resolve "pea" [] = .error (.unknownArtifact "pea" (some "pear")) ∧
    Suggests "pea" 1 ["pear", "peas", "tea"] (some "pear") := by
  have undeclared : "pea" ∉ cupboard.names := by decide
  have hresolve : cupboard.resolve "pea" [] =
      .error (.unknownArtifact "pea" (some "pear")) := rfl
  obtain ⟨suggestion, hsuggests, hall⟩ := built.suggests undeclared
  obtain rfl : suggestion = some "pear" :=
    (Fault.unknownArtifact.inj (Except.error.inj ((hall []).1.symm.trans hresolve))).2
  exact ⟨built, undeclared, hresolve, hsuggests⟩

/-- Two characters of three bytes each let three edits pass, so that a name is suggested that has no
character of the other one and more of them. -/
theorem not_suggests_by_length : cupboard.Built ∧ "日本" ∉ cupboard.names ∧
    cupboard.resolve "日本" [] = .error (.unknownArtifact "日本" (some "tea")) ∧
    ¬ Suggests "日本" (max 1 ("日本".length / 2)) cupboard.names (some "tea") := by
  refine ⟨built, by decide, rfl, fun h => ?_⟩
  obtain ⟨-, n, hn, hlimit, -⟩ := h.nearest "tea" rfl
  obtain rfl : n = 3 := hn.unique (distance_editDistance "日本".toList "tea".toList)
  exact absurd hlimit (by decide)

end Catalog
end ArtifactFlow
