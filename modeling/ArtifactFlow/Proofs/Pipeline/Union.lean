import ArtifactFlow.Proofs.Names
import ArtifactFlow.Proofs.Pipeline.Construction

/-!
Combining as union. Two pipelines can be combined exactly if their crafts fit together, and the
result holds the crafts of both, each of them once. To fit together passes on to fewer crafts, so
that no grouping and no order of operands fails where another one succeeds.
-/

namespace ArtifactFlow.Pipeline

/-- A well-ordered pipeline of the crafts in a list. -/
structure Holds (p : Pipeline) (crafts : List Craft) : Prop where
  ordered : p.WellOrdered
  mem : ∀ c, c ∈ p.crafts ↔ c ∈ crafts

theorem WellOrdered.holds {p : Pipeline} (h : p.WellOrdered) : p.Holds p.crafts :=
  ⟨h, fun _ => Iff.rfl⟩

theorem Holds.congr {p : Pipeline} {crafts others : List Craft} (h : p.Holds crafts)
    (hall : ∀ c, c ∈ crafts ↔ c ∈ others) : p.Holds others :=
  ⟨h.ordered, fun c => (h.mem c).trans (hall c)⟩

theorem Holds.perm {p q : Pipeline} {crafts : List Craft} (hp : p.Holds crafts)
    (hq : q.Holds crafts) : p.crafts.Perm q.crafts :=
  (List.perm_ext_iff_of_nodup hp.ordered.nodup hq.ordered.nodup).2 fun c =>
    (hp.mem c).trans (hq.mem c).symm

theorem Holds.members_eq {p q : Pipeline} {crafts : List Craft} (hp : p.Holds crafts)
    (hq : q.Holds crafts) : p.members = q.members := by
  apply sortedNames_congr
  intro name
  simp only [List.mem_map, hp.mem, hq.mem]

variable {a b c p q : Pipeline} {as bs cs : List Craft}

theorem Holds.mem_ordered_append (ha : a.Holds as) (hb : b.Holds bs) (x : Craft) :
    x ∈ a.ordered ++ b.ordered ↔ x ∈ as ++ bs := by
  rw [List.mem_append, List.mem_append, ha.ordered.ordered_perm.mem_iff,
    hb.ordered.ordered_perm.mem_iff, ha.mem, hb.mem]

theorem Holds.identified_ordered (ha : a.Holds as) (hb : b.Holds bs)
    (identified : Craft.Identified (as ++ bs)) : Craft.Identified (a.ordered ++ b.ordered) :=
  identified.mono fun x hx => (ha.mem_ordered_append hb x).1 hx

/-- Two pipelines can be combined exactly if their crafts fit together. -/
theorem Holds.exists_combine_iff (ha : a.Holds as) (hb : b.Holds bs)
    (identified : Craft.Identified (as ++ bs)) :
    (∃ p, a.combine b = .ok p) ↔ Composable (as ++ bs) := by
  have hmem := ha.mem_ordered_append hb
  rw [Pipeline.combine, exists_assemble_iff (ha.identified_ordered hb identified)]
  exact ⟨fun h => h.congr fun x => (hmem x).symm, fun h => h.congr hmem⟩

theorem Holds.combine (ha : a.Holds as) (hb : b.Holds bs)
    (identified : Craft.Identified (as ++ bs)) (h : a.combine b = .ok p) : p.Holds (as ++ bs) := by
  obtain ⟨ordered, -, -, hall⟩ := assemble_spec (ha.identified_ordered hb identified) h
  exact ⟨ordered, fun x => (hall x).trans (ha.mem_ordered_append hb x)⟩

theorem Holds.combine_ne_duplicateCraft (ha : a.Holds as) (hb : b.Holds bs)
    (identified : Craft.Identified (as ++ bs))
    (one_name : ∀ x ∈ as ++ bs, ∀ y ∈ as ++ bs, x.name = y.name → x = y) (name : String) :
    a.combine b ≠ .error (.duplicateCraft name) := by
  have hmem := ha.mem_ordered_append hb
  apply assemble_ne_duplicateCraft (ha.identified_ordered hb identified)
  exact fun x hx y hy => one_name x ((hmem x).1 hx) y ((hmem y).1 hy)

section Nested

variable (ha : a.Holds as) (hb : b.Holds bs) (hc : c.Holds cs)
include ha hb hc

theorem Holds.combine_left (identified : Craft.Identified (as ++ bs ++ cs))
    (h : a.combine b >>= (·.combine c) = .ok p) : p.Holds (as ++ bs ++ cs) := by
  obtain ⟨ab, hab, hp⟩ := bind_eq_ok.1 h
  have first := ha.combine hb (identified.mono (List.subset_append_left _ _)) hab
  exact first.combine hc identified hp

theorem Holds.combine_right (identified : Craft.Identified (as ++ (bs ++ cs)))
    (h : b.combine c >>= a.combine = .ok p) : p.Holds (as ++ (bs ++ cs)) := by
  obtain ⟨bc, hbc, hp⟩ := bind_eq_ok.1 h
  have rest := hb.combine hc (identified.mono (List.subset_append_right _ _)) hbc
  exact ha.combine rest identified hp

/-- The left combination cannot fail where all three fit together. -/
theorem Holds.exists_combine_left_iff (identified : Craft.Identified (as ++ bs ++ cs)) :
    (∃ p, a.combine b >>= (·.combine c) = .ok p) ↔ Composable (as ++ bs ++ cs) := by
  have identified' := identified.mono (List.subset_append_left (as ++ bs) cs)
  have hab {ab : Pipeline} (h : a.combine b = .ok ab) : ab.Holds (as ++ bs) :=
    ha.combine hb identified' h
  constructor
  · intro ⟨p, hp⟩
    obtain ⟨ab, h, hp⟩ := bind_eq_ok.1 hp
    exact ((hab h).exists_combine_iff hc identified).1 ⟨p, hp⟩
  · intro fits
    obtain ⟨ab, h⟩ := (ha.exists_combine_iff hb identified').2
      (fits.mono (List.subset_append_left _ _))
    obtain ⟨p, hp⟩ := ((hab h).exists_combine_iff hc identified).2 fits
    exact ⟨p, bind_eq_ok.2 ⟨ab, h, hp⟩⟩

theorem Holds.exists_combine_right_iff (identified : Craft.Identified (as ++ (bs ++ cs))) :
    (∃ p, b.combine c >>= a.combine = .ok p) ↔ Composable (as ++ (bs ++ cs)) := by
  have identified' := identified.mono (List.subset_append_right as (bs ++ cs))
  have hbc {bc : Pipeline} (h : b.combine c = .ok bc) : bc.Holds (bs ++ cs) :=
    hb.combine hc identified' h
  constructor
  · intro ⟨p, hp⟩
    obtain ⟨bc, h, hp⟩ := bind_eq_ok.1 hp
    exact (ha.exists_combine_iff (hbc h) identified).1 ⟨p, hp⟩
  · intro fits
    obtain ⟨bc, h⟩ := (hb.exists_combine_iff hc identified').2
      (fits.mono (List.subset_append_right _ _))
    obtain ⟨p, hp⟩ := (ha.exists_combine_iff (hbc h) identified).2 fits
    exact ⟨p, bind_eq_ok.2 ⟨bc, h, hp⟩⟩

end Nested

/-- How operands are grouped, and which of two comes first, decides neither whether a combination
succeeds nor which crafts it holds. -/
theorem combine_assoc_comm (ha : a.Built) (hb : b.Built) (hc : c.Built)
    (identified : Craft.Identified (a.crafts ++ b.crafts ++ c.crafts)) :
    (((∃ p, a.combine b >>= (·.combine c) = .ok p) ↔ ∃ q, b.combine c >>= a.combine = .ok q) ∧
      ∀ p q, a.combine b >>= (·.combine c) = .ok p → b.combine c >>= a.combine = .ok q →
        p.members = q.members ∧ p.crafts.Perm q.crafts ∧ p.crafts.Nodup ∧
          ∀ x, x ∈ p.crafts ↔ x ∈ a.crafts ∨ x ∈ b.crafts ∨ x ∈ c.crafts) ∧
    ((∃ p, a.combine b = .ok p) ↔ ∃ q, b.combine a = .ok q) ∧
      ∀ p q, a.combine b = .ok p → b.combine a = .ok q →
        p.members = q.members ∧ p.crafts.Perm q.crafts ∧ p.crafts.Nodup ∧
          ∀ x, x ∈ p.crafts ↔ x ∈ a.crafts ∨ x ∈ b.crafts := by
  have ha := ha.wellOrdered.holds
  have hb := hb.wellOrdered.holds
  have hc := hc.wellOrdered.holds
  have grouped : Craft.Identified (a.crafts ++ (b.crafts ++ c.crafts)) :=
    List.append_assoc .. ▸ identified
  have hcomm (x : Craft) : x ∈ b.crafts ++ a.crafts ↔ x ∈ a.crafts ++ b.crafts := by
    rw [List.mem_append, List.mem_append, or_comm]
  have first : Craft.Identified (a.crafts ++ b.crafts) :=
    identified.mono (List.subset_append_left _ _)
  have swapped : Craft.Identified (b.crafts ++ a.crafts) := first.mono fun x => (hcomm x).1
  refine ⟨⟨?_, ?_⟩, ?_, ?_⟩
  · rw [ha.exists_combine_left_iff hb hc identified, ha.exists_combine_right_iff hb hc grouped,
      List.append_assoc]
  · intro p q hp hq
    have hp := ha.combine_left hb hc identified hp
    have hq := ha.combine_right hb hc grouped hq
    rw [← List.append_assoc] at hq
    refine ⟨hp.members_eq hq, hp.perm hq, hp.ordered.nodup, ?_⟩
    intro x
    rw [hp.mem, List.mem_append, List.mem_append, or_assoc]
  · rw [ha.exists_combine_iff hb first, hb.exists_combine_iff ha swapped]
    exact ⟨fun h => h.congr hcomm, fun h => h.congr fun x => (hcomm x).symm⟩
  · intro p q hp hq
    have hp := ha.combine hb first hp
    have hq := (hb.combine ha swapped hq).congr hcomm
    refine ⟨hp.members_eq hq, hp.perm hq, hp.ordered.nodup, ?_⟩
    intro x
    rw [hp.mem, List.mem_append]

open Training in
theorem combine_assoc_comm_training :
    ∃ a b p q, ofCrafts "a" [fit, clean] = .ok a ∧ ofCrafts "b" [score, clean] = .ok b ∧
      a.combine b >>= (·.combine (.ofCraft report)) = .ok p ∧
      b.combine (.ofCraft report) >>= a.combine = .ok q ∧
      p.orderedNames = ["clean", "fit", "score", "report"] ∧
      q.orderedNames = ["clean", "fit", "score", "report"] ∧ p.crafts.Perm q.crafts ∧
      ∃ r, b.combine a = .ok r ∧ r.orderedNames = ["clean", "fit", "score"] := by
  have ha : ofCrafts "a" [fit, clean] = .ok ⟨"a", [fit, clean], [1, 0], []⟩ := rfl
  have hb : ofCrafts "b" [score, clean] = .ok ⟨"b", [score, clean], [0, 1], []⟩ := rfl
  have made : report.Made := rfl
  have distinct : Craft.Identified [clean, fit, score, report] :=
    Craft.identified_of_nodup (by decide)
  obtain ⟨⟨hassoc, hgrouped⟩, hcomm, -⟩ := combine_assoc_comm (.ofCrafts ha) (.ofCrafts hb)
    (.ofCraft made) (distinct.mono (by simp [ofCraft]))
  obtain ⟨q, hq⟩ := hassoc.1 ⟨_, rfl⟩
  obtain ⟨r, hr⟩ := hcomm.1 ⟨_, rfl⟩
  obtain ⟨-, hperm, -, -⟩ := hgrouped _ q rfl hq
  cases hq
  cases hr
  exact ⟨_, _, _, _, ha, hb, rfl, rfl, rfl, rfl, hperm, _, rfl, rfl⟩

end ArtifactFlow.Pipeline
