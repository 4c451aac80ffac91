import ArtifactFlow.Proofs.Pipeline.Union

/-!
The order in which a combination runs. Crafts that stand producers first already keep their places,
so the left side runs as it did, and what the right side adds follows in the order that it had
there, unless a craft on the left waits for one that only the right side has.
-/

namespace ArtifactFlow

namespace Graph

variable {g : Graph} {crafts : List Craft} {k turns : Nat}

/-- Where all edges lead forward, whatever comes next in the list is ready. -/
theorem nextReady?_range (forward : ∀ i j, g.Leads i j → i < j) (hk : k < g.size) :
    g.nextReady? (List.range k) = some k := by
  simp only [nextReady?_eq_some, isReady_iff, List.mem_range]
  exact ⟨⟨hk, Nat.lt_irrefl k, fun j => forward j k⟩, fun j hj h => h.1 hj⟩

theorem extend_range (forward : ∀ i j, g.Leads i j → i < j) (hsize : k + turns ≤ g.size) :
    g.extend turns (List.range k) = List.range (k + turns) := by
  induction turns generalizing k with
  | zero => rfl
  | succ turns ih =>
      rw [extend, nextReady?_range forward (by omega)]
      change g.extend turns (List.range k ++ [k]) = _
      rw [← List.range_succ, ih (by omega)]
      congr 1
      omega

/-- Crafts that stand producers first run as they stand. -/
theorem order_of_pairwise (h : ofCrafts crafts = .ok g)
    (sorted : crafts.Pairwise fun earlier later => ¬ later.Supplies earlier) :
    g.order = .ok (List.range crafts.length) := by
  have forward : ∀ i j, g.Leads i j → i < j := by
    intro i j hij
    obtain ⟨hne, p, c, hp, hc, hsupplies⟩ := (leads_iff_feeds h).1 hij
    obtain ⟨hi, rfl⟩ := List.getElem?_eq_some_iff.1 hp
    obtain ⟨hj, rfl⟩ := List.getElem?_eq_some_iff.1 hc
    by_contra hnot
    exact List.pairwise_iff_getElem.1 sorted j i hj hi (by omega) hsupplies
  have acyclic : ∀ i, ¬ Relation.TransGen g.Leads i i := by
    intro i cycle
    have hlt : Relation.TransGen (· < ·) i i := Relation.TransGen.mono forward i i cycle
    rw [Relation.transGen_eq_self] at hlt
    exact Nat.lt_irrefl i hlt
  have hextend : g.extend g.size (List.range 0) = List.range (0 + g.size) :=
    extend_range forward (Nat.zero_add _).le
  rw [order_eq_ok (bounded_of_ofCrafts h)]
  refine ⟨acyclic, ?_⟩
  rw [← size_of_ofCrafts h]
  simpa using hextend.symm

end Graph

namespace Pipeline

variable {a b p : Pipeline} {kept crafts after : List Craft}

/-- Crafts that are not there yet are added in their order. -/
theorem foldlM_addCraft_eq (hnames : (kept.map (·.name)).Nodup)
    (identified : Craft.Identified (kept ++ crafts)) (hnodup : crafts.Nodup)
    (h : crafts.foldlM addCraft kept = .ok after) :
    after = kept ++ crafts.filter (·.id ∉ kept.map (·.id)) := by
  induction crafts generalizing kept with
  | nil =>
      obtain rfl := Except.ok.inj h
      simp
  | cons c crafts ih =>
      obtain ⟨mid, hmid, hrest⟩ := bind_eq_ok.1 h
      obtain ⟨hc, hnodup⟩ := List.nodup_cons.1 hnodup
      rcases (addCraft_eq_ok hnames (identified.mono (by grind))).1 hmid with
        ⟨hold, rfl⟩ | ⟨hnew, rfl⟩
      · have hid : c.id ∈ mid.map (·.id) := List.mem_map_of_mem hold
        rw [ih hnames (identified.mono (by grind)) hnodup hrest,
          List.filter_cons_of_neg (by simpa using hid)]
      · have hid : c.id ∉ kept.map (·.id) := by
          intro hmem
          obtain ⟨d, hd, heq⟩ := List.mem_map.1 hmem
          obtain rfl := identified d (by grind) c (by grind) heq
          exact hnew (List.mem_map_of_mem hd)
        -- The craft that has just been added does not come again.
        have hlater : crafts.filter (·.id ∉ (kept ++ [c]).map (·.id)) =
            crafts.filter (·.id ∉ kept.map (·.id)) := by
          apply List.filter_congr
          intro d hd
          have hne : d.id ≠ c.id := fun heq => hc (identified d (by grind) c (by grind) heq ▸ hd)
          simp [hne]
        rw [ih (nodup_names_snoc hnames hnew) (identified.mono (by grind)) hnodup hrest, hlater,
          List.filter_cons_of_pos (by simpa using hid), List.append_assoc, List.singleton_append]

/-- Crafts are assembled in the order in which they are given, if producers stand first in it. -/
theorem ordered_of_assemble {name : String} {hooks : List Hook}
    (h : assemble name crafts hooks = .ok p) (hkept : crafts.foldlM addCraft [] = .ok kept)
    (sorted : kept.Pairwise fun earlier later => ¬ later.Supplies earlier) : p.ordered = kept := by
  obtain ⟨kept', g, order, hkept', hg, horder, rfl⟩ := assemble_eq_ok.1 h
  obtain rfl := Except.ok.inj (hkept.symm.trans hkept')
  obtain rfl := Except.ok.inj ((Graph.order_of_pairwise hg sorted).symm.trans horder)
  exact filterMap_getElem?_range kept

/-- What the right side adds to the left one. -/
def additions (a b : Pipeline) : List Craft :=
  b.ordered.filter (·.id ∉ a.crafts.map (·.id))

theorem mem_additions (hb : b.WellOrdered)
    (identified : Craft.Identified (a.crafts ++ b.crafts)) {c : Craft} :
    c ∈ a.additions b ↔ c ∈ b.crafts ∧ c ∉ a.crafts := by
  simp only [additions, List.mem_filter, decide_eq_true_eq, hb.ordered_perm.mem_iff]
  refine and_congr_right fun hc => not_congr ⟨fun hmem => ?_, List.mem_map_of_mem⟩
  obtain ⟨d, hd, heq⟩ := List.mem_map.1 hmem
  exact identified d (List.mem_append_left _ hd) c (List.mem_append_right _ hc) heq ▸ hd

theorem WellOrdered.eq_append_additions (ha : a.WellOrdered) (hb : b.WellOrdered)
    (identified : Craft.Identified (a.crafts ++ b.crafts))
    (h : (a.ordered ++ b.ordered).foldlM addCraft [] = .ok kept) :
    kept = a.ordered ++ a.additions b := by
  have identified := ha.holds.identified_ordered hb.holds identified
  have hnames : (a.ordered.map (·.name)).Nodup :=
    (ha.ordered_perm.map _).nodup_iff.2 ha.names_nodup
  rw [List.foldlM_append] at h
  obtain ⟨mid, hleft, hright⟩ := bind_eq_ok.1 h
  have hnone : (([] : List Craft).map (·.name)).Nodup := List.nodup_nil
  have hmid := foldlM_addCraft_eq hnone (identified.mono (by simp)) (hnames.of_map _) hleft
  obtain rfl : mid = a.ordered := by simpa using hmid
  rw [foldlM_addCraft_eq hnames identified (hb.ordered_perm.nodup_iff.2 hb.nodup) hright, additions]
  congr 1
  apply List.filter_congr
  intro c _
  simp only [(ha.ordered_perm.map (·.id)).mem_iff]

/-- A combination runs its left side and then what the right side adds, if no craft on the left
needs what only the right side makes. -/
theorem WellOrdered.ordered_combine (ha : a.WellOrdered) (hb : b.WellOrdered)
    (identified : Craft.Identified (a.crafts ++ b.crafts)) (h : a.combine b = .ok p)
    (forward : ∀ c ∈ a.crafts, ∀ d ∈ b.crafts, d ∉ a.crafts → ¬ d.Supplies c) :
    p.ordered = a.ordered ++ a.additions b := by
  obtain ⟨kept, -, -, hkept, -⟩ := assemble_eq_ok.1 h
  obtain rfl := ha.eq_append_additions hb identified hkept
  refine ordered_of_assemble h hkept (List.pairwise_append.2 ⟨ha.ordered_pairwise, ?_, ?_⟩)
  · exact hb.ordered_pairwise.filter _
  · intro c hc d hd
    obtain ⟨hd, hnew⟩ := (mem_additions hb identified).1 hd
    exact forward c (ha.ordered_perm.mem_iff.1 hc) d hd hnew

/-- How a combination runs, and that it neither fails nor changes an order where one side holds all
crafts. -/
theorem combine_keeps_order (ha : a.Built) (hb : b.Built)
    (identified : Craft.Identified (a.crafts ++ b.crafts)) :
    (∀ p, a.combine b = .ok p →
      (∀ c ∈ a.crafts, ∀ d ∈ b.crafts, d ∉ a.crafts → ¬ d.Supplies c) →
      p.ordered = a.ordered ++ b.ordered.filter (·.id ∉ a.crafts.map (·.id))) ∧
    (b.crafts ⊆ a.crafts → ∃ p, a.combine b = .ok p ∧ p.ordered = a.ordered) ∧
    (a.crafts = [] → ∃ p, a.combine b = .ok p ∧ p.ordered = b.ordered) := by
  have ha := ha.wellOrdered
  have hb := hb.wellOrdered
  have hexists := ha.holds.exists_combine_iff hb.holds identified
  refine ⟨fun p h => ha.ordered_combine hb identified h, fun hsub => ?_, fun hempty => ?_⟩
  · obtain ⟨p, hp⟩ := hexists.2 (ha.composable.congr fun c => by grind)
    refine ⟨p, hp, ?_⟩
    rw [ha.ordered_combine hb identified hp fun c _ d hd hnew => absurd (hsub hd) hnew]
    have hnone : a.additions b = [] := by
      rw [List.eq_nil_iff_forall_not_mem]
      intro c hc
      obtain ⟨hc, hnew⟩ := (mem_additions hb identified).1 hc
      exact hnew (hsub hc)
    rw [hnone, List.append_nil]
  · obtain ⟨p, hp⟩ := hexists.2 (hb.composable.congr fun c => by simp [hempty])
    refine ⟨p, hp, ?_⟩
    rw [ha.ordered_combine hb identified hp (by simp [hempty]), additions, hempty]
    have hnil : a.ordered = [] := by
      have := ha.ordered_perm
      rwa [hempty, List.perm_nil] at this
    simp [hnil]

open Training in
/-- The reports come before the scores on the right side and stay there. -/
theorem combine_keeps_order_training :
    ∃ a b p q, ofCrafts "a" [fit, clean] = .ok a ∧ ofCrafts "b" [report, fit, score] = .ok b ∧
      a.combine b = .ok p ∧ p.ordered = [clean, fit] ++ [report, score] ∧
      p.combine a = .ok q ∧ q.ordered = p.ordered ∧
      ∃ r, (empty "none").combine b = .ok r ∧ r.ordered = b.ordered := by
  have ha : ofCrafts "a" [fit, clean] = .ok ⟨"a", [fit, clean], [1, 0], []⟩ := rfl
  have hb : ofCrafts "b" [report, fit, score] = .ok ⟨"b", [report, fit, score], [1, 0, 2], []⟩ :=
    rfl
  have distinct : Craft.Identified [clean, fit, score, report] :=
    Craft.identified_of_nodup (by decide)
  obtain ⟨hcombine, -, -⟩ := combine_keeps_order (.ofCrafts ha) (.ofCrafts hb)
    (distinct.mono (by simp))
  have both : Built _ := .combine (.ofCrafts ha) (.ofCrafts hb) rfl
  obtain ⟨-, hagain, -⟩ := combine_keeps_order both (.ofCrafts ha) (distinct.mono (by simp))
  obtain ⟨-, -, hempty⟩ := combine_keeps_order (.empty "none") (.ofCrafts hb)
    (distinct.mono (by simp [empty]))
  obtain ⟨q, hq, hsame⟩ := hagain (by simp)
  have hlater : ∀ c ∈ [fit, clean], ∀ d ∈ [report, score], ¬ d.Supplies c := by
    unfold Craft.Supplies
    decide
  have hforward : ∀ c ∈ [fit, clean], ∀ d ∈ [report, fit, score], d ∉ [fit, clean] →
      ¬ d.Supplies c := fun c hc d hd hnew => hlater c hc d (by grind)
  exact ⟨_, _, _, q, ha, hb, rfl, hcombine _ rfl hforward, hq, hsame, hempty rfl⟩

end Pipeline
end ArtifactFlow
