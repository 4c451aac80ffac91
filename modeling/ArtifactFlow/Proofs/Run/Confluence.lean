import ArtifactFlow.Proofs.Pipeline.Assembly
import ArtifactFlow.Proofs.Run.Locality

/-!
Crafts that make nothing for one another may run in either order. Two orders of the same crafts that
both run producers first therefore lead to the same end.
-/

namespace ArtifactFlow

/-- Whether a craft reads or writes an artifact. -/
def Craft.Touches (craft : Craft) (name : String) : Prop :=
  (∃ r ∈ craft.contract.required, r.kind = .artifact ∧ r.name = name) ∨
    ⟨name, .artifact⟩ ∈ craft.contract.produced

/-- Crafts keep their artifacts under `memory`, those of different names at different locations. -/
structure Separate (catalog : Catalog) (context : Context) (crafts : List Craft) : Prop where
  memory : ∀ c ∈ crafts, ∀ name, c.Touches name →
    ∀ l, catalog.location? name (c.namespaceFor context []) = some l → l.scheme = "memory"
  apart : ∀ c ∈ crafts, ∀ d ∈ crafts, ∀ x y, c.Touches x → d.Touches y → x ≠ y →
    ∀ l, catalog.location? x (c.namespaceFor context []) = some l →
      catalog.location? y (d.namespaceFor context []) ≠ some l

theorem Separate.mono {catalog : Catalog} {context : Context} {crafts others : List Craft}
    (h : Separate catalog context crafts) (hsub : others ⊆ crafts) :
    Separate catalog context others :=
  ⟨fun c hc => h.memory c (hsub hc), fun c hc d hd => h.apart c (hsub hc) d (hsub hd)⟩

/-- Neither of two crafts makes what the other one needs, and nothing is made by both. -/
structure Craft.Independent (c d : Craft) : Prop where
  forward : ¬ c.Supplies d
  backward : ¬ d.Supplies c
  disjoint : ∀ name ∈ c.contract.producedNames, name ∉ d.contract.producedNames

theorem Craft.Independent.symm {c d : Craft} (h : c.Independent d) : d.Independent c :=
  ⟨h.backward, h.forward, fun name hd hc => h.disjoint name hc hd⟩

theorem Contract.mem_producedNames {c : Contract} {p : Production} (h : p ∈ c.produced) :
    p.name ∈ c.producedNames :=
  List.mem_map_of_mem h

theorem Graph.mem_needs {craft : Craft} {r : Requirement} (hr : r ∈ craft.contract.required)
    (hkind : r.kind ≠ .param) : r.name ∈ Graph.needs craft :=
  List.mem_map_of_mem (List.mem_filter.2 ⟨hr, by simpa using hkind⟩)

namespace Delivery

/-- Two deliveries for different names go to different places. -/
def Apart : Delivery → Delivery → Prop
  | .artifact _ l _, .artifact _ m _ => l ≠ m
  | .volatile x _, .volatile y _ => x ≠ y
  | _, _ => True

end Delivery

namespace Visible

theorem deliver_comm {d e : Delivery} (h : d.Apart e) (v : Visible) :
    (v.deliver d).deliver e = (v.deliver e).deliver d := by
  cases d with
  | artifact x l bytes =>
      cases e with
      | artifact y m others =>
          refine Visible.ext rfl ?_ ?_
          · funext name
            exact propext or_right_comm
          · funext k
            simp only [deliver]
            by_cases hl : k = l
            · have hm : k ≠ m := fun hm => h (hl.symm.trans hm)
              rw [if_neg hm, if_pos hl, if_pos hl]
            · rw [if_neg hl, if_neg hl]
      | volatile y value => rfl
  | volatile x value =>
      cases e with
      | artifact y m others => rfl
      | volatile y other =>
          refine Visible.ext ?_ rfl rfl
          funext name
          simp only [deliver]
          by_cases hx : x = name
          · have hy : y ≠ name := fun hy => h (hx.trans hy.symm)
            simp [hx, hy]
          · simp [hx]

theorem deliver_deliverAll {d : Delivery} {es : List Delivery} (h : ∀ e ∈ es, d.Apart e)
    (v : Visible) : (v.deliver d).deliverAll es = (v.deliverAll es).deliver d := by
  induction es generalizing v with
  | nil => rfl
  | cons e es ih =>
      obtain ⟨he, hes⟩ := List.forall_mem_cons.1 h
      change ((v.deliver d).deliver e).deliverAll es = ((v.deliver e).deliverAll es).deliver d
      rw [deliver_comm he, ih hes]

theorem deliverAll_comm {ds es : List Delivery} (h : ∀ d ∈ ds, ∀ e ∈ es, d.Apart e)
    (v : Visible) : (v.deliverAll ds).deliverAll es = (v.deliverAll es).deliverAll ds := by
  induction ds generalizing v with
  | nil => rfl
  | cons d ds ih =>
      obtain ⟨hd, hds⟩ := List.forall_mem_cons.1 h
      change ((v.deliver d).deliverAll ds).deliverAll es =
        ((v.deliverAll es).deliver d).deliverAll ds
      rw [ih hds, deliver_deliverAll hd]

end Visible

namespace Craft

variable {catalog : Catalog} {context : Context} {c d : Craft} {ds es : List Delivery}

/-- What an independent craft delivers does not concern a craft. -/
theorem Independent.alike (independent : c.Independent d)
    (separate : Separate catalog context [c, d])
    (hes : ∀ e ∈ es, e.Meets catalog (d.namespaceFor context []) d.contract.produced)
    (v : Visible) :
    c.Alike catalog (c.namespaceFor context []) v (v.deliverAll es) := by
  constructor
  · intro r hr hkind l hl
    symm
    apply deliverAll_stored_of_apart hes
    intro name hname
    have hneeds := Graph.mem_needs hr (by simp [hkind])
    have hne : r.name ≠ name := by
      rintro rfl
      exact independent.backward ⟨r.name, Contract.mem_producedNames hname, hneeds⟩
    exact separate.apart c (by simp) d (by simp) r.name name (.inl ⟨r, hr, hkind, rfl⟩)
      (.inr hname) hne l hl
  · intro r hr hkind
    have hneeds := Graph.mem_needs hr (by simp [hkind])
    symm
    apply deliverAll_volatile?_of_not_mem hes
    intro hmem
    exact independent.backward ⟨r.name, Contract.mem_producedNames hmem, hneeds⟩
  · intro name hname
    symm
    apply deliverAll_volatile?_of_not_mem hes
    intro hmem
    exact independent.disjoint name (Contract.mem_producedNames hname)
      (Contract.mem_producedNames hmem)

theorem Independent.deliveries_apart (independent : c.Independent d)
    (separate : Separate catalog context [c, d])
    (hds : ∀ e ∈ ds, e.Meets catalog (c.namespaceFor context []) c.contract.produced)
    (hes : ∀ e ∈ es, e.Meets catalog (d.namespaceFor context []) d.contract.produced) :
    ∀ x ∈ ds, ∀ y ∈ es, x.Apart y := by
  intro x hx y hy
  have hx := hds x hx
  have hy := hes y hy
  cases x with
  | artifact a l _ =>
      cases y with
      | artifact b m _ =>
          rintro rfl
          have hne : a ≠ b := by
            rintro rfl
            exact independent.disjoint a (Contract.mem_producedNames hx.1)
              (Contract.mem_producedNames hy.1)
          exact separate.apart c (by simp) d (by simp) a b (.inr hx.1) (.inr hy.1) hne l hx.2 hy.2
      | volatile b _ => trivial
  | volatile a _ =>
      cases y with
      | artifact b m _ => trivial
      | volatile b _ =>
          rintro rfl
          exact independent.disjoint a (Contract.mem_producedNames hx)
            (Contract.mem_producedNames hy)

/-- A call after that of an independent craft does what it would have done before it. -/
theorem visible_bind_after? (independent : c.Independent d)
    (separate : Separate catalog context [d, c]) {s : RunState} (within : s.Within context)
    {planned others : Option (List Delivery)} (hplanned : c.Plan catalog context s planned)
    (hothers : d.Plan catalog context s others) :
    (∀ u, (c.after? catalog s).bind (d.after? catalog) = some u → u.Within context) ∧
      ((c.after? catalog s).bind (d.after? catalog)).map RunState.visible =
        planned.bind fun ds => others.map fun es => (s.visible.deliverAll ds).deliverAll es := by
  obtain ⟨hwithin, hvisible⟩ := hplanned.after? within (.of_eq rfl)
  cases hafter : c.after? catalog s with
  | none =>
      rw [hafter] at hvisible
      obtain rfl : planned = none := by simpa using hvisible.symm
      simp
  | some t =>
      rw [hafter] at hvisible
      obtain ⟨ds, rfl, ht⟩ : ∃ ds, planned = some ds ∧ s.visible.deliverAll ds = t.visible := by
        simpa using hvisible.symm
      have alike : d.Alike catalog (d.namespaceFor context []) s.visible t.visible := by
        rw [← ht]
        exact independent.symm.alike separate (hplanned.meets ds rfl) s.visible
      obtain ⟨hu, hu'⟩ := hothers.after? (hwithin t hafter) alike
      refine ⟨hu, ?_⟩
      rw [Option.bind_some, hu', Option.bind_some, ht]

end Craft

/-- Runs that came equally far: both failed, or what they made can not be told apart. -/
structure RunState.Same (context : Context) (a b : Option RunState) : Prop where
  left : ∀ s, a = some s → s.Within context
  right : ∀ t, b = some t → t.Within context
  visible : a.map RunState.visible = b.map RunState.visible

namespace RunState.Same

variable {context : Context} {a b c : Option RunState}

theorem refl (within : ∀ s, a = some s → s.Within context) : Same context a a :=
  ⟨within, within, rfl⟩

theorem symm (h : Same context a b) : Same context b a :=
  ⟨h.right, h.left, h.visible.symm⟩

theorem trans (h : Same context a b) (h' : Same context b c) : Same context a c :=
  ⟨h.left, h'.right, h.visible.trans h'.visible⟩

end RunState.Same

namespace Craft

open RunState

section Orders

variable {catalog : Catalog} {context : Context} {crafts : List Craft}
  (files : catalog.FileAdapters)
  (made_once : ∀ c ∈ crafts, c.contract.producedNames.Nodup)
  (separate : Separate catalog context crafts)

include files made_once separate

theorem exists_plan_of_mem {c : Craft} (hc : c ∈ crafts) (s : RunState) :
    ∃ plan, c.Plan catalog context s plan :=
  exists_plan files (made_once c hc)
    (fun name hname => separate.memory c hc name (.inr hname)) s

/-- What can not be told apart stays so in a call. -/
theorem same_after? {a b : Option RunState} (same : Same context a b) {c : Craft}
    (hc : c ∈ crafts) : Same context (a.bind (c.after? catalog)) (b.bind (c.after? catalog)) := by
  cases a with
  | none =>
      obtain rfl : b = none := by simpa using same.visible.symm
      exact same
  | some s =>
      obtain ⟨t, rfl, hvisible⟩ : ∃ t, b = some t ∧ t.visible = s.visible := by
        simpa using same.visible.symm
      obtain ⟨plan, hplan⟩ := exists_plan_of_mem files made_once separate hc s
      obtain ⟨hs, hs'⟩ := hplan.after? (same.left s rfl) (.of_eq rfl)
      obtain ⟨ht, ht'⟩ := hplan.after? (same.right t rfl) (.of_eq hvisible.symm)
      exact ⟨hs, ht, by rw [Option.bind_some, Option.bind_some, hs', ht', hvisible]⟩

theorem same_afterAll? {a b : Option RunState} (same : Same context a b) {rest : List Craft}
    (hrest : rest ⊆ crafts) :
    Same context (afterAll? catalog rest a) (afterAll? catalog rest b) := by
  induction rest generalizing a b with
  | nil => exact same
  | cons c rest ih =>
      obtain ⟨hc, hrest⟩ := List.cons_subset.1 hrest
      rw [afterAll?_cons, afterAll?_cons]
      exact ih (same_after? files made_once separate same hc) hrest

/-- Independent crafts may run in either order. -/
theorem same_swap {c d : Craft} (hc : c ∈ crafts) (hd : d ∈ crafts)
    (independent : c.Independent d) {a : Option RunState}
    (within : ∀ s, a = some s → s.Within context) :
    Same context ((a.bind (c.after? catalog)).bind (d.after? catalog))
      ((a.bind (d.after? catalog)).bind (c.after? catalog)) := by
  cases a with
  | none =>
      rw [Option.bind_none, Option.bind_none, Option.bind_none]
      exact .refl within
  | some s =>
      obtain ⟨planned, hplanned⟩ := exists_plan_of_mem files made_once separate hc s
      obtain ⟨others, hothers⟩ := exists_plan_of_mem files made_once separate hd s
      have forward : [c, d] ⊆ crafts := by simp [hc, hd]
      have backward : [d, c] ⊆ crafts := by simp [hc, hd]
      obtain ⟨hleft, hforward⟩ := visible_bind_after? independent (separate.mono backward)
        (within s rfl) hplanned hothers
      obtain ⟨hright, hbackward⟩ := visible_bind_after? independent.symm (separate.mono forward)
        (within s rfl) hothers hplanned
      refine ⟨hleft, hright, ?_⟩
      rw [Option.bind_some, Option.bind_some, hforward, hbackward]
      cases planned with
      | none => cases others <;> rfl
      | some ds =>
          cases others with
          | none => rfl
          | some es =>
              have apart := independent.deliveries_apart (separate.mono forward)
                (hplanned.meets ds rfl) (hothers.meets es rfl)
              exact congrArg some (Visible.deliverAll_comm apart s.visible)

/-- A craft may run before others that it is independent of. -/
theorem same_move {c : Craft} (hc : c ∈ crafts) {before after : List Craft}
    (hbefore : before ⊆ crafts) (hafter : after ⊆ crafts)
    (independent : ∀ d ∈ before, c.Independent d) {a : Option RunState}
    (within : ∀ s, a = some s → s.Within context) :
    Same context (afterAll? catalog (before ++ c :: after) a)
      (afterAll? catalog (c :: (before ++ after)) a) := by
  induction before generalizing a with
  | nil =>
      exact same_afterAll? files made_once separate (.refl within)
        (List.cons_subset.2 ⟨hc, hafter⟩)
  | cons d before ih =>
      obtain ⟨hd, hbefore⟩ := List.cons_subset.1 hbefore
      obtain ⟨hind, independent⟩ := List.forall_mem_cons.1 independent
      have hstep := (same_after? files made_once separate (.refl within) hd).left
      have hswap := same_swap files made_once separate hd hc hind.symm within
      have hrest := same_afterAll? files made_once separate hswap
        (List.append_subset.2 ⟨hbefore, hafter⟩)
      have hmove := ih hbefore independent hstep
      rw [afterAll?_cons] at hmove
      rw [List.cons_append, List.cons_append, afterAll?_cons, afterAll?_cons, afterAll?_cons]
      exact hmove.trans hrest

/-- Two orders of the same crafts, in both of which producers run first. -/
theorem same_perm {first second : List Craft} (hfirst : first ⊆ crafts)
    (hperm : first.Perm second) (hnodup : first.Nodup)
    (one_producer : ∀ c ∈ crafts, ∀ d ∈ crafts, ∀ name ∈ c.contract.producedNames,
      name ∈ d.contract.producedNames → c = d)
    (first_ordered : first.Pairwise fun earlier later => ¬ later.Supplies earlier)
    (second_ordered : second.Pairwise fun earlier later => ¬ later.Supplies earlier)
    {a : Option RunState} (within : ∀ s, a = some s → s.Within context) :
    Same context (afterAll? catalog first a) (afterAll? catalog second a) := by
  induction first generalizing second a with
  | nil =>
      obtain rfl := hperm.nil_eq
      exact .refl within
  | cons c first ih =>
      obtain ⟨before, after, rfl⟩ := List.append_of_mem (hperm.mem_iff.1 List.mem_cons_self)
      obtain ⟨hc, hfirst⟩ := List.cons_subset.1 hfirst
      obtain ⟨hnew, hnodup⟩ := List.nodup_cons.1 hnodup
      obtain ⟨hsupplies, first_ordered⟩ := List.pairwise_cons.1 first_ordered
      have hrest : first.Perm (before ++ after) :=
        List.Perm.cons_inv (hperm.trans List.perm_middle)
      have hsub : before ++ after ⊆ crafts := fun d hd => hfirst (hrest.mem_iff.2 hd)
      obtain ⟨hbefore, hafter⟩ := List.append_subset.1 hsub
      -- `c` runs first in one order, so nothing makes anything for it; in the other order all of
      -- `before` runs ahead of it, so it makes nothing for those.
      have independent : ∀ d ∈ before, c.Independent d := by
        intro d hd
        have hmem : d ∈ first := hrest.mem_iff.2 (List.mem_append_left _ hd)
        have hne : c ≠ d := fun heq => hnew (heq ▸ hmem)
        refine ⟨?_, hsupplies d hmem, ?_⟩
        · exact (List.pairwise_append.1 second_ordered).2.2 d hd c List.mem_cons_self
        · intro name hname hname'
          exact hne (one_producer c hc d (hbefore hd) name hname hname')
      have hordered : (before ++ after).Pairwise fun earlier later => ¬ later.Supplies earlier :=
        second_ordered.sublist (List.Sublist.append (.refl _) (List.sublist_cons_self c after))
      have hstep := (same_after? files made_once separate (.refl within) hc).left
      have htail := ih hfirst hrest hnodup first_ordered hordered hstep
      have hmove := same_move files made_once separate hc hbefore hafter independent within
      rw [afterAll?_cons] at hmove ⊢
      exact htail.trans hmove.symm

end Orders

end Craft
end ArtifactFlow
