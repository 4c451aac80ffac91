import ArtifactFlow.Pipeline.Order
import ArtifactFlow.Proofs.Graph.Feeds
import Mathlib.Data.List.Chain
import Mathlib.Data.List.Perm.Subperm

/-!
The depth-first walk over a graph. It ends with a cycle, given as a closed chain without
repetitions, or with all positions in an order in which each stands before those it leads to; the
second outcome rules out any cycle. The bound on the depth is never met, because a trail holds no
position twice.
-/

namespace ArtifactFlow.Graph

/-- An edge leads from one position to another. -/
def Leads (g : Graph) (i j : Nat) : Prop :=
  hasEdge g.edges i j

/-- Edges join positions of the graph. -/
def Bounded (g : Graph) : Prop :=
  ∀ i j, g.Leads i j → i < g.size ∧ j < g.size

/-- Every position of a list leads to later ones of it alone. -/
def Settled (g : Graph) : List Nat → Prop
  | [] => True
  | i :: rest => (∀ j, g.Leads i j → j ∈ rest) ∧ Settled g rest

/-- A closed chain of edges: its first position stands again at the end, and no other one twice. -/
structure IsCycle (g : Graph) (cycle : List Nat) : Prop where
  steps : cycle.IsChain g.Leads
  closed : cycle.head? = cycle.getLast?
  simple : cycle.tail.Nodup
  long : 2 ≤ cycle.length

theorem Settled.mem_of_leads {g : Graph} {finished : List Nat} (settled : g.Settled finished)
    {i j : Nat} (hi : i ∈ finished) (hij : g.Leads i j) : j ∈ finished := by
  induction finished with
  | nil => exact absurd hi List.not_mem_nil
  | cons k rest ih =>
      rcases List.mem_cons.1 hi with rfl | hi
      · exact List.mem_cons_of_mem _ (settled.1 j hij)
      · exact List.mem_cons_of_mem _ (ih settled.2 hi)

theorem Settled.mem_of_reaches {g : Graph} {finished : List Nat} (settled : g.Settled finished)
    {i j : Nat} (hi : i ∈ finished) (hij : Relation.TransGen g.Leads i j) : j ∈ finished := by
  induction hij with
  | single h => exact settled.mem_of_leads hi h
  | tail _ h ih => exact settled.mem_of_leads ih h

/-- No cycle passes through positions that are settled. -/
theorem Settled.acyclic {g : Graph} {finished : List Nat} (settled : g.Settled finished) {i : Nat}
    (hi : i ∈ finished) : ¬ Relation.TransGen g.Leads i i := by
  induction finished with
  | nil => exact absurd hi List.not_mem_nil
  | cons k rest ih =>
      by_cases hrest : i ∈ rest
      · exact ih settled.2 hrest
      · obtain rfl := (List.mem_cons.1 hi).resolve_right hrest
        intro cycle
        -- The first step of the cycle enters `rest`, which no edge leaves.
        obtain ⟨j, hij, hji⟩ := Relation.TransGen.head'_iff.1 cycle
        rcases Relation.reflTransGen_iff_eq_or_transGen.1 hji with rfl | hji
        · exact hrest (settled.1 _ hij)
        · exact hrest (settled.2.mem_of_reaches (settled.1 j hij) hji)

/-- Where the walk stands: `trail` leads to `position`, latest first, and there is room for as many
further positions as the graph has. -/
structure Approach (g : Graph) (depth : Nat) (trail : List Nat) (position : Nat) : Prop where
  chain : (position :: trail).IsChain fun a b => g.Leads b a
  nodup : (position :: trail).Nodup
  inside : ∀ i ∈ position :: trail, i < g.size
  room : g.size ≤ depth + trail.length

theorem Approach.depth_ne_zero {g : Graph} {trail : List Nat} {position : Nat}
    (h : Approach g 0 trail position) : False := by
  have sub : position :: trail ⊆ List.range g.size := fun i hi => List.mem_range.2 (h.inside i hi)
  have hlen := (h.nodup.subperm sub).length_le
  have room := h.room
  simp only [List.length_cons, List.length_range] at hlen
  omega

theorem Approach.step {g : Graph} (bounded : g.Bounded) {depth : Nat} {trail : List Nat}
    {position next : Nat} (h : Approach g (depth + 1) trail position)
    (hnext : g.Leads position next) (hnew : next ∉ position :: trail) :
    Approach g depth (position :: trail) next where
  chain := List.isChain_cons_cons.2 ⟨hnext, h.chain⟩
  nodup := List.nodup_cons.2 ⟨hnew, h.nodup⟩
  inside := by
    intro i hi
    rcases List.mem_cons.1 hi with rfl | hi
    · exact (bounded _ _ hnext).2
    · exact h.inside i hi
  room := by
    have := h.room
    simp only [List.length_cons]
    omega

theorem takeWhile_ne_append_prefix {l : List Nat} {a : Nat} (h : a ∈ l) :
    l.takeWhile (· ≠ a) ++ [a] <+: l := by
  induction l with
  | nil => exact absurd h List.not_mem_nil
  | cons b l ih =>
      by_cases hb : b = a
      · simp [hb]
      · have ha : a ∈ l := (List.mem_cons.1 h).resolve_left (Ne.symm hb)
        simpa [hb] using ih ha

/-- An edge back into the trail closes a cycle. -/
theorem Approach.isCycle {g : Graph} {depth : Nat} {trail : List Nat} {position next : Nat}
    (h : Approach g depth trail position) (hnext : g.Leads position next)
    (hback : next ∈ position :: trail) : g.IsCycle (closeCycle (position :: trail) next) := by
  have hpre := takeWhile_ne_append_prefix hback
  obtain ⟨loop, hloop⟩ : ∃ loop, loop = (position :: trail).takeWhile (· ≠ next) ++ [next] :=
    ⟨_, rfl⟩
  rw [← hloop] at hpre
  have hhead : loop.head? = some position := by
    obtain ⟨rest, hrest⟩ := hpre
    cases loop with
    | nil => simp at hloop
    | cons a loop => simpa using (List.cons.inj hrest).1
  have hlast : loop.getLast? = some next := by simp [hloop]
  rw [closeCycle, ← hloop]
  refine ⟨?_, ?_, ?_, ?_⟩
  · refine List.isChain_append.2 ⟨?_, List.isChain_singleton _, ?_⟩
    · exact List.isChain_reverse.2 <| List.IsChain.prefix h.chain hpre
    · intro a ha b hb
      obtain rfl : position = a := by simpa [hhead] using ha
      obtain rfl : next = b := by simpa using hb
      exact hnext
  · simp [List.head?_append, hlast]
  · have htail : (loop.reverse ++ [next]).tail =
        ((position :: trail).takeWhile (· ≠ next)).reverse ++ [next] := by simp [hloop]
    have hperm : (loop.reverse ++ [next]).tail.Perm loop := by
      rw [htail, hloop]
      exact (List.reverse_perm _).append_right _
    exact hperm.nodup_iff.2 (h.nodup.sublist hpre.sublist)
  · simp only [List.length_append, List.length_reverse, List.length_cons, List.length_nil]
    have : loop ≠ [] := by rintro rfl; simp at hhead
    have := List.length_pos_of_ne_nil this
    omega

/-- What a part of the walk comes to: a cycle, or a longer list of settled positions. -/
def Explored (g : Graph) (finished wanted : List Nat) : Except (List Nat) (List Nat) → Prop
  | .ok after => g.Settled after ∧ finished ⊆ after ∧ wanted ⊆ after
  | .error cycle => g.IsCycle cycle

/-- Parts of a walk that follow each other. -/
theorem explored_foldlM {g : Graph} {visit : List Nat → Nat → Except (List Nat) (List Nat)}
    {wanted finished : List Nat} (settled : g.Settled finished)
    (h : ∀ finished next, next ∈ wanted → g.Settled finished →
      Explored g finished [next] (visit finished next)) :
    Explored g finished wanted (wanted.foldlM visit finished) := by
  induction wanted generalizing finished with
  | nil => exact ⟨settled, fun _ hi => hi, List.nil_subset _⟩
  | cons next wanted ih =>
      have hfirst := h finished next List.mem_cons_self settled
      rw [List.foldlM_cons]
      cases hv : visit finished next with
      | error cycle => rwa [hv] at hfirst
      | ok mid =>
          rw [hv] at hfirst
          obtain ⟨hmid, hsub, hnext⟩ := hfirst
          have hrest := ih hmid fun f n hn => h f n (List.mem_cons_of_mem _ hn)
          rw [ok_bind]
          cases hr : wanted.foldlM visit mid with
          | error cycle => rwa [hr] at hrest
          | ok after =>
              rw [hr] at hrest
              obtain ⟨hafter, hsub', hwanted⟩ := hrest
              refine ⟨hafter, List.Subset.trans hsub hsub', List.cons_subset.2 ⟨?_, hwanted⟩⟩
              exact hsub' (hnext List.mem_cons_self)

/-- What the walk does where an edge leads to `next`, with `trail` behind it. -/
def visit (g : Graph) (depth : Nat) (trail finished : List Nat) (next : Nat) :
    Except (List Nat) (List Nat) :=
  if trail.contains next then .error (closeCycle trail next)
  else if finished.contains next then .ok finished
  else g.walkFrom depth trail finished next

theorem walkFrom_succ (g : Graph) (depth : Nat) (trail finished : List Nat) (position : Nat) :
    g.walkFrom (depth + 1) trail finished position =
      (g.consumers position).foldlM (g.visit depth (position :: trail)) finished >>=
        fun after => .ok (position :: after) := rfl

theorem explored_of_mem {g : Graph} {finished : List Nat} {position : Nat}
    (settled : g.Settled finished) (h : finished.contains position) :
    Explored g finished [position] (.ok finished) :=
  ⟨settled, List.Subset.refl _,
    List.cons_subset.2 ⟨List.contains_iff_mem.1 h, List.nil_subset _⟩⟩

/-- The walk from a position ends with a cycle or settles the position. -/
theorem explored_walkFrom {g : Graph} (bounded : g.Bounded) {depth : Nat}
    {trail finished : List Nat} {position : Nat} (approach : Approach g depth trail position)
    (settled : g.Settled finished) :
    Explored g finished [position] (g.walkFrom depth trail finished position) := by
  induction depth generalizing trail finished position with
  | zero => exact approach.depth_ne_zero.elim
  | succ depth ih =>
      -- Each consumer closes a cycle, has been settled before, or is walked from with one less
      -- depth, for which `Approach` leaves room.
      have hall : Explored g finished (g.consumers position)
          ((g.consumers position).foldlM (g.visit depth (position :: trail)) finished) := by
        apply explored_foldlM settled
        intro finished next hnext settled
        have hleads : g.Leads position next := mem_consumers.1 hnext
        rw [visit]
        split
        · rename_i hback
          exact approach.isCycle hleads (List.contains_iff_mem.1 hback)
        · rename_i hnew
          split
          · rename_i hdone
            exact explored_of_mem settled hdone
          · refine ih (approach.step bounded hleads ?_) settled
            intro hmem
            exact hnew (List.contains_iff_mem.2 hmem)
      rw [walkFrom_succ]
      generalize (g.consumers position).foldlM (g.visit depth (position :: trail)) finished =
        result at hall ⊢
      cases result with
      | error cycle => exact hall
      | ok after =>
          obtain ⟨hafter, hsub, hconsumers⟩ := hall
          refine ⟨⟨fun j hj => hconsumers (mem_consumers.2 hj), hafter⟩, ?_, ?_⟩
          · exact fun i hi => List.mem_cons_of_mem _ (hsub hi)
          · exact List.cons_subset.2 ⟨List.mem_cons_self, List.nil_subset _⟩

theorem explored_findCycle {g : Graph} (bounded : g.Bounded) :
    Explored g [] (List.range g.size) g.findCycle := by
  have settled : g.Settled [] := trivial
  apply explored_foldlM settled
  intro finished position hposition settled
  split
  · rename_i hdone
    exact explored_of_mem settled hdone
  · refine explored_walkFrom bounded
      ⟨List.isChain_singleton _, ?_, ?_, Nat.le_add_right _ _⟩ settled
    · exact List.nodup_cons.2 ⟨List.not_mem_nil, List.nodup_nil⟩
    · intro i hi
      obtain rfl := List.mem_singleton.1 hi
      exact List.mem_range.1 hposition

/-- Along a chain the first position reaches the last one. -/
theorem transGen_of_isChain {r : Nat → Nat → Prop} {a b : Nat} {l : List Nat}
    (chain : (a :: l).IsChain r) (hlast : l.getLast? = some b) : Relation.TransGen r a b := by
  induction l generalizing a with
  | nil => exact absurd hlast (by simp)
  | cons c l ih =>
      obtain ⟨hac, hchain⟩ := List.isChain_cons_cons.1 chain
      cases l with
      | nil =>
          obtain rfl : c = b := by simpa using hlast
          exact .single hac
      | cons d l => exact .head hac (ih hchain (by simpa using hlast))

theorem IsCycle.exists_transGen {g : Graph} {cycle : List Nat} (h : g.IsCycle cycle) :
    ∃ i, Relation.TransGen g.Leads i i := by
  obtain ⟨steps, closed, -, long⟩ := h
  match cycle, long with
  | a :: b :: rest, _ =>
      refine ⟨a, transGen_of_isChain steps ?_⟩
      simpa [List.getLast?_cons_cons] using closed.symm

/-- The walk finds no cycle exactly if there is none. -/
theorem checkAcyclic_eq_ok {g : Graph} (bounded : g.Bounded) :
    g.checkAcyclic = .ok () ↔ ∀ i, ¬ Relation.TransGen g.Leads i i := by
  have explored := explored_findCycle bounded
  rw [checkAcyclic]
  cases hfind : g.findCycle with
  | ok finished =>
      rw [hfind] at explored
      obtain ⟨settled, -, hall⟩ := explored
      refine ⟨?_, fun _ => rfl⟩
      intro _ i cycle
      obtain ⟨j, hij, -⟩ := Relation.TransGen.head'_iff.1 cycle
      exact settled.acyclic (hall (List.mem_range.2 (bounded i j hij).1)) cycle
  | error cycle =>
      rw [hfind] at explored
      obtain ⟨i, hi⟩ := IsCycle.exists_transGen explored
      refine ⟨fun h => absurd h (by simp), fun h => absurd hi (h i)⟩

end ArtifactFlow.Graph
