/-!
Steps that may fail, one after another. These lemmas take a chain of steps apart at the point where
it succeeded or stopped; proofs about such chains need nothing else of `Except`.
-/

namespace ArtifactFlow

universe u v w

variable {ε : Type u} {α β σ : Type v}

theorem bind_eq_ok {x : Except ε α} {f : α → Except ε β} {b : β} :
    x >>= f = .ok b ↔ ∃ a, x = .ok a ∧ f a = .ok b := by
  cases x <;> simp [bind, Except.bind]

theorem bind_eq_error {x : Except ε α} {f : α → Except ε β} {e : ε} :
    x >>= f = .error e ↔ x = .error e ∨ ∃ a, x = .ok a ∧ f a = .error e := by
  cases x <;> simp [bind, Except.bind]

theorem map_eq_ok {x : Except ε α} {f : α → β} {b : β} :
    x.map f = .ok b ↔ ∃ a, x = .ok a ∧ f a = b := by
  cases x <;> simp [Except.map]

theorem map_eq_error {x : Except ε α} {f : α → β} {e : ε} : x.map f = .error e ↔ x = .error e := by
  cases x <;> simp [Except.map]

theorem mapError_eq_ok {ω : Type u} {x : Except ε α} {f : ε → ω} {a : α} :
    x.mapError f = .ok a ↔ x = .ok a := by
  cases x with
  | ok b =>
      change (Except.ok b : Except ω α) = .ok a ↔ _
      rw [Except.ok.injEq, Except.ok.injEq]
  | error source => exact ⟨nofun, nofun⟩

theorem mapError_eq_error {ω : Type u} {x : Except ε α} {f : ε → ω} {e : ω} :
    x.mapError f = .error e ↔ ∃ source, x = .error source ∧ f source = e := by
  cases x with
  | ok b => exact ⟨nofun, nofun⟩
  | error source =>
      change (Except.error (f source) : Except ω α) = .error e ↔ _
      simp

@[simp] theorem ok_bind (a : α) (f : α → Except ε β) : (Except.ok a >>= f) = f a := rfl

@[simp] theorem error_bind (e : ε) (f : α → Except ε β) :
    (Except.error e >>= f) = Except.error e := rfl

@[simp] theorem pure_eq_ok (a : α) : (pure a : Except ε α) = .ok a := rfl

theorem toOption_bind (x : Except ε α) (f : α → Except ε β) :
    (x >>= f).toOption = x.toOption >>= fun a => (f a).toOption := by
  cases x <;> rfl

/-- Whether a fold succeeds, and with what, is known from whether each of its steps does. -/
theorem toOption_foldlM (f : σ → α → Except ε σ) (l : List α) (s : σ) :
    (l.foldlM f s).toOption = l.foldlM (fun s a => (f s a).toOption) s := by
  induction l generalizing s with
  | nil => rfl
  | cons a l ih =>
      rw [List.foldlM_cons, List.foldlM_cons, toOption_bind]
      congr 1
      funext t
      exact ih t

theorem foldlM_flatMap (f : σ → β → Except ε σ) (g : α → List β) (l : List α) (s : σ) :
    (l.flatMap g).foldlM f s = l.foldlM (fun s a => (g a).foldlM f s) s := by
  induction l generalizing s with
  | nil => rfl
  | cons a l ih => simp only [List.flatMap_cons, List.foldlM_append, List.foldlM_cons, ih]

/-- A fold that stops was stopped by one of its steps. -/
theorem exists_of_foldlM_eq_error {f : σ → α → Except ε σ} {l : List α} {s : σ} {e : ε}
    (h : l.foldlM f s = .error e) : ∃ t, ∃ a ∈ l, f t a = .error e := by
  induction l generalizing s with
  | nil => exact absurd h (by simp)
  | cons a l ih =>
      cases bind_eq_error.1 h with
      | inl hfirst => exact ⟨s, a, List.mem_cons_self, hfirst⟩
      | inr hrest =>
          obtain ⟨mid, -, hrest⟩ := hrest
          obtain ⟨t, b, hb, hstep⟩ := ih hrest
          exact ⟨t, b, List.mem_cons_of_mem a hb, hstep⟩

theorem foldlM_congr {m : Type v → Type w} [Monad m] {f g : σ → α → m σ} {l : List α} {s : σ}
    (h : ∀ s, ∀ a ∈ l, f s a = g s a) : l.foldlM f s = l.foldlM g s := by
  induction l generalizing s with
  | nil => rfl
  | cons a l ih =>
      simp only [List.foldlM_cons, h s a List.mem_cons_self]
      congr 1
      funext t
      exact ih fun s b hb => h s b (List.mem_cons_of_mem a hb)

theorem forM_congr {f g : α → Except ε PUnit} {l : List α} (h : ∀ a ∈ l, f a = g a) :
    l.forM f = l.forM g := by
  induction l with
  | nil => rfl
  | cons a l ih =>
      change (f a >>= fun _ => l.forM f) = (g a >>= fun _ => l.forM g)
      rw [h a List.mem_cons_self, ih fun b hb => h b (List.mem_cons_of_mem a hb)]

/-- A check of every element passes exactly if none of them fails it. -/
theorem forM_eq_ok {f : α → Except ε PUnit} {l : List α} :
    l.forM f = .ok ⟨⟩ ↔ ∀ a ∈ l, f a = .ok ⟨⟩ := by
  induction l with
  | nil => simp
  | cons a l ih =>
      change (f a >>= fun _ => l.forM f) = .ok ⟨⟩ ↔ _
      simp only [bind_eq_ok, ih, List.forall_mem_cons]
      exact ⟨fun ⟨_, h⟩ => h, fun h => ⟨⟨⟩, h⟩⟩

theorem exists_of_forM_eq_error {f : α → Except ε PUnit} {l : List α} {e : ε}
    (h : l.forM f = .error e) : ∃ a ∈ l, f a = .error e := by
  induction l with
  | nil => cases h
  | cons a l ih =>
      rcases bind_eq_error.1 h with hfirst | ⟨_, -, hrest⟩
      · exact ⟨a, List.mem_cons_self, hfirst⟩
      · obtain ⟨b, hb, hstep⟩ := ih hrest
        exact ⟨b, List.mem_cons_of_mem a hb, hstep⟩

/-- If a step fails, then with an error of some kind. -/
def FailsWith (kind : ε → Prop) (x : Except ε α) : Prop :=
  ∀ e, x = .error e → kind e

variable {kind : ε → Prop} {x : Except ε α}

@[simp] theorem failsWith_ok (a : α) : FailsWith kind (.ok a) := by
  intro e h
  cases h

@[simp] theorem failsWith_error {e : ε} : FailsWith kind (.error e : Except ε α) ↔ kind e := by
  simp [FailsWith]

theorem FailsWith.mono {other : ε → Prop} (h : FailsWith kind x)
    (hsub : ∀ e, kind e → other e) : FailsWith other x :=
  fun e he => hsub e (h e he)

theorem FailsWith.bind {f : α → Except ε β} (h : FailsWith kind x)
    (hf : ∀ a, FailsWith kind (f a)) : FailsWith kind (x >>= f) := by
  intro e he
  rcases bind_eq_error.1 he with hx | ⟨a, -, ha⟩
  · exact h e hx
  · exact hf a e ha

theorem FailsWith.foldlM {f : σ → α → Except ε σ} (h : ∀ s a, FailsWith kind (f s a))
    (l : List α) (s : σ) : FailsWith kind (l.foldlM f s) := by
  intro e he
  obtain ⟨t, a, -, hstep⟩ := exists_of_foldlM_eq_error he
  exact h t a e hstep

end ArtifactFlow
