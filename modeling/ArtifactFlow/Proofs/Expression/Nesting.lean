import ArtifactFlow.Proofs.Expression.Finality

/-!
The bound on nesting. An evaluation that may nest less deep takes the same course as one that may
nest deeper, up to the point where it has no levels left; there it stops with an error that says so.
So the bound decides whether there is a result, but never which one.
-/

namespace ArtifactFlow.Expression

universe u

variable {α β : Type u}

/-- The first outcome is the second one, unless it says that the bound was reached. -/
def Curtails (x y : Except Fault α) : Prop :=
  x = y ∨ ∃ expression, x = .error (exhausted expression)

theorem Curtails.refl (x : Except Fault α) : Curtails x x :=
  .inl rfl

theorem curtails_exhausted (expression : String) (y : Except Fault α) :
    Curtails (.error (exhausted expression)) y :=
  .inr ⟨expression, rfl⟩

theorem Curtails.eq_ok {x y : Except Fault α} {a : α} (h : Curtails x y) (hx : x = .ok a) :
    y = .ok a := by
  rcases h with rfl | ⟨expression, hbound⟩
  · exact hx
  · exact nomatch hbound.symm.trans hx

theorem Curtails.bind {x y : Except Fault α} {f g : α → Except Fault β} (h : Curtails x y)
    (hrest : ∀ a, Curtails (f a) (g a)) : Curtails (x >>= f) (y >>= g) := by
  rcases h with rfl | ⟨expression, rfl⟩
  · cases x with
    | error e => exact .refl _
    | ok a => exact hrest a
  · exact curtails_exhausted expression _

section Rendering

variable {bind other : Binder} (h : ∀ p, Curtails (bind p) (other p))
include h

theorem curtails_concat (segments : List Segment) :
    Curtails (concat bind segments) (concat other segments) := by
  induction segments with
  | nil => exact .refl _
  | cons segment rest ih =>
      cases segment with
      | literal text => exact ih.bind fun _ => .refl _
      | placeholder p => exact (h p).bind fun _ => ih.bind fun _ => .refl _

theorem curtails_renderText (text : String) :
    Curtails (renderText bind text) (renderText other text) := by
  refine (Curtails.refl (Segment.parse text)).bind fun segments => ?_
  split
  · exact (h _).bind fun _ => .refl _
  · exact (curtails_concat h segments).bind fun _ => .refl _

end Rendering

section Substitution

variable {resolve other : Placeholder → Except Fault Value}
  (h : ∀ p, Curtails (resolve p) (other p))
include h

theorem curtails_substitutePass (done : String) (segments : List Segment) :
    Curtails (substitutePass resolve done segments) (substitutePass other done segments) := by
  induction segments generalizing done with
  | nil => exact .refl _
  | cons segment rest ih =>
      cases segment with
      | literal text => exact ih _
      | placeholder p =>
          refine (h p).bind fun v => ?_
          split
          · exact .refl _
          · exact ih _

theorem curtails_substitute (expression : String) (passes : Nat) (text : String) :
    Curtails (substitute resolve expression passes text)
      (substitute other expression passes text) := by
  induction passes generalizing text with
  | zero =>
      rw [substitute.eq_def, substitute.eq_def other]
      exact .refl _
  | succ passes ih =>
      rw [substitute.eq_def, substitute.eq_def other]
      refine (Curtails.refl (Segment.parse text)).bind fun segments => ?_
      split
      · exact .refl _
      · refine (curtails_substitutePass h "" segments).bind fun next => ?_
        cases next with
        | none => exact .refl _
        | some next =>
            dsimp only
            split
            · exact .refl _
            · exact ih next

end Substitution

theorem curtails_settle {render other : String → Except Fault Value}
    (h : ∀ s, Curtails (render s) (other s)) (expression : String) (passes : Nat) (v : Value) :
    Curtails (settle render expression passes v) (settle other expression passes v) := by
  induction passes generalizing v with
  | zero =>
      rw [settle.eq_def, settle.eq_def other]
      split
      · exact .refl _
      · exact .refl _
  | succ passes ih =>
      rw [settle.eq_def, settle.eq_def other]
      split
      · split
        · exact .refl _
        · refine (h _).bind fun rendered => ?_
          split
          · split
            · exact .refl _
            · exact ih _
          · exact .refl _
      · exact .refl _

theorem curtails_resolve (scope : Scope) {expression other : String → Except Fault Value}
    (h : ∀ body, Curtails (expression body) (other body)) (p : Placeholder) :
    Curtails (resolve scope expression p) (resolve scope other p) := by
  rw [resolve, resolve]
  cases p.kind with
  | static | dynamic => exact .refl _
  | expression => exact h p.body

/-- With fewer levels an evaluation comes to the same, or it runs out of them. -/
theorem curtails_evaluateWithin (scope : Scope) {fewer more : Nat} (h : fewer ≤ more)
    (body : String) : Curtails (evaluateWithin scope fewer body) (evaluateWithin scope more body) := by
  induction fewer generalizing more body with
  | zero => exact curtails_exhausted body _
  | succ fewer ih =>
      obtain ⟨more, rfl⟩ := Nat.exists_eq_add_of_lt h
      have hresolve := curtails_resolve scope (ih (Nat.le_add_right fewer more))
      refine (curtails_substitute hresolve body maxRounds body).bind fun substituted => ?_
      cases substituted with
      | none => exact .refl _
      | some text =>
          refine (Curtails.refl (applyChain scope body (Text.trimString text))).bind fun v => ?_
          refine curtails_settle (fun s => ?_) body maxRounds v
          exact curtails_renderText (fun p => (hresolve p).bind fun _ => .refl _) s

/-- The evaluation of a body that stands `depth` levels below the outermost one. -/
def evaluateAt (scope : Scope) (depth : Nat) (body : String) : Except Fault Value :=
  evaluateWithin scope (maxRounds - depth) body

variable {scope : Scope} {depth : Nat}

theorem evaluateAt_zero (scope : Scope) (body : String) :
    evaluateAt scope 0 body = evaluate scope body := rfl

/-- Nothing is evaluated as deep as the bound or deeper. -/
theorem evaluateAt_of_le (h : maxRounds ≤ depth) (body : String) :
    evaluateAt scope depth body = .error (exhausted body) := by
  rw [evaluateAt, Nat.sub_eq_zero_of_le h]
  rfl

/-- Expressions in a body, and those in a text that it leads to, stand one level deeper. -/
theorem evaluateAt_of_lt (h : depth < maxRounds) (body : String) :
    evaluateAt scope depth body = (do
      let resolve := resolve scope (evaluateAt scope (depth + 1))
      match ← substitute resolve body maxRounds body with
      | none => return .null
      | some text =>
          let v ← applyChain scope body (Text.trimString text)
          settle (renderText fun p => return some (← resolve p)) body maxRounds v) := by
  obtain ⟨left, hleft⟩ : ∃ left, maxRounds - depth = left + 1 :=
    ⟨maxRounds - depth - 1, by omega⟩
  have hdeeper : evaluateAt scope (depth + 1) = evaluateWithin scope left := by
    funext inner
    rw [evaluateAt, ← Nat.sub_sub, hleft, Nat.add_sub_cancel]
  rw [evaluateAt, hleft, hdeeper]
  rfl

/-- A body that has a value has the same one at every level that is less deep. What a deeper level
adds is the error of the bound and no other outcome. -/
theorem evaluateAt_shallower (scope : Scope) (body : String) {shallow deep : Nat}
    (h : shallow ≤ deep) :
    (∀ v, evaluateAt scope deep body = .ok v → evaluateAt scope shallow body = .ok v) ∧
      (evaluateAt scope deep body = evaluateAt scope shallow body ∨
        ∃ expression, evaluateAt scope deep body = .error (exhausted expression)) := by
  have hcurtails : Curtails (evaluateAt scope deep body) (evaluateAt scope shallow body) :=
    curtails_evaluateWithin scope (Nat.sub_le_sub_left h maxRounds) body
  exact ⟨fun v hv => hcurtails.eq_ok hv, hcurtails⟩

/-- Countries by code, and capitals by country. -/
def atlasScope : Scope :=
  ⟨⟨[("country", .mapping [("fr", .string "france")]),
    ("capital", .mapping [("france", .string "Paris")])], []⟩, [("code", .string "fr")], "atlas"⟩

/-- Two levels are left at depth six, which is what this body needs; one level is not enough. -/
theorem evaluateAt_shallower_atlas :
    evaluateAt atlasScope 6 "capital[+\x7b country[!\x7b code \x7d] \x7d+]" =
        .ok (.string "Paris") ∧
      evaluateAt atlasScope 2 "capital[+\x7b country[!\x7b code \x7d] \x7d+]" =
        .ok (.string "Paris") ∧
      ∃ expression,
        evaluateAt atlasScope 7 "capital[+\x7b country[!\x7b code \x7d] \x7d+]" =
          .error (exhausted expression) := by
  have hdeep : evaluateAt atlasScope 6 "capital[+\x7b country[!\x7b code \x7d] \x7d+]" =
      .ok (.string "Paris") := eq_ok_string (by decide +kernel)
  have hnone : (evaluateAt atlasScope 7
      "capital[+\x7b country[!\x7b code \x7d] \x7d+]").toOption.isNone := by
    decide +kernel
  refine ⟨hdeep, (evaluateAt_shallower atlasScope _ (by decide)).1 _ hdeep, ?_⟩
  rcases (evaluateAt_shallower atlasScope _ (by decide : 6 ≤ 7)).2 with hsame | hbound
  · rw [hsame, hdeep] at hnone
    exact nomatch hnone
  · exact hbound

end ArtifactFlow.Expression
