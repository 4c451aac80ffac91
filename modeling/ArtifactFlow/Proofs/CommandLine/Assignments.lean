import ArtifactFlow.CommandLine.Assignments
import ArtifactFlow.Proofs.Except
import ArtifactFlow.Proofs.Fields

/-!
What becomes of an argument that an assignment gives to one craft. It stands until the same argument
is given again, or until the craft is given a mapping as a whole, which comes in place of all that
was set for it; an assignment that would put anything else in that place is refused.
-/

namespace ArtifactFlow.Assignments

/-- The argument that is set for a craft. -/
def argument? (args : Mapping) (craft name : String) : Option Value :=
  Fields.get? craft args >>= Value.asMapping? >>= Fields.get? name

/-- The assignment is one of `craft.name`, and its word stands for the value. -/
def GivesArgument (assignment craft name : String) (v : Value) : Prop :=
  ∃ key word, parse assignment = .ok (key, word) ∧ scope? key = some (craft, name) ∧
    Value.ofWord word = v

/-- The assignment is one of a key as a whole, and its word stands for the value. -/
def Gives (assignment key : String) (v : Value) : Prop :=
  ∃ chars word, parse assignment = .ok (chars, word) ∧ scope? chars = none ∧
    String.ofList chars = key ∧ Value.ofWord word = v

/-- The last mapping that assignments give to a craft as a whole. -/
def LastWhole (assignments : List String) (craft : String) (fields : Mapping) : Prop :=
  ∃ middle a rest, assignments = middle ++ a :: rest ∧ Gives a craft (.mapping fields) ∧
    ∀ b ∈ rest, ∀ more, ¬ Gives b craft (.mapping more)

variable {args result fields : Mapping} {a craft name key : String} {v : Value}

theorem LastWhole.cons {rest : List String} (h : LastWhole rest craft fields) :
    LastWhole (a :: rest) craft fields := by
  obtain ⟨middle, b, others, rfl, hgives, hnone⟩ := h
  exact ⟨a :: middle, b, others, rfl, hgives, hnone⟩

theorem argument?_of_get? (h : Fields.get? craft args = some (.mapping fields)) :
    argument? args craft name = Fields.get? name fields := by
  rw [argument?, h]
  rfl

theorem setScoped_eq_ok : setScoped args craft name v = .ok result ↔
    ∃ fields, (Fields.get? craft args).getD (.mapping []) = .mapping fields ∧
      Fields.insert craft (.mapping (Fields.insert name v fields)) args = result := by
  rw [setScoped]
  cases (Fields.get? craft args).getD (.mapping []) <;> simp

theorem setPlain_eq_ok : setPlain args key v = .ok result ↔
    (∀ fields, Fields.get? key args = some (.mapping fields) → ∃ given, v = .mapping given) ∧
      Fields.insert key v args = result := by
  rw [setPlain.eq_def]
  split
  · rename_i present given hpresent
    simp [hpresent]
  · rename_i w _ _ present hpresent other
    have refused : ¬ ∃ given, w = .mapping given := fun ⟨given, hw⟩ => other given hw
    exact ⟨nofun, fun ⟨guard, _⟩ => absurd (guard present hpresent) refused⟩
  · rename_i absent _
    rw [Except.ok.injEq]
    exact ⟨fun h => ⟨fun fields hfields => (absent fields hfields).elim, h⟩, And.right⟩

theorem not_givesArgument {chars : List Char} {word : String}
    (hparse : parse a = .ok (chars, word)) (hscope : scope? chars ≠ some (craft, name))
    (v : Value) : ¬ GivesArgument a craft name v := by
  rintro ⟨others, _, hothers, hgiven, -⟩
  obtain ⟨rfl, -⟩ := Prod.mk.inj (Except.ok.inj (hparse.symm.trans hothers))
  exact hscope hgiven

theorem not_gives {chars : List Char} {word : String} (hparse : parse a = .ok (chars, word))
    (hkey : scope? chars = none → String.ofList chars ≠ key) (v : Value) : ¬ Gives a key v := by
  rintro ⟨others, _, hothers, hscope, hgiven, -⟩
  obtain ⟨rfl, -⟩ := Prod.mk.inj (Except.ok.inj (hparse.symm.trans hothers))
  exact hkey hscope hgiven

theorem GivesArgument.add_eq (h : GivesArgument a craft name v) :
    add args a = setScoped args craft name v := by
  obtain ⟨key, word, hparse, hscope, rfl⟩ := h
  rw [add, hparse, ok_bind]
  simp only [hscope]

theorem Gives.add_eq (h : Gives a key v) : add args a = setPlain args key v := by
  obtain ⟨chars, word, hparse, hscope, rfl, rfl⟩ := h
  rw [add, hparse, ok_bind]
  simp only [hscope]

/-- An assignment that is not refused gives an argument to a craft, or a value to a key. -/
theorem gives_of_add (h : add args a = .ok result) :
    (∃ craft name v, GivesArgument a craft name v) ∨ ∃ key v, Gives a key v := by
  obtain ⟨⟨chars, word⟩, hparse, -⟩ := bind_eq_ok.1 h
  cases hscope : scope? chars with
  | none => exact .inr ⟨_, _, chars, word, hparse, hscope, rfl, rfl⟩
  | some scope => exact .inl ⟨scope.1, scope.2, _, chars, word, hparse, hscope, rfl⟩

theorem GivesArgument.get?_add (h : GivesArgument a craft name v)
    (hadd : add args a = .ok result) :
    ∃ fields, Fields.get? craft result = some (.mapping fields) ∧
      Fields.get? name fields = some v := by
  rw [h.add_eq] at hadd
  obtain ⟨fields, -, rfl⟩ := setScoped_eq_ok.1 hadd
  exact ⟨_, Fields.get?_insert_self _ _ _, Fields.get?_insert_self _ _ _⟩

theorem Gives.get?_add (h : Gives a key v) (hadd : add args a = .ok result) :
    Fields.get? key result = some v := by
  rw [h.add_eq] at hadd
  obtain ⟨-, rfl⟩ := setPlain_eq_ok.1 hadd
  exact Fields.get?_insert_self _ _ _

/-- An assignment leaves the arguments of a craft as they are, unless it gives one of them or a
mapping in place of them. -/
theorem get?_add_of_not_gives (hargs : Fields.get? craft args = some (.mapping fields))
    (hadd : add args a = .ok result) (other : ∀ w, ¬ GivesArgument a craft name w)
    (kept : ∀ given, ¬ Gives a craft (.mapping given)) :
    ∃ found, Fields.get? craft result = some (.mapping found) ∧
      Fields.get? name found = Fields.get? name fields := by
  rcases gives_of_add hadd with ⟨c, n, v, hgives⟩ | ⟨k, v, hgives⟩
  · rw [hgives.add_eq] at hadd
    obtain ⟨present, hpresent, rfl⟩ := setScoped_eq_ok.1 hadd
    by_cases hcraft : c = craft
    · subst hcraft
      rw [hargs] at hpresent
      obtain rfl := Value.mapping.inj hpresent
      have hname : n ≠ name := by
        rintro rfl
        exact other v hgives
      exact ⟨_, Fields.get?_insert_self _ _ _, Fields.get?_insert_of_ne hname _ _⟩
    · exact ⟨fields, by rw [Fields.get?_insert_of_ne hcraft, hargs], rfl⟩
  · rw [hgives.add_eq] at hadd
    obtain ⟨guard, rfl⟩ := setPlain_eq_ok.1 hadd
    have hkey : k ≠ craft := by
      rintro rfl
      obtain ⟨given, rfl⟩ := guard fields hargs
      exact kept given hgives
    exact ⟨fields, by rw [Fields.get?_insert_of_ne hkey, hargs], rfl⟩

/-- Through any number of assignments an argument of a craft stays, as long as it is not given
again, or the last mapping for the craft decides. -/
theorem argument?_of_foldlM {assignments : List String}
    (hargs : Fields.get? craft args = some (.mapping fields))
    (h : assignments.foldlM add args = .ok result)
    (last : ∀ b ∈ assignments, ∀ w, ¬ GivesArgument b craft name w) :
    argument? result craft name = Fields.get? name fields ∧
        (∀ b ∈ assignments, ∀ given, ¬ Gives b craft (.mapping given)) ∨
      ∃ given, LastWhole assignments craft given ∧
        argument? result craft name = Fields.get? name given := by
  induction assignments generalizing args fields with
  | nil =>
      obtain rfl := Except.ok.inj h
      exact .inl ⟨argument?_of_get? hargs, nofun⟩
  | cons b rest ih =>
      obtain ⟨next, hadd, hrest⟩ := bind_eq_ok.1 h
      obtain ⟨hb, others⟩ := List.forall_mem_cons.1 last
      by_cases whole : ∃ given, Gives b craft (.mapping given)
      · obtain ⟨given, hgives⟩ := whole
        rcases ih (hgives.get?_add hadd) hrest others with ⟨hkept, hnone⟩ | ⟨later, hlater, hheld⟩
        · exact .inr ⟨given, ⟨[], b, rest, rfl, hgives, hnone⟩, hkept⟩
        · exact .inr ⟨later, hlater.cons, hheld⟩
      · have kept : ∀ given, ¬ Gives b craft (.mapping given) :=
          fun given hgives => whole ⟨given, hgives⟩
        obtain ⟨found, hfound, hsame⟩ := get?_add_of_not_gives hargs hadd hb kept
        rcases ih hfound hrest others with ⟨hkept, hnone⟩ | ⟨later, hlater, hheld⟩
        · exact .inl ⟨hkept.trans hsame, List.forall_mem_cons.2 ⟨kept, hnone⟩⟩
        · exact .inr ⟨later, hlater.cons, hheld⟩

/-- Where a list of assignments is accepted, each argument that one of them gives to a craft, and
none gives again, is there in the end if the craft is not given a mapping as a whole later on; if it
is, then the last such mapping says what the argument is. -/
theorem argument_kept {before after : List String}
    (h : toArgs (before ++ a :: after) = .ok args) (given : GivesArgument a craft name v)
    (last : ∀ b ∈ after, ∀ w, ¬ GivesArgument b craft name w) :
    argument? args craft name = some v ∧
        (∀ b ∈ after, ∀ whole, ¬ Gives b craft (.mapping whole)) ∨
      ∃ fields, LastWhole after craft fields ∧
        argument? args craft name = Fields.get? name fields := by
  rw [toArgs, List.foldlM_append] at h
  obtain ⟨first, -, h⟩ := bind_eq_ok.1 h
  obtain ⟨next, hadd, hrest⟩ := bind_eq_ok.1 h
  obtain ⟨fields, hfields, hvalue⟩ := given.get?_add hadd
  rcases argument?_of_foldlM hfields hrest last with ⟨hkept, hnone⟩ | hlater
  · exact .inl ⟨hkept.trans hvalue, hnone⟩
  · exact .inr hlater

/-- A mapping for the craft that comes first is added to, so that the rate stays. One that comes
later takes the place of what was set, so that the depth is the one in it. -/
theorem argument_kept_training :
    (toArgs ["train=\x7b\"depth\": 1\x7d", "train.rate=2", "seed=7", "train.depth=3"] =
        .ok [("train", .mapping [("depth", .int 3), ("rate", .int 2)]), ("seed", .int 7)] ∧
      argument? [("train", .mapping [("depth", .int 3), ("rate", .int 2)]), ("seed", .int 7)]
        "train" "rate" = some (.int 2)) ∧
    toArgs ["train.depth=2", "train=\x7b\"depth\": 1\x7d", "train.rate=3"] =
        .ok [("train", .mapping [("depth", .int 1), ("rate", .int 3)])] ∧
      ∃ fields, LastWhole ["train=\x7b\"depth\": 1\x7d", "train.rate=3"] "train" fields ∧
        argument? [("train", .mapping [("depth", .int 1), ("rate", .int 3)])] "train" "depth" =
          Fields.get? "depth" fields ∧ Fields.get? "depth" fields = some (.int 1) := by
  have first : toArgs ["train=\x7b\"depth\": 1\x7d", "train.rate=2", "seed=7", "train.depth=3"] =
      .ok [("train", .mapping [("depth", .int 3), ("rate", .int 2)]), ("seed", .int 7)] := rfl
  have later : toArgs ["train.depth=2", "train=\x7b\"depth\": 1\x7d", "train.rate=3"] =
      .ok [("train", .mapping [("depth", .int 1), ("rate", .int 3)])] := rfl
  have rate : GivesArgument "train.rate=2" "train" "rate" (.int 2) := ⟨_, _, rfl, rfl, rfl⟩
  have depth : GivesArgument "train.depth=2" "train" "depth" (.int 2) := ⟨_, _, rfl, rfl, rfl⟩
  have whole : Gives "train=\x7b\"depth\": 1\x7d" "train" (.mapping [("depth", .int 1)]) :=
    ⟨_, _, rfl, rfl, rfl, rfl⟩
  have last : ∀ b ∈ ["seed=7", "train.depth=3"], ∀ w, ¬ GivesArgument b "train" "rate" w := by
    simp only [List.forall_mem_cons]
    exact ⟨not_givesArgument rfl (by decide), not_givesArgument rfl (by decide), nofun⟩
  have plain : ∀ b ∈ ["seed=7", "train.depth=3"], ∀ w, ¬ Gives b "train" w := by
    simp only [List.forall_mem_cons]
    exact ⟨not_gives rfl (by decide), not_gives rfl (by decide), nofun⟩
  have others : ∀ b ∈ ["train=\x7b\"depth\": 1\x7d", "train.rate=3"],
      ∀ w, ¬ GivesArgument b "train" "depth" w := by
    simp only [List.forall_mem_cons]
    exact ⟨not_givesArgument rfl (by decide), not_givesArgument rfl (by decide), nofun⟩
  refine ⟨⟨first, ?_⟩, later, ?_⟩
  · rcases @argument_kept _ _ _ _ _ [_] _ first rate last with ⟨hkept, -⟩ | ⟨_, hwhole, -⟩
    · exact hkept
    · obtain ⟨middle, b, rest, hsplit, hgives, -⟩ := hwhole
      exact absurd hgives (plain b (by rw [hsplit]; simp) _)
  · rcases @argument_kept _ _ _ _ _ [] _ later depth others with ⟨-, hnone⟩ | ⟨fields, hwhole, heq⟩
    · exact absurd whole (hnone _ List.mem_cons_self _)
    · exact ⟨fields, hwhole, heq, heq.symm⟩

/-- An argument is gone where the craft is given a mapping without it later on. -/
theorem not_argument_kept :
    ¬ ∀ (before : List String) (a : String) (after : List String) (args : Mapping)
      (craft name : String) (v : Value), toArgs (before ++ a :: after) = .ok args →
      GivesArgument a craft name v → (∀ b ∈ after, ∀ w, ¬ GivesArgument b craft name w) →
      argument? args craft name = some v := by
  intro hall
  have given : GivesArgument "train.rate=1" "train" "rate" (.int 1) := ⟨_, _, rfl, rfl, rfl⟩
  have last : ∀ b ∈ ["train=\x7b\x7d"], ∀ w, ¬ GivesArgument b "train" "rate" w := by
    simp only [List.forall_mem_cons]
    exact ⟨not_givesArgument rfl (by decide), nofun⟩
  exact nomatch hall [] "train.rate=1" ["train=\x7b\x7d"] [("train", .mapping [])]
    "train" "rate" (.int 1) rfl given last

end ArtifactFlow.Assignments
