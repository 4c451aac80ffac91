import ArtifactFlow.Fields
import ArtifactFlow.Proofs.Except

/-!
Maps as lists of entries: which entries a lookup finds, and what insertion does to lookups, keys
and order. Where keys are distinct an entry is found exactly if it is there.
-/

namespace ArtifactFlow.Fields

variable {α : Type u}

theorem get?_eq_none_iff {key : String} {fields : Fields α} :
    get? key fields = none ↔ key ∉ keys fields := by
  induction fields with
  | nil => simp [keys]
  | cons entry rest ih =>
      obtain ⟨k, v⟩ := entry
      by_cases h : k = key
      · simp [get?, keys, h]
      · simpa [get?, keys, h, Ne.symm h] using ih

theorem mem_keys_iff {key : String} {fields : Fields α} :
    key ∈ keys fields ↔ ∃ value, get? key fields = some value := by
  rw [← Option.isSome_iff_exists, ← Option.ne_none_iff_isSome, ne_eq, get?_eq_none_iff,
    Decidable.not_not]

theorem contains_iff {key : String} {fields : Fields α} :
    contains key fields ↔ ∃ value, get? key fields = some value := by
  rw [contains, Option.isSome_iff_exists]

/-- A map has an entry for each of its keys, so that it is no shorter than a list of some. -/
theorem length_le_of_contains {names : List String} {fields : Fields α} (nodup : names.Nodup)
    (inside : ∀ name ∈ names, contains name fields) : names.length ≤ fields.length := by
  have hsub : names ⊆ keys fields := fun name hmem =>
    mem_keys_iff.2 (contains_iff.1 (inside name hmem))
  simpa [keys] using nodup.length_le_of_subset hsub

theorem mem_of_get?_eq_some {key : String} {value : α} {fields : Fields α}
    (h : get? key fields = some value) : (key, value) ∈ fields := by
  induction fields with
  | nil => exact absurd h (by simp)
  | cons entry rest ih =>
      obtain ⟨k, v⟩ := entry
      by_cases hk : k = key
      · obtain rfl : v = value := by simpa [get?, hk] using h
        simp [hk]
      · exact List.mem_cons_of_mem _ (ih (by simpa [get?, hk] using h))

theorem get?_eq_some_iff {key : String} {value : α} {fields : Fields α}
    (distinct : Distinct fields) : get? key fields = some value ↔ (key, value) ∈ fields := by
  refine ⟨mem_of_get?_eq_some, ?_⟩
  intro h
  induction fields with
  | nil => exact absurd h (by simp)
  | cons entry rest ih =>
      obtain ⟨k, v⟩ := entry
      obtain ⟨hk, hrest⟩ := List.nodup_cons.1 distinct
      rcases List.mem_cons.1 h with heq | hmem
      · obtain ⟨rfl, rfl⟩ := Prod.mk.inj heq
        simp [get?]
      · have hne : k ≠ key := by
          rintro rfl
          exact hk (List.mem_map.2 ⟨(k, value), hmem, rfl⟩)
        simpa [get?, hne] using ih hrest hmem

theorem distinct_snoc {key : String} {value : α} {fields : Fields α} :
    Distinct (fields ++ [(key, value)]) ↔ Distinct fields ∧ key ∉ keys fields := by
  simp only [Distinct, keys, List.map_append, List.map_cons, List.map_nil, List.nodup_append]
  constructor
  · rintro ⟨h, -, hne⟩
    exact ⟨h, fun hmem => hne key hmem key List.mem_cons_self rfl⟩
  · rintro ⟨h, hnew⟩
    refine ⟨h, List.nodup_cons.2 ⟨List.not_mem_nil, List.nodup_nil⟩, ?_⟩
    rintro k hk _ hmem rfl
    obtain rfl := List.mem_singleton.1 hmem
    exact hnew hk

/-- A new key goes to the end. -/
theorem insert_of_get?_eq_none {key : String} {fields : Fields α}
    (h : get? key fields = none) (value : α) :
    insert key value fields = fields ++ [(key, value)] := by
  induction fields with
  | nil => rfl
  | cons entry rest ih =>
      obtain ⟨k, v⟩ := entry
      by_cases hk : k = key
      · exact absurd h (by simp [get?, hk])
      · simp [insert, hk, ih (by simpa [get?, hk] using h)]

theorem get?_insert (key other : String) (value : α) (fields : Fields α) :
    get? other (insert key value fields) =
      if key = other then some value else get? other fields := by
  split
  · rename_i h
    rw [← h, get?_insert_self]
  · rename_i h
    exact get?_insert_of_ne h value fields

theorem get?_mapValues {β : Type v} (f : α → β) (key : String) (fields : Fields α) :
    get? key (mapValues f fields) = (get? key fields).map f := by
  induction fields with
  | nil => rfl
  | cons entry rest ih =>
      obtain ⟨k, v⟩ := entry
      by_cases hk : k = key
      · simp [mapValues, get?, hk]
      · simpa [mapValues, get?, hk] using ih

/-- A pass over the entries of a map, one after another, keeps each value under its key. -/
theorem get?_traversed {β : Type v} {ε : Type w} {f : String → α → Except ε β}
    {pass : Fields α → Except ε (Fields β)}
    (cons : ∀ key value rest, pass ((key, value) :: rest) =
      f key value >>= fun found => pass rest >>= fun others => .ok ((key, found) :: others))
    {fields : Fields α} {out : Fields β} {key : String} {value : α} (h : pass fields = .ok out)
    (hvalue : get? key fields = some value) :
    ∃ found, get? key out = some found ∧ f key value = .ok found := by
  induction fields generalizing out with
  | nil => exact nomatch hvalue
  | cons entry rest ih =>
      obtain ⟨k, other⟩ := entry
      rw [cons] at h
      obtain ⟨found, hfound, h⟩ := bind_eq_ok.1 h
      obtain ⟨others, hothers, h⟩ := bind_eq_ok.1 h
      obtain rfl := Except.ok.inj h
      rw [get?] at hvalue ⊢
      by_cases hk : k = key
      · rw [if_pos hk] at hvalue ⊢
        subst hk
        obtain rfl := Option.some.inj hvalue
        exact ⟨found, rfl, hfound⟩
      · rw [if_neg hk] at hvalue ⊢
        exact ih hothers hvalue

theorem get?_insertSorted (key other : String) (value : α) (fields : Fields α) :
    get? other (insertSorted key value fields) =
      if key = other then some value else get? other fields := by
  induction fields with
  | nil => rfl
  | cons entry rest ih =>
      obtain ⟨k, v⟩ := entry
      rw [insertSorted]
      by_cases hk : k = key
      · simp only [hk, if_true, get?]
        split <;> rfl
      · by_cases hlt : key < k
        · simp only [hk, hlt, if_false, if_true, get?]
        · simp only [hk, hlt, if_false, get?, ih]
          by_cases hother : k = other
          · have hkey : key ≠ other := fun h => hk (hother.trans h.symm)
            simp only [hother, hkey, if_true, if_false]
          · simp only [hother, if_false]

theorem get?_append (key : String) (first second : Fields α) :
    get? key (first ++ second) = (get? key first).or (get? key second) := by
  induction first with
  | nil => rfl
  | cons entry rest ih =>
      obtain ⟨k, v⟩ := entry
      by_cases hk : k = key
      · simp [get?, hk]
      · simpa [get?, hk] using ih

theorem distinct_insert {key : String} {fields : Fields α} (distinct : Distinct fields)
    (value : α) : Distinct (insert key value fields) := by
  induction fields with
  | nil => exact List.nodup_cons.2 ⟨List.not_mem_nil, List.nodup_nil⟩
  | cons entry rest ih =>
      obtain ⟨k, v⟩ := entry
      obtain ⟨hk, hrest⟩ := List.nodup_cons.1 distinct
      by_cases hkey : k = key
      · rwa [insert, if_pos hkey]
      · rw [insert, if_neg hkey]
        refine List.nodup_cons.2 ⟨?_, ih hrest⟩
        rw [← keys, ← get?_eq_none_iff] at hk ⊢
        rwa [get?_insert_of_ne (Ne.symm hkey)]

theorem keys_insert (key : String) (value : α) (fields : Fields α) :
    keys (insert key value fields) =
      if key ∈ keys fields then keys fields else keys fields ++ [key] := by
  induction fields with
  | nil => rfl
  | cons entry rest ih =>
      obtain ⟨k, v⟩ := entry
      by_cases hk : k = key
      · simp [insert, keys, hk]
      · have hkey : key ∈ keys ((k, v) :: rest) ↔ key ∈ keys rest := by
          simp [keys, Ne.symm hk]
        rw [insert, if_neg hk]
        simp only [hkey]
        change k :: keys (insert key value rest) = _
        rw [ih]
        split <;> rfl

theorem erase_sublist (key : String) (fields : Fields α) :
    List.Sublist (erase key fields) fields := by
  induction fields with
  | nil => exact .slnil
  | cons entry rest ih =>
      obtain ⟨k, v⟩ := entry
      rw [erase]
      split
      · exact List.sublist_cons_self _ _
      · exact ih.cons_cons (k, v)

theorem distinct_erase (key : String) {fields : Fields α} (distinct : Distinct fields) :
    Distinct (erase key fields) :=
  have hkeys : List.Sublist (keys (erase key fields)) (keys fields) :=
    (erase_sublist key fields).map Prod.fst
  List.Nodup.sublist hkeys distinct

theorem insert_insert_self (key : String) (value replaced : α) (fields : Fields α) :
    insert key value (insert key replaced fields) = insert key value fields := by
  induction fields with
  | nil => simp [insert]
  | cons entry rest ih =>
      obtain ⟨k, v⟩ := entry
      by_cases hk : k = key
      · simp [insert, hk]
      · simp [insert, hk, ih]

/-- Where a key is there, its value can be replaced before or after another insertion. -/
theorem insert_insert_of_mem {key other : String} {fields : Fields α} (hmem : key ∈ keys fields)
    (hne : other ≠ key) (value second : α) : insert other second (insert key value fields) =
      insert key value (insert other second fields) := by
  induction fields with
  | nil => exact nomatch hmem
  | cons entry rest ih =>
      obtain ⟨k, v⟩ := entry
      by_cases hk : k = key
      · subst hk
        simp [insert, hne.symm]
      · have hrest : key ∈ keys rest := by simpa [keys, Ne.symm hk] using hmem
        by_cases hother : k = other
        · simp [insert, hother, hne]
        · simp [insert, hk, hother, ih hrest]

/-- Every key has the same value in both maps. -/
def Agree (f g : Fields α) : Prop :=
  ∀ key, get? key f = get? key g

/-- A map is determined by the order of its keys and the value under each of them. -/
theorem eq_of_keys_eq {f g : Fields α} (distinct : Distinct f) (hkeys : keys f = keys g)
    (agree : f.Agree g) : f = g := by
  induction f generalizing g with
  | nil => exact (List.map_eq_nil_iff.1 hkeys.symm).symm
  | cons entry rest ih =>
      obtain ⟨k, v⟩ := entry
      obtain ⟨hk, hrest⟩ := List.nodup_cons.1 distinct
      cases g with
      | nil => exact nomatch hkeys
      | cons other more =>
          obtain ⟨k', w⟩ := other
          obtain ⟨rfl, hmore⟩ : k = k' ∧ keys rest = keys more := by
            simpa [keys] using hkeys
          have hvalue : v = w := by simpa [get?] using agree k
          have hagree : Agree rest more := by
            intro key
            by_cases heq : k = key
            · subst heq
              rw [get?_eq_none_iff.2 hk, get?_eq_none_iff.2 (hmore ▸ hk)]
            · simpa [get?, heq] using agree key
          rw [hvalue, ih hrest hmore hagree]

theorem Agree.insertAll {f g : Fields α} (agree : f.Agree g) (source : Fields α) :
    (insertAll f source).Agree (insertAll g source) := by
  induction source generalizing f g with
  | nil => exact agree
  | cons entry rest ih =>
      refine ih fun key => ?_
      rw [get?_insert, get?_insert, agree]

/-- Of the entries that come in under a key the last one is found, whether keys are distinct or
not. -/
theorem get?_insertAll_reverse (into source : Fields α) (key : String) :
    get? key (insertAll into source) = (get? key source.reverse).or (get? key into) := by
  induction source generalizing into with
  | nil => rfl
  | cons entry rest ih =>
      obtain ⟨k, v⟩ := entry
      refine (ih _).trans ?_
      rw [get?_insert, List.reverse_cons, get?_append, Option.or_assoc]
      congr 1
      by_cases hkey : k = key <;> simp [get?, hkey]

/-- Where keys are distinct it makes no difference which entry of a key comes first. -/
theorem get?_reverse {fields : Fields α} (distinct : Distinct fields) (key : String) :
    get? key fields.reverse = get? key fields := by
  have reversed : Distinct fields.reverse :=
    ((List.reverse_perm fields).map Prod.fst).nodup_iff.2 distinct
  refine Option.ext fun value => ?_
  rw [get?_eq_some_iff reversed, get?_eq_some_iff distinct, List.mem_reverse]

theorem get?_insertAll (into : Fields α) {source : Fields α} (distinct : Distinct source)
    (key : String) : get? key (insertAll into source) = (get? key source).or (get? key into) := by
  rw [get?_insertAll_reverse, get?_reverse distinct]

theorem insertAll_insert_of_mem {key : String} {into source : Fields α} (hinto : key ∈ keys into)
    (hsource : key ∉ keys source) (value : α) :
    insertAll (insert key value into) source = insert key value (insertAll into source) := by
  induction source generalizing into with
  | nil => rfl
  | cons entry rest ih =>
      obtain ⟨k, v⟩ := entry
      obtain ⟨hne, hrest⟩ : key ≠ k ∧ key ∉ keys rest := by simpa [keys] using hsource
      have hthere : key ∈ keys (insert k v into) := by
        rw [keys_insert]
        split
        · exact hinto
        · exact List.mem_append_left [k] hinto
      change insertAll (insert k v (insert key value into)) rest = _
      rw [insert_insert_of_mem hinto hne.symm]
      exact ih hthere hrest

theorem insertAll_insert (into : Fields α) {source : Fields α} (distinct : Distinct source)
    (key : String) (value : α) :
    insertAll into (insert key value source) = insert key value (insertAll into source) := by
  induction source generalizing into with
  | nil => rfl
  | cons entry rest ih =>
      obtain ⟨k, v⟩ := entry
      obtain ⟨hk, hrest⟩ := List.nodup_cons.1 distinct
      by_cases hkey : k = key
      · subst hkey
        have hthere : k ∈ keys (insert k v into) :=
          mem_keys_iff.2 ⟨v, get?_insert_self k v into⟩
        calc insertAll into (insert k value ((k, v) :: rest))
            = insertAll (insert k value into) rest := by rw [insert, if_pos rfl]; rfl
          _ = insertAll (insert k value (insert k v into)) rest := by rw [insert_insert_self]
          _ = insert k value (insertAll into ((k, v) :: rest)) :=
              insertAll_insert_of_mem hthere hk value
      · rw [insert, if_neg hkey]
        exact ih (insert k v into) hrest

/-- Three maps can be laid over one another from either end. -/
theorem insertAll_insertAll (into : Fields α) {middle : Fields α} (distinct : Distinct middle)
    (source : Fields α) :
    insertAll into (insertAll middle source) = insertAll (insertAll into middle) source := by
  induction source generalizing middle with
  | nil => rfl
  | cons entry rest ih =>
      obtain ⟨k, v⟩ := entry
      have h : insertAll into (insertAll (insert k v middle) rest) = _ :=
        ih (distinct_insert distinct v)
      rw [insertAll_insert into distinct] at h
      exact h

/-- New keys come in as they are. -/
theorem insertAll_eq_append {into source : Fields α} (distinct : Distinct (into ++ source)) :
    insertAll into source = into ++ source := by
  induction source generalizing into with
  | nil => exact (List.append_nil into).symm
  | cons entry rest ih =>
      obtain ⟨k, v⟩ := entry
      rw [List.append_cons] at distinct ⊢
      have hfront : Distinct (into ++ [(k, v)]) :=
        List.Nodup.sublist ((List.sublist_append_left _ rest).map Prod.fst) distinct
      have hnew : get? k into = none := get?_eq_none_iff.2 (distinct_snoc.1 hfront).2
      change insertAll (insert k v into) rest = _
      rw [insert_of_get?_eq_none hnew]
      exact ih distinct

end ArtifactFlow.Fields
