import Mathlib.Data.Finmap

namespace FailureFabric.Library

/-!
# Unordered maps

A hash map with unspecified iteration order is a finite map: a `Finmap` whose value type does
not depend on the key.  Two maps are equal exactly when they have the same lookups, and an
iteration is any list that holds each entry once.

* `UnorderedMap.lookup_insert'` — the one lookup rule, as an `if`;
* `UnorderedMap.Iterates` — `l` is an order in which the map may be iterated;
* `UnorderedMap.insertAll` — insert a list of entries in order; doing so with any iteration of a
  map rebuilds the map (`Iterates.insertAll_eq`);
* `exists_last_of_lookup_insertAll` — of several entries with one key the last one stays;
* `exists_of_lookup_made`, `lookup_made`, `size_made` — the map made of a list with distinct keys;
* `exists_two_of_size`, `Iterates.swap` — a map of two entries or more has more than one order;
* `Iterates.perm_map` — iterations of maps with the same lookups are permutations.
-/

/-- A finite map from `κ` to `α` without an order. -/
abbrev UnorderedMap (κ α : Type) := Finmap (fun _ : κ => α)

/-- An entry of a map. -/
abbrev Entry (κ α : Type) := Sigma (fun _ : κ => α)

namespace UnorderedMap

variable {κ α β : Type}

/-- The number of entries. -/
def size (m : UnorderedMap κ α) : Nat := m.entries.card

/-- `l` lists every entry of `m` exactly once. -/
def Iterates (l : List (Entry κ α)) (m : UnorderedMap κ α) : Prop :=
  (l : Multiset (Entry κ α)) = m.entries

theorem iterates_nil : Iterates [] (∅ : UnorderedMap κ α) := rfl

theorem Iterates.length_eq {l : List (Entry κ α)} {m : UnorderedMap κ α} (h : Iterates l m) :
    l.length = m.size := by
  rw [size, ← h, Multiset.coe_card]

theorem Iterates.nodupKeys {l : List (Entry κ α)} {m : UnorderedMap κ α} (h : Iterates l m) :
    l.NodupKeys := by
  have hm := m.nodupKeys
  rw [← h] at hm
  exact Multiset.coe_nodupKeys.mp hm

/-- No key is listed twice. -/
theorem Iterates.nodup_map_fst {l : List (Entry κ α)} {m : UnorderedMap κ α}
    (h : Iterates l m) : (l.map Sigma.fst).Nodup := h.nodupKeys

/-- A list that gives every element its own key has no repeated keys. -/
theorem nodupKeys_map {l : List β} {f : β → Entry κ α} (h : (l.map (fun b => (f b).1)).Nodup) :
    (l.map f).NodupKeys := by
  unfold List.NodupKeys
  rw [List.keys, List.map_map]
  exact h

/-- Changing the values leaves the keys. -/
theorem Iterates.nodupKeys_map {l : List (Entry κ α)} {m : UnorderedMap κ α} (h : Iterates l m)
    (f : α → β) : (l.map (fun e => (⟨e.1, f e.2⟩ : Entry κ β))).NodupKeys :=
  UnorderedMap.nodupKeys_map h.nodupKeys

/-- Every map can be iterated. -/
theorem exists_iterates (m : UnorderedMap κ α) : ∃ l, Iterates l m :=
  Quot.exists_rep m.entries

/-- Of an order of iteration the first two entries may change places. -/
theorem Iterates.swap {e e' : Entry κ α} {l : List (Entry κ α)} {m : UnorderedMap κ α}
    (h : Iterates (e :: e' :: l) m) : Iterates (e' :: e :: l) m :=
  (Multiset.coe_eq_coe.mpr (List.Perm.swap e e' l)).trans h

/-- An iteration of two entries or more starts with two entries of different keys. -/
theorem exists_two_of_size {m : UnorderedMap κ α} (hm : 1 < m.size) :
    ∃ e e' l, Iterates (e :: e' :: l) m ∧ e.1 ≠ e'.1 := by
  obtain ⟨l, hl⟩ := exists_iterates m
  have hlen := hl.length_eq
  match l with
  | [] | [_] =>
    simp only [List.length_nil, List.length_cons] at hlen
    omega
  | e :: e' :: l =>
    refine ⟨e, e', l, hl, fun heq => ?_⟩
    have hkeys := hl.nodup_map_fst
    rw [List.map_cons, List.map_cons, List.nodup_cons] at hkeys
    exact hkeys.1 (heq ▸ List.mem_cons_self)

variable [DecidableEq κ]

theorem lookup_insert' (m : UnorderedMap κ α) (k k' : κ) (a : α) :
    (m.insert k a).lookup k' = if k' = k then some a else m.lookup k' := by
  by_cases h : k' = k
  · subst h; rw [if_pos rfl, Finmap.lookup_insert]
  · rw [if_neg h, Finmap.lookup_insert_of_ne m h]

/-- Writing back the value that is there changes nothing. -/
theorem insert_lookup_self {m : UnorderedMap κ α} {k : κ} {a : α} (h : m.lookup k = some a) :
    m.insert k a = m := by
  apply Finmap.ext_lookup
  intro k'
  rw [lookup_insert']
  split
  · next hk => rw [hk, h]
  · rfl

theorem Iterates.mem_iff {l : List (Entry κ α)} {m : UnorderedMap κ α} (h : Iterates l m)
    (k : κ) (a : α) : (⟨k, a⟩ : Entry κ α) ∈ l ↔ m.lookup k = some a := by
  rw [← Multiset.mem_coe, h, Finmap.lookup_eq_some_iff]

/-! ### Building a map from a list of entries -/

/-- Insert the entries of a list in order, the later ones overwriting the earlier ones. -/
def insertAll (m : UnorderedMap κ α) (l : List (Entry κ α)) : UnorderedMap κ α :=
  l.foldl (fun m e => m.insert e.1 e.2) m

@[simp] theorem insertAll_nil (m : UnorderedMap κ α) : insertAll m [] = m := rfl

@[simp] theorem insertAll_cons (m : UnorderedMap κ α) (e : Entry κ α) (l : List (Entry κ α)) :
    insertAll m (e :: l) = insertAll (m.insert e.1 e.2) l := rfl

/-- On a list without repeated keys nothing is overwritten: the lookups of the new map are those
    of the list, and below them those of the old map. -/
theorem lookup_insertAll {l : List (Entry κ α)} (h : l.NodupKeys) (m : UnorderedMap κ α) (k : κ) :
    (insertAll m l).lookup k = (l.dlookup k).or (m.lookup k) := by
  induction l generalizing m with
  | nil => simp
  | cons e l ih =>
    obtain ⟨k', a⟩ := e
    obtain ⟨hk', hl⟩ := List.nodupKeys_cons.mp h
    rw [insertAll_cons, ih hl, lookup_insert']
    by_cases hk : k = k'
    · subst hk
      rw [List.dlookup_eq_none.mpr hk', List.dlookup_cons_eq]
      simp
    · rw [if_neg hk, List.dlookup_cons_ne _ _ hk]

/-- What is looked up after inserting a list was in the list or there before. -/
theorem mem_of_lookup_insertAll {m : UnorderedMap κ α} {l : List (Entry κ α)} {k : κ} {a : α}
    (h : (insertAll m l).lookup k = some a) : ⟨k, a⟩ ∈ l ∨ m.lookup k = some a := by
  induction l generalizing m with
  | nil => exact Or.inr h
  | cons e l ih =>
    rcases ih h with hmem | hlookup
    · exact Or.inl (List.mem_cons_of_mem e hmem)
    · rw [lookup_insert'] at hlookup
      split_ifs at hlookup with hk
      · obtain rfl := Option.some.inj hlookup
        subst hk
        exact Or.inl List.mem_cons_self
      · exact Or.inr hlookup

/-- Keys that the list does not have are looked up in the old map. -/
theorem lookup_insertAll_of_forall_ne {l : List (Entry κ α)} {k : κ} (h : ∀ e ∈ l, e.1 ≠ k)
    (m : UnorderedMap κ α) : (insertAll m l).lookup k = m.lookup k := by
  induction l generalizing m with
  | nil => rfl
  | cons e l ih =>
    rw [insertAll_cons, ih (fun e' he' => h e' (List.mem_cons_of_mem e he')), lookup_insert',
      if_neg (h e List.mem_cons_self).symm]

/-- Of several entries with one key the last one stays. -/
theorem lookup_insertAll_last {l₁ l₂ : List (Entry κ α)} {k : κ} (h : ∀ e ∈ l₂, e.1 ≠ k)
    (m : UnorderedMap κ α) (a : α) : (insertAll m (l₁ ++ ⟨k, a⟩ :: l₂)).lookup k = some a := by
  unfold insertAll
  rw [List.foldl_append]
  show (insertAll _ (⟨k, a⟩ :: l₂)).lookup k = some a
  rw [insertAll_cons, lookup_insertAll_of_forall_ne h, lookup_insert', if_pos rfl]

/-- What is looked up after inserting a list into the empty map is the last entry with its key. -/
theorem exists_last_of_lookup_insertAll {l : List (Entry κ α)} {k : κ} {a : α}
    (h : (insertAll ∅ l).lookup k = some a) :
    ∃ l₁ l₂, l = l₁ ++ ⟨k, a⟩ :: l₂ ∧ ∀ e ∈ l₂, e.1 ≠ k := by
  induction l using List.reverseRecOn with
  | nil => exact absurd h (by simp)
  | append_singleton l e ih =>
    unfold insertAll at h
    rw [List.foldl_append] at h
    have hlast : ((insertAll ∅ l).insert e.1 e.2).lookup k = some a := h
    rw [lookup_insert'] at hlast
    split_ifs at hlast with hk
    · obtain rfl := Option.some.inj hlast
      subst hk
      exact ⟨l, [], rfl, by simp⟩
    · obtain ⟨l₁, l₂, rfl, hne⟩ := ih hlast
      refine ⟨l₁, l₂ ++ [e], by simp, ?_⟩
      simp only [List.mem_append, List.mem_singleton]
      rintro e' (he' | rfl)
      · exact hne e' he'
      · exact fun heq => hk heq.symm

/-- A list without repeated keys is an iteration of the map that it makes. -/
theorem iterates_insertAll {l : List (Entry κ α)} (h : l.NodupKeys) :
    Iterates l (insertAll ∅ l) := by
  have hmap : insertAll ∅ l = ⟨(l : Multiset (Entry κ α)), Multiset.coe_nodupKeys.mpr h⟩ := by
    apply Finmap.ext_lookup
    intro k
    rw [lookup_insertAll h, Finmap.lookup_empty, Option.or_none]
    rfl
  rw [hmap, Iterates]

/-! ### Building a map from a list of other things -/

section Made

variable {l : List β} {f : β → Entry κ α} {k : κ} {a : α} {b : β}

/-- What is looked up in a map that is made of a list comes from an element of the list. -/
theorem exists_of_lookup_made (h : (insertAll ∅ (l.map f)).lookup k = some a) :
    ∃ b ∈ l, (f b).1 = k ∧ (f b).2 = a := by
  rcases mem_of_lookup_insertAll h with hmem | hempty
  · obtain ⟨b, hb, heq⟩ := List.mem_map.mp hmem
    exact ⟨b, hb, by rw [heq], by rw [heq]⟩
  · exact absurd hempty (by simp)

/-- Every element is looked up under its key, when no two have the same one. -/
theorem lookup_made (hkeys : (l.map (fun b => (f b).1)).Nodup) (hb : b ∈ l) :
    (insertAll ∅ (l.map f)).lookup (f b).1 = some (f b).2 := by
  have hnodup : (l.map f).NodupKeys := nodupKeys_map hkeys
  rw [lookup_insertAll hnodup, Finmap.lookup_empty, Option.or_none]
  exact (List.mem_dlookup_iff hnodup).mpr (List.mem_map_of_mem hb)

/-- And then the map is as large as the list. -/
theorem size_made (hkeys : (l.map (fun b => (f b).1)).Nodup) :
    (insertAll ∅ (l.map f)).size = l.length := by
  rw [← (iterates_insertAll (nodupKeys_map hkeys)).length_eq, List.length_map]

end Made

/-! ### Building a map again -/

/-- Inserting any iteration of a map into the empty map rebuilds the map. -/
theorem Iterates.insertAll_eq {l : List (Entry κ α)} {m : UnorderedMap κ α} (h : Iterates l m) :
    insertAll ∅ l = m := by
  apply Finmap.ext_lookup
  intro k
  rw [lookup_insertAll h.nodupKeys, Finmap.lookup_empty, Option.or_none]
  apply Option.ext
  intro a
  exact (List.mem_dlookup_iff h.nodupKeys).trans (h.mem_iff k a)

/-- Inserting an iteration of a map with every value changed changes every value. -/
theorem Iterates.lookup_insertAll_map {l : List (Entry κ α)} {m : UnorderedMap κ α}
    (h : Iterates l m) (f : α → β) (k : κ) :
    (insertAll ∅ (l.map (fun e => (⟨e.1, f e.2⟩ : Entry κ β)))).lookup k =
      (m.lookup k).map f := by
  rw [lookup_insertAll (h.nodupKeys_map f), Finmap.lookup_empty, Option.or_none]
  have hmap := List.dlookup_map₂ (l := l) (f := fun _ => f) k
  refine hmap.trans (congrArg (Option.map f) ?_)
  rw [← h.insertAll_eq, lookup_insertAll h.nodupKeys, Finmap.lookup_empty, Option.or_none]

/-- Two maps with the same lookups, as far as `f` tells them apart, are iterated over the same
    entries, as far as `f` tells them apart. -/
theorem Iterates.perm_map {l l' : List (Entry κ α)} {m m' : UnorderedMap κ α} (h : Iterates l m)
    (h' : Iterates l' m') {f : α → β} (hsame : ∀ k, (m.lookup k).map f = (m'.lookup k).map f) :
    (l.map (fun e => (⟨e.1, f e.2⟩ : Entry κ β))).Perm (l'.map (fun e => ⟨e.1, f e.2⟩)) := by
  have hmap : insertAll ∅ (l.map (fun e => (⟨e.1, f e.2⟩ : Entry κ β))) =
      insertAll ∅ (l'.map (fun e => ⟨e.1, f e.2⟩)) := by
    apply Finmap.ext_lookup
    intro k
    rw [h.lookup_insertAll_map, h'.lookup_insertAll_map, hsame]
  have hiter := iterates_insertAll (h.nodupKeys_map f)
  rw [hmap] at hiter
  exact Multiset.coe_eq_coe.mp (hiter.trans (iterates_insertAll (h'.nodupKeys_map f)).symm)

end UnorderedMap

end FailureFabric.Library
