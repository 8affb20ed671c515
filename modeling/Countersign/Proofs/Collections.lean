import Std.Data.ExtTreeMap

set_option autoImplicit false

/-!
# Lists and maps

The values of a map are what is found under its keys, and a table of pairs with
different keys has one entry for each. A list that grows at its end is split either at
its last item or before it.
-/

namespace Countersign

open Std

theorem mem_iff_getElem? {α β : Type} [Ord α] [TransOrd α] {m : ExtTreeMap α β} {key : α} :
    key ∈ m ↔ ∃ value, m[key]? = some value := by
  rw [← ExtTreeMap.isSome_getElem?_iff_mem, Option.isSome_iff_exists]

theorem values_eq_map_toList {α β : Type} [Ord α] [TransOrd α] (m : ExtTreeMap α β) :
    m.values = m.toList.map Prod.snd := by
  have folded : m.values = m.foldr (fun _ value rest => value :: rest) [] := by
    obtain ⟨⟨m⟩⟩ := m
    rfl
  rw [folded, ExtTreeMap.foldr_eq_foldr_toList]
  induction m.toList with
  | nil => rfl
  | cons head tail ih => simp [ih]

theorem mem_values_iff {α β : Type} [Ord α] [TransOrd α] [LawfulEqOrd α]
    (m : ExtTreeMap α β) (value : β) : value ∈ m.values ↔ ∃ key : α, m[key]? = some value := by
  rw [values_eq_map_toList, List.mem_map]
  constructor
  · rintro ⟨⟨key, found⟩, membership, rfl⟩
    exact ⟨key, ExtTreeMap.mem_toList_iff_getElem?_eq_some.mp membership⟩
  · rintro ⟨key, found⟩
    exact ⟨(key, value), ExtTreeMap.mem_toList_iff_getElem?_eq_some.mpr found, rfl⟩

theorem length_values {α β : Type} [Ord α] [TransOrd α] (m : ExtTreeMap α β) :
    m.values.length = m.size := by
  rw [values_eq_map_toList, List.length_map, ExtTreeMap.length_toList]

/-- No value is there twice if none is found under two keys. -/
theorem nodup_values {α β : Type} [Ord α] [TransOrd α] [LawfulEqOrd α] {m : ExtTreeMap α β}
    (differ : ∀ (first second : α) (value : β),
      m[first]? = some value → m[second]? = some value → first = second) : m.values.Nodup := by
  rw [values_eq_map_toList]
  have distinct := m.distinct_keys_toList
  have found : ∀ entry ∈ m.toList, m[entry.1]? = some entry.2 := by
    intro entry membership
    exact ExtTreeMap.mem_toList_iff_getElem?_eq_some.mp membership
  rw [List.Nodup, List.pairwise_map]
  refine distinct.imp_of_mem ?_
  intro first second inFirst inSecond apart same
  apply apart
  rw [Std.compare_eq_iff_eq]
  exact differ _ _ _ (found first inFirst) (same ▸ found second inSecond)

theorem lookup_of_mem {α : Type} {entries : List (Nat × α)} (differ : (entries.map Prod.fst).Nodup)
    {key : Nat} {value : α} (membership : (key, value) ∈ entries) :
    entries.lookup key = some value := by
  induction entries with
  | nil => cases membership
  | cons entry rest ih =>
    rw [List.map_cons, List.nodup_cons] at differ
    rw [List.lookup_cons]
    rcases List.mem_cons.mp membership with rfl | later
    · simp
    · split
      · next same =>
        have repeated : entry.1 ∈ rest.map Prod.fst :=
          List.mem_map.mpr ⟨_, later, eq_of_beq same⟩
        exact absurd repeated differ.1
      · exact ih differ.2 later

theorem lookup_filter_ne {α : Type} {key other : Nat} (different : key ≠ other)
    (entries : List (Nat × α)) :
    (entries.filter (·.1 != other)).lookup key = entries.lookup key := by
  induction entries with
  | nil => rfl
  | cons entry rest ih =>
    obtain ⟨first, value⟩ := entry
    by_cases removed : first = other
    · have elsewhere : (key == first) = false := by simp [removed, different]
      rw [List.filter_cons_of_neg (by simp [removed]), List.lookup_cons, elsewhere, ih]
    · rw [List.filter_cons_of_pos (by simp [removed]), List.lookup_cons, List.lookup_cons, ih]

theorem append_singleton_eq_append_cons_iff {α : Type} {items before after : List α}
    {last item : α} :
    items ++ [last] = before ++ item :: after ↔
      (items = before ∧ last = item ∧ after = []) ∨
        ∃ rest, after = rest ++ [last] ∧ items = before ++ item :: rest := by
  constructor
  · intro split
    rcases List.eq_nil_or_concat after with rfl | ⟨rest, final, rfl⟩
    · obtain ⟨same, ends⟩ := List.append_inj' split rfl
      exact .inl ⟨same, List.head_eq_of_cons_eq ends, rfl⟩
    · rw [List.concat_eq_append, ← List.cons_append, ← List.append_assoc] at split
      obtain ⟨same, ends⟩ := List.append_inj' split rfl
      cases ends
      exact .inr ⟨rest, List.concat_eq_append, same⟩
  · rintro (⟨rfl, rfl, rfl⟩ | ⟨rest, rfl, rfl⟩)
    · rfl
    · simp

end Countersign
