import LedgerKit.SortedMap
import Mathlib.Data.List.Basic

/-!
# Looking up in a sorted map

The view `get?` of a map, in terms of equality of keys, and its relation to the list of entries:
each entry is found (`get?_eq_some_iff`), and no key has two (`nodup_keys`).
-/

namespace LedgerKit

namespace SortedMap

variable {κ ν : Type} [Ord κ] [Std.LawfulEqOrd κ]

theorem nodup_keys (m : SortedMap κ ν) : (m.entries.map Prod.fst).Nodup := by
  refine List.pairwise_map.2 (m.sorted.imp ?_)
  intro a b hab h
  -- a key is not below itself
  rw [h, Std.ReflOrd.compare_self] at hab
  cases hab

theorem find?_eq_some_iff {es : List (κ × ν)} (hd : (es.map Prod.fst).Nodup) {k : κ} {v : ν} :
    find? k es = some v ↔ (k, v) ∈ es := by
  induction es with
  | nil => simp [find?]
  | cons e es ih =>
    obtain ⟨j, w⟩ := e
    simp only [List.map_cons, List.nodup_cons] at hd
    simp only [find?, List.mem_cons, Prod.mk.injEq]
    by_cases hk : k = j
    · subst hk
      have hnot : (k, v) ∉ es := fun h => hd.1 (List.mem_map_of_mem (f := Prod.fst) h)
      simp [Std.ReflOrd.compare_self, hnot, eq_comm]
    · rw [if_neg fun hc => hk (Std.LawfulEqOrd.eq_of_compare hc), ih hd.2]
      simp [hk]

/-- What is found under a key is what the entries pair with it. -/
theorem get?_eq_some_iff (m : SortedMap κ ν) {k : κ} {v : ν} :
    m.get? k = some v ↔ (k, v) ∈ m.entries :=
  find?_eq_some_iff m.nodup_keys

theorem mem_keys_iff (m : SortedMap κ ν) {k : κ} : k ∈ m.keys ↔ ∃ v, m.get? k = some v := by
  simp [keys, get?_eq_some_iff]

variable [Std.TransOrd κ]

@[simp] theorem get?_insert_self (m : SortedMap κ ν) (k : κ) (v : ν) :
    (m.insert k v).get? k = some v := by
  rw [get?_insert, if_pos Std.ReflOrd.compare_self]

theorem get?_insert_of_ne (m : SortedMap κ ν) {k j : κ} (v : ν) (h : j ≠ k) :
    (m.insert k v).get? j = m.get? j := by
  rw [get?_insert, if_neg fun hc => h (Std.LawfulEqOrd.eq_of_compare hc)]

omit [Std.LawfulEqOrd κ] [Std.TransOrd κ] in
theorem length_place_of_find? {k : κ} (v : ν) {es : List (κ × ν)} (h : find? k es = none) :
    (place k v es).length = es.length + 1 := by
  induction es with
  | nil => rfl
  | cons e es ih =>
    simp only [find?] at h
    split at h
    · cases h
    · next hk =>
      simp only [place]
      split
      · rfl
      · contradiction
      · simp [ih h]

omit [Std.LawfulEqOrd κ] in
/-- A new key makes the map larger by one. -/
theorem size_insert_of_get? {m : SortedMap κ ν} {k : κ} (v : ν) (h : m.get? k = none) :
    (m.insert k v).size = m.size + 1 :=
  length_place_of_find? v h

end SortedMap

end LedgerKit
