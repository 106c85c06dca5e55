import LedgerKit.Id.Typed

/-!
# Collections of ids

Ids are compared by number alone, so a list of ids can hold one entity several times, with and
without a checksum.  `distinctOn` keeps the first mention of each.

* `nodup_map_distinctOn`, `mem_map_distinctOn` : every key is kept, and kept once.
* `length_distinctOn` : so there are as many elements as there are keys.
* `distinctOn_eq_filter_zipIdx` : which mention is kept.
-/

namespace LedgerKit

/-! ### First mentions -/

section

variable {α κ : Type} [DecidableEq κ]

/-- The elements whose key occurs at no earlier element, in order. -/
def distinctOn (key : α → κ) : List α → List α
  | [] => []
  | a :: as => a :: (distinctOn key as).filter fun b => key b ≠ key a

theorem nodup_map_distinctOn (key : α → κ) (as : List α) :
    ((distinctOn key as).map key).Nodup := by
  induction as with
  | nil => simp [distinctOn]
  | cons a as ih =>
    simp only [distinctOn, List.map_cons, List.nodup_cons]
    refine ⟨by simp, ?_⟩
    exact ih.sublist (List.filter_sublist.map key)

theorem mem_map_distinctOn (key : α → κ) (as : List α) (k : κ) :
    k ∈ (distinctOn key as).map key ↔ k ∈ as.map key := by
  induction as with
  | nil => simp [distinctOn]
  | cons a as ih =>
    simp only [List.mem_map] at ih
    simp only [distinctOn, List.mem_map, List.mem_cons, List.mem_filter, decide_eq_true_eq]
    grind

/-- There are as many distinct elements as there are keys, each of them counted once. -/
theorem length_distinctOn {key : α → κ} {as : List α} {ks : List κ} (hnodup : ks.Nodup)
    (hmem : ∀ k, k ∈ ks ↔ k ∈ as.map key) : (distinctOn key as).length = ks.length := by
  have hperm : ((distinctOn key as).map key).Perm ks :=
    (List.perm_ext_iff_of_nodup (nodup_map_distinctOn key as) hnodup).2 fun k =>
      (mem_map_distinctOn key as k).trans (hmem k).symm
  rw [← hperm.length_eq, List.length_map]

/-- The distinct elements are those at positions before which their key does not occur. -/
theorem distinctOn_eq_filter_zipIdx (key : α → κ) (as : List α) :
    distinctOn key as =
      (as.zipIdx.filter fun p => key p.1 ∉ (as.take p.2).map key).map Prod.fst := by
  induction as with
  | nil => rfl
  | cons a as ih =>
    -- behind the first element every position is one further, and the first key is excluded
    rw [distinctOn, ih, List.zipIdx_cons', List.filter_cons_of_pos (by simp), List.map_cons,
      List.filter_map, List.filter_map, List.filter_filter, List.map_map]
    simp [Function.comp_def]

end

/-! ### Lists of ids -/

/-- The ids in ascending order; those of one entity keep their places among each other. -/
def EntityId.sort (ids : List EntityId) : List EntityId :=
  ids.mergeSort fun a b => (compare a b).isLE

/-- The ascending list of the distinct entities, each by its first mention. -/
def EntityId.sortDistinct (ids : List EntityId) : List EntityId :=
  distinctOn EntityId.number (EntityId.sort ids)

end LedgerKit
