/-!
# Maps in ascending order of their keys

A `SortedMap` is the list of its entries, kept in strictly ascending order.  Two maps that look up
alike are therefore equal.  `get?` is the view by which operations are described:

* `get?_insert` : inserting changes what is found under that key and nothing else;
* `ext_get?` : maps in which the same is found under every key are equal.
-/

namespace LedgerKit

/-- A finite map, as its entries in ascending order. -/
structure SortedMap (κ ν : Type) [Ord κ] where
  /-- The entries. -/
  entries : List (κ × ν)
  /-- Their keys ascend. -/
  sorted : entries.Pairwise fun a b => compare a.1 b.1 = .lt

namespace SortedMap

variable {κ ν : Type} [Ord κ]

instance [DecidableEq κ] [DecidableEq ν] : DecidableEq (SortedMap κ ν) := fun a b =>
  decidable_of_iff (a.entries = b.entries) (by cases a; cases b; simp)

/-- The map without entries. -/
def empty : SortedMap κ ν := ⟨[], .nil⟩

/-- What is found under a key in a list of entries. -/
def find? (k : κ) : List (κ × ν) → Option ν
  | [] => none
  | e :: es => if compare k e.1 = .eq then some e.2 else find? k es

/-- What is found under a key. -/
def get? (m : SortedMap κ ν) (k : κ) : Option ν := find? k m.entries

/-- Puts an entry in its place. -/
def place (k : κ) (v : ν) : List (κ × ν) → List (κ × ν)
  | [] => [(k, v)]
  | e :: es =>
    match compare k e.1 with
    | .lt => (k, v) :: e :: es
    | .eq => (k, v) :: es
    | .gt => e :: place k v es

/-- The number of entries. -/
def size (m : SortedMap κ ν) : Nat := m.entries.length

/-- The keys, in ascending order. -/
def keys (m : SortedMap κ ν) : List κ := m.entries.map Prod.fst

theorem mem_place {k : κ} {v : ν} {es : List (κ × ν)} {x : κ × ν} (h : x ∈ place k v es) :
    x = (k, v) ∨ x ∈ es := by
  induction es with
  | nil => simp_all [place]
  | cons e es ih =>
    simp only [place] at h
    split at h <;> grind

theorem pairwise_place [Std.TransOrd κ] (k : κ) (v : ν) {es : List (κ × ν)}
    (h : es.Pairwise fun a b => compare a.1 b.1 = .lt) :
    (place k v es).Pairwise fun a b => compare a.1 b.1 = .lt := by
  induction es with
  | nil => simp [place]
  | cons e es ih =>
    obtain ⟨he, hes⟩ := List.pairwise_cons.1 h
    simp only [place]
    split
    · next hk =>
      refine List.pairwise_cons.2 ⟨fun x hx => ?_, h⟩
      rcases List.mem_cons.1 hx with rfl | hx
      · exact hk
      · exact Std.TransCmp.lt_trans hk (he x hx)
    · next hk =>
      exact List.pairwise_cons.2 ⟨fun x hx => Std.TransCmp.lt_of_eq_of_lt hk (he x hx), hes⟩
    · next hk =>
      refine List.pairwise_cons.2 ⟨fun x hx => ?_, ih hes⟩
      rcases mem_place hx with rfl | hx
      · exact Std.OrientedCmp.lt_of_gt hk
      · exact he x hx

/-- The map with `v` under `k`, whatever was there. -/
def insert [Std.TransOrd κ] (m : SortedMap κ ν) (k : κ) (v : ν) : SortedMap κ ν :=
  ⟨place k v m.entries, pairwise_place k v m.sorted⟩

@[simp] theorem get?_empty (k : κ) : (empty : SortedMap κ ν).get? k = none := rfl

theorem find?_place [Std.TransOrd κ] [Std.LawfulEqOrd κ] (k j : κ) (v : ν) (es : List (κ × ν)) :
    find? j (place k v es) = if compare j k = .eq then some v else find? j es := by
  induction es with
  | nil => simp [place, find?]
  | cons e es ih =>
    simp only [place]
    split
    · simp [find?]
    · next hk =>
      have := Std.LawfulEqOrd.eq_of_compare hk
      simp only [find?, ← this]
      split <;> rfl
    · next hk =>
      simp only [find?, ih]
      split
      · next hj =>
        have := Std.LawfulEqOrd.eq_of_compare hj
        subst this
        split
        · next h =>
          have h := Std.LawfulEqOrd.eq_of_compare h
          rw [← h, Std.ReflOrd.compare_self] at hk
          cases hk
        · rfl
      · rfl

theorem get?_insert [Std.TransOrd κ] [Std.LawfulEqOrd κ] (m : SortedMap κ ν) (k j : κ) (v : ν) :
    (m.insert k v).get? j = if compare j k = .eq then some v else m.get? j :=
  find?_place k j v m.entries

theorem find?_eq_none_of_lt {k : κ} {es : List (κ × ν)} (h : ∀ x ∈ es, compare k x.1 = .lt) :
    find? k es = none := by
  induction es with
  | nil => rfl
  | cons e es ih =>
    have he := h e (by simp)
    simp only [find?, he]
    exact ih fun x hx => h x (by simp [hx])

theorem eq_of_find?_eq [Std.TransOrd κ] [Std.LawfulEqOrd κ] {es fs : List (κ × ν)}
    (he : es.Pairwise fun a b => compare a.1 b.1 = .lt)
    (hf : fs.Pairwise fun a b => compare a.1 b.1 = .lt) (h : ∀ k, find? k es = find? k fs) :
    es = fs := by
  induction es generalizing fs with
  | nil =>
    cases fs with
    | nil => rfl
    | cons f fs => simpa [find?] using h f.1
  | cons e es ih =>
    cases fs with
    | nil => simpa [find?] using h e.1
    | cons f fs =>
      obtain ⟨hes, he₁⟩ := List.pairwise_cons.1 he
      obtain ⟨hfs, hf₁⟩ := List.pairwise_cons.1 hf
      have first : compare e.1 f.1 = .eq := by
        cases hc : compare e.1 f.1 with
        | eq => rfl
        | lt =>
          have := h e.1
          rw [@find?_eq_none_of_lt κ ν _ e.1 (f :: fs) fun x hx => by
            rcases List.mem_cons.1 hx with rfl | hx
            · exact hc
            · exact Std.TransCmp.lt_trans hc (hfs x hx)] at this
          simp [find?] at this
        | gt =>
          have hc := Std.OrientedCmp.lt_of_gt hc
          have := h f.1
          rw [@find?_eq_none_of_lt κ ν _ f.1 (e :: es) fun x hx => by
            rcases List.mem_cons.1 hx with rfl | hx
            · exact hc
            · exact Std.TransCmp.lt_trans hc (hes x hx)] at this
          simp [find?] at this
      have key := Std.LawfulEqOrd.eq_of_compare first
      obtain ⟨k, v⟩ := e
      obtain ⟨k', v'⟩ := f
      subst key
      have value : v = v' := by simpa [find?] using h k
      subst value
      congr 1
      refine ih he₁ hf₁ fun j => ?_
      by_cases hj : compare j k = .eq
      · have := Std.LawfulEqOrd.eq_of_compare hj
        subst this
        rw [find?_eq_none_of_lt hes, find?_eq_none_of_lt hfs]
      · simpa [find?, hj] using h j

theorem ext_get? [Std.TransOrd κ] [Std.LawfulEqOrd κ] {m n : SortedMap κ ν}
    (h : ∀ k, m.get? k = n.get? k) : m = n := by
  obtain ⟨es, he⟩ := m
  obtain ⟨fs, hf⟩ := n
  congr
  exact eq_of_find?_eq he hf h

end SortedMap

end LedgerKit
