import Mathlib.Data.List.Forall2
import Mathlib.Data.List.Nodup

/-!
# Lists that are gone through

A list is read if each of its elements is.  A loop over a list passes over a front that it has
nothing to say against, and ends at the first element where it fails (`exists_first_not`).  Where
one list corresponds to another, every element has its counterpart (`exists_of_forall₂`).

Members of an object and entries of a table are lists of what stands under which name; if the names
differ, everything is found under its own, in whatever order it stands.
-/

namespace LedgerKit

/-! ### Reading every element -/

theorem mapM_eq_some_map {α β : Type} {l : List α} {read : α → Option β} {f : α → β}
    (h : ∀ a ∈ l, read a = some (f a)) : l.mapM read = some (l.map f) := by
  induction l with
  | nil => rfl
  | cons a l ih =>
    rw [List.mapM_cons, h a List.mem_cons_self, ih fun b hb => h b (List.mem_cons_of_mem a hb)]
    rfl

/-- A list cannot be read if one of its elements cannot. -/
theorem mapM_eq_none_iff {α β : Type} {l : List α} {read : α → Option β} :
    l.mapM read = none ↔ ∃ a ∈ l, read a = none := by
  induction l with
  | nil => simp
  | cons a l ih =>
    rw [List.mapM_cons, List.exists_mem_cons_iff, ← ih]
    cases read a with
    | none => simp
    | some b => cases l.mapM read <;> simp

/-- A list that is read from its front is what stands there and what is read behind it. -/
theorem map_cons_eq_ok_iff {α ε : Type} {rest : Except ε (List α)} {a : α} {l : List α} :
    rest.map (a :: ·) = .ok l ↔ ∃ as, rest = .ok as ∧ a :: as = l := by
  cases rest <;> simp [Except.map]

/-- What is written for the elements is read back. -/
theorem mapM_map_eq_some {α β : Type} {write : α → β} {read : β → Option α}
    (h : ∀ a, read (write a) = some a) (l : List α) : (l.map write).mapM read = some l := by
  rw [List.mapM_map]
  exact (mapM_eq_some_map fun a _ => h a).trans (congrArg some (List.map_id' l))

/-! ### Passing over a front -/

section

variable {α β ε : Type}

theorem mapM_append_of_forall₂ {f : α → Except ε β} {xs : List α} {ys : List β}
    (h : List.Forall₂ (fun x y => f x = .ok y) xs ys) (rest : List α) :
    (xs ++ rest).mapM f = (rest.mapM f).map (ys ++ ·) := by
  induction h with
  | nil =>
    cases hr : rest.mapM f <;> simp [hr, Except.map]
  | cons hxy _ ih =>
    rw [List.cons_append, List.mapM_cons, hxy, ih]
    cases rest.mapM f <;> rfl

theorem forM_append_of_ok {f : α → Except ε Unit} {xs : List α} (h : ∀ x ∈ xs, f x = .ok ())
    (rest : List α) : (xs ++ rest).forM f = rest.forM f := by
  induction xs with
  | nil => rfl
  | cons x xs ih =>
    have hrest := ih fun y hy => h y (List.mem_cons_of_mem x hy)
    rw [List.cons_append, List.forM_eq_forM, List.forM_cons, h x List.mem_cons_self]
    exact hrest

/-- What fails somewhere in a list fails for the first time at some element. -/
theorem exists_first_not {p : α → Prop} {xs : List α} (h : ¬ ∀ x ∈ xs, p x) :
    ∃ before x after, xs = before ++ x :: after ∧ (∀ y ∈ before, p y) ∧ ¬ p x := by
  classical
  simp only [not_forall] at h
  obtain ⟨x, hx, hpx⟩ := h
  have hfound : (xs.find? fun x => ¬ p x).isSome := by
    rw [List.find?_isSome]
    exact ⟨x, hx, by simpa using hpx⟩
  obtain ⟨y, hy⟩ := Option.isSome_iff_exists.1 hfound
  obtain ⟨hpy, before, after, rfl, hbefore⟩ := List.find?_eq_some_iff_append.1 hy
  exact ⟨before, y, after, rfl, fun z hz => by simpa using hbefore z hz, by simpa using hpy⟩

/-! ### Lists that correspond -/

theorem forall₂_comp {γ : Type} {R : α → β → Prop} {S : β → γ → Prop} {T : α → γ → Prop}
    (h : ∀ a b c, R a b → S b c → T a c) {as : List α} {bs : List β} {cs : List γ}
    (hab : List.Forall₂ R as bs) (hbc : List.Forall₂ S bs cs) : List.Forall₂ T as cs := by
  induction hab generalizing cs with
  | nil => cases hbc; exact .nil
  | cons hab _ ih =>
    cases hbc with
    | cons hbc hbcs => exact .cons (h _ _ _ hab hbc) (ih hbcs)

theorem exists_of_forall₂ {R : α → β → Prop} {as : List α} {bs : List β}
    (h : List.Forall₂ R as bs) {b : β} (hb : b ∈ bs) : ∃ a ∈ as, R a b := by
  induction h with
  | nil => cases hb
  | @cons a b' as bs hab _ ih =>
    rcases List.mem_cons.1 hb with rfl | hb
    · exact ⟨a, List.mem_cons_self, hab⟩
    · obtain ⟨x, hx, hxb⟩ := ih hb
      exact ⟨x, List.mem_cons_of_mem _ hx, hxb⟩

theorem exists_of_forall₂_left {R : α → β → Prop} {as : List α} {bs : List β}
    (h : List.Forall₂ R as bs) {a : α} (ha : a ∈ as) : ∃ b ∈ bs, R a b :=
  exists_of_forall₂ (List.Forall₂.flip (R := flip R) h) ha

end

/-! ### Looking up names -/

variable {α : Type} {es row : List (String × α)} {e : String × α}

theorem lookup_eq_none_of_nodup (h : ((es ++ e :: row).map Prod.fst).Nodup) :
    es.lookup e.1 = none := by
  rw [List.lookup_eq_none_iff]
  intro e' he'
  rw [List.map_append, List.nodup_append] at h
  have hne := h.2.2 e'.1 (List.mem_map_of_mem he') e.1 (by simp)
  simpa using hne.symm

/-- Every entry is found under its name, if the names differ. -/
theorem lookup_of_mem (h : (es.map Prod.fst).Nodup) (he : e ∈ es) : es.lookup e.1 = some e.2 := by
  obtain ⟨before, after, rfl⟩ := List.append_of_mem he
  rw [List.lookup_append, lookup_eq_none_of_nodup h, Option.none_or, List.lookup_cons_self]

theorem lookup_reverse (h : (es.map Prod.fst).Nodup) (name : String) :
    es.reverse.lookup name = es.lookup name := by
  have hreverse : (es.reverse.map Prod.fst).Nodup := by
    rw [List.map_reverse]
    exact List.nodup_reverse.2 h
  by_cases hname : ∃ e ∈ es, e.1 = name
  · obtain ⟨e, he, rfl⟩ := hname
    rw [lookup_of_mem hreverse (List.mem_reverse.2 he), lookup_of_mem h he]
  · have hother : ∀ e ∈ es, (name != e.1) = true := fun e he =>
      bne_iff_ne.2 fun heq => hname ⟨e, he, heq.symm⟩
    rw [List.lookup_eq_none_iff.2 hother,
      List.lookup_eq_none_iff.2 fun e he => hother e (List.mem_reverse.1 he)]

end LedgerKit
