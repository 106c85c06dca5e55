import Mathlib.Data.List.Infix
import LedgerKit.Text.Search

/-!
# First occurrences

A pattern may stand in a text many times, and its occurrences may overlap.  `IsFirstSplit` says that
a text is cut where the pattern stands first.

* `splitAt?_eq_some_iff`, `splitAt?_eq_none_iff` : the search finds the first occurrence if there is
  any.
* `IsFirstSplit.append` : what is appended to the text does not change it.
* `splitAt?_append_left` : nor does what is prepended, if no occurrence begins there.
* `length_le_of_prefix` : none begins in a part that does not hold the pattern and ends with a
  character the pattern lacks.
-/

namespace LedgerKit.Text

variable {p s t z before after : List Char}

theorem afterFront?_append (p rest : List Char) : afterFront? p (p ++ rest) = some rest := by
  induction p with
  | nil => rfl
  | cons c p ih => simp [afterFront?, ih]

theorem afterFront?_eq_none_iff : afterFront? p s = none ↔ ¬p <+: s := by
  constructor
  · rintro h ⟨rest, rfl⟩
    simp [afterFront?_append] at h
  · intro h
    by_contra hsome
    obtain ⟨rest, hrest⟩ := Option.ne_none_iff_exists'.1 hsome
    exact h ⟨rest, (eq_append_of_afterFront? hrest).symm⟩

/-- The pattern stands between the two parts of the text and does not begin earlier. -/
structure IsFirstSplit (pattern text before after : List Char) : Prop where
  /-- The parts and the pattern make up the text. -/
  eq : text = before ++ pattern ++ after
  /-- Every occurrence begins at the end of the first part or later. -/
  first : ∀ z, z ++ pattern <+: text → before.length ≤ z.length

namespace IsFirstSplit

/-- A text is cut at its first occurrence in one way only. -/
theorem unique {before' after' : List Char} (h : IsFirstSplit p s before after)
    (h' : IsFirstSplit p s before' after') : before = before' ∧ after = after' := by
  have hlength : before.length = before'.length :=
    Nat.le_antisymm (h.first _ ⟨after', h'.eq.symm⟩) (h'.first _ ⟨after, h.eq.symm⟩)
  have heq := h.eq.symm.trans h'.eq
  obtain ⟨hfront, hafter⟩ := List.append_inj heq (by simp [hlength])
  exact ⟨List.append_cancel_right hfront, hafter⟩

theorem before_prefix (h : IsFirstSplit p s before after) : before <+: s :=
  ⟨p ++ after, by rw [h.eq, List.append_assoc]⟩

/-- An occurrence that begins before a given one ends before it does, so it is not made by what is
appended. -/
theorem append (h : IsFirstSplit p s before after) (t : List Char) :
    IsFirstSplit p (s ++ t) before (after ++ t) where
  eq := by simp [h.eq]
  first z hz := by
    by_contra hlt
    have hlength : (z ++ p).length ≤ s.length := by
      have := congrArg List.length h.eq
      simp only [List.length_append] at this ⊢
      omega
    exact hlt (h.first z (List.prefix_of_prefix_length_le hz (List.prefix_append s t) hlength))

/-- The first occurrence in a text is the first one in a part of the text that holds it. -/
theorem of_append (h : IsFirstSplit p (s ++ t) before (after ++ t)) :
    IsFirstSplit p s before after where
  eq := List.append_cancel_right (h.eq.trans (List.append_assoc _ _ _).symm)
  first z hz := h.first z (hz.trans (List.prefix_append s t))

theorem of_front (p after : List Char) : IsFirstSplit p (p ++ after) [] after :=
  ⟨rfl, fun z _ => Nat.zero_le z.length⟩

end IsFirstSplit

theorem isFirstSplit_of_splitAt? (h : splitAt? p s = some (before, after)) :
    IsFirstSplit p s before after := by
  refine ⟨eq_append_of_splitAt? h, ?_⟩
  induction s generalizing before with
  | nil =>
    simp only [splitAt?] at h
    split at h <;> simp_all
  | cons c s ih =>
    intro z hz
    simp only [splitAt?] at h
    split at h
    · obtain ⟨rfl, -⟩ : [] = before ∧ _ := by simpa using h
      exact Nat.zero_le _
    · next hfront =>
      obtain ⟨r, hr, he⟩ := Option.map_eq_some_iff.1 h
      cases he
      cases z with
      | nil => exact absurd hz (afterFront?_eq_none_iff.1 hfront)
      | cons d z =>
        exact Nat.succ_le_succ (ih hr z (List.cons_prefix_cons.1 hz).2)

/-- Nothing is found in a text that the pattern does not stand in. -/
theorem splitAt?_eq_none_iff : splitAt? p s = none ↔ ¬p <:+: s := by
  induction s with
  | nil => simp [splitAt?]
  | cons c s ih =>
    rw [List.infix_cons_iff, not_or, ← ih, ← afterFront?_eq_none_iff]
    simp only [splitAt?]
    cases afterFront? p (c :: s) <;> simp

/-- What is found is the first occurrence. -/
theorem splitAt?_eq_some_iff :
    splitAt? p s = some (before, after) ↔ IsFirstSplit p s before after := by
  refine ⟨isFirstSplit_of_splitAt?, fun h => ?_⟩
  have hinfix : p <:+: s := ⟨before, after, h.eq.symm⟩
  obtain ⟨⟨before', after'⟩, hsplit⟩ :=
    Option.ne_none_iff_exists'.1 (mt splitAt?_eq_none_iff.1 (not_not.2 hinfix))
  obtain ⟨rfl, rfl⟩ := h.unique (isFirstSplit_of_splitAt? hsplit)
  exact hsplit

/-- A search passes over a part in which no occurrence begins. -/
theorem splitAt?_append_left (h : ∀ z, z ++ p <+: before ++ s → before.length ≤ z.length) :
    splitAt? p (before ++ s) = (splitAt? p s).map fun r => (before ++ r.1, r.2) := by
  induction before with
  | nil => simp
  | cons c before ih =>
    have hfront : afterFront? p (c :: (before ++ s)) = none :=
      afterFront?_eq_none_iff.2 fun hp => by simpa using h [] hp
    have hrest := ih fun z hz =>
      Nat.le_of_succ_le_succ (h (c :: z) (List.cons_prefix_cons.2 ⟨rfl, hz⟩))
    simp only [List.cons_append, splitAt?, hfront, hrest, Option.map_map]
    rfl

/-- No occurrence begins in a part that does not hold the pattern, unless it goes on past the end,
and then the part ends with a character of the pattern. -/
theorem length_le_of_prefix (hnot : ¬p <:+: before) (hlast : ∀ c ∈ before.getLast?, c ∉ p)
    (hz : z ++ p <+: before ++ s) : before.length ≤ z.length := by
  by_contra hlt
  have hbefore : before <+: before ++ s := List.prefix_append _ _
  obtain ⟨w, rfl⟩ : z <+: before :=
    List.prefix_of_prefix_length_le ((List.prefix_append z p).trans hz) hbefore (by omega)
  have hw : w ≠ [] := by
    rintro rfl
    simp at hlt
  rcases Nat.le_total (z ++ p).length (z ++ w).length with hle | hle
  · have hin := List.prefix_of_prefix_length_le hz hbefore hle
    exact hnot (List.IsInfix.trans (List.suffix_append z p).isInfix hin.isInfix)
  · have hwp : w <+: p :=
      (List.prefix_append_right_inj z).1 (List.prefix_of_prefix_length_le hbefore hz hle)
    refine hlast (w.getLast hw) ?_ (hwp.subset (List.getLast_mem hw))
    rw [List.getLast?_append_of_ne_nil _ hw, List.getLast?_eq_some_getLast hw]
    rfl

end LedgerKit.Text
