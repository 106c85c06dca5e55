/-!
# Searching and splitting a text

The first occurrence of a pattern, the first occurrence of a single separating character, and the
words between the characters with the property `White_Space`.
-/

namespace LedgerKit.Text

/-! ### Occurrences -/

/-- What follows a pattern that a text begins with. -/
def afterFront? : (pattern : List Char) → List Char → Option (List Char)
  | [], cs => some cs
  | p :: ps, c :: cs => if p = c then afterFront? ps cs else none
  | _ :: _, [] => none

/-- What stands before and after the first occurrence of a pattern. -/
def splitAt? (pattern : List Char) : List Char → Option (List Char × List Char)
  | [] => if pattern.isEmpty then some ([], []) else none
  | c :: cs =>
    match afterFront? pattern (c :: cs) with
    | some rest => some ([], rest)
    | none => (splitAt? pattern cs).map fun r => (c :: r.1, r.2)

/-- What stands before the first separator and, if there is one, what stands after it. -/
def splitOnce (separator : Char) : List Char → List Char × Option (List Char)
  | [] => ([], none)
  | c :: cs =>
    if c = separator then ([], some cs)
    else
      let r := splitOnce separator cs
      (c :: r.1, r.2)

theorem eq_append_of_afterFront? {p s rest : List Char} (h : afterFront? p s = some rest) :
    s = p ++ rest := by
  induction p generalizing s with
  | nil => simp_all [afterFront?]
  | cons a p ih =>
    cases s with
    | nil => simp [afterFront?] at h
    | cons b s =>
      simp only [afterFront?] at h
      split at h
      · next hab => rw [hab, ih h, List.cons_append]
      · simp at h

/-- A found pattern and its two sides make up the whole text. -/
theorem eq_append_of_splitAt? {p s before after : List Char}
    (h : splitAt? p s = some (before, after)) : s = before ++ p ++ after := by
  induction s generalizing before with
  | nil =>
    simp only [splitAt?, List.isEmpty_iff] at h
    split at h <;> simp_all
  | cons c s ih =>
    simp only [splitAt?] at h
    split at h
    · next rest hp =>
      have := eq_append_of_afterFront? hp
      simp_all
    · obtain ⟨r, hr, he⟩ := Option.map_eq_some_iff.1 h
      cases he
      simp [ih hr]

/-! ### Words -/

/-- The characters that separate words. -/
def isBlank (c : Char) : Bool :=
  let n := c.toNat
  (0x9 ≤ n && n ≤ 0xd) || n == 0x20 || n == 0x85 || n == 0xa0 || n == 0x1680
    || (0x2000 ≤ n && n ≤ 0x200a) || n == 0x2028 || n == 0x2029 || n == 0x202f || n == 0x205f
    || n == 0x3000

/-- The longest runs without white space, in order. -/
def words (cs : List Char) : List (List Char) := (cs.splitOnP isBlank).filter fun w => !w.isEmpty

end LedgerKit.Text
