import LedgerKit.Bytes.Basic
import LedgerKit.Text.Search

/-!
# Offsets in bytes

A text can be cut at an offset in bytes if that is not outside the text and not inside a character
(`cutAt?_eq_some_iff`).  What is cut elsewhere is nothing.
-/

namespace LedgerKit.Text

variable {a b cs pattern text : List Char} {n start stop : Nat}

/-- The number of bytes of a text. -/
def byteLength (cs : List Char) : Nat := (utf8Chars cs).length

@[simp] theorem byteLength_nil : byteLength [] = 0 := rfl

@[simp] theorem byteLength_append (a b : List Char) :
    byteLength (a ++ b) = byteLength a + byteLength b := by
  simp [byteLength]

theorem byteLength_cons (c : Char) (cs : List Char) :
    byteLength (c :: cs) = (String.utf8EncodeChar c).length + byteLength cs := by
  simp [byteLength, utf8Chars]

/-- The two parts of a text that is cut at an offset, neither outside nor inside a character. -/
def cutAt? : (offset : Nat) → List Char → Option (List Char × List Char)
  | 0, cs => some ([], cs)
  | _ + 1, [] => none
  | n + 1, c :: cs =>
    let width := (String.utf8EncodeChar c).length
    if width ≤ n + 1 then (cutAt? (n + 1 - width) cs).map fun r => (c :: r.1, r.2) else none

theorem width_pos (c : Char) : 0 < (String.utf8EncodeChar c).length := by
  rw [String.length_utf8EncodeChar]
  exact c.utf8Size_pos

/-- A text is cut at the offsets where one of its characters ends or begins, and at no others. -/
theorem cutAt?_eq_some_iff : cutAt? n cs = some (a, b) ↔ cs = a ++ b ∧ byteLength a = n := by
  constructor
  · intro h
    induction cs generalizing n a with
    | nil =>
      cases n with
      | zero =>
        obtain ⟨rfl, rfl⟩ : [] = a ∧ [] = b := by simpa [cutAt?] using h
        exact ⟨rfl, rfl⟩
      | succ n => simp [cutAt?] at h
    | cons c cs ih =>
      cases n with
      | zero =>
        obtain ⟨rfl, rfl⟩ : [] = a ∧ c :: cs = b := by simpa [cutAt?] using h
        exact ⟨rfl, rfl⟩
      | succ n =>
        simp only [cutAt?] at h
        split at h
        · next hwidth =>
          obtain ⟨r, hr, he⟩ := Option.map_eq_some_iff.1 h
          cases he
          obtain ⟨rfl, hlength⟩ := ih hr
          refine ⟨rfl, ?_⟩
          rw [byteLength_cons]
          omega
        · simp at h
  · rintro ⟨rfl, rfl⟩
    induction a with
    | nil => simp [cutAt?]
    | cons c a ih =>
      have hwidth := width_pos c
      obtain ⟨n, hn⟩ : ∃ n, byteLength (c :: a) = n + 1 :=
        Nat.exists_eq_succ_of_ne_zero (by rw [byteLength_cons]; omega)
      have hrest : n + 1 - (String.utf8EncodeChar c).length = byteLength a := by
        rw [← hn, byteLength_cons, Nat.add_sub_cancel_left]
      rw [hn, List.cons_append, cutAt?, if_pos (by rw [byteLength_cons] at hn; omega), hrest, ih]
      rfl

/-- The text from an offset on. -/
def sliceFrom? (text : List Char) (start : Nat) : Option (List Char) :=
  (cutAt? start text).map Prod.snd

/-- The text from one offset to another. -/
def slice? (text : List Char) (start stop : Nat) : Option (List Char) := do
  let ahead ← sliceFrom? text start
  if start ≤ stop then (cutAt? (stop - start) ahead).map Prod.fst else none

theorem sliceFrom?_eq_some (a : List Char) (htext : text = a ++ b) (hstart : start = byteLength a) :
    sliceFrom? text start = some b := by
  rw [sliceFrom?, cutAt?_eq_some_iff.2 ⟨htext, hstart.symm⟩]
  rfl

theorem exists_of_sliceFrom? (h : sliceFrom? text start = some b) :
    ∃ a, text = a ++ b ∧ byteLength a = start := by
  obtain ⟨⟨a, b'⟩, hcut, rfl⟩ := Option.map_eq_some_iff.1 h
  exact ⟨a, cutAt?_eq_some_iff.1 hcut⟩

theorem byteLength_of_sliceFrom? (h : sliceFrom? text start = some b) :
    byteLength text = start + byteLength b := by
  obtain ⟨a, rfl, rfl⟩ := exists_of_sliceFrom? h
  exact byteLength_append a b

theorem slice?_eq_some (a b : List Char) (htext : text = a ++ (cs ++ b))
    (hstart : start = byteLength a) (hstop : stop = start + byteLength cs) :
    slice? text start stop = some cs := by
  have hcut : cutAt? (stop - start) (cs ++ b) = some (cs, b) :=
    cutAt?_eq_some_iff.2 ⟨rfl, by omega⟩
  rw [slice?, sliceFrom?_eq_some a htext hstart]
  simp [hcut, show start ≤ stop by omega]

/-- The offset at which a pattern stands first. -/
def find? (pattern text : List Char) : Option Nat :=
  (splitAt? pattern text).map fun r => byteLength r.1

theorem le_byteLength_of_find? (h : find? pattern text = some n) :
    n + byteLength pattern ≤ byteLength text := by
  obtain ⟨⟨before, after⟩, hsplit, rfl⟩ := Option.map_eq_some_iff.1 h
  rw [eq_append_of_splitAt? hsplit, byteLength_append, byteLength_append]
  exact Nat.le_add_right _ _

end LedgerKit.Text
