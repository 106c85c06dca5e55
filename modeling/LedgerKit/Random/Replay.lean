import LedgerKit.Random.Source

/-!
# Sources that replay a list

`ReplaySource` yields the same bytes again and again, which makes everything drawn from it
predictable.  `byteAt i` is byte number `i` of the endless repetition.  `WordReplay` goes byte by
byte and counts in 64 bits.
-/

namespace LedgerKit

/-! ### Counting without a bound -/

/-- Bytes to be repeated without end, and how many have been drawn. -/
structure ReplaySource where
  /-- The bytes to be repeated. -/
  cycle : Bytes
  /-- There is at least one. -/
  cycle_ne_nil : cycle ≠ []
  /-- The number of bytes drawn so far. -/
  consumed : Nat := 0

namespace ReplaySource

/-- A source that repeats these bytes; none count as a single zero. -/
def ofBytes : Bytes → ReplaySource
  | [] => ⟨[0], by simp, 0⟩
  | b :: bs => ⟨b :: bs, by simp, 0⟩

/-- A source that yields one byte only. -/
def constant (b : UInt8) : ReplaySource := ofBytes [b]

/-- A source that yields zeros. -/
def zeros : ReplaySource := constant 0

/-- The byte with number `i` of the endless repetition. -/
def byteAt (s : ReplaySource) (i : Nat) : UInt8 :=
  s.cycle.get ⟨i % s.cycle.length, Nat.mod_lt _ (List.length_pos_iff.2 s.cycle_ne_nil)⟩

/-- The next `n` bytes. -/
def upcoming (s : ReplaySource) (n : Nat) : Block n :=
  ⟨(List.range n).map fun i => s.byteAt (s.consumed + i), by simp⟩

instance : RandomSource ReplaySource where
  draw n s := (s.upcoming n, { s with consumed := s.consumed + n })

end ReplaySource

/-! ### Counting in 64 bits -/

/-- Bytes to be repeated without end, with a count of 64 bits of those that have been drawn. -/
structure WordReplay where
  /-- The bytes to be repeated. -/
  cycle : Bytes
  /-- There is at least one. -/
  cycle_ne_nil : cycle ≠ []
  /-- The number of bytes drawn so far. -/
  index : UInt64 := 0

namespace WordReplay

/-- A source that repeats these bytes; none count as a single zero. -/
def ofBytes : Bytes → WordReplay
  | [] => ⟨[0], List.cons_ne_nil 0 [], 0⟩
  | b :: bs => ⟨b :: bs, List.cons_ne_nil b bs, 0⟩

/-- The next byte, and the source with one more counted. -/
def next (w : WordReplay) : UInt8 × WordReplay :=
  (w.cycle.get
      ⟨w.index.toNat % w.cycle.length, Nat.mod_lt _ (List.length_pos_iff.2 w.cycle_ne_nil)⟩,
    { w with index := w.index + 1 })

/-- Draws byte after byte. -/
def fill : (n : Nat) → WordReplay → Block n × WordReplay
  | 0, w => (⟨[], rfl⟩, w)
  | n + 1, w => (fill n w.next.2).map (fun b => ⟨w.next.1 :: b.toBytes, by simp⟩) id

instance : RandomSource WordReplay where
  draw := fill

end WordReplay

end LedgerKit
