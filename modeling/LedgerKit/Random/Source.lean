import LedgerKit.Bytes.Basic

/-!
# Sources of random bytes

Keys and phrases are drawn from a source, which is a state that yields as many bytes as are asked
for.
-/

namespace LedgerKit

/-- A state from which bytes can be drawn. -/
class RandomSource (σ : Type) where
  /-- Draws `n` bytes and goes on to the next state. -/
  draw : (n : Nat) → σ → Block n × σ

/-- A source that has no bytes to give. -/
inductive Unavailable where
  | unavailable
deriving DecidableEq, Repr

namespace RandomSource

variable {σ : Type} [RandomSource σ]

/-- Draws `n` bytes for a caller that is prepared to get none.  No source here is ever without. -/
def tryDraw (n : Nat) (s : σ) : Except Unavailable (Block n) × σ :=
  let (b, s) := draw n s
  (.ok b, s)

/-- Draws four bytes as a number, the least significant first. -/
def drawUInt32 (s : σ) : UInt32 × σ :=
  let (b, s) := draw 4 s
  (UInt32.ofNat (Bytes.littleEndian b.toBytes), s)

/-- Draws eight bytes as a number, the least significant first. -/
def drawUInt64 (s : σ) : UInt64 × σ :=
  let (b, s) := draw 8 s
  (UInt64.ofNat (Bytes.littleEndian b.toBytes), s)

end RandomSource

end LedgerKit
