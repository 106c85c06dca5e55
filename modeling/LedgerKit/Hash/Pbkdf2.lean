import LedgerKit.Hash.Hmac

/-!
# Keys from passwords

PBKDF2 over a keyed digest.  Every block of output is the exclusive or of a chain of digests that
starts from the salt and the number of the block.  The chain has at least one link: to ask for none
is to ask for one.
-/

namespace LedgerKit

namespace Pbkdf2

variable {n : Nat}

/-- Goes on from the link `u` for `rounds` more links and adds them to `sum`. -/
@[specialize] def chain (prf : Bytes → Block n) : (rounds : Nat) → (u sum : Block n) → Block n
  | 0, _, sum => sum
  | rounds + 1, u, sum =>
    let next := prf u.toBytes
    chain prf rounds next (sum.xor next)

/-- The block of output with this number; the first is number one. -/
@[specialize] def block (prf : Bytes → Block n) (salt : Bytes) (rounds number : Nat) : Block n :=
  let u := prf (salt ++ Bytes.ofNatBE 4 number)
  chain prf (rounds - 1) u u

/-- The `count` blocks of output from the given number on, one after the other. -/
@[specialize] def blocks (prf : Bytes → Block n) (salt : Bytes) (rounds : Nat) :
    (count number : Nat) → Bytes
  | 0, _ => []
  | count + 1, number =>
    (block prf salt rounds number).toBytes ++ blocks prf salt rounds count (number + 1)

@[simp] theorem length_blocks (prf : Bytes → Block n) (salt : Bytes) (rounds count number : Nat) :
    (blocks prf salt rounds count number).length = count * n := by
  induction count generalizing number with
  | zero => simp [blocks]
  | succ count ih => simp [blocks, ih, Nat.succ_mul, Nat.add_comm]

/-- The number of blocks that are needed for `size` bytes is enough. -/
theorem le_ceilDiv_mul (size n : Nat) (h : 0 < n) : size ≤ (size + n - 1) / n * n := by
  have := Nat.div_add_mod (size + n - 1) n
  have := Nat.mod_lt (size + n - 1) h
  rw [Nat.mul_comm n] at *
  omega

end Pbkdf2

namespace Sha2.Variant

variable {W : Type} [Word W]

/-- A key of `size` bytes for a password. -/
@[specialize] def pbkdf2 (v : Variant W) (password salt : Bytes) (rounds size : Nat) : Block size :=
  let key := v.macKey password
  Block.ofPrefix size (Pbkdf2.blocks (v.mac key) salt rounds ((size + v.size - 1) / v.size) 1)
    (by simpa using Pbkdf2.le_ceilDiv_mul size v.size v.size_pos)

end Sha2.Variant

end LedgerKit
