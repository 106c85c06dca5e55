import LedgerKit.Bytes.Basic

/-!
# The field of the curve

The integers modulo `2 ^ 255 - 19`.  Powers are taken bit by bit of the exponent, which gives
inverses and square roots.
-/

namespace LedgerKit.Ed25519

/-- The order of the field, `2 ^ 255 - 19`. -/
abbrev prime : Nat := 0x7fffffffffffffffffffffffffffffffffffffffffffffffffffffffffffffed

instance : @NeZero Nat Zero.ofOfNat0 prime := Nat.instNeZeroSucc

/-- An element of the field. -/
abbrev Field : Type := Fin prime

namespace Field

/-- The power of `a` by the lowest `width` bits of `n`. -/
def powBits : (width n : Nat) → (a : Field) → Field
  | 0, _, _ => 1
  | width + 1, n, a =>
    let r := powBits width (n / 2) (a * a)
    if n % 2 = 1 then r * a else r

/-- The inverse of an element; zero is sent to zero. -/
def inverse (a : Field) : Field := powBits 255 (prime - 2) a

/-- A square root of minus one. -/
def rootOfMinusOne : Field :=
  19681161376707505956807079304988542015446066515923890162744021073123829784752

/-- The square roots of an element come in pairs `x` and `-x`; this is the even one. -/
def evenRoot (x : Field) : Field := if x.val % 2 = 0 then x else -x

/-- The even square root of `u / v`, if it has one, for `v` other than zero. -/
def sqrtRatio? (u v : Field) : Option Field :=
  let v3 := v * v * v
  let x := u * v3 * powBits 252 ((prime - 5) / 8) (u * v3 * v3 * v)
  let w := v * x * x
  if w = u then some (evenRoot x)
  else if w = -u then some (evenRoot (x * rootOfMinusOne))
  else none

end Field

end LedgerKit.Ed25519
