import LedgerKit.Ed25519.Field

/-!
# Points of the curve

The twisted Edwards curve `-x² + y² = 1 + d x² y²`.  A point is kept in extended coordinates, in
which one formula adds any two points.

The encoding of a point is its `y` in 255 bits, with the parity of `x` as the last bit.  Decoding
takes `y` modulo the order of the field and does not ask that the parity bit of `x = 0` be clear, so
some points have more than one encoding.
-/

namespace LedgerKit.Ed25519

/-- A point, with `x / z` and `y / z` as its coordinates and `t / z` as their product. -/
structure Point where
  x : Field
  y : Field
  z : Field
  t : Field
deriving DecidableEq

/-- The coefficient `d` of the curve. -/
def curveD : Field :=
  37095705934669439343138083508754565189542113879843219016388785533085940283555

namespace Point

/-- The neutral point. -/
def zero : Point := ⟨0, 1, 1, 0⟩

/-- The point with these coordinates. -/
def ofAffine (x y : Field) : Point := ⟨x, y, 1, x * y⟩

/-- The point that keys and signatures are multiples of. -/
def base : Point :=
  ofAffine 15112221349535400772501151409588531511454012693041857206046113283949847762202
    46316835694926478169428394003475163141307993866256225615783033603165251855960

/-- The sum of two points. -/
def add (p q : Point) : Point :=
  let a := (p.y - p.x) * (q.y - q.x)
  let b := (p.y + p.x) * (q.y + q.x)
  let c := p.t * (curveD + curveD) * q.t
  let d := (p.z + p.z) * q.z
  let e := b - a
  let f := d - c
  let g := d + c
  let h := b + a
  ⟨e * f, g * h, f * g, e * h⟩

/-- The opposite point. -/
def neg (p : Point) : Point := ⟨-p.x, p.y, p.z, -p.t⟩

/-- The multiple of a point by the lowest `width` bits of `n`. -/
def mulBits : (width n : Nat) → Point → Point
  | 0, _, _ => zero
  | width + 1, n, p =>
    let q := mulBits width (n / 2) (p.add p)
    if n % 2 = 1 then q.add p else q

/-- The multiple of a point by a number below `2 ^ 256`. -/
def mul (n : Nat) (p : Point) : Point := mulBits 256 n p

/-- The value of the last bit of an encoding, `2 ^ 255`. -/
def parityBit : Nat := 0x8000000000000000000000000000000000000000000000000000000000000000

/-- The encoding of a point. -/
def encode (p : Point) : Block 32 :=
  let i := p.z.inverse
  Block.ofNatLE 32 ((p.y * i).val + parityBit * ((p.x * i).val % 2))

/-- The point of an encoding, if its `y` is that of a point. -/
def decode? (b : Block 32) : Option Point :=
  let n := Bytes.littleEndian b.toBytes
  let y : Field := Fin.ofNat prime (n % parityBit)
  (Field.sqrtRatio? (y * y - 1) (curveD * y * y + 1)).map fun x =>
    ofAffine (if n < parityBit then x else -x) y

end Point

end LedgerKit.Ed25519
