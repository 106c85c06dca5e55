import LedgerKit.Bytes.Basic

/-!
# The SHA-2 family

One definition for both word sizes.  `Word` collects what depends on the size: the mixing functions,
the round constants and the byte form of a word; `Variant` fixes where a hash starts and how much of
the last state it keeps.

A hash can be continued: `absorb` takes whole blocks into a state and `finish` ends a message of
which some bytes have been absorbed already (`digest` is `finish` from the start).  Keyed hashes use
this to absorb their key once.
-/

namespace LedgerKit.Sha2

/-- The words of one member size of the family. -/
class Word (W : Type) extends Add W, XorOp W, AndOp W, Complement W, OfNat W 0 where
  /-- The bytes in a word. -/
  width : Nat
  /-- A word has bytes. -/
  width_pos : 0 < width
  /-- Mixes the first word of the state. -/
  bigSigma0 : W → W
  /-- Mixes the fifth word of the state. -/
  bigSigma1 : W → W
  /-- Mixes the word fifteen places back in the schedule. -/
  smallSigma0 : W → W
  /-- Mixes the word two places back in the schedule. -/
  smallSigma1 : W → W
  /-- One constant for each round. -/
  constants : List W
  /-- The word of these bytes, the most significant first. -/
  ofBytes : Bytes → W
  /-- The bytes of a word, the most significant first. -/
  toBlock : W → Block width

/-- The eight words that a hash carries along. -/
structure State (W : Type) where
  a : W
  b : W
  c : W
  d : W
  e : W
  f : W
  g : W
  h : W
deriving DecidableEq

section

variable {W : Type} [Word W]

/-- The bytes of a message block: sixteen words. -/
@[specialize] def blockLength (W : Type) [Word W] : Nat := 16 * Word.width W

/-- The words of a block. -/
@[specialize] def wordsOf : Nat → Bytes → List W
  | 0, _ => []
  | n + 1, bs => Word.ofBytes (bs.take (Word.width W)) :: wordsOf n (bs.drop (Word.width W))

/-- The schedule is extended by `n` words; the latest word stands first. -/
@[specialize] def extendSchedule : Nat → List W → List W
  | 0, ws => ws
  | n + 1, ws =>
    extendSchedule n ((Word.smallSigma1 (ws.getD 1 0) + ws.getD 6 0
      + Word.smallSigma0 (ws.getD 14 0) + ws.getD 15 0) :: ws)

/-- One word for each round. -/
@[specialize] def schedule (block : Bytes) : List W :=
  (extendSchedule ((Word.constants : List W).length - 16) (wordsOf 16 block).reverse).reverse

/-- One round, with its constant and its word of the schedule added up. -/
@[specialize] def round (s : State W) (kw : W) : State W :=
  let t := s.h + Word.bigSigma1 s.e + ((s.e &&& s.f) ^^^ (~~~s.e &&& s.g)) + kw
  let u := Word.bigSigma0 s.a + ((s.a &&& s.b) ^^^ (s.a &&& s.c) ^^^ (s.b &&& s.c))
  ⟨t + u, s.a, s.b, s.c, s.d + t, s.e, s.f, s.g⟩

/-- Takes one block into the state. -/
@[specialize] def compress (s : State W) (block : Bytes) : State W :=
  let r := (List.zipWith (· + ·) Word.constants (schedule block)).foldl round s
  ⟨s.a + r.a, s.b + r.b, s.c + r.c, s.d + r.d, s.e + r.e, s.f + r.f, s.g + r.g, s.h + r.h⟩

/-- Takes the first `n` blocks of some bytes into the state. -/
@[specialize] def absorbBlocks : Nat → State W → Bytes → State W
  | 0, s, _ => s
  | n + 1, s, bs =>
    absorbBlocks n (compress s (bs.take (blockLength W))) (bs.drop (blockLength W))

/-- Takes all whole blocks of some bytes into the state. -/
@[specialize] def absorb (s : State W) (bs : Bytes) : State W :=
  absorbBlocks (bs.length / blockLength W) s bs

/-- What follows a message of `n` bytes: a one bit, zeros, and the number of bits. -/
@[specialize] def padding (W : Type) [Word W] (n : Nat) : Bytes :=
  let block := blockLength W
  let tail := 1 + 2 * Word.width W
  0x80 :: List.replicate ((block - (n + tail) % block) % block) 0
    ++ Bytes.ofNatBE (2 * Word.width W) (8 * n)

/-- Ends a message of which `absorbed` bytes, whole blocks, are in the state already. -/
@[specialize] def finish (s : State W) (absorbed : Nat) (rest : Bytes) : State W :=
  absorb s (rest ++ padding W (absorbed + rest.length))

/-- The bytes of a state. -/
@[specialize] def State.toBytes (s : State W) : Bytes :=
  (Word.toBlock s.a).toBytes ++ (Word.toBlock s.b).toBytes ++ (Word.toBlock s.c).toBytes
    ++ (Word.toBlock s.d).toBytes ++ (Word.toBlock s.e).toBytes ++ (Word.toBlock s.f).toBytes
    ++ (Word.toBlock s.g).toBytes ++ (Word.toBlock s.h).toBytes

@[simp] theorem State.length_toBytes (s : State W) : s.toBytes.length = 8 * Word.width W := by
  simp [State.toBytes]
  omega

end

/-- One hash of the family. -/
structure Variant (W : Type) [Word W] where
  /-- The state before the first block. -/
  start : State W
  /-- The bytes kept of the last state. -/
  size : Nat
  /-- The state holds as many. -/
  size_le : size ≤ 8 * Word.width W
  /-- A digest is not empty. -/
  size_pos : 0 < size

section

variable {W : Type} [Word W]

/-- The digest that ends in this state. -/
@[specialize] def Variant.output (v : Variant W) (s : State W) : Block v.size :=
  Block.ofPrefix v.size s.toBytes (by simp [v.size_le])

/-- The digest of a message. -/
@[specialize] def Variant.digest (v : Variant W) (message : Bytes) : Block v.size :=
  v.output (finish v.start 0 message)

end

/-- The word of a list of bytes, the most significant first. -/
def word64 (bs : Bytes) : UInt64 := bs.foldl (fun w (b : UInt8) => w <<< 8 ||| b.toUInt64) 0

/-- The word of a list of bytes, the most significant first. -/
def word32 (bs : Bytes) : UInt32 := bs.foldl (fun w (b : UInt8) => w <<< 8 ||| b.toUInt32) 0

/-- Turns a word to the right by `n` bits, `0 < n < 64`. -/
@[inline] def rotate64 (w n : UInt64) : UInt64 := w >>> n ||| w <<< (64 - n)

/-- Turns a word to the right by `n` bits, `0 < n < 32`. -/
@[inline] def rotate32 (w n : UInt32) : UInt32 := w >>> n ||| w <<< (32 - n)

/-- The first 64 bits of the fractional parts of the cube roots of the first eighty primes. -/
def constants64 : List UInt64 :=
  [0x428a2f98d728ae22, 0x7137449123ef65cd, 0xb5c0fbcfec4d3b2f, 0xe9b5dba58189dbbc,
   0x3956c25bf348b538, 0x59f111f1b605d019, 0x923f82a4af194f9b, 0xab1c5ed5da6d8118,
   0xd807aa98a3030242, 0x12835b0145706fbe, 0x243185be4ee4b28c, 0x550c7dc3d5ffb4e2,
   0x72be5d74f27b896f, 0x80deb1fe3b1696b1, 0x9bdc06a725c71235, 0xc19bf174cf692694,
   0xe49b69c19ef14ad2, 0xefbe4786384f25e3, 0x0fc19dc68b8cd5b5, 0x240ca1cc77ac9c65,
   0x2de92c6f592b0275, 0x4a7484aa6ea6e483, 0x5cb0a9dcbd41fbd4, 0x76f988da831153b5,
   0x983e5152ee66dfab, 0xa831c66d2db43210, 0xb00327c898fb213f, 0xbf597fc7beef0ee4,
   0xc6e00bf33da88fc2, 0xd5a79147930aa725, 0x06ca6351e003826f, 0x142929670a0e6e70,
   0x27b70a8546d22ffc, 0x2e1b21385c26c926, 0x4d2c6dfc5ac42aed, 0x53380d139d95b3df,
   0x650a73548baf63de, 0x766a0abb3c77b2a8, 0x81c2c92e47edaee6, 0x92722c851482353b,
   0xa2bfe8a14cf10364, 0xa81a664bbc423001, 0xc24b8b70d0f89791, 0xc76c51a30654be30,
   0xd192e819d6ef5218, 0xd69906245565a910, 0xf40e35855771202a, 0x106aa07032bbd1b8,
   0x19a4c116b8d2d0c8, 0x1e376c085141ab53, 0x2748774cdf8eeb99, 0x34b0bcb5e19b48a8,
   0x391c0cb3c5c95a63, 0x4ed8aa4ae3418acb, 0x5b9cca4f7763e373, 0x682e6ff3d6b2b8a3,
   0x748f82ee5defb2fc, 0x78a5636f43172f60, 0x84c87814a1f0ab72, 0x8cc702081a6439ec,
   0x90befffa23631e28, 0xa4506cebde82bde9, 0xbef9a3f7b2c67915, 0xc67178f2e372532b,
   0xca273eceea26619c, 0xd186b8c721c0c207, 0xeada7dd6cde0eb1e, 0xf57d4f7fee6ed178,
   0x06f067aa72176fba, 0x0a637dc5a2c898a6, 0x113f9804bef90dae, 0x1b710b35131c471b,
   0x28db77f523047d84, 0x32caab7b40c72493, 0x3c9ebe0a15c9bebc, 0x431d67c49c100d4c,
   0x4cc5d4becb3e42b6, 0x597f299cfc657e2a, 0x5fcb6fab3ad6faec, 0x6c44198c4a475817]

/-- The first 32 bits of the fractional parts of the cube roots of the first sixty-four primes. -/
def constants32 : List UInt32 :=
  [0x428a2f98, 0x71374491, 0xb5c0fbcf, 0xe9b5dba5, 0x3956c25b, 0x59f111f1, 0x923f82a4,
   0xab1c5ed5, 0xd807aa98, 0x12835b01, 0x243185be, 0x550c7dc3, 0x72be5d74, 0x80deb1fe,
   0x9bdc06a7, 0xc19bf174, 0xe49b69c1, 0xefbe4786, 0x0fc19dc6, 0x240ca1cc, 0x2de92c6f,
   0x4a7484aa, 0x5cb0a9dc, 0x76f988da, 0x983e5152, 0xa831c66d, 0xb00327c8, 0xbf597fc7,
   0xc6e00bf3, 0xd5a79147, 0x06ca6351, 0x14292967, 0x27b70a85, 0x2e1b2138, 0x4d2c6dfc,
   0x53380d13, 0x650a7354, 0x766a0abb, 0x81c2c92e, 0x92722c85, 0xa2bfe8a1, 0xa81a664b,
   0xc24b8b70, 0xc76c51a3, 0xd192e819, 0xd6990624, 0xf40e3585, 0x106aa070, 0x19a4c116,
   0x1e376c08, 0x2748774c, 0x34b0bcb5, 0x391c0cb3, 0x4ed8aa4a, 0x5b9cca4f, 0x682e6ff3,
   0x748f82ee, 0x78a5636f, 0x84c87814, 0x8cc70208, 0x90befffa, 0xa4506ceb, 0xbef9a3f7,
   0xc67178f2]

instance : Word UInt64 where
  width := 8
  width_pos := by decide
  bigSigma0 w := rotate64 w 28 ^^^ rotate64 w 34 ^^^ rotate64 w 39
  bigSigma1 w := rotate64 w 14 ^^^ rotate64 w 18 ^^^ rotate64 w 41
  smallSigma0 w := rotate64 w 1 ^^^ rotate64 w 8 ^^^ w >>> 7
  smallSigma1 w := rotate64 w 19 ^^^ rotate64 w 61 ^^^ w >>> 6
  constants := constants64
  ofBytes := word64
  toBlock w := ⟨[(w >>> 56).toUInt8, (w >>> 48).toUInt8, (w >>> 40).toUInt8, (w >>> 32).toUInt8,
    (w >>> 24).toUInt8, (w >>> 16).toUInt8, (w >>> 8).toUInt8, w.toUInt8], rfl⟩

instance : Word UInt32 where
  width := 4
  width_pos := by decide
  bigSigma0 w := rotate32 w 2 ^^^ rotate32 w 13 ^^^ rotate32 w 22
  bigSigma1 w := rotate32 w 6 ^^^ rotate32 w 11 ^^^ rotate32 w 25
  smallSigma0 w := rotate32 w 7 ^^^ rotate32 w 18 ^^^ w >>> 3
  smallSigma1 w := rotate32 w 17 ^^^ rotate32 w 19 ^^^ w >>> 10
  constants := constants32
  ofBytes := word32
  toBlock w := ⟨[(w >>> 24).toUInt8, (w >>> 16).toUInt8, (w >>> 8).toUInt8, w.toUInt8], rfl⟩

/-- SHA-512. -/
def sha512 : Variant UInt64 where
  start := ⟨0x6a09e667f3bcc908, 0xbb67ae8584caa73b, 0x3c6ef372fe94f82b, 0xa54ff53a5f1d36f1,
    0x510e527fade682d1, 0x9b05688c2b3e6c1f, 0x1f83d9abfb41bd6b, 0x5be0cd19137e2179⟩
  size := 64
  size_le := by decide
  size_pos := by decide

/-- SHA-384. -/
def sha384 : Variant UInt64 where
  start := ⟨0xcbbb9d5dc1059ed8, 0x629a292a367cd507, 0x9159015a3070dd17, 0x152fecd8f70e5939,
    0x67332667ffc00b31, 0x8eb44a8768581511, 0xdb0c2e0d64f98fa7, 0x47b5481dbefa4fa4⟩
  size := 48
  size_le := by decide
  size_pos := by decide

/-- SHA-256. -/
def sha256 : Variant UInt32 where
  start := ⟨0x6a09e667, 0xbb67ae85, 0x3c6ef372, 0xa54ff53a,
    0x510e527f, 0x9b05688c, 0x1f83d9ab, 0x5be0cd19⟩
  size := 32
  size_le := by decide
  size_pos := by decide

/-- SHA-224. -/
def sha224 : Variant UInt32 where
  start := ⟨0xc1059ed8, 0x367cd507, 0x3070dd17, 0xf70e5939,
    0xffc00b31, 0x68581511, 0x64f98fa7, 0xbefa4fa4⟩
  size := 28
  size_le := by decide
  size_pos := by decide

end LedgerKit.Sha2
