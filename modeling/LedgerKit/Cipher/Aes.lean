import LedgerKit.Bytes.Basic

/-!
# Decrypting with AES

The inverse cipher, for keys of 16, 24 and 32 bytes.  Bytes are elements of the field of 256
elements, and the substitution of a byte is computed in that field: its inverse, followed by an
affine map of its bits.
-/

namespace LedgerKit.Aes

/-- Twice a field element. -/
def double (b : UInt8) : UInt8 := b <<< 1 ^^^ (if b &&& 0x80 = 0 then 0 else 0x1b)

/-- The product of `a` with the lowest `n` bits of `b`. -/
def mulBits : (n : Nat) → (a b : UInt8) → UInt8
  | 0, _, _ => 0
  | n + 1, a, b => (if b &&& 1 = 0 then 0 else a) ^^^ mulBits n (double a) (b >>> 1)

/-- The product of two field elements. -/
def mul (a b : UInt8) : UInt8 := mulBits 8 a b

/-- The product of the squares of `a` taken `n` times in turn. -/
def squares : (n : Nat) → (a : UInt8) → UInt8
  | 0, _ => 1
  | n + 1, a =>
    let s := mul a a
    mul s (squares n s)

/-- The inverse of a field element, which is its 254th power; zero is sent to zero. -/
def inverse (a : UInt8) : UInt8 := squares 7 a

/-- Turns the bits of a byte to the left. -/
def rotate (b n : UInt8) : UInt8 := b <<< n ||| b >>> (8 - n)

/-- The substitution of a byte. -/
def substitute (b : UInt8) : UInt8 :=
  let i := inverse b
  i ^^^ rotate i 1 ^^^ rotate i 2 ^^^ rotate i 3 ^^^ rotate i 4 ^^^ 0x63

/-- The byte whose substitution this is. -/
def restore (b : UInt8) : UInt8 := inverse (rotate b 1 ^^^ rotate b 3 ^^^ rotate b 6 ^^^ 0x05)

/-- The first byte moves to the end. -/
def turn : Bytes → Bytes
  | [] => []
  | b :: bs => bs ++ [b]

/-- What is added to the word `keyWords` places back to make word number `i`, `previous` being the
word before it and `constant` the constant of the round. -/
def scheduleWord (keyWords i : Nat) (constant : UInt8) (previous : Bytes) : Bytes :=
  if i % keyWords = 0 then Bytes.xor ((turn previous).map substitute) [constant, 0, 0, 0]
  else if keyWords > 6 ∧ i % keyWords = 4 then previous.map substitute
  else previous

/-- Extends the words of a key, the latest first, by `n` words, of which the next has number `i`. -/
def extendKey (keyWords : Nat) : (n i : Nat) → (constant : UInt8) → List Bytes → List Bytes
  | 0, _, _, ws => ws
  | n + 1, i, constant, ws =>
    let w := Bytes.xor (ws.getD (keyWords - 1) []) (scheduleWord keyWords i constant (ws.headD []))
    extendKey keyWords n (i + 1) (if i % keyWords = 0 then double constant else constant) (w :: ws)

/-- Cuts `n` pieces of `size` bytes. -/
def pieces (size : Nat) : (n : Nat) → Bytes → List Bytes
  | 0, _ => []
  | n + 1, bs => bs.take size :: pieces size n (bs.drop size)

/-- The keys of the rounds, of 16 bytes each; there are seven more than words in the key. -/
def roundKeys (key : Bytes) : List Bytes :=
  let keyWords := key.length / 4
  let rounds := keyWords + 7
  let words := extendKey keyWords (4 * rounds - keyWords) keyWords 1 (pieces 4 keyWords key).reverse
  pieces 16 rounds words.reverse.flatten

/-- The rows turn to the right, the first not at all, the last by three columns. -/
def unshiftRows (s : Bytes) : Bytes :=
  [0, 13, 10, 7, 4, 1, 14, 11, 8, 5, 2, 15, 12, 9, 6, 3].map fun i => s.getD i 0

/-- The columns are multiplied by the inverse of the matrix that mixed them. -/
def unmixColumns : Bytes → Bytes
  | a :: b :: c :: d :: rest =>
    (mul 14 a ^^^ mul 11 b ^^^ mul 13 c ^^^ mul 9 d)
      :: (mul 9 a ^^^ mul 14 b ^^^ mul 11 c ^^^ mul 13 d)
      :: (mul 13 a ^^^ mul 9 b ^^^ mul 14 c ^^^ mul 11 d)
      :: (mul 11 a ^^^ mul 13 b ^^^ mul 9 c ^^^ mul 14 d)
      :: unmixColumns rest
  | rest => rest

/-- Undoes the rounds whose keys are given, the last round first. -/
def undoRounds : List Bytes → Bytes → Bytes
  | [], s => s
  | [key], s => Bytes.xor ((unshiftRows s).map restore) key
  | key :: keys, s => undoRounds keys (unmixColumns (Bytes.xor ((unshiftRows s).map restore) key))

/-- Decrypts a block of 16 bytes with the keys of the rounds, the last one first. -/
def decryptBlock : (keysReversed : List Bytes) → Bytes → Bytes
  | [], s => s
  | key :: keys, s => undoRounds keys (Bytes.xor s key)

/-- Decrypts `n` chained blocks, `previous` being the block before the first. -/
def decryptChain (keysReversed : List Bytes) : (n : Nat) → (previous : Bytes) → Bytes → Bytes
  | 0, _, _ => []
  | n + 1, previous, bs =>
    let block := bs.take 16
    Bytes.xor (decryptBlock keysReversed block) previous
      ++ decryptChain keysReversed n block (bs.drop 16)

/-- What stands before the padding: the last byte tells how many bytes were added, one to sixteen,
and all of them are that byte. -/
def unpad? (bs : Bytes) : Option Bytes :=
  match bs.getLast? with
  | none => none
  | some last =>
    let n := last.toNat
    let content := bs.take (bs.length - n)
    if 1 ≤ n ∧ n ≤ 16 ∧ bs = content ++ List.replicate n last then some content else none

/-- Decrypts whole blocks chained from `iv` and removes the padding. -/
def decryptCbc? (key iv ciphertext : Bytes) : Option Bytes :=
  if ciphertext.length % 16 = 0 then
    unpad? (decryptChain (roundKeys key).reverse (ciphertext.length / 16) iv ciphertext)
  else none

end LedgerKit.Aes
