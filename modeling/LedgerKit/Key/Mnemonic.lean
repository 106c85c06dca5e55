import LedgerKit.Hash.Pbkdf2
import LedgerKit.Key.Error
import LedgerKit.Key.WordList
import LedgerKit.Random.Source
import LedgerKit.Text.Search

/-!
# Mnemonic phrases

A phrase spells a number in base 2048, one word for each digit.  The number is the entropy, taken as
one big-endian number, followed by check bits: one for every four bytes of entropy, from the front
of its digest.  A `Mnemonic` is the entropy alone, since the words follow from it.
-/

namespace LedgerKit

/-- Entropy of this many bytes can be spelt: 16, 20, 24, 28 or 32. -/
def isEntropySize (n : Nat) : Bool := 16 ≤ n && n ≤ 32 && n % 4 == 0

/-- The entropy that a phrase spells. -/
structure Mnemonic where
  /-- The bytes of the entropy. -/
  entropy : Bytes
  /-- There is a phrase for as many. -/
  size_ok : isEntropySize entropy.length = true
deriving DecidableEq

namespace Mnemonic

/-- The check bits of some entropy, as a number. -/
def checkBits (entropy : Bytes) : Nat :=
  Bytes.bigEndian ((Sha2.sha256.digest entropy).toBytes.take 1) >>> (8 - entropy.length / 4)

/-- The number that the phrase for some entropy spells. -/
def number (entropy : Bytes) : Nat :=
  Bytes.bigEndian entropy <<< (entropy.length / 4) + checkBits entropy

/-- The `count` lowest digits of a number to the base of the word list, the most significant
first. -/
def places : (count n : Nat) → List Nat
  | 0, _ => []
  | count + 1, n => places count (n / wordCount) ++ [n % wordCount]

/-- The number with these digits to the base of the word list, the most significant first. -/
def ofPlaces (ps : List Nat) : Nat := ps.foldl (fun n p => wordCount * n + p) 0

/-- The number of words: three for every four bytes of entropy. -/
def size (m : Mnemonic) : Nat := m.entropy.length / 4 * 3

/-- The words of the phrase. -/
def words (m : Mnemonic) : List String := (places m.size (number m.entropy)).map wordAt

/-- The phrase: the words with a space between them. -/
def toString (m : Mnemonic) : String := " ".intercalate m.words

instance : ToString Mnemonic := ⟨toString⟩

/-- The form shown in diagnostics, which keeps the phrase secret. -/
def inspect (m : Mnemonic) : String := s!"Mnemonic({m.size} words)"

/-- The mnemonic of some entropy. -/
def ofEntropy (entropy : Bytes) : Except KeyError Mnemonic :=
  if h : isEntropySize entropy.length = true then .ok ⟨entropy, h⟩
  else .error (.invalidMnemonic (.wrongEntropySize (8 * entropy.length)))

/-- The places of some words, of which the first has number `index` in the phrase. -/
def placesOf (index : Nat) : List String → Except MnemonicError (List Nat)
  | [] => .ok []
  | w :: ws =>
    match placeOf? w with
    | none => .error (.unknownWord index)
    | some p => (placesOf (index + 1) ws).map (p :: ·)

/-- The entropy spelt by the words at these places, if the check bits are right. -/
def ofPlaces? (ps : List Nat) : Option Mnemonic :=
  let groups := ps.length / 3
  let entropy := Bytes.ofNatBE (4 * groups) (ofPlaces ps >>> groups)
  if h : isEntropySize entropy.length = true ∧ number entropy = ofPlaces ps then
    some ⟨entropy, h.1⟩
  else none

/-- A phrase can have this many words: 12, 15, 18, 21 or 24. -/
def isWordCount (n : Nat) : Bool := 12 ≤ n && n ≤ 24 && n % 3 == 0

/-- The mnemonic spelt by some words.  A first word that is not in the list is noticed before a
wrong number of words, any other after it. -/
def ofWords (ws : List String) : Except MnemonicError Mnemonic :=
  match ws with
  | [] => .error (.wrongWordCount 0)
  | first :: _ =>
    if (placeOf? first).isNone then .error (.unknownWord 0)
    else if !isWordCount ws.length then .error (.wrongWordCount ws.length)
    else
      match placesOf 0 ws with
      | .error e => .error e
      | .ok ps =>
        match ofPlaces? ps with
        | some m => .ok m
        | none => .error .wrongChecksum

/-- Reads a phrase: words in lower case with any white space around them. -/
def parse (text : String) : Except KeyError Mnemonic :=
  match ofWords ((Text.words text.toList).map String.ofList) with
  | .ok m => .ok m
  | .error e => .error (.invalidMnemonic e)

/-- The lower case of a character, where that is an ASCII letter; the sign for kelvin is one of
those characters.  Any other character occurs in no word of the list, nor does its lower case. -/
def lowerCase (c : Char) : Char := if c = '\u212a' then 'k' else c.toLower

/-- Reads a phrase given as words in any case. -/
def parseWords (ws : List String) : Except KeyError Mnemonic :=
  parse (" ".intercalate (ws.map fun w => w.map lowerCase))

/-- A phrase drawn from a source, for `n` bytes of entropy. -/
def generate {σ : Type} [RandomSource σ] (n : Nat) (s : σ) : Except KeyError Mnemonic × σ :=
  let (entropy, s) := RandomSource.draw n s
  (ofEntropy entropy.toBytes, s)

/-- A phrase of 12 words drawn from a source. -/
def generate12 {σ : Type} [RandomSource σ] (s : σ) : Except KeyError Mnemonic × σ := generate 16 s

/-- A phrase of 24 words drawn from a source. -/
def generate24 {σ : Type} [RandomSource σ] (s : σ) : Except KeyError Mnemonic × σ := generate 32 s

/-- The seed that the phrase and a passphrase are stretched to. -/
def seed (m : Mnemonic) (passphrase : String) : Block 64 :=
  Sha2.sha512.pbkdf2 (Text.utf8 m.toString) (Text.utf8 ("mnemonic" ++ passphrase)) 2048 64

end Mnemonic

end LedgerKit
