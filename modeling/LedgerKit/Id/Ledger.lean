import LedgerKit.Id.Checksum

/-!
# Ledgers

A ledger id is a byte string.  Three of them are networks with a name, which is then how they are
written; every other ledger is written in hexadecimal.
-/

namespace LedgerKit

/-- The identity of a ledger. -/
structure LedgerId where
  /-- The bytes of the id; there may be none. -/
  bytes : Bytes
deriving DecidableEq

/-- The networks that are known by name. -/
inductive Network where
  | mainnet
  | testnet
  | previewnet
deriving DecidableEq, Repr

namespace Network

/-- All of them. -/
def all : List Network := [mainnet, testnet, previewnet]

/-- The name of a network. -/
def name : Network → String
  | mainnet => "mainnet"
  | testnet => "testnet"
  | previewnet => "previewnet"

/-- The ledger that a network keeps. -/
def ledger : Network → LedgerId
  | mainnet => ⟨[0]⟩
  | testnet => ⟨[1]⟩
  | previewnet => ⟨[2]⟩

/-- The network of this name. -/
def ofName? (text : String) : Option Network := all.find? fun n => n.name == text

theorem ofName?_eq_some_iff {text : String} {n : Network} :
    ofName? text = some n ↔ text = n.name := by
  constructor
  · intro h
    have hname := List.find?_some h
    exact (beq_iff_eq.1 hname).symm
  · rintro rfl
    cases n <;> decide

end Network

namespace LedgerId

/-- The network that keeps this ledger, if it has a name. -/
def network? (l : LedgerId) : Option Network := Network.all.find? fun n => n.ledger == l

/-- The name of a ledger that has one. -/
def name? (l : LedgerId) : Option String := l.network?.map Network.name

/-- Reads a network's name, or hexadecimal with or without a leading `0x`. -/
def parse (text : String) : Except IdError LedgerId :=
  match Network.ofName? text with
  | some n => .ok n.ledger
  | none =>
    match Hex.decode (Hex.unmarked text.toList) with
    | .ok bytes => .ok ⟨bytes⟩
    | .error cause => .error (.malformedLedger text cause)

/-- The name of the ledger, or else its bytes in hexadecimal. -/
def toString (l : LedgerId) : String := l.name?.getD (Hex.encode l.bytes)

instance : ToString LedgerId := ⟨toString⟩

/-- The form shown in diagnostics. -/
def inspect (l : LedgerId) : String := s!"LedgerId({l})"

end LedgerId

end LedgerKit
