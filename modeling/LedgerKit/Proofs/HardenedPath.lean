import LedgerKit.Proofs.ByteOrder
import LedgerKit.Proofs.KeyHistory

/-!
# Hardened paths

A child is made from 37 bytes: a zero byte, the secret of its parent and its number with the top bit
set.  So two numbers make the same child of a key if they agree but for the top bit, and else what
is digested differs (`PrivateKey.childInput_eq_iff`).  A path goes on from where another ends
(`PrivateKey.derivePath_append`), and so the key of an account is a point on the way from the master
key of its phrase.

* `PrivateKey.hardened_paths` : all paths from a key that has children, and from a phrase.
-/

namespace LedgerKit.PrivateKey

variable {k child : PrivateKey} {i j : UInt32} {path path' : List UInt32}

/-! ### Numbers of children -/

/-- The number of a child without its top bit. -/
def lowBits (i : UInt32) : ℕ := i.toNat % 2 ^ 31

theorem lowBits_lt (i : UInt32) : lowBits i < 2 ^ 31 := Nat.mod_lt _ (by decide)

theorem toNat_hardened (i : UInt32) : (i ||| 0x80000000).toNat = 2 ^ 31 + lowBits i := by
  have hor := Nat.two_pow_add_eq_or_of_lt (lowBits_lt i) 1
  rw [Nat.mul_one] at hor
  rw [UInt32.toNat_or, hor]
  change i.toNat ||| 2 ^ 31 = 2 ^ 31 ||| i.toNat % 2 ^ 31
  apply Nat.eq_of_testBit_eq
  intro n
  rw [Nat.testBit_or, Nat.testBit_or, Nat.testBit_mod_two_pow, Bool.or_comm]
  -- only the top bit could be lost, and that one is set
  rcases Nat.lt_trichotomy n 31 with hn | rfl | hn
  · simp [hn]
  · rw [Nat.testBit_two_pow_self, Bool.true_or, Bool.true_or]
  · have hhigh : i.toNat.testBit n = false :=
      Nat.testBit_lt_two_pow (Nat.lt_of_lt_of_le i.toNat_lt (Nat.pow_le_pow_right (by decide) hn))
    simp [hhigh]

theorem childInput_eq (k : PrivateKey) (i : UInt32) :
    k.childInput i = 0 :: k.secret.toBytes ++ Bytes.ofNatBE 4 (2 ^ 31 + lowBits i) := by
  rw [childInput, toNat_hardened]

theorem length_childInput (k : PrivateKey) (i : UInt32) : (k.childInput i).length = 37 := by
  simp [childInput]

/-- What is digested tells the numbers of children apart, but for the top bit. -/
theorem childInput_eq_iff : k.childInput i = k.childInput j ↔ lowBits i = lowBits j := by
  rw [childInput_eq, childInput_eq]
  constructor
  · intro h
    have hnumber := congrArg Bytes.bigEndian (List.append_cancel_left h)
    have hi := lowBits_lt i
    have hj := lowBits_lt j
    rw [Bytes.bigEndian_ofNatBE (by omega), Bytes.bigEndian_ofNatBE (by omega)] at hnumber
    exact Nat.add_left_cancel hnumber
  · intro h
    rw [h]

/-! ### Steps -/

theorem derive_of_chainCode {c : Block 32} (h : k.chainCode = some c) (i : UInt32) :
    k.derive i = .ok (ofState (Sha2.sha512.hmac c.toBytes (k.childInput i))) := by
  rw [derive, h]

theorem derive_congr (k : PrivateKey) (h : lowBits i = lowBits j) : k.derive i = k.derive j := by
  unfold derive
  rw [childInput_eq_iff.2 h]

/-! ### Paths -/

/-- A path goes on from where another ends. -/
theorem derivePath_append (h : k.derivePath path = .ok child) (rest : List UInt32) :
    k.derivePath (path ++ rest) = child.derivePath rest := by
  induction path generalizing k with
  | nil =>
    cases h
    rfl
  | cons i path ih =>
    rw [derivePath] at h
    rw [List.cons_append, derivePath]
    cases hi : k.derive i with
    | error e =>
      rw [hi] at h
      cases h
    | ok next =>
      rw [hi] at h
      exact ih h

theorem derivePath_congr (k : PrivateKey) (h : path.map lowBits = path'.map lowBits) :
    k.derivePath path = k.derivePath path' := by
  induction path generalizing k path' with
  | nil =>
    rw [List.map_nil, eq_comm, List.map_eq_nil_iff] at h
    rw [h]
  | cons i path ih =>
    obtain ⟨j, path', rfl, hj, hpath⟩ := List.map_eq_cons_iff.1 h.symm
    rw [derivePath, derivePath, k.derive_congr hj.symm]
    cases k.derive j with
    | error e => rfl
    | ok next => exact ih next hpath.symm

/-- **Derivation along hardened paths.**  From a key with a chain code every path has an end, which
has a chain code again; each step takes the key to the two halves of the digest, under the chain
code, of 37 bytes.  The top bits of the numbers on a path make no difference, and two numbers that
differ otherwise have different bytes digested.  A phrase and a passphrase always recover a key, and
a path from it is the path from the master key that goes through 44, 3030, 0 and 0 first. -/
theorem hardened_paths :
    (∀ k : PrivateKey, k.isDerivable = true →
      (∀ path, ∃ child, k.derivePath path = .ok child ∧ child.isDerivable = true ∧
        ∀ i, k.derivePath (path ++ [i]) = child.derive i) ∧
      (∀ path path', path.map lowBits = path'.map lowBits →
        k.derivePath path = k.derivePath path') ∧
      ∀ c, k.chainCode = some c → ∀ i,
        k.derive i = .ok (ofState (Sha2.sha512.hmac c.toBytes (k.childInput i)))) ∧
    (∀ (k : PrivateKey) (i : UInt32), (k.childInput i).length = 37 ∧
      k.childInput i = [0] ++ k.secret.toBytes ++ Bytes.ofNatBE 4 (2 ^ 31 + lowBits i) ∧
      ∀ j, lowBits i ≠ lowBits j → k.childInput i ≠ k.childInput j) ∧
    ∀ (m : Mnemonic) (passphrase : String), ∃ root, ofMnemonic m passphrase = .ok root ∧
      root.isDerivable = true ∧
      ∀ path, root.derivePath path =
        (ofState
          (Sha2.sha512.hmac (Text.utf8 "ed25519 seed") (m.seed passphrase).toBytes)).derivePath
          ([44, 3030, 0, 0] ++ path) := by
  refine ⟨fun k hk => ⟨fun path => ?_, fun _ _ => k.derivePath_congr, fun _ => derive_of_chainCode⟩,
    fun k i => ⟨k.length_childInput i, k.childInput_eq i, fun _ => mt childInput_eq_iff.1⟩,
    fun m passphrase => ?_⟩
  · obtain ⟨child, hchild, hderivable⟩ := derivePath_of_isDerivable hk path
    refine ⟨child, hchild, hderivable, fun i => ?_⟩
    rw [derivePath_append hchild, derivePath]
    cases child.derive i <;> rfl
  · have hseed : (ofSeed (m.seed passphrase)).isDerivable = true := rfl
    obtain ⟨root, hroot, hderivable⟩ := derivePath_of_isDerivable hseed accountPath
    exact ⟨root, hroot, hderivable, fun path => (derivePath_append hroot path).symm⟩

end LedgerKit.PrivateKey
