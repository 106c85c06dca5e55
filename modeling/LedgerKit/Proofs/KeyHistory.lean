import LedgerKit.Key.Held
import LedgerKit.Proofs.KeyExport
import LedgerKit.Random.Replay

/-!
# The history of a key

A key is drawn, recovered or read, and then it is used: its public key is asked for, others are
derived from it, and it is written and read again.  Whatever is done, the public key that is
remembered is the one of the secret at hand (`HeldKey.Coherent`), and derivability is lost with the
first reading and never comes back.

* `HeldKey.Coherent.perform` : one use keeps what is remembered right.
* `HeldKey.isDerivable_after` : when others can be derived at the end of a history.
* `HeldKey.coherent_through_history` : all that is so at every point of a history.
-/

namespace LedgerKit

/-! ### Derivation -/

namespace PrivateKey

variable {k : PrivateKey}

theorem derive_of_isDerivable (h : k.isDerivable = true) (index : UInt32) :
    ∃ child, k.derive index = .ok child ∧ child.isDerivable = true := by
  obtain ⟨c, hc⟩ := Option.isSome_iff_exists.1 h
  exact ⟨_, by rw [derive, hc], rfl⟩

theorem derive_of_not_isDerivable (h : k.isDerivable = false) (index : UInt32) :
    k.derive index = .error .notDerivable := by
  have hc : k.chainCode = none := by simpa [isDerivable] using h
  rw [derive, hc]

/-- A path never comes to an end before its last number. -/
theorem derivePath_of_isDerivable (h : k.isDerivable = true) (path : List UInt32) :
    ∃ child, k.derivePath path = .ok child ∧ child.isDerivable = true := by
  induction path generalizing k with
  | nil => exact ⟨k, rfl, h⟩
  | cons index path ih =>
    obtain ⟨child, hchild, hderivable⟩ := derive_of_isDerivable h index
    rw [derivePath, hchild]
    exact ih hderivable

theorem ofDocument_isDerivable {bs : Bytes} (h : ofDocument bs = .ok k) :
    k.isDerivable = false := by
  unfold ofDocument at h
  split at h <;> cases h
  rfl

theorem ofBytes_isDerivable {bs : Bytes} (h : ofBytes bs = .ok k) : k.isDerivable = false := by
  unfold ofBytes at h
  split at h
  · cases h
    rfl
  · exact ofDocument_isDerivable h

theorem parse_isDerivable {text : String} (h : parse text = .ok k) : k.isDerivable = false := by
  unfold parse at h
  split at h
  · exact ofBytes_isDerivable h
  · cases h

theorem ofPem_isDerivable {text : String} {password? : Option String}
    (h : ofPem text password? = .ok k) : k.isDerivable = false := by
  unfold ofPem at h
  split at h
  · exact ofDocument_isDerivable h
  · cases h

theorem ofLegacyEntropy_isDerivable (entropy : Bytes) :
    (ofLegacyEntropy entropy).isDerivable = false := by
  rw [ofLegacyEntropy, isDerivable]
  rfl

theorem ofMnemonic_isDerivable {m : Mnemonic} {passphrase : String}
    (h : ofMnemonic m passphrase = .ok k) : k.isDerivable = true := by
  have hseed : (ofSeed (m.seed passphrase)).isDerivable = true := rfl
  obtain ⟨child, hchild, hderivable⟩ := derivePath_of_isDerivable hseed accountPath
  rw [ofMnemonic, hchild] at h
  cases h
  exact hderivable

end PrivateKey

/-! ### Where keys come from and what is done with them -/

/-- Where a key comes from. -/
inductive KeySource : Type 1 where
  /-- It is drawn from a source of random bytes. -/
  | drawn {σ : Type} [RandomSource σ] (state : σ)
  /-- It is recovered from a phrase and a passphrase. -/
  | phrase (m : Mnemonic) (passphrase : String)
  /-- It is recovered from the entropy of an older kind of phrase. -/
  | legacy (entropy : Bytes)
  /-- It is read from bytes. -/
  | bytes (bs : Bytes)
  /-- It is read from a document. -/
  | document (bs : Bytes)
  /-- It is read from hexadecimal. -/
  | text (digits : String)
  /-- It is read from a text file. -/
  | pem (content : String) (password? : Option String)

namespace KeySource

/-- The key of a source. -/
def key : KeySource → Except KeyError PrivateKey
  | drawn state => .ok (PrivateKey.generate state).1
  | phrase m passphrase => PrivateKey.ofMnemonic m passphrase
  | legacy entropy => .ok (PrivateKey.ofLegacyEntropy entropy)
  | bytes bs => PrivateKey.ofBytes bs
  | document bs => PrivateKey.ofDocument bs
  | text digits => PrivateKey.parse digits
  | pem content password? => PrivateKey.ofPem content password?

/-- The sources of keys with a chain code. -/
def GivesChain : KeySource → Prop
  | drawn _ => True
  | phrase _ _ => True
  | _ => False

theorem isDerivable_key {s : KeySource} {k : PrivateKey} (h : s.key = .ok k) :
    k.isDerivable = true ↔ s.GivesChain := by
  have hnone : k.isDerivable = false → (k.isDerivable = true ↔ False) := by
    intro hk
    simp [hk]
  cases s with
  | drawn state =>
    cases h
    exact ⟨fun _ => trivial, fun _ => rfl⟩
  | phrase m passphrase => exact ⟨fun _ => trivial, fun _ => PrivateKey.ofMnemonic_isDerivable h⟩
  | legacy entropy =>
    have hk : PrivateKey.ofLegacyEntropy entropy = k := Except.ok.inj h
    exact hnone (hk ▸ PrivateKey.ofLegacyEntropy_isDerivable entropy)
  | bytes bs => exact hnone (PrivateKey.ofBytes_isDerivable h)
  | document bs => exact hnone (PrivateKey.ofDocument_isDerivable h)
  | text digits => exact hnone (PrivateKey.parse_isDerivable h)
  | pem content password? => exact hnone (PrivateKey.ofPem_isDerivable h)

end KeySource

/-- A way to write a key and read it again. -/
inductive Passage where
  /-- As bytes in some form. -/
  | bytes (form : PrivateKey.Form)
  /-- As a document, read as one. -/
  | document
  /-- As text. -/
  | text

/-- What is done with a key in use. -/
inductive KeyUse where
  /-- Its public key is asked for. -/
  | ask
  /-- It is shown in diagnostics. -/
  | inspect
  /-- The child of a number takes its place. -/
  | derive (index : UInt32)
  /-- It is written, and what is read takes its place. -/
  | pass (way : Passage)

namespace HeldKey

/-- The key that is read after it was written. -/
def pass (h : HeldKey) (way : Passage) : Except KeyError HeldKey :=
  let read :=
    match way with
    | .bytes form => PrivateKey.ofBytes (h.key.write form)
    | .document => PrivateKey.ofDocument h.key.toDocument
    | .text => PrivateKey.parse h.key.toString
  read.map ofKey

/-- The key at hand after a use; what fails leaves it as it was. -/
def perform (h : HeldKey) : KeyUse → HeldKey
  | .ask => h.publicKey.2
  | .inspect => h.inspect.2
  | .derive index => (h.derive index).toOption.getD h
  | .pass way => (h.pass way).toOption.getD h

/-- The key at hand after several uses. -/
def after (h : HeldKey) (uses : List KeyUse) : HeldKey := uses.foldl perform h

/-- What is remembered is the public key that belongs to the key. -/
def Coherent (h : HeldKey) : Prop := ∀ p, h.remembered = some p → p = h.key.publicKey

variable {h : HeldKey}

theorem coherent_ofKey (k : PrivateKey) : (ofKey k).Coherent := by
  intro p hp
  cases hp

theorem Coherent.answer (hh : h.Coherent) : h.publicKey.1 = h.key.publicKey := by
  unfold HeldKey.publicKey
  cases hr : h.remembered with
  | none => rfl
  | some p => exact hh p hr

@[simp] theorem key_ask (h : HeldKey) : h.publicKey.2.key = h.key := by
  unfold HeldKey.publicKey
  cases h.remembered <;> rfl

theorem Coherent.ask (hh : h.Coherent) : h.publicKey.2.Coherent := by
  unfold HeldKey.publicKey
  cases hr : h.remembered with
  | none =>
    intro p hp
    cases hp
    rfl
  | some p => exact hh

theorem pass_eq (h : HeldKey) (way : Passage) : h.pass way = .ok (ofKey h.key.withoutChain) := by
  have htext : PrivateKey.parse h.key.toString = .ok h.key.withoutChain :=
    (PrivateKey.parse_of_isTextOf (Hex.isTextOf_encode h.key.toDocument)).trans
      (h.key.ofBytes_write .document)
  cases way with
  | bytes form => rw [pass, h.key.ofBytes_write]; rfl
  | document => rw [pass, h.key.ofDocument_toDocument]; rfl
  | text => rw [pass, htext]; rfl

/-! ### One use -/

theorem perform_ask (h : HeldKey) : h.perform .ask = h.publicKey.2 := rfl

theorem perform_inspect (h : HeldKey) : h.perform .inspect = h.publicKey.2 := rfl

theorem perform_derive {index : UInt32} {child : PrivateKey} (hd : h.key.derive index = .ok child) :
    h.perform (.derive index) = ofKey child := by
  rw [perform, derive, hd]
  rfl

theorem perform_derive_of_not_isDerivable (hk : h.key.isDerivable = false) (index : UInt32) :
    h.perform (.derive index) = h := by
  rw [perform, derive, PrivateKey.derive_of_not_isDerivable hk]
  rfl

theorem perform_pass (h : HeldKey) (way : Passage) :
    h.perform (.pass way) = ofKey h.key.withoutChain := by
  rw [perform, pass_eq]
  rfl

/-- A key that takes the place of another has forgotten its public key. -/
theorem Coherent.perform (hh : h.Coherent) (use : KeyUse) : (h.perform use).Coherent := by
  cases use with
  | ask => exact hh.ask
  | inspect => exact hh.ask
  | derive index =>
    cases hk : h.key.isDerivable with
    | true =>
      obtain ⟨child, hchild, -⟩ := PrivateKey.derive_of_isDerivable hk index
      rw [perform_derive hchild]
      exact coherent_ofKey child
    | false => rwa [perform_derive_of_not_isDerivable hk]
  | pass way =>
    rw [perform_pass]
    exact coherent_ofKey _

theorem isDerivable_perform (h : HeldKey) (use : KeyUse) :
    (h.perform use).key.isDerivable = true ↔ h.key.isDerivable = true ∧ ∀ way, use ≠ .pass way := by
  cases use with
  | ask => simp [perform_ask]
  | inspect => simp [perform_inspect]
  | derive index =>
    cases hk : h.key.isDerivable with
    | true =>
      obtain ⟨child, hchild, hderivable⟩ := PrivateKey.derive_of_isDerivable hk index
      simp [perform_derive hchild, ofKey, hderivable]
    | false => simp [perform_derive_of_not_isDerivable hk, hk]
  | pass way => simp [perform_pass, ofKey, PrivateKey.withoutChain, PrivateKey.isDerivable]

/-! ### Whole histories -/

theorem Coherent.after (hh : h.Coherent) (uses : List KeyUse) : (h.after uses).Coherent := by
  induction uses generalizing h with
  | nil => exact hh
  | cons use uses ih => exact ih (hh.perform use)

theorem isDerivable_after (h : HeldKey) (uses : List KeyUse) :
    (h.after uses).key.isDerivable = true ↔
      h.key.isDerivable = true ∧ ∀ way, .pass way ∉ uses := by
  induction uses generalizing h with
  | nil => simp [after]
  | cons use uses ih =>
    have hafter : h.after (use :: uses) = (h.perform use).after uses := rfl
    rw [hafter, ih, isDerivable_perform]
    simp only [List.mem_cons, not_or, forall_and, and_assoc, ne_comm, ne_eq]

/-- What is so of a key in use at every moment; `derivable` says when others can be derived. -/
structure Sound (h : HeldKey) (derivable : Prop) : Prop where
  /-- The key has a chain code or it has none. -/
  chain : h.key.chainCode.isSome = true ↔ derivable
  /-- With a chain code every number has a child, which has a chain code again. -/
  derives : derivable → ∀ index, ∃ child, h.derive index = .ok child ∧
    child.key.chainCode.isSome = true
  /-- Without one no number has a child. -/
  refuses : ¬ derivable → ∀ index, h.derive index = .error .notDerivable
  /-- However the key is written, it is read as the same secret without a chain code. -/
  passes : ∀ way, ∃ read, h.pass way = .ok read ∧ read.key.secret = h.key.secret ∧
    read.key.chainCode = none
  /-- The public key is that of the secret at hand. -/
  answers : h.publicKey.1 = ⟨Ed25519.publicKey h.key.secret⟩
  /-- If signatures with the secret verify at all, they do so under the public key. -/
  verifies : (∀ message, Ed25519.verify (Ed25519.publicKey h.key.secret) message
      (Ed25519.sign h.key.secret message) = true) →
    ∀ message, h.publicKey.1.verify message (h.key.sign message) = true

theorem Coherent.sound (hh : h.Coherent) {derivable : Prop}
    (hd : h.key.isDerivable = true ↔ derivable) : h.Sound derivable := by
  have hanswer : h.publicKey.1 = ⟨Ed25519.publicKey h.key.secret⟩ := hh.answer
  refine ⟨hd, ?_, ?_, ?_, hanswer, ?_⟩
  · intro hderivable index
    obtain ⟨child, hchild, hagain⟩ := PrivateKey.derive_of_isDerivable (hd.2 hderivable) index
    exact ⟨ofKey child, by rw [derive, hchild]; rfl, hagain⟩
  · intro hno index
    have hk : h.key.isDerivable = false := by rwa [← hd, Bool.not_eq_true] at hno
    rw [derive, PrivateKey.derive_of_not_isDerivable hk]
    rfl
  · exact fun way => ⟨_, h.pass_eq way, rfl, rfl⟩
  · intro hed message
    rw [hanswer]
    exact hed message

/-- **A key stays coherent through its history.**  From its source on and after any uses of it,
others can be derived if and only if the source gave it a chain code and it was never written and
read again; and its public key is that of its secret. -/
theorem coherent_through_history {source : KeySource} {k : PrivateKey} (hk : source.key = .ok k)
    (uses : List KeyUse) :
    ((ofKey k).after uses).Sound (source.GivesChain ∧ ∀ way, .pass way ∉ uses) := by
  apply ((coherent_ofKey k).after uses).sound
  rw [isDerivable_after]
  exact and_congr_left fun _ => KeySource.isDerivable_key hk

/-- A child is derived and takes the place of its parent, is written and read, and has no child. -/
def oneOfEach : List KeyUse := [.ask, .derive 7, .ask, .pass .text, .inspect, .derive 7]

theorem coherent_through_history_zeros :
    (KeySource.drawn ReplaySource.zeros).key = .ok (.ofState (.replicate 64 0)) ∧
    ((ofKey (.ofState (.replicate 64 0))).after oneOfEach).Sound
      ((KeySource.drawn ReplaySource.zeros).GivesChain ∧ ∀ way, .pass way ∉ oneOfEach) := by
  have hkey : (KeySource.drawn ReplaySource.zeros).key = .ok (.ofState (.replicate 64 0)) := rfl
  exact ⟨hkey, coherent_through_history hkey oneOfEach⟩

end HeldKey

end LedgerKit
