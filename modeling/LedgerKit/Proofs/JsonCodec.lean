import LedgerKit.Proofs.JsonText
import LedgerKit.Proofs.Lists

/-!
# Codecs that read what they write

A codec is lawful if the value that it writes is read from its text (`IsRead`), and then read as
what it was written for.

* `decode?_encode` : the whole way, from a value of the type to the text and back.
* `Value.fields?_ofFields` : the fields of a record.
-/

namespace LedgerKit

namespace Json

/-- What is written for a value of the type is read back. -/
class LawfulCodec (α : Type) [Codec α] : Prop where
  /-- The JSON value is read from its text. -/
  isRead : ∀ a : α, IsRead (Codec.toValue a)
  /-- The value of the type is read from the JSON value. -/
  ofValue?_toValue : ∀ a : α, Codec.ofValue? (Codec.toValue a) = some a

variable {α : Type}

theorem parse?_encode [Codec α] [LawfulCodec α] (a : α) :
    parse? (encode a).toList = some (Codec.toValue a) := by
  rw [encode, String.toList_ofList]
  exact parse?_writeValue (LawfulCodec.isRead a)

theorem decode?_encode [Codec α] [LawfulCodec α] (a : α) : decode? (encode a) = some a := by
  rw [decode?, parse?_encode]
  exact LawfulCodec.ofValue?_toValue a

namespace Value

/-! ### Texts, numbers and bytes -/

theorem text?_ofText (s : String) : text? (ofText s) = some s := Piece.text?_ofText s

/-- A number is read from its digits and from no other value. -/
theorem nat?_eq_some_iff {v : Value} {n : ℕ} : nat? v = some n ↔ v = ofNat n := by
  cases v with
  | number spelling =>
    rw [nat?, Decimal.ofChars?_eq_some_iff, ofNat, number.injEq]
  | null | boolean | string | array | object => simp [nat?, ofNat]

theorem nat?_ofNat (n : ℕ) : nat? (ofNat n) = some n := nat?_eq_some_iff.2 rfl

theorem uint64?_ofNat (n : UInt64) : uint64? (ofNat n.toNat) = some n := by
  have hlt : n.toNat < UInt64.size := n.toNat_lt
  simp [uint64?, nat?_ofNat, hlt]

theorem byte?_eq_some_iff {v : Value} {b : UInt8} : byte? v = some b ↔ v = ofNat b.toNat := by
  rw [← nat?_eq_some_iff]
  cases hn : nat? v with
  | none => simp [byte?, hn]
  | some n =>
    simp only [byte?, hn, Option.bind_eq_bind, Option.bind_some, Option.some.injEq]
    constructor
    · intro h
      split at h
      · next hlt =>
        obtain rfl := Option.some.inj h
        exact (UInt8.toNat_ofNat_of_lt hlt).symm
      · cases h
    · rintro rfl
      rw [if_pos b.toNat_lt, UInt8.ofNat_toNat]

/-- Bytes are read from the array of their numbers and from no other value. -/
theorem bytes?_eq_some_iff {v : Value} {bs : Bytes} : bytes? v = some bs ↔ v = ofBytes bs := by
  cases v with
  | array vs =>
    rw [bytes?, ofBytes, array.injEq]
    induction vs generalizing bs with
    | nil => cases bs <;> simp
    | cons v vs ih =>
      rw [List.mapM_cons]
      cases bs with
      | nil =>
        cases byte? v <;> cases vs.mapM byte? <;> simp
      | cons b bs =>
        rw [List.map_cons, List.cons.injEq, ← byte?_eq_some_iff, ← ih]
        cases byte? v <;> cases vs.mapM byte? <;> simp
  | null | boolean | number | string | object => simp [bytes?, ofBytes]

theorem bytes?_ofBytes (bs : Bytes) : bytes? (ofBytes bs) = some bs := bytes?_eq_some_iff.2 rfl

/-! ### Records -/

variable {names : List String} {fields : List (String × Value)}

/-- Fields that are known and not yet found are found, each of them once. -/
theorem knownFields?_written {found : List (String × Value)} (hknown : ∀ f ∈ fields, f.1 ∈ names)
    (hnew : (fields.map Prod.fst).Nodup) (hfound : ∀ f ∈ fields, found.lookup f.1 = none) :
    knownFields? names found (fields.map fun f => (Piece.ofText f.1, f.2)) =
      some (fields.reverse ++ found) := by
  induction fields generalizing found with
  | nil => rfl
  | cons f fields ih =>
    obtain ⟨hfirst, hnew⟩ := List.nodup_cons.1 hnew
    have hname : names.contains f.1 = true := List.contains_iff_mem.2 (hknown f List.mem_cons_self)
    have hrest : ∀ g ∈ fields, ((f.1, f.2) :: found).lookup g.1 = none := by
      intro g hg
      have hne : g.1 ≠ f.1 := fun h => hfirst (h ▸ List.mem_map_of_mem hg)
      rw [List.lookup_cons, beq_false_of_ne hne]
      exact hfound g (List.mem_cons_of_mem f hg)
    rw [List.map_cons, knownFields?, Piece.text?_ofText, Option.bind_eq_bind, Option.bind_some,
      if_pos hname, hfound f List.mem_cons_self, Option.isSome_none, if_neg Bool.false_ne_true,
      ih (fun g hg => hknown g (List.mem_cons_of_mem f hg)) hnew hrest]
    simp

/-- **A record is read from the object that is written for it**: under each name stands what was
written under it. -/
theorem fields?_ofFields (names : List String) (fields : List (String × Value))
    (hknown : ∀ f ∈ fields, f.1 ∈ names) (hnew : (fields.map Prod.fst).Nodup) :
    ∃ found, (ofFields fields).fields? names = some found ∧
      ∀ name, found.lookup name = fields.lookup name := by
  refine ⟨fields.reverse, ?_, lookup_reverse hnew⟩
  rw [ofFields, fields?, knownFields?_written hknown hnew fun _ _ => rfl, List.append_nil]

end Value

/-! ### Fields -/

section Fields

variable {fields : List (String × Value)} {name : String} {v : Value} {read : Value → Option α}
  {a : α}

theorem field?_of_lookup (hv : fields.lookup name = some v) (hread : read v = some a) :
    field? fields name read = some a := by
  rw [field?, hv]
  exact hread

theorem fieldOr?_of_lookup {default : α} (hv : fields.lookup name = some v)
    (hread : read v = some a) : fieldOr? fields name default read = some a := by
  rw [fieldOr?, hv]
  exact hread

/-- What may be missing, and is written as something that is not null where it is there. -/
theorem fieldOr?_optional [Codec α] [LawfulCodec α] {o : Option α}
    (hnull : ∀ a : α, Codec.toValue a ≠ .null) (h : fields.lookup name = o.map Codec.toValue) :
    fieldOr? fields name none (nullable? Codec.ofValue?) = some o := by
  cases o with
  | none => rw [fieldOr?, h, Option.map_none]
  | some a =>
    have hread := LawfulCodec.ofValue?_toValue a
    refine fieldOr?_of_lookup h ?_
    cases hv : Codec.toValue a with
    | null => exact absurd hv (hnull a)
    | boolean | number | string | array | object =>
      rw [nullable?, ← hv, hread, Option.map_some]
      exact nofun

end Fields

/-! ### Parts that are read from their text -/

theorem isRead_ofBytes (bs : Bytes) : IsRead (.ofBytes bs) := by
  apply isRead_array
  intro v hv
  obtain ⟨b, -, rfl⟩ := List.mem_map.1 hv
  exact isRead_ofNat b.toNat

theorem isRead_ofFields {f : String × Value} {fields : List (String × Value)}
    (h : ∀ g ∈ f :: fields, IsRead g.2) : IsRead (.ofFields (f :: fields)) := by
  have hmember : ∀ m ∈ (f :: fields).map fun f => (Piece.ofText f.1, f.2),
      ∃ g ∈ f :: fields, (Piece.ofText g.1, g.2) = m := fun m => List.mem_map.1
  refine isRead_object ?_ ?_
  · intro m hm
    obtain ⟨g, -, rfl⟩ := hmember m hm
    exact Piece.isSpelt_of_mem_ofText
  · intro m hm
    obtain ⟨g, hg, rfl⟩ := hmember m hm
    exact h g hg

end Json

end LedgerKit
