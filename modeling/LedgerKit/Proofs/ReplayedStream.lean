import LedgerKit.Key.Private
import LedgerKit.Proofs.ByteOrder
import LedgerKit.Random.Replay
import Mathlib.Algebra.GroupWithZero.Nat
import Mathlib.Data.Stream.Init

/-!
# One stream, however it is read

A replaying source holds a list of bytes and repeats it without end.  Its bytes can be drawn in
several ways, and as many at a time as one likes; a draw takes the next bytes of the one stream and
leaves the rest of it.

* `ReplaySource.toBytes_draw`, `ReplaySource.ahead_draw` : what is drawn, and what is left.
* `Draw.perform_eq` : every way of drawing takes as many bytes as it is wide, and spells them.
* `ReplaySource.performAll_spec` : a sequence of draws takes as many bytes as one draw of their sum.
* `WordReplay.performAll_spec` : a source that counts in 64 bits and goes byte by byte does the
  same, as long as its count does not wrap around.
* `ReplaySource.one_stream` : all of this for a list of bytes, and for the keys drawn from it.
-/

namespace LedgerKit

/-! ### The stream -/

/-- The bytes without end; if there are none, zeros. -/
def repeated (bs : Bytes) : Stream' UInt8 :=
  if h : bs = [] then Stream'.const 0 else Stream'.cycle bs h

section

variable {α : Type} {l : List α} (h : l ≠ [])

theorem drop_mul_cycle (k : ℕ) :
    (Stream'.cycle l h).drop (k * l.length) = Stream'.cycle l h := by
  induction k with
  | zero => rw [Nat.zero_mul, Stream'.drop_zero]
  | succ k ih =>
    rw [Nat.succ_mul, ← Stream'.drop_drop, ih]
    conv => lhs; rw [Stream'.cycle_eq]
    exact Stream'.drop_append_stream l _

theorem drop_mod_cycle (n : ℕ) :
    (Stream'.cycle l h).drop (n % l.length) = (Stream'.cycle l h).drop n := by
  conv => rhs; rw [← Nat.div_add_mod' n l.length, ← Stream'.drop_drop, drop_mul_cycle]

end

theorem drop_mod_repeated (bs : Bytes) (n : ℕ) :
    (repeated bs).drop (n % bs.length) = (repeated bs).drop n := by
  unfold repeated
  split
  · rw [Stream'.drop_const, Stream'.drop_const]
  · next h => exact drop_mod_cycle h n

namespace ReplaySource

theorem byteAt_eq_get (s : ReplaySource) (i : ℕ) :
    s.byteAt i = (Stream'.cycle s.cycle s.cycle_ne_nil).get i := by
  have hpos := List.length_pos_iff.2 s.cycle_ne_nil
  have hlt := Nat.mod_lt i hpos
  have hget : (Stream'.cycle s.cycle s.cycle_ne_nil).get (i % s.cycle.length) =
      s.cycle[i % s.cycle.length] := by
    rw [Stream'.cycle_eq, Stream'.get_append_left _ _ _ hlt]
  have hdrop := congrArg (·.get 0) (drop_mod_cycle s.cycle_ne_nil i)
  simp only [Stream'.get_drop, Nat.add_zero] at hdrop
  rw [← hdrop, hget]
  rfl

/-- The bytes that are still to come. -/
def ahead (s : ReplaySource) : Stream' UInt8 :=
  (Stream'.cycle s.cycle s.cycle_ne_nil).drop s.consumed

theorem ahead_ofBytes (bs : Bytes) : (ofBytes bs).ahead = repeated bs := by
  cases bs with
  | nil => exact Stream'.cycle_singleton 0
  | cons b bs =>
    rw [repeated, dif_neg (List.cons_ne_nil b bs)]
    rfl

theorem toBytes_draw (n : ℕ) (s : ReplaySource) :
    (RandomSource.draw n s).1.toBytes = s.ahead.take n := by
  apply List.ext_getElem
  · rw [Block.length_toBytes, Stream'.length_take]
  · intro i hi hi'
    rw [Stream'.take_get, ahead, Stream'.get_drop, ← byteAt_eq_get]
    simp [RandomSource.draw, upcoming]

theorem ahead_draw (n : ℕ) (s : ReplaySource) :
    (RandomSource.draw n s).2.ahead = s.ahead.drop n := by
  rw [ahead, ahead, Stream'.drop_drop]
  rfl

/-- Two draws take what one takes. -/
theorem toBytes_draw_add (m n : ℕ) (s : ReplaySource) :
    (RandomSource.draw (m + n) s).1.toBytes =
      (RandomSource.draw m s).1.toBytes ++
        (RandomSource.draw n (RandomSource.draw m s).2).1.toBytes := by
  rw [toBytes_draw, toBytes_draw, toBytes_draw, ahead_draw, Stream'.take_add]

theorem draw_draw (m n : ℕ) (s : ReplaySource) :
    (RandomSource.draw n (RandomSource.draw m s).2).2 = (RandomSource.draw (m + n) s).2 := by
  simp [RandomSource.draw, Nat.add_assoc]

end ReplaySource

/-! ### Draws -/

/-- The ways in which bytes are drawn from a source. -/
inductive Draw where
  /-- So many bytes. -/
  | fill (n : ℕ)
  /-- So many bytes, or none. -/
  | tryFill (n : ℕ)
  /-- A number of 32 bits. -/
  | word32
  /-- A number of 64 bits. -/
  | word64

/-- What a draw yields. -/
inductive Drawn where
  /-- Bytes. -/
  | bytes (bs : Bytes)
  /-- A number of 32 bits. -/
  | word32 (w : UInt32)
  /-- A number of 64 bits. -/
  | word64 (w : UInt64)
  /-- Nothing, because the source had none. -/
  | refused

/-- The bytes that a source had, or that it had none. -/
def Drawn.ofTry {n : ℕ} : Except Unavailable (Block n) → Drawn
  | .ok b => .bytes b.toBytes
  | .error .unavailable => .refused

/-- The bytes that were drawn, those of a number from the least significant on. -/
def Drawn.toBytes : Drawn → Bytes
  | bytes bs => bs
  | word32 w => Bytes.ofNatLE 4 w.toNat
  | word64 w => Bytes.ofNatLE 8 w.toNat
  | refused => []

namespace Draw

/-- The number of bytes that a draw takes. -/
def width : Draw → ℕ
  | fill n => n
  | tryFill n => n
  | word32 => 4
  | word64 => 8

/-- The number of bytes that some draws take together. -/
def total (draws : List Draw) : ℕ := (draws.map width).sum

theorem total_cons (d : Draw) (draws : List Draw) : total (d :: draws) = d.width + total draws :=
  List.sum_cons

variable {σ : Type} [RandomSource σ]

/-- What a draw yields, and the source after it. -/
def perform (s : σ) : Draw → Drawn × σ
  | fill n => (RandomSource.draw n s).map (.bytes ·.toBytes) id
  | tryFill n => (RandomSource.tryDraw n s).map .ofTry id
  | word32 => (RandomSource.drawUInt32 s).map .word32 id
  | word64 => (RandomSource.drawUInt64 s).map .word64 id

/-- What some draws yield in turn, and the source after them. -/
def performAll : List Draw → σ → List Drawn × σ
  | [], s => ([], s)
  | d :: draws, s => (performAll draws (d.perform s).2).map ((d.perform s).1 :: ·) id

/-- What a draw makes of the bytes it takes. -/
def spell : (d : Draw) → Block d.width → Drawn
  | fill _, b => .bytes b.toBytes
  | tryFill _, b => .bytes b.toBytes
  | word32, b => .word32 (UInt32.ofNat (Bytes.littleEndian b.toBytes))
  | word64, b => .word64 (UInt64.ofNat (Bytes.littleEndian b.toBytes))

/-- A draw takes the bytes from the source at once, and is never refused. -/
theorem perform_eq (d : Draw) (s : σ) :
    perform s d = (RandomSource.draw d.width s).map d.spell id := by
  cases d <;> rfl

theorem spell_ne_refused (d : Draw) (b : Block d.width) : d.spell b ≠ .refused := by
  cases d <;> exact Drawn.noConfusion

/-- No byte is lost in a number. -/
theorem toBytes_spell (d : Draw) (b : Block d.width) : (d.spell b).toBytes = b.toBytes := by
  have hlt := Bytes.littleEndian_lt b.toBytes
  have hwritten := Bytes.ofNatLE_littleEndian b.toBytes
  rw [b.length_toBytes] at hlt hwritten
  cases d with
  | fill n => rfl
  | tryFill n => rfl
  | word32 =>
    rw [spell, Drawn.toBytes, UInt32.toNat_ofNat_of_lt' hlt]
    exact hwritten
  | word64 =>
    rw [spell, Drawn.toBytes, UInt64.toNat_ofNat_of_lt' hlt]
    exact hwritten

end Draw

namespace ReplaySource

open Draw

/-- Draws in turn take the bytes that one draw of their sum takes. -/
theorem performAll_spec (draws : List Draw) (s : ReplaySource) :
    (performAll draws s).1.flatMap Drawn.toBytes = s.ahead.take (total draws) ∧
      (performAll draws s).2 = (RandomSource.draw (total draws) s).2 ∧
      .refused ∉ (performAll draws s).1 := by
  induction draws generalizing s with
  | nil => exact ⟨rfl, rfl, List.not_mem_nil⟩
  | cons d draws ih =>
    obtain ⟨hbytes, hstate, hnot⟩ := ih (d.perform s).2
    have hd := d.perform_eq s
    refine ⟨?_, ?_, ?_⟩
    · rw [performAll, Prod.map_fst, List.flatMap_cons, hbytes, hd, Prod.map_fst, toBytes_spell,
        toBytes_draw, Prod.map_snd, id, ahead_draw, total_cons, Stream'.take_add]
    · rw [performAll, Prod.map_snd, id, hstate, hd, Prod.map_snd, id, draw_draw, total_cons]
    · rw [performAll, Prod.map_fst, List.mem_cons, not_or]
      refine ⟨?_, hnot⟩
      rw [hd]
      exact (spell_ne_refused d _).symm

end ReplaySource

/-! ### A source that counts in 64 bits -/

namespace WordReplay

open Draw

/-- The same source with a count that has no bound. -/
def source (w : WordReplay) : ReplaySource := ⟨w.cycle, w.cycle_ne_nil, w.index.toNat⟩

theorem source_ofBytes (bs : Bytes) : (ofBytes bs).source = ReplaySource.ofBytes bs := by
  cases bs <;> rfl

variable {w : WordReplay} {n : ℕ}

theorem toNat_next (h : w.index.toNat + 1 < 2 ^ 64) :
    w.next.2.index.toNat = w.index.toNat + 1 := by
  rw [next, UInt64.toNat_add]
  exact Nat.mod_eq_of_lt h

theorem source_next (h : w.index.toNat + 1 < 2 ^ 64) :
    w.next.2.source = (RandomSource.draw 1 w.source).2 := by
  rw [source, toNat_next h]
  rfl

/-- Going byte by byte yields what is drawn at once, if the count does not wrap around. -/
theorem draw_spec (h : w.index.toNat + n < 2 ^ 64) :
    (RandomSource.draw n w).1 = (RandomSource.draw n w.source).1 ∧
      (RandomSource.draw n w).2.source = (RandomSource.draw n w.source).2 := by
  induction n generalizing w with
  | zero => exact ⟨rfl, rfl⟩
  | succ n ih =>
    have hone : w.index.toNat + 1 < 2 ^ 64 := by omega
    obtain ⟨hbytes, hstate⟩ := ih (w := w.next.2) (by rw [toNat_next hone]; omega)
    rw [source_next hone] at hbytes hstate
    refine ⟨Block.ext ?_, ?_⟩
    · rw [Nat.add_comm n 1, ReplaySource.toBytes_draw_add, ← hbytes, Nat.add_comm 1 n]
      rfl
    · rw [Nat.add_comm n 1, ← ReplaySource.draw_draw, ← hstate, Nat.add_comm 1 n]
      rfl

theorem perform_spec (d : Draw) (h : w.index.toNat + d.width < 2 ^ 64) :
    (d.perform w).1 = (d.perform w.source).1 ∧
      (d.perform w).2.source = (d.perform w.source).2 := by
  obtain ⟨hbytes, hstate⟩ := draw_spec h
  rw [d.perform_eq, d.perform_eq, Prod.map_fst, Prod.map_fst, hbytes]
  exact ⟨rfl, hstate⟩

/-- Nor does it make a difference to draws in turn. -/
theorem performAll_spec (draws : List Draw) (h : w.index.toNat + total draws < 2 ^ 64) :
    (performAll draws w).1 = (performAll draws w.source).1 ∧
      (performAll draws w).2.source = (performAll draws w.source).2 := by
  induction draws generalizing w with
  | nil => exact ⟨rfl, rfl⟩
  | cons d draws ih =>
    rw [total_cons] at h
    obtain ⟨hdrawn, hsource⟩ := w.perform_spec d (by omega)
    have hindex : (d.perform w).2.index.toNat = w.index.toNat + d.width := by
      change (d.perform w).2.source.consumed = _
      rw [hsource, d.perform_eq]
      rfl
    obtain ⟨hall, hend⟩ := ih (w := (d.perform w).2) (by omega)
    rw [hsource] at hall hend
    refine ⟨?_, hend⟩
    rw [performAll, performAll, Prod.map_fst, Prod.map_fst, hdrawn, hall]

end WordReplay

/-! ### Keys -/

/-- The secret of the key is the first 32 bytes of the stream, and its chain code the next 32. -/
def PrivateKey.DrawnFrom (k : PrivateKey) (bytes : Stream' UInt8) : Prop :=
  k.secret.toBytes = bytes.take 32 ∧
    ∃ chainCode, k.chainCode = some chainCode ∧ chainCode.toBytes = (bytes.drop 32).take 32

namespace ReplaySource

open Draw

theorem drawnFrom_generate (s : ReplaySource) : (PrivateKey.generate s).1.DrawnFrom s.ahead := by
  have hstate := s.toBytes_draw 64
  refine ⟨?_, _, rfl, ?_⟩
  · change ((RandomSource.draw 64 s).1.toBytes).take 32 = _
    rw [hstate, Stream'.take_take]
    rfl
  · change ((RandomSource.draw 64 s).1.toBytes).drop 32 = _
    rw [hstate, Stream'.take_drop]

/-- **A replaying source has one stream, however it is read.**  Whatever draws are made in turn from
a source of some bytes, what they yield, the bytes of a number from the least significant on, is the
beginning of the endless repetition of these bytes, of zeros if there are none; no draw is refused,
and the count is the length of this beginning.  So draws that take as many bytes together yield the
same bytes and leave the same source.  A source that goes byte by byte and counts in 64 bits yields
the same, as long as fewer than `2 ^ 64` bytes are drawn.  A key takes the next 64 bytes, and a
second one goes on behind the first. -/
theorem one_stream (bs : Bytes) (draws : List Draw) :
    (performAll draws (ofBytes bs)).1.flatMap Drawn.toBytes = (repeated bs).take (total draws) ∧
    (performAll draws (ofBytes bs)).2.consumed = total draws ∧
    .refused ∉ (performAll draws (ofBytes bs)).1 ∧
    (∀ others, total others = total draws →
      (performAll others (ofBytes bs)).1.flatMap Drawn.toBytes =
        (performAll draws (ofBytes bs)).1.flatMap Drawn.toBytes ∧
      (performAll others (ofBytes bs)).2 = (performAll draws (ofBytes bs)).2) ∧
    (total draws < 2 ^ 64 →
      (performAll draws (WordReplay.ofBytes bs)).1 = (performAll draws (ofBytes bs)).1 ∧
      (performAll draws (WordReplay.ofBytes bs)).2.index.toNat = total draws) ∧
    ∃ first second s t, PrivateKey.generate (ofBytes bs) = (first, s) ∧
      PrivateKey.generate s = (second, t) ∧ first.DrawnFrom (repeated bs) ∧
      second.DrawnFrom ((repeated bs).drop (64 % bs.length)) := by
  obtain ⟨hbytes, hstate, hnot⟩ := performAll_spec draws (ofBytes bs)
  have hcount : (performAll draws (ofBytes bs)).2.consumed = total draws := by
    have hzero : (ofBytes bs).consumed = 0 := by cases bs <;> rfl
    rw [hstate]
    change (ofBytes bs).consumed + total draws = total draws
    rw [hzero, Nat.zero_add]
  rw [ahead_ofBytes] at hbytes
  refine ⟨hbytes, hcount, hnot, fun others htotal => ?_, fun hlt => ?_, _, _, _, _, rfl, rfl, ?_,
    ?_⟩
  · obtain ⟨hbytes', hstate', -⟩ := performAll_spec others (ofBytes bs)
    rw [hbytes', hstate', hbytes, hstate, htotal, ahead_ofBytes]
    exact ⟨rfl, rfl⟩
  · have hzero : (WordReplay.ofBytes bs).index.toNat = 0 := by cases bs <;> rfl
    obtain ⟨hsame, hsource⟩ := (WordReplay.ofBytes bs).performAll_spec draws (by omega)
    rw [WordReplay.source_ofBytes] at hsame hsource
    refine ⟨hsame, ?_⟩
    rw [← hcount, ← hsource]
    rfl
  · rw [← ahead_ofBytes]
    exact drawnFrom_generate (ofBytes bs)
  · -- the first key has taken 64 bytes
    rw [drop_mod_repeated, ← ahead_ofBytes, ← ahead_draw]
    exact drawnFrom_generate _

/-- The list ends inside of a draw. -/
example : (performAll [.fill 2, .word32, .tryFill 1] (ofBytes [1, 2, 3])).1.map Drawn.toBytes =
    [[1, 2], [3, 1, 2, 3], [1]] := by
  decide

end ReplaySource

end LedgerKit
