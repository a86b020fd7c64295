import Mathlib.Data.List.GetD
import Mathlib.Tactic.Common

/-!
# Bits of a byte string

Position `p` of a byte string is bit `p % 8` of byte `p / 8`, counted from the least significant one.
A string is read and written bit by bit; two strings of one length with the same bits are equal.
-/

namespace DualCan.Bits

/-- The bit at a position, `false` past the end. -/
def bitAt (data : List UInt8) (p : ℕ) : Bool := (data.getD (p / 8) 0).toBitVec.getLsbD (p % 8)

/-- The byte with one of its bits set. -/
def setBit (byte : UInt8) (k : ℕ) : UInt8 := ⟨byte.toBitVec ||| 1#8 <<< k⟩

/-- The byte with one of its bits cleared. -/
def clearBit (byte : UInt8) (k : ℕ) : UInt8 := ⟨byte.toBitVec &&& ~~~(1#8 <<< k)⟩

/-- The string with the bit at a position replaced; nothing past the end. -/
def putBit (data : List UInt8) (p : ℕ) (b : Bool) : List UInt8 :=
  data.modify (p / 8) fun byte => if b then setBit byte (p % 8) else clearBit byte (p % 8)

/-- The bits of a byte, from the least significant one. -/
def byteBits (byte : UInt8) : List Bool := (List.range 8).map byte.toBitVec.getLsbD

/-- The bits of a string, in the order of their positions. -/
def bitsOf (data : List UInt8) : List Bool := data.flatMap byteBits

/-! ## Reading -/

theorem bitAt_nil (p : ℕ) : bitAt [] p = false := by
  simp [bitAt]

theorem bitAt_replicate_zero (n p : ℕ) : bitAt (List.replicate n 0) p = false := by
  rw [bitAt, List.getD_eq_getElem?_getD, List.getElem?_replicate]
  split
  · simp
  · simp

theorem bitAt_cons_of_lt {p : ℕ} (h : p < 8) (byte : UInt8) (data : List UInt8) :
    bitAt (byte :: data) p = byte.toBitVec.getLsbD p := by
  rw [bitAt, Nat.div_eq_of_lt h, Nat.mod_eq_of_lt h]
  rfl

theorem bitAt_cons_add (byte : UInt8) (data : List UInt8) (p : ℕ) :
    bitAt (byte :: data) (8 + p) = bitAt data p := by
  have hdiv : (8 + p) / 8 = p / 8 + 1 := by omega
  have hmod : (8 + p) % 8 = p % 8 := by omega
  rw [bitAt, hdiv, hmod]
  rfl

/-- Two bytes with the same bits are equal. -/
theorem byte_ext {a b : UInt8} (h : ∀ k < 8, a.toBitVec.getLsbD k = b.toBitVec.getLsbD k) : a = b :=
  UInt8.toBitVec_inj.1 (BitVec.eq_of_getLsbD_eq h)

/-- Two strings of one length with the same bits are equal. -/
theorem bytes_ext {data data' : List UInt8} (hlength : data.length = data'.length)
    (h : ∀ p < 8 * data.length, bitAt data p = bitAt data' p) : data = data' := by
  induction data generalizing data' with
  | nil => exact (List.length_eq_zero_iff.1 hlength.symm).symm
  | cons byte data ih =>
    cases data' with
    | nil => cases hlength
    | cons byte' data' =>
      rw [List.length_cons] at h
      have hbyte : byte = byte' := by
        apply byte_ext
        intro k hk
        have hbit := h k (by omega)
        rwa [bitAt_cons_of_lt hk, bitAt_cons_of_lt hk] at hbit
      have hdata : data = data' := by
        apply ih (Nat.succ.inj hlength)
        intro p hp
        have hbit := h (8 + p) (by omega)
        rwa [bitAt_cons_add, bitAt_cons_add] at hbit
      rw [hbyte, hdata]

@[simp] theorem length_byteBits (byte : UInt8) : (byteBits byte).length = 8 := by
  simp [byteBits]

@[simp] theorem length_bitsOf (data : List UInt8) : (bitsOf data).length = 8 * data.length := by
  induction data with
  | nil => rfl
  | cons byte data ih =>
    rw [bitsOf, List.flatMap_cons, List.length_append, length_byteBits, List.length_cons]
    rw [bitsOf] at ih
    omega

theorem bitsOf_cons (byte : UInt8) (data : List UInt8) : bitsOf (byte :: data) = byteBits byte ++ bitsOf data :=
  List.flatMap_cons

theorem bitsOf_append (data data' : List UInt8) : bitsOf (data ++ data') = bitsOf data ++ bitsOf data' :=
  List.flatMap_append

theorem getD_byteBits (byte : UInt8) (k : ℕ) : (byteBits byte).getD k false = byte.toBitVec.getLsbD k := by
  rw [byteBits, List.getD_eq_getElem?_getD, List.getElem?_map]
  by_cases h : k < 8
  · rw [List.getElem?_range h]
    rfl
  · have hle : 8 ≤ k := Nat.not_lt.1 h
    rw [List.getElem?_eq_none (by rwa [List.length_range]), BitVec.getLsbD_of_ge byte.toBitVec k hle]
    rfl

/-- The list of the bits has each bit at its position. -/
theorem getD_bitsOf (data : List UInt8) (p : ℕ) : (bitsOf data).getD p false = bitAt data p := by
  induction data generalizing p with
  | nil => rw [bitAt_nil]; rfl
  | cons byte data ih =>
    rw [bitsOf_cons]
    by_cases h : p < 8
    · have hlt : p < (byteBits byte).length := by rwa [length_byteBits]
      rw [List.getD_append _ _ _ _ hlt, getD_byteBits, bitAt_cons_of_lt h]
    · have hle : (byteBits byte).length ≤ p := by rw [length_byteBits]; omega
      rw [List.getD_append_right _ _ _ _ hle, length_byteBits, ih]
      obtain ⟨q, rfl⟩ := Nat.exists_eq_add_of_le (Nat.not_lt.1 h)
      rw [Nat.add_sub_cancel_left, bitAt_cons_add]

/-! ## Writing -/

theorem getLsbD_setBit (byte : UInt8) {j k : ℕ} (hk : k < 8) :
    (setBit byte k).toBitVec.getLsbD j = (decide (j = k) || byte.toBitVec.getLsbD j) := by
  have hbit : (1#8 <<< k).getLsbD j = decide (j = k) := by
    rw [BitVec.getLsbD_shiftLeft, BitVec.getLsbD_one]
    by_cases heq : j = k
    · subst heq
      simp [hk]
    · by_cases hlt : j < k
      · simp [heq, hlt]
      · have hne : j - k ≠ 0 := by omega
        simp [heq, hne]
  rw [setBit, BitVec.getLsbD_or, hbit, Bool.or_comm]

theorem getLsbD_clearBit (byte : UInt8) {j k : ℕ} (hk : k < 8) :
    (clearBit byte k).toBitVec.getLsbD j = (!decide (j = k) && byte.toBitVec.getLsbD j) := by
  have hset := getLsbD_setBit 0 (j := j) hk
  simp only [setBit, UInt8.toBitVec_zero, BitVec.zero_or, BitVec.getLsbD_zero, Bool.or_false] at hset
  rw [clearBit, BitVec.getLsbD_and, BitVec.getLsbD_not, hset]
  by_cases hj : j < 8
  · simp [hj, Bool.and_comm]
  · simp [BitVec.getLsbD_of_ge byte.toBitVec j (Nat.not_lt.1 hj)]

@[simp] theorem length_putBit (data : List UInt8) (p : ℕ) (b : Bool) : (putBit data p b).length = data.length :=
  List.length_modify ..

/-- A written bit is read back, and no other bit changes. -/
theorem bitAt_putBit {data : List UInt8} {p : ℕ} (hp : p < 8 * data.length) (b : Bool) (q : ℕ) :
    bitAt (putBit data p b) q = if q = p then b else bitAt data q := by
  have hk : p % 8 < 8 := Nat.mod_lt _ (by decide)
  have hin : p / 8 < data.length := by omega
  unfold bitAt putBit
  rw [List.getD_eq_getElem?_getD, List.getD_eq_getElem?_getD, List.getElem?_modify]
  by_cases hbyte : p / 8 = q / 8
  · rw [← hbyte, List.getElem?_eq_getElem hin]
    have hsame : q % 8 = p % 8 ↔ q = p := by omega
    cases b with
    | true => simp [getLsbD_setBit _ hk, hsame, Bool.if_true_left]
    | false => simp [getLsbD_clearBit _ hk, hsame]
  · have hne : q ≠ p := fun h => hbyte (by rw [h])
    rw [if_neg hne]
    simp [hbyte]

end DualCan.Bits
