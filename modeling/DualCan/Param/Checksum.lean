import DualCan.Bits.Register
import DualCan.Param.Store

/-!
# The checksum of an image

`param_crc32` is a shift register over the bits of its bytes, and the checksum is stored in the order in which
the register would take it in: after the whole of any accepted image the register holds one fixed word. Two
accepted images therefore cannot differ in a burst.
-/

namespace DualCan.Param

open DualCan.Bits

/-- The feedback word of `param_crc32`. -/
def crcPoly : BitVec 32 := 0xEDB88320

theorem crcBit_eq (crc : UInt32) : (crcBit crc).toBitVec = Register.shift crcPoly crc.toBitVec := by
  have hlow : crc &&& 1 ≠ 0 ↔ crc.toBitVec.getLsbD 0 = true := by
    rw [ne_eq, ← UInt32.toBitVec_inj, UInt32.toBitVec_and]
    change ¬crc.toBitVec &&& 1#32 = 0#32 ↔ _
    rw [BitVec.and_one_eq_setWidth_ofBool_getLsbD]
    cases crc.toBitVec.getLsbD 0 <;> decide
  unfold crcBit Register.shift
  by_cases h : crc &&& 1 ≠ 0
  · rw [if_pos h, if_pos (hlow.1 h)]
    rfl
  · rw [if_neg h, if_neg (fun hbit => h (hlow.2 hbit))]
    rfl

theorem iterate_crcBit_eq (n : ℕ) (crc : UInt32) :
    (crcBit^[n] crc).toBitVec = (Register.shift crcPoly)^[n] crc.toBitVec := by
  induction n generalizing crc with
  | zero => rfl
  | succ n ih => rw [Function.iterate_succ_apply, Function.iterate_succ_apply, ih, crcBit_eq]

/-- The bits of a byte, taken in as one word. -/
theorem word_byteBits (byte : UInt8) : Register.word 32 (byteBits byte) = byte.toUInt32.toBitVec := by
  apply BitVec.eq_of_getLsbD_eq
  intro i hi
  rw [Register.getLsbD_word hi, getD_byteBits, UInt8.toBitVec_toUInt32, BitVec.getLsbD_setWidth]
  simp [hi]

/-- The loops of `param_crc32`. -/
theorem crcLoop_eq (data : List UInt8) (crc : UInt32) :
    (data.foldl (fun crc byte => crcBit^[8] (crc ^^^ byte.toUInt32)) crc).toBitVec =
      Register.run crcPoly crc.toBitVec (bitsOf data) := by
  induction data generalizing crc with
  | nil => rfl
  | cons byte data ih =>
    have hshort : (byteBits byte).length ≤ 32 := by rw [length_byteBits]; decide
    rw [List.foldl_cons, ih, bitsOf_cons, Register.run_append, Register.run_word hshort, iterate_crcBit_eq,
      length_byteBits, word_byteBits, UInt32.toBitVec_xor]

theorem getLsbD_getU32 (image : List UInt8) (offset : ℕ) {i : ℕ} (hi : i < 32) :
    (getU32 image offset).toBitVec.getLsbD i = bitAt image (8 * offset + i) := by
  have hbyte : bitAt image (8 * offset + i) =
      (image.getD (offset + i / 8) 0).toBitVec.getLsbD (i % 8) := by
    have hdiv : (8 * offset + i) / 8 = offset + i / 8 := by omega
    have hmod : (8 * offset + i) % 8 = i % 8 := by omega
    rw [bitAt, hdiv, hmod]
  have h8 : ∀ (b : UInt8), (b.toUInt32 <<< 8).toBitVec = b.toBitVec.setWidth 32 <<< 8 := fun _ => rfl
  have h16 : ∀ (b : UInt8), (b.toUInt32 <<< 16).toBitVec = b.toBitVec.setWidth 32 <<< 16 := fun _ => rfl
  have h24 : ∀ (b : UInt8), (b.toUInt32 <<< 24).toBitVec = b.toBitVec.setWidth 32 <<< 24 := fun _ => rfl
  rw [hbyte, getU32, UInt32.toBitVec_or, UInt32.toBitVec_or, UInt32.toBitVec_or, h8, h16, h24]
  simp only [BitVec.getLsbD_or, BitVec.getLsbD_shiftLeft, UInt8.toBitVec_toUInt32, BitVec.getLsbD_setWidth, hi,
    decide_true, Bool.true_and]
  have hj : i % 8 < 8 := Nat.mod_lt _ (by decide)
  have hpast : ∀ (b : UInt8) (n : ℕ), 8 ≤ n → b.toBitVec.getLsbD n = false :=
    fun b n hn => BitVec.getLsbD_of_ge b.toBitVec n hn
  obtain hk | hk | hk | hk : i / 8 = 0 ∨ i / 8 = 1 ∨ i / 8 = 2 ∨ i / 8 = 3 := by omega
  · obtain ⟨h0, h1, h2, h3⟩ : i < 8 ∧ i < 16 ∧ i < 24 ∧ i % 8 = i := by omega
    simp [hk, h0, h1, h2, h3]
  · obtain ⟨h0, h1, h2, h3, h4⟩ : ¬i < 8 ∧ i < 16 ∧ i < 24 ∧ i % 8 = i - 8 ∧ i - 8 < 32 := by omega
    simp [hk, h0, h1, h2, h3, h4, hpast _ i (by omega)]
  · obtain ⟨h0, h1, h2, h3, h4⟩ : ¬i < 8 ∧ ¬i < 16 ∧ i < 24 ∧ i % 8 = i - 16 ∧ i - 16 < 32 := by omega
    simp [hk, h0, h1, h2, h3, h4, hpast _ i (by omega), hpast _ (i - 8) (by omega)]
  · obtain ⟨h0, h1, h2, h3, h4⟩ : ¬i < 8 ∧ ¬i < 16 ∧ ¬i < 24 ∧ i % 8 = i - 24 ∧ i - 24 < 32 := by omega
    simp [hk, h0, h1, h2, h3, h4, hpast _ i (by omega), hpast _ (i - 8) (by omega), hpast _ (i - 16) (by omega)]

/-- The last four bytes of an image, taken in as one word. -/
theorem word_checksum {image : List UInt8} :
    Register.word 32 (bitsOf (image.drop crcOffset)) = (getU32 image crcOffset).toBitVec := by
  have hread := getU32_drop image crcOffset 0
  rw [Nat.add_zero] at hread
  apply BitVec.eq_of_getLsbD_eq
  intro i hi
  rw [Register.getLsbD_word hi, getD_bitsOf, ← hread, getLsbD_getU32 _ _ hi]
  simp

/-! ## Accepted images -/

theorem checksum_of_decode {image : List UInt8} {store : ParamStore}
    (h : ParamStore.decode image = some store) :
    getU32 image crcOffset = paramCrc32 (image.take crcOffset) := by
  unfold ParamStore.decode at h
  split at h
  · cases h
  · rename_i hchecks
    rw [not_or, not_or, not_not, not_not, not_not] at hchecks
    exact hchecks.2.2

/-- What the register holds after any accepted image. -/
def residue : BitVec 32 := (Register.shift crcPoly)^[32] (BitVec.allOnes 32)

theorem run_of_decode {image : List UInt8} (hlength : image.length = imageSize) {store : ParamStore}
    (h : ParamStore.decode image = some store) :
    Register.run crcPoly (BitVec.allOnes 32) (bitsOf image) = residue := by
  have hcrc := congrArg UInt32.toBitVec (checksum_of_decode h)
  rw [paramCrc32, UInt32.toBitVec_not, crcLoop_eq] at hcrc
  have hlast : (bitsOf (image.drop crcOffset)).length = 32 := by
    rw [length_bitsOf, List.length_drop, hlength]
    rfl
  rw [← List.take_append_drop crcOffset image, bitsOf_append, Register.run_append,
    Register.run_word (Nat.le_of_eq hlast), word_checksum, hcrc, hlast]
  have hones : ∀ r : BitVec 32, r ^^^ ~~~r = BitVec.allOnes 32 := by
    intro r
    rw [← BitVec.xor_allOnes, ← BitVec.xor_assoc, BitVec.xor_self, BitVec.zero_xor]
  exact congrArg (Register.shift crcPoly)^[32] (hones _)

/-- **Burst detection**: no image that differs from an accepted one, and only within 32 consecutive bits, is
accepted. -/
theorem decode_of_burst {image image' : List UInt8} (hlength : image.length = imageSize)
    (hlength' : image'.length = imageSize) {store : ParamStore} (h : ParamStore.decode image = some store)
    (hne : image' ≠ image) {start : ℕ}
    (hburst : ∀ p, bitAt image' p ≠ bitAt image p → start ≤ p ∧ p < start + 32) :
    ParamStore.decode image' = none := by
  cases h' : ParamStore.decode image' with
  | none => rfl
  | some store' =>
    have hbits : (bitsOf image').length = (bitsOf image).length := by
      rw [length_bitsOf, length_bitsOf, hlength, hlength']
    have hdiffer : bitsOf image' ≠ bitsOf image := by
      intro heq
      apply hne
      apply bytes_ext (hlength'.trans hlength.symm)
      intro p _
      rw [← getD_bitsOf, ← getD_bitsOf, heq]
    have hwindow : ∀ i, (bitsOf image').getD i false ≠ (bitsOf image).getD i false →
        start ≤ i ∧ i < start + 32 := by
      intro i hi
      rw [getD_bitsOf, getD_bitsOf] at hi
      exact hburst i hi
    have hregister : Register.run crcPoly (BitVec.allOnes 32) (bitsOf image') ≠
        Register.run crcPoly (BitVec.allOnes 32) (bitsOf image) :=
      Register.run_ne_of_burst (by decide) hbits hdiffer hwindow _
    rw [run_of_decode hlength' h', run_of_decode hlength h] at hregister
    exact absurd rfl hregister

/-- The image of the empty store. -/
def blankImage : List UInt8 := imageOf []

/-- Two flipped bits, in the protected bytes and in the checksum. -/
theorem decode_of_burst_acrossChecksum : ParamStore.decode
    (putBit (putBit blankImage 600 (!bitAt blankImage 600)) 631 (!bitAt blankImage 631)) = none := by
  have hlength : blankImage.length = imageSize := imageOf_length packed_nil
  have hbit : ∀ p, bitAt (putBit (putBit blankImage 600 (!bitAt blankImage 600)) 631 (!bitAt blankImage 631)) p =
      if p = 631 then !bitAt blankImage 631 else if p = 600 then !bitAt blankImage 600
      else bitAt blankImage p := by
    intro p
    rw [bitAt_putBit (by rw [length_putBit, hlength]; decide), bitAt_putBit (by rw [hlength]; decide)]
  have hburst : ∀ p, bitAt (putBit (putBit blankImage 600 (!bitAt blankImage 600)) 631 (!bitAt blankImage 631)) p ≠
      bitAt blankImage p → 600 ≤ p ∧ p < 600 + 32 := by
    intro p hp
    rw [hbit] at hp
    by_contra hout
    rw [if_neg (by omega), if_neg (by omega)] at hp
    exact hp rfl
  refine decode_of_burst hlength (by rw [length_putBit, length_putBit, hlength]) (decode_imageOf packed_nil)
    (fun heq => ?_) hburst
  have hflip := hbit 600
  rw [heq, if_neg (by decide), if_pos rfl] at hflip
  simp at hflip

end DualCan.Param
