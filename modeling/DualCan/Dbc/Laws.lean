import DualCan.Dbc.Layout
import Mathlib.Data.Nat.Bitwise

/-!
# The laws of the codec

What `encode_signal` writes `decode_signal` returns, reduced to the bits of the signal; signals without a common
position are written independently. `decode_signal_value` turns the value of a signed signal into a number by its
sign. It is that number exactly where scale and offset are integers; where they are floats, as their defaults are,
it is the nearest double.
-/

namespace DualCan.Dbc

open DualCan.Bits

/-! ## Values of so many bits -/

theorem valueBit_iff (value : ℤ) (j : ℕ) : valueBit value j = true ↔ value / 2 ^ j % 2 = 1 := by
  rw [valueBit, decide_eq_true_iff, Int.shiftRight_eq_div_pow]
  norm_cast

theorem cast_toNat_emod (value : ℤ) (n : ℕ) : ((value % 2 ^ n).toNat : ℤ) = value % 2 ^ n := by
  have hpos : (0 : ℤ) < 2 ^ n := by positivity
  exact Int.toNat_of_nonneg (Int.emod_nonneg value hpos.ne')

theorem toNat_emod_lt (value : ℤ) (n : ℕ) : (value % 2 ^ n).toNat < 2 ^ n := by
  have hpos : (0 : ℤ) < 2 ^ n := by positivity
  zify
  rw [cast_toNat_emod]
  exact Int.emod_lt_of_pos value hpos

theorem cast_two_pow_succ (m : ℕ) : ((2 ^ (m + 1) : ℕ) : ℤ) = 2 * 2 ^ m := by
  push_cast
  ring

theorem testBit_toNat_emod (value : ℤ) (n j : ℕ) :
    (value % 2 ^ n).toNat.testBit j = (decide (j < n) && valueBit value j) := by
  have hcast := cast_toNat_emod value n
  by_cases hj : j < n
  · rw [decide_eq_true hj, Bool.true_and, Bool.eq_iff_iff, valueBit_iff, Nat.testBit_eq_decide_div_mod_eq,
      decide_eq_true_iff]
    obtain ⟨k, rfl⟩ := Nat.exists_eq_add_of_lt hj
    have hsplit : (2 : ℤ) ^ (j + k + 1) = 2 ^ j * (2 * 2 ^ k) := by ring
    -- below bit `n` a multiple of `2 ^ n` changes nothing
    have hbit : value % 2 ^ (j + k + 1) / 2 ^ j % 2 = value / 2 ^ j % 2 := by
      have hparts := Int.emod_add_mul_ediv value (2 ^ (j + k + 1))
      generalize value % 2 ^ (j + k + 1) = low at hparts ⊢
      generalize value / 2 ^ (j + k + 1) = high at hparts
      rw [← hparts, hsplit, mul_assoc, Int.add_mul_ediv_left _ _ (by positivity), mul_assoc,
        Int.add_mul_emod_self_left]
    rw [← hbit, ← hcast]
    norm_cast
  · have hlt : (value % 2 ^ n).toNat < 2 ^ j :=
      (toNat_emod_lt value n).trans_le (Nat.pow_le_pow_right (by decide) (Nat.not_lt.1 hj))
    rw [Nat.testBit_lt_two_pow hlt, decide_eq_false hj, Bool.false_and]

theorem decode_encode {s : Span} {data : List UInt8} (hin : s.Inside data.length) (value : ℤ) :
    s.decode (s.encode value data) = .ok (value % 2 ^ s.length).toNat := by
  rw [← length_encode s value data] at hin
  obtain ⟨v, hv, hbits⟩ := decode_eq hin
  rw [length_encode] at hin
  rw [hv]
  congr 1
  apply Nat.eq_of_testBit_eq
  intro j
  rw [hbits, testBit_toNat_emod]
  by_cases hj : j < s.length
  · rw [encode_written hin value hj]
  · rw [decide_eq_false hj, Bool.false_and, Bool.false_and]

/-! ## Signed values -/

/-- The highest of `m + 1` bits. -/
theorem and_two_pow_ne_zero {raw m : ℕ} (hlt : raw < 2 ^ (m + 1)) : raw &&& 2 ^ m ≠ 0 ↔ 2 ^ m ≤ raw := by
  have hhigh : raw / 2 ^ m < 2 := by
    rw [Nat.div_lt_iff_lt_mul (Nat.two_pow_pos m), Nat.mul_comm, ← Nat.pow_succ]
    exact hlt
  have hbit : raw.testBit m = true ↔ 2 ^ m ≤ raw := by
    rw [Nat.testBit_eq_decide_div_mod_eq, decide_eq_true_iff, Nat.mod_eq_of_lt hhigh,
      ← Nat.one_le_div_iff (Nat.two_pow_pos m)]
    omega
  rw [Nat.and_two_pow, ← hbit]
  cases raw.testBit m with
  | true => simp
  | false => simp

/-- The two's-complement reading of `n` bits. -/
theorem bmod_eq (value : ℤ) {n : ℕ} (hn : 0 < n) : value.bmod (2 ^ n) =
    if (value % 2 ^ n).toNat &&& (1 <<< (n - 1)) ≠ 0 then ((value % 2 ^ n).toNat : ℤ) - (1 <<< n : ℕ)
    else (value % 2 ^ n).toNat := by
  have hcast := cast_toNat_emod value n
  have hlt := toNat_emod_lt value n
  obtain ⟨m, rfl⟩ := Nat.exists_eq_add_one_of_ne_zero hn.ne'
  have hdouble := cast_two_pow_succ m
  have hhalf : (((2 ^ (m + 1) : ℕ) : ℤ) + 1) / 2 = 2 ^ m := by omega
  rw [Int.bmod, hhalf, Nat.cast_pow, Nat.cast_ofNat, ← hcast, Int.toNat_natCast, Nat.add_sub_cancel,
    Nat.shiftLeft_eq, Nat.one_mul, Nat.shiftLeft_eq, Nat.one_mul, Nat.cast_pow, Nat.cast_ofNat]
  generalize (value % 2 ^ (m + 1)).toNat = raw at hlt
  rw [if_congr (and_two_pow_ne_zero hlt) rfl rfl]
  by_cases hraw : 2 ^ m ≤ raw
  · rw [if_pos hraw, if_neg (not_lt.2 (by exact_mod_cast hraw))]
  · rw [if_neg hraw, if_pos (by exact_mod_cast not_le.1 hraw)]

theorem decodeSignalValue_signed {s : Span} (hpos : 0 < s.length) {data : List UInt8}
    (hin : s.Inside data.length) (value : ℤ) (scale offset : Number) :
    decodeSignalValue (s.encode value data) s.startBit s.length s.byteOrder true scale offset =
      ((Number.int (value.bmod (2 ^ s.length))).mul scale).bind fun scaled => scaled.add offset := by
  have hdecode : decodeSignal (s.encode value data) s.startBit s.length s.byteOrder =
      .ok (value % 2 ^ s.length).toNat := decode_encode hin value
  have hnonempty : ¬(true = true ∧ s.length = 0) := fun h => hpos.ne' h.2
  rw [decodeSignalValue, hdecode, bmod_eq value hpos]
  simp only [true_and, hpos.ne', if_false]
  rfl

/-- With the default scale and offset an integer becomes the nearest double, where there is one. -/
theorem mul_add_default (n : ℤ) : ((Number.int n).mul defaultScale).bind (fun scaled => scaled.add defaultOffset) =
    (Number.int n).toFloat.map Number.float := by
  have hmul : (Number.int n).mul defaultScale =
      (Number.int n).toFloat.bind fun x => .ok (.float (x.mul (.ofRat 1))) := rfl
  have hadd : ∀ x : Double, (Number.float x).add defaultOffset = .ok (.float (x.add (.ofRat 0))) := fun _ => rfl
  rw [hmul]
  cases (Number.int n).toFloat with
  | error e => rfl
  | ok x =>
    simp only [Except.bind, Except.map, hadd, Double.mul_ofRat_one, Double.add_ofRat_zero]

/-- Integers of at most 54 bits with their sign are doubles. -/
theorem toFloat_bmod (value : ℤ) {n : ℕ} (hn : n ≤ 54) : (Number.int (value.bmod (2 ^ n))).toFloat =
    .ok (.ofRat (value.bmod (2 ^ n))) ∧ (Double.ofRat (value.bmod (2 ^ n))).value? = some ↑(value.bmod (2 ^ n)) := by
  have hle : (2 ^ n : ℕ) ≤ 2 ^ 54 := Nat.pow_le_pow_right (by decide) hn
  have hlow := Int.le_bmod (x := value) (m := 2 ^ n) (Nat.two_pow_pos n)
  have hhigh := Int.bmod_lt (x := value) (m := 2 ^ n) (Nat.two_pow_pos n)
  have hsmall : |value.bmod (2 ^ n)| ≤ 2 ^ 53 := by
    rw [abs_le]
    omega
  have hdouble := isDouble_intCast hsmall
  have hrounded := hdouble.small
  rw [← hdouble.rounded] at hrounded
  rw [Number.toFloat, if_pos hrounded, Double.ofRat_eq hdouble]
  exact ⟨rfl, rfl⟩

/-! ## The laws -/

theorem encode_comm {s t : Span} {data : List UInt8} (hs : s.Inside data.length) (ht : t.Inside data.length)
    (hdisjoint : s.Disjoint t) (value value' : ℤ) :
    t.encode value' (s.encode value data) = s.encode value (t.encode value' data) := by
  have hs' : s.Inside (t.encode value' data).length := by rwa [length_encode]
  have ht' : t.Inside (s.encode value data).length := by rwa [length_encode]
  apply bytes_ext
  · rw [length_encode, length_encode, length_encode, length_encode]
  intro q _
  by_cases hsq : s.Touches q
  · have htq := hdisjoint q hsq
    obtain ⟨j, hj, rfl⟩ := hsq
    rw [encode_frame t value' _ htq, encode_written hs value hj, encode_written hs' value hj]
  · rw [encode_frame s value _ hsq]
    by_cases htq : t.Touches q
    · obtain ⟨j, hj, rfl⟩ := htq
      rw [encode_written ht value' hj, encode_written ht' value' hj]
    · rw [encode_frame t value' _ htq, encode_frame t value' _ htq, encode_frame s value _ hsq]

/-- What the codec promises of a signal and a value written to it. -/
structure CodecLaws (s : Span) (data : List UInt8) (value : ℤ) : Prop where
  roundTrip : s.decode (s.encode value data) = .ok (value % 2 ^ s.length).toNat
  signed : decodeSignalValue (s.encode value data) s.startBit s.length s.byteOrder true (.int 1) (.int 0) =
    .ok (.int (value.bmod (2 ^ s.length)))
  nearest : decodeSignalValue (s.encode value data) s.startBit s.length s.byteOrder true defaultScale defaultOffset =
    (Number.int (value.bmod (2 ^ s.length))).toFloat.map Number.float
  exact : s.length ≤ 54 → ∃ x, decodeSignalValue (s.encode value data) s.startBit s.length s.byteOrder true
    defaultScale defaultOffset = .ok x ∧ x.value? = some ↑(value.bmod (2 ^ s.length))
  length : (s.encode value data).length = data.length
  frame : ∀ q, ¬s.Touches q → bitAt (s.encode value data) q = bitAt data q
  commutes : ∀ (t : Span) (value' : ℤ), t.Inside data.length → s.Disjoint t →
    t.encode value' (s.encode value data) = s.encode value (t.encode value' data)

/-- **The codec**: its laws hold of every value and of every signal of positive length inside the payload. -/
theorem codecLaws {s : Span} (hpos : 0 < s.length) {data : List UInt8} (hin : s.Inside data.length) (value : ℤ) :
    CodecLaws s data value where
  roundTrip := decode_encode hin value
  signed := by
    rw [decodeSignalValue_signed hpos hin]
    change Except.ok (Number.int (value.bmod (2 ^ s.length) * 1 + 0)) = _
    rw [Int.mul_one, Int.add_zero]
  nearest := (decodeSignalValue_signed hpos hin value _ _).trans (mul_add_default _)
  exact hshort := by
    obtain ⟨hfloat, hvalue⟩ := toFloat_bmod value hshort
    refine ⟨.float (.ofRat (value.bmod (2 ^ s.length))), ?_, hvalue⟩
    rw [decodeSignalValue_signed hpos hin, mul_add_default, hfloat]
    rfl
  length := length_encode s value data
  frame q hq := encode_frame s value data hq
  commutes t value' ht hdisjoint := encode_comm hin ht hdisjoint value value'

/-- Ten bits over two bytes. -/
theorem codecLaws_tenBits : CodecLaws ⟨3, 10, .bigEndian⟩ (List.replicate 8 0xFF) (-3) :=
  codecLaws (by decide) (by decide) (-3)

theorem roundDouble_odd : roundDouble (((2 ^ 53 + 1 : ℕ) : ℚ)) = ((2 ^ 53 : ℕ) : ℚ) := by
  have hlog : Int.log 2 |((2 ^ 53 + 1 : ℕ) : ℚ)| = 53 := by
    rw [Nat.abs_cast, Int.log_natCast, Nat.log_eq_of_pow_le_of_lt_pow (m := 53) (by norm_num) (by norm_num)]
    rfl
  have hbit : lastBit 53 (-1074) ((2 ^ 53 + 1 : ℕ) : ℚ) = 1 := by
    rw [lastBit, hlog]
    rfl
  have hfloor : ⌊((2 ^ 53 + 1 : ℕ) : ℚ) / 2 ^ (1 : ℤ)⌋ = 2 ^ 52 := by
    rw [Int.floor_eq_iff]
    norm_num
  have hfract : Int.fract (((2 ^ 53 + 1 : ℕ) : ℚ) / 2 ^ (1 : ℤ)) = 1 / 2 := by
    rw [Int.fract, hfloor]
    norm_num
  rw [roundDouble, roundTo, hbit, roundEven, hfract, hfloor, if_neg (by norm_num), if_neg (by norm_num),
    if_pos (by norm_num)]
  norm_num

/-- The default scale is a float, and a float has 53 bits: a longer signal comes back rounded. -/
theorem not_signExtended_default :
    (decodeSignalValue ((⟨0, 64, .littleEndian⟩ : Span).encode (2 ^ 53 + 1) (List.replicate 8 0)) 0 64 .littleEndian
      true defaultScale defaultOffset).toOption.bind Number.value? ≠
        some ↑((2 ^ 53 + 1 : ℤ).bmod (2 ^ 64)) := by
  have hin : (⟨0, 64, .littleEndian⟩ : Span).Inside (List.replicate 8 (0 : UInt8)).length := by decide
  have hdecode := decodeSignalValue_signed (by decide) hin (2 ^ 53 + 1) defaultScale defaultOffset
  rw [mul_add_default] at hdecode
  have hbmod : (2 ^ 53 + 1 : ℤ).bmod (2 ^ 64) = 2 ^ 53 + 1 := by decide
  have hround : roundDouble ((2 ^ 53 + 1 : ℤ) : ℚ) = 2 ^ 53 := by
    have hodd := roundDouble_odd
    push_cast at hodd ⊢
    exact hodd
  have hsmall : |roundDouble ((2 ^ 53 + 1 : ℤ) : ℚ)| < 2 ^ 1024 := by
    rw [hround, abs_of_pos (by positivity)]
    exact pow_lt_pow_right₀ (by norm_num) (by norm_num)
  dsimp only at hdecode
  rw [hdecode, hbmod, Number.toFloat, if_pos hsmall, Double.ofRat, dif_pos hsmall]
  intro h
  have hvalue : roundDouble ((2 ^ 53 + 1 : ℤ) : ℚ) = ((2 ^ 53 + 1 : ℤ) : ℚ) := Option.some.inj h
  rw [hround] at hvalue
  norm_num at hvalue

end DualCan.Dbc
