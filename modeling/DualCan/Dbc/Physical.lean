import DualCan.Bits.Rounding
import DualCan.Dbc.Agree

/-!
# Physical values

`decode_signal_value` and `encode_signal_value` of `bits.py` for signals with a scale and an offset. Both compute in
doubles and round at every operation. Of a signal of up to 48 bits they lose nothing all the same: what has been
decoded is encoded to the same bits (`valueLaws`).
-/

namespace DualCan.Dbc

open DualCan.Bits

/-! ## The encoder -/

/-- The exceptions of `encode_signal_value`. -/
inductive EncodeError where
  | zeroDivisionError
  | overflowError
  | valueError
  deriving DecidableEq, Repr

namespace Number

def sub : Number → Number → Except PyError Number
  | .int a, .int b => .ok (.int (a - b))
  | a, b => do return .float ((← a.toFloat).add (← b.toFloat).neg)

/-- The quotient of two integers is rounded once. -/
def trueDiv : Number → Number → Except EncodeError Double
  | .int a, .int b =>
    if b = 0 then .error .zeroDivisionError
    else if |roundDouble (a / b)| < 2 ^ 1024 then .ok (.ofRat (a / b)) else .error .overflowError
  | a, b => do
    let x ← a.toFloat.mapError fun _ => .overflowError
    let y ← b.toFloat.mapError fun _ => .overflowError
    if y = .ofRat 0 then throw .zeroDivisionError
    return x.div y

end Number

/-- `int(round(x))`. -/
def roundInt : Double → Except EncodeError ℤ
  | .finite v _ => .ok (roundEven v)
  | .infinity _ => .error .overflowError
  | .nan => .error .valueError

/-- `encode_signal_value`; the mask leaves the remainder of a negative number. -/
def encodeSignalValue (data : List UInt8) (startBit length : ℕ) (value : Number) (byteOrder : ByteOrder)
    (isSigned : Bool) (scale offset : Number) : Except EncodeError (List UInt8) := do
  let difference ← (value.sub offset).mapError fun _ => .overflowError
  let raw ← roundInt (← difference.trueDiv scale)
  let raw := if isSigned = true ∧ raw < 0 then raw % (1 <<< length : ℕ) else raw
  return encodeSignal data startBit length raw byteOrder

/-! ## Signals with a scale -/

namespace Signal

/-- The signal has this scale and offset, and at most 48 bits. -/
structure Scaled (s : Signal) (c : Scaling) : Prop where
  length_le : s.length ≤ 48
  scale : s.scale = .ofRat c.scale
  offset : s.offset = .ofRat c.offset

/-- `decode_signal_value` of the signal. -/
def decodeValue (s : Signal) (data : List UInt8) : Except PyError Number :=
  decodeSignalValue data s.startBit s.length s.byteOrder s.isSigned (.float s.scale) (.float s.offset)

/-- `encode_signal_value` of the signal. -/
def encodeValue (s : Signal) (x : Double) (data : List UInt8) : Except EncodeError (List UInt8) :=
  encodeSignalValue data s.startBit s.length (.float x) s.byteOrder s.isSigned (.float s.scale) (.float s.offset)

/-- The number lies between two values of the signal. -/
def Covers (s : Signal) (c : Scaling) (v : ℚ) : Prop :=
  ∃ m n : ℤ, s.InRange m ∧ s.InRange n ∧ m ≤ (v - c.offset) / c.scale ∧ (v - c.offset) / c.scale ≤ n

end Signal

section Values

variable {s : Signal} {c : Scaling}

theorem abs_reading_le (h : s.Scaled c) {raw : ℕ} (hraw : raw < 2 ^ s.length) : |s.reading raw| ≤ 2 ^ 48 :=
  abs_of_inRange h.length_le (reading_inRange s hraw)

theorem inRange_of_between {m n k : ℤ} (hm : s.InRange m) (hn : s.InRange n) (hlow : m ≤ k) (hhigh : k ≤ n) :
    s.InRange k := by
  unfold Signal.InRange at *
  split at hm
  · rename_i hsigned
    rw [if_pos hsigned] at hn ⊢
    omega
  · rename_i hsigned
    rw [if_neg hsigned] at hn ⊢
    omega

/-- The value is the scaled reading of the bits. -/
theorem decodeValue_eq (h : s.Scaled c) {data : List UInt8} {raw : ℕ} (hraw : raw < 2 ^ s.length)
    (hdecode : s.toSpan.decode data = .ok raw) : s.decodeValue data = .ok (.float (c.apply (s.reading raw))) := by
  have hdouble : IsDouble (s.reading raw) := isDouble_intCast ((abs_reading_le h hraw).trans (by norm_num))
  have hsmall := hdouble.small
  rw [← hdouble.rounded] at hsmall
  have hfloat : (Number.int (s.reading raw)).toFloat = .ok (.ofRat (s.reading raw)) := if_pos hsmall
  have hmul : (Number.int (s.reading raw)).mul (.float s.scale) =
      (Number.int (s.reading raw)).toFloat.bind fun x => .ok (.float (x.mul s.scale)) := rfl
  rw [Signal.decodeValue, decodeSignalValue_eq hraw hdecode, hmul, hfloat, h.scale, h.offset]
  rfl

/-- Masking changes none of the bits of the signal. -/
theorem encode_emod {data : List UInt8} (hin : s.toSpan.Inside data.length) (value : ℤ) :
    s.toSpan.encode (value % 2 ^ s.length) data = s.toSpan.encode value data := by
  apply bytes_ext
  · rw [length_encode, length_encode]
  intro q _
  by_cases htouch : s.toSpan.Touches q
  · obtain ⟨j, hj, rfl⟩ := htouch
    have hbit := testBit_toNat_emod (value % 2 ^ s.length) s.length j
    rw [Int.emod_emod, testBit_toNat_emod, decide_eq_true hj, Bool.true_and, Bool.true_and] at hbit
    rw [encode_written hin _ hj, encode_written hin _ hj, hbit]
  · rw [encode_frame _ _ _ htouch, encode_frame _ _ _ htouch]

/-- The encoder writes the integer next to the unscaled value. -/
theorem encodeValue_eq (h : s.Scaled c) {x : Double} {v : ℚ} {hv : IsDouble v} (hx : c.unapply x = .finite v hv)
    {data : List UInt8} (hin : s.toSpan.Inside data.length) :
    s.encodeValue x data = .ok (s.toSpan.encode (roundEven v) data) := by
  have hscale : Double.ofRat c.scale ≠ Double.ofRat 0 := by
    rw [Double.ofRat_eq c.scale_double, Double.ofRat_zero]
    exact fun heq => c.scale_ne_zero (Double.finite.inj heq)
  have hdivides : (Number.float (x.add (Double.ofRat c.offset).neg)).trueDiv (.float (.ofRat c.scale)) =
      .ok (c.unapply x) := by
    change (if Double.ofRat c.scale = .ofRat 0 then _ else _) = _
    rw [if_neg hscale]
    rfl
  have hmasked : s.encodeValue x data = .ok (encodeSignal data s.startBit s.length
      (if s.isSigned = true ∧ roundEven v < 0 then roundEven v % (1 <<< s.length : ℕ) else roundEven v)
      s.byteOrder) := by
    rw [Signal.encodeValue, encodeSignalValue, h.scale, h.offset]
    change ((Number.float (x.add (Double.ofRat c.offset).neg)).trueDiv (.float (.ofRat c.scale))).bind _ = _
    rw [hdivides, hx]
    rfl
  rw [hmasked]
  congr 1
  split
  · have hpow : ((1 <<< s.length : ℕ) : ℤ) = 2 ^ s.length := by
      rw [Nat.shiftLeft_eq, Nat.one_mul]
      push_cast
      rfl
    rw [hpow]
    exact encode_emod hin _
  · rfl

/-- What the codec promises of the values of a signal. -/
structure ValueLaws (s : Signal) (c : Scaling) (data : List UInt8) : Prop where
  /-- What is decoded here and encoded there leaves the signal's bits, and the others alone. -/
  copies : ∃ x, s.decodeValue data = .ok (.float x) ∧
    ∀ other, other.length = data.length → ∃ written, s.encodeValue x other = .ok written ∧
      written.length = data.length ∧ (∀ q, s.toSpan.Touches q → bitAt written q = bitAt data q) ∧
        ∀ q, ¬s.toSpan.Touches q → bitAt written q = bitAt other q
  /-- A value that is encoded here is decoded to within one step. -/
  accurate : ∀ v hv, s.Covers c v → ∃ written v' hv',
    s.encodeValue (.finite v hv) data = .ok written ∧ s.decodeValue written = .ok (.float (.finite v' hv')) ∧
      |v' - v| ≤ 23 / 30 * |c.scale|

/-- The bits of the reading are those of the raw value. -/
theorem valueBit_reading {raw j : ℕ} (hraw : raw < 2 ^ s.length) (hj : j < s.length) :
    valueBit (s.reading raw) j = raw.testBit j := by
  have hmod : (s.reading raw % 2 ^ s.length).toNat = raw := by
    apply reading_inj (toNat_emod_lt _ _) hraw
    exact reading_toNat_emod (reading_inRange s hraw)
  have hbit := testBit_toNat_emod (s.reading raw) s.length j
  rw [hmod, decide_eq_true hj, Bool.true_and] at hbit
  exact hbit.symm

theorem copies_of_scaled (h : s.Scaled c) {data : List UInt8} (hin : s.toSpan.Inside data.length) :
    ∃ x, s.decodeValue data = .ok (.float x) ∧
      ∀ other, other.length = data.length → ∃ written, s.encodeValue x other = .ok written ∧
        written.length = data.length ∧ (∀ q, s.toSpan.Touches q → bitAt written q = bitAt data q) ∧
          ∀ q, ¬s.toSpan.Touches q → bitAt written q = bitAt other q := by
  obtain ⟨raw, hdecode, hraw, hbits⟩ := lt_of_decode hin
  refine ⟨_, decodeValue_eq h hraw hdecode, fun other hother => ?_⟩
  obtain ⟨v, hv, hx, hround⟩ := (c.unapply_apply (abs_reading_le h hraw)).roundEven
  have hin' : s.toSpan.Inside other.length := hother ▸ hin
  refine ⟨_, encodeValue_eq h hx hin', ?_, ?_, fun q hq => encode_frame _ _ _ hq⟩
  · rw [length_encode, hother]
  · rintro q ⟨j, hj, rfl⟩
    rw [encode_written hin' _ hj, hround, valueBit_reading hraw hj, hbits j hj]

theorem accurate_of_scaled (h : s.Scaled c) {data : List UInt8} (hin : s.toSpan.Inside data.length) {v : ℚ}
    (hv : IsDouble v) (hcovers : s.Covers c v) : ∃ written v' hv',
      s.encodeValue (.finite v hv) data = .ok written ∧ s.decodeValue written = .ok (.float (.finite v' hv')) ∧
        |v' - v| ≤ 23 / 30 * |c.scale| := by
  obtain ⟨m, n, hm, hn, hlow, hhigh⟩ := hcovers
  have hmq : -2 ^ 48 ≤ (m : ℚ) := by exact_mod_cast (abs_le.1 (abs_of_inRange h.length_le hm)).1
  have hnq : (n : ℚ) ≤ 2 ^ 48 := by exact_mod_cast (abs_le.1 (abs_of_inRange h.length_le hn)).2
  have hsteps : |v - c.offset| ≤ (2 ^ 48 + 1) * |c.scale| := by
    have hbound : |(v - c.offset) / c.scale| ≤ 2 ^ 48 + 1 := by
      rw [abs_le]
      constructor <;> linarith
    rwa [abs_div, div_le_iff₀ c.step.pos] at hbound
  obtain ⟨q, hq, hx, hnear⟩ := c.unapply_near hv hsteps
  have hround := abs_roundEven_sub_le q
  have hnext : |(roundEven q : ℚ) - (v - c.offset) / c.scale| ≤ 19 / 30 := by
    rw [abs_le] at *
    constructor <;> linarith
  -- less than one beyond the ends of the range
  have hbetween : m ≤ roundEven q ∧ roundEven q ≤ n := by
    obtain ⟨hdown, hup⟩ := abs_le.1 hnext
    have hleft : ((m - 1 : ℤ) : ℚ) < roundEven q := by
      push_cast
      linarith
    have hright : (roundEven q : ℚ) < (n + 1 : ℤ) := by
      push_cast
      linarith
    have hleft' : m - 1 < roundEven q := by exact_mod_cast hleft
    have hright' : roundEven q < n + 1 := by exact_mod_cast hright
    omega
  have hrange := inRange_of_between hm hn hbetween.1 hbetween.2
  obtain ⟨v', hv', hx', herror⟩ := c.apply_near_of_near (abs_of_inRange h.length_le hrange) hnext
  refine ⟨_, v', hv', encodeValue_eq h hx hin, ?_, herror⟩
  rw [decodeValue_eq h (toNat_emod_lt _ _) (decode_encode hin _), reading_toNat_emod hrange, hx']

/-- **Physical values**: for every signal of at most 48 bits inside the payload, whose scale keeps them apart,
decoding and encoding lose no bit, and encoding and decoding less than a step. -/
theorem valueLaws (h : s.Scaled c) {data : List UInt8} (hin : s.toSpan.Inside data.length) : ValueLaws s c data where
  copies := copies_of_scaled h hin
  accurate _ hv hcovers := accurate_of_scaled h hin hv hcovers

end Values

/-- The scaling of a coolant temperature: whole degrees, from -40 on. -/
def coolantScaling : Scaling where
  scale := 1
  offset := -40
  scale_double := isDouble_one
  offset_double := by
    have hdouble := (isDouble_intCast (n := 40) (by norm_num)).neg
    rwa [Int.cast_ofNat] at hdouble
  step := abs_one (α := ℚ) ▸ Double.step_one
  offset_le := by norm_num

theorem coolantTemp_length_pos : 0 < (8 : ℕ) := Nat.succ_pos 7

/-- `CoolantTemp` of the project's database. -/
def coolantTemp : Signal where
  startBit := 23
  length := 8
  byteOrder := .bigEndian
  name := "CoolantTemp"
  isSigned := false
  scale := .ofRat 1
  offset := .ofRat (-40)
  length_pos := coolantTemp_length_pos

theorem scaled_coolantTemp : coolantTemp.Scaled coolantScaling where
  length_le := Nat.le_add_left 8 40
  scale := rfl
  offset := rfl

theorem valueLaws_coolantTemp : ValueLaws coolantTemp coolantScaling (List.replicate 8 0x5A) :=
  valueLaws scaled_coolantTemp (by decide)

end DualCan.Dbc
