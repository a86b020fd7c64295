import DualCan.Dbc.Codec

/-!
# Where the bits of a signal lie

Bit `j` of the value of a signal lies at one position of the payload, `Span.position s j`, in either byte order.
`decode_signal` reads the value from these positions, `encode_signal` writes it there and nowhere else.
-/

namespace DualCan.Dbc

open DualCan.Bits

/-- The position of a bit in network numbering, and the network number of a position. -/
def networkPosition (n : ℕ) : ℕ := 8 * (n / 8) + (7 - n % 8)

/-- The place of a signal in a payload. -/
structure Span where
  startBit : ℕ
  length : ℕ
  byteOrder : ByteOrder
  deriving DecidableEq, Repr

namespace Span

/-- Where bit `j` of the value lies. -/
def position (s : Span) (j : ℕ) : ℕ :=
  match s.byteOrder with
  | .littleEndian => s.startBit + j
  | .bigEndian => networkPosition (networkPosition s.startBit + (s.length - 1 - j))

/-- The signal lies inside a payload of `size` bytes. -/
def Inside (s : Span) (size : ℕ) : Prop :=
  match s.byteOrder with
  | .littleEndian => s.startBit + s.length ≤ 8 * size
  | .bigEndian => networkPosition s.startBit + s.length ≤ 8 * size

instance (s : Span) (size : ℕ) : Decidable (s.Inside size) := by
  unfold Inside
  cases s.byteOrder <;> infer_instance

/-- The position is one of the signal's. -/
def Touches (s : Span) (q : ℕ) : Prop := ∃ j < s.length, s.position j = q

instance (s : Span) (q : ℕ) : Decidable (s.Touches q) := Nat.decidableExistsLT _

/-- No position is both signals'. -/
def Disjoint (s t : Span) : Prop := ∀ q, s.Touches q → ¬t.Touches q

def decode (s : Span) (data : List UInt8) : Except PyError ℕ := decodeSignal data s.startBit s.length s.byteOrder

def encode (s : Span) (value : ℤ) (data : List UInt8) : List UInt8 :=
  encodeSignal data s.startBit s.length value s.byteOrder

end Span

/-! ## Positions -/

theorem networkPosition_networkPosition (n : ℕ) : networkPosition (networkPosition n) = n := by
  unfold networkPosition
  omega

theorem networkPosition_inj {m n : ℕ} (h : networkPosition m = networkPosition n) : m = n := by
  rw [← networkPosition_networkPosition m, h, networkPosition_networkPosition]

theorem networkPosition_lt {n size : ℕ} (h : n < 8 * size) : networkPosition n < 8 * size := by
  unfold networkPosition
  omega

namespace Span

variable {s : Span} {size j k : ℕ}

theorem position_lt (hin : s.Inside size) (hj : j < s.length) : s.position j < 8 * size := by
  unfold Inside at hin
  unfold position
  cases horder : s.byteOrder with
  | littleEndian =>
    rw [horder] at hin
    dsimp only at hin ⊢
    omega
  | bigEndian =>
    rw [horder] at hin
    dsimp only at hin ⊢
    exact networkPosition_lt (by omega)

theorem position_inj (hj : j < s.length) (hk : k < s.length) (h : s.position j = s.position k) : j = k := by
  unfold position at h
  cases horder : s.byteOrder with
  | littleEndian =>
    rw [horder] at h
    exact Nat.add_left_cancel h
  | bigEndian =>
    rw [horder] at h
    have hnetwork := networkPosition_inj h
    omega

end Span

/-! ## Decoding -/

theorem testBit_fromBytesLittle (data : List UInt8) (p : ℕ) : (fromBytesLittle data).testBit p = bitAt data p := by
  induction data generalizing p with
  | nil => rw [bitAt_nil, fromBytesLittle, List.foldr_nil, Nat.zero_testBit]
  | cons byte data ih =>
    have hbyte : byte.toNat < 2 ^ 8 := byte.toNat_lt
    rw [fromBytesLittle, List.foldr_cons, ← fromBytesLittle, Nat.add_comm, Nat.testBit_two_pow_mul_add _ hbyte]
    split
    · rename_i hp
      rw [bitAt_cons_of_lt hp]
      rfl
    · rename_i hp
      obtain ⟨q, rfl⟩ := Nat.exists_eq_add_of_le (Nat.not_lt.1 hp)
      rw [Nat.add_sub_cancel_left, bitAt_cons_add, ih]

theorem bitAt_drop (data : List UInt8) (k p : ℕ) : bitAt (data.drop k) p = bitAt data (8 * k + p) := by
  have hdiv : (8 * k + p) / 8 = k + p / 8 := by omega
  have hmod : (8 * k + p) % 8 = p % 8 := by omega
  rw [bitAt, bitAt, hdiv, hmod, List.getD_eq_getElem?_getD, List.getD_eq_getElem?_getD, List.getElem?_drop]

/-- A value shifted by one bit that takes in another. -/
theorem testBit_shift_or (value b j : ℕ) (hb : b < 2) :
    (value <<< 1 ||| b).testBit j = if j = 0 then b.testBit 0 else value.testBit (j - 1) := by
  have hor : value <<< 1 ||| b = 2 ^ 1 * value + b := by
    rw [← Nat.shiftLeft_add_eq_or_of_lt (i := 1) hb, Nat.shiftLeft_eq, Nat.mul_comm]
  rw [hor, Nat.testBit_two_pow_mul_add _ (i := 1) hb]
  by_cases hj : j = 0
  · subst hj
    rfl
  · rw [if_neg hj, if_neg (by omega)]

/-- The loop appends the bits that it reads, the last one lowest. -/
theorem decodeLoop_eq (data : List UInt8) (networkStart count i value : ℕ)
    (hin : networkStart + i + count ≤ 8 * data.length) :
    ∃ v, decodeLoop data networkStart count i value = .ok v ∧ ∀ j, v.testBit j =
      if j < count then bitAt data (networkPosition (networkStart + i + (count - 1 - j)))
      else value.testBit (j - count) := by
  induction count generalizing i value with
  | zero => exact ⟨value, rfl, fun j => rfl⟩
  | succ count ih =>
    have hbyte : (networkStart + i) / 8 < data.length := by omega
    obtain ⟨v, hv, hbits⟩ := ih (i + 1)
      ((value <<< 1) ||| ((data[(networkStart + i) / 8].toNat >>> (7 - (networkStart + i) % 8)) &&& 1)) (by omega)
    refine ⟨v, ?_, ?_⟩
    · rw [decodeLoop, List.getElem?_eq_getElem hbyte]
      exact hv
    intro j
    rw [hbits j]
    by_cases hj : j < count
    · have hsame : networkStart + (i + 1) + (count - 1 - j) = networkStart + i + (count + 1 - 1 - j) := by omega
      rw [if_pos hj, if_pos (by omega), hsame]
    have hbit : data[(networkStart + i) / 8].toNat >>> (7 - (networkStart + i) % 8) &&& 1 < 2 := by
      rw [Nat.and_one_is_mod]
      exact Nat.mod_lt _ (by decide)
    rw [if_neg hj, testBit_shift_or _ _ _ hbit]
    by_cases hlast : j = count
    · -- the bit that this pass has read
      subst hlast
      have hdiv : networkPosition (networkStart + i) / 8 = (networkStart + i) / 8 := by
        unfold networkPosition
        omega
      have hmod : networkPosition (networkStart + i) % 8 = 7 - (networkStart + i) % 8 := by
        unfold networkPosition
        omega
      have hzero : j + 1 - 1 - j = 0 := by omega
      rw [Nat.sub_self, if_pos rfl, if_pos (Nat.lt_succ_self j), hzero, Nat.add_zero, bitAt, hdiv, hmod,
        List.getD_eq_getElem?_getD, List.getElem?_eq_getElem hbyte, Option.getD_some]
      rw [Nat.testBit_and, Nat.testBit_shiftRight, Nat.add_zero]
      exact Bool.and_true _
    · have hne : j - count ≠ 0 := by omega
      have hsub : j - count - 1 = j - (count + 1) := by omega
      rw [if_neg hne, if_neg (by omega), hsub]

/-- `decode_signal` reads the bits at the positions of the signal. -/
theorem decode_eq {s : Span} {data : List UInt8} (hin : s.Inside data.length) :
    ∃ v, s.decode data = .ok v ∧ ∀ j, v.testBit j = (decide (j < s.length) && bitAt data (s.position j)) := by
  unfold Span.Inside at hin
  unfold Span.decode decodeSignal Span.position
  by_cases hzero : s.length = 0
  · rw [if_pos hzero]
    refine ⟨0, rfl, fun j => ?_⟩
    rw [Nat.zero_testBit, hzero]
    rfl
  rw [if_neg hzero]
  cases horder : s.byteOrder with
  | littleEndian =>
    refine ⟨_, rfl, fun j => ?_⟩
    rw [Nat.shiftLeft_eq, Nat.one_mul, Nat.testBit_and, Nat.testBit_two_pow_sub_one, Nat.testBit_shiftRight,
      testBit_fromBytesLittle, bitAt_drop, ← Nat.add_assoc, Nat.div_add_mod, Bool.and_comm]
  | bigEndian =>
    rw [horder] at hin
    obtain ⟨v, hv, hbits⟩ := decodeLoop_eq data (networkPosition s.startBit) s.length 0 0 hin
    refine ⟨v, hv, fun j => ?_⟩
    rw [hbits j]
    by_cases hj : j < s.length
    · rw [if_pos hj, decide_eq_true hj, Bool.true_and, Nat.add_zero]
    · rw [if_neg hj, decide_eq_false hj, Bool.false_and, Nat.zero_testBit]

/-! ## Encoding -/

section Loop

variable {byteIndex bitInByte : ℕ → ℕ} {bit : ℕ → Bool}

/-- The position that pass `i` writes. -/
def place (byteIndex bitInByte : ℕ → ℕ) (i : ℕ) : ℕ := 8 * byteIndex i + bitInByte i

theorem modify_eq_putBit {i : ℕ} (hbit : bitInByte i < 8) (data : List UInt8) (b : Bool) :
    (data.modify (byteIndex i) fun byte =>
      if b then setBit byte (bitInByte i) else clearBit byte (bitInByte i)) =
      putBit data (place byteIndex bitInByte i) b := by
  have hdiv : (8 * byteIndex i + bitInByte i) / 8 = byteIndex i := by omega
  have hmod : (8 * byteIndex i + bitInByte i) % 8 = bitInByte i := by omega
  rw [putBit, place, hdiv, hmod]

/-- A pass either ends the loop or writes one bit. -/
theorem encodeLoop_succ (hbit : ∀ i, bitInByte i < 8) (count i : ℕ) (data : List UInt8) :
    encodeLoop byteIndex bitInByte bit (count + 1) i data =
      if data.length ≤ byteIndex i then data
      else encodeLoop byteIndex bitInByte bit count (i + 1) (putBit data (place byteIndex bitInByte i) (bit i)) := by
  rw [encodeLoop, modify_eq_putBit (hbit i)]

theorem length_encodeLoop (hbit : ∀ i, bitInByte i < 8) (count i : ℕ) (data : List UInt8) :
    (encodeLoop byteIndex bitInByte bit count i data).length = data.length := by
  induction count generalizing i data with
  | zero => rfl
  | succ count ih =>
    rw [encodeLoop_succ hbit]
    split
    · rfl
    · rw [ih, length_putBit]

theorem encodeLoop_frame (hbit : ∀ i, bitInByte i < 8) {q : ℕ} (count i : ℕ) (data : List UInt8)
    (hq : ∀ k < count, place byteIndex bitInByte (i + k) ≠ q) :
    bitAt (encodeLoop byteIndex bitInByte bit count i data) q = bitAt data q := by
  induction count generalizing i data with
  | zero => rfl
  | succ count ih =>
    rw [encodeLoop_succ hbit]
    split
    · rfl
    rename_i hlt
    have hplace : place byteIndex bitInByte i < 8 * data.length := by
      have hk := hbit i
      unfold place
      omega
    have hlater : ∀ k < count, place byteIndex bitInByte (i + 1 + k) ≠ q := by
      intro k hk
      have hpass := hq (k + 1) (Nat.succ_lt_succ hk)
      rwa [← Nat.add_assoc, Nat.add_right_comm] at hpass
    have hfirst := hq 0 (Nat.succ_pos count)
    rw [Nat.add_zero] at hfirst
    rw [ih _ _ hlater, bitAt_putBit hplace, if_neg (Ne.symm hfirst)]

theorem encodeLoop_written (hbit : ∀ i, bitInByte i < 8) (count i : ℕ) (data : List UInt8)
    (hin : ∀ k < count, place byteIndex bitInByte (i + k) < 8 * data.length)
    (hinj : ∀ j < count, ∀ k < count, place byteIndex bitInByte (i + j) = place byteIndex bitInByte (i + k) → j = k)
    {k : ℕ} (hk : k < count) :
    bitAt (encodeLoop byteIndex bitInByte bit count i data) (place byteIndex bitInByte (i + k)) = bit (i + k) := by
  induction count generalizing i data k with
  | zero => exact absurd hk (Nat.not_lt_zero k)
  | succ count ih =>
    have hplace := hin 0 (Nat.succ_pos count)
    have hroom : ¬data.length ≤ byteIndex i := by
      unfold place at hplace
      rw [Nat.add_zero] at hplace
      omega
    have hshift : ∀ j, i + 1 + j = i + (j + 1) := by omega
    rw [encodeLoop_succ hbit, if_neg hroom]
    cases k with
    | zero =>
      have hothers : ∀ j < count, place byteIndex bitInByte (i + 1 + j) ≠ place byteIndex bitInByte (i + 0) := by
        intro j hj heq
        rw [hshift] at heq
        exact absurd (hinj _ (Nat.succ_lt_succ hj) _ (Nat.succ_pos count) heq) (Nat.succ_ne_zero j)
      rw [encodeLoop_frame hbit _ _ _ hothers]
      rw [Nat.add_zero] at hplace ⊢
      rw [bitAt_putBit hplace, if_pos rfl]
    | succ k =>
      rw [← hshift k]
      apply ih
      · intro j hj
        rw [length_putBit, hshift]
        exact hin _ (Nat.succ_lt_succ hj)
      · intro j hj j' hj' heq
        rw [hshift, hshift] at heq
        exact Nat.succ.inj (hinj _ (Nat.succ_lt_succ hj) _ (Nat.succ_lt_succ hj') heq)
      · exact Nat.lt_of_succ_lt_succ hk

end Loop

/-- In either byte order `encode_signal` is one loop: its passes write the bits of the value, each to its own
position, from the lowest one (Intel) or from the highest one on (Motorola). -/
theorem encode_eq_loop {s : Span} (hzero : s.length ≠ 0) : ∃ byteIndex bitInByte turn : ℕ → ℕ,
    (∀ i, bitInByte i < 8) ∧
      (∀ k < s.length, turn k < s.length ∧ turn (turn k) = k ∧ place byteIndex bitInByte k = s.position (turn k)) ∧
      ∀ value data, s.encode value data =
        encodeLoop byteIndex bitInByte (fun k => valueBit value (turn k)) s.length 0 data := by
  unfold Span.encode encodeSignal Span.position
  cases s.byteOrder with
  | littleEndian =>
    refine ⟨fun i => (s.startBit + i) / 8, fun i => (s.startBit + i) % 8, id, fun i => Nat.mod_lt _ (by decide),
      fun k hk => ⟨hk, rfl, Nat.div_add_mod _ _⟩, fun value data => if_neg hzero⟩
  | bigEndian =>
    refine ⟨fun i => (networkPosition s.startBit + i) / 8, fun i => 7 - (networkPosition s.startBit + i) % 8,
      fun i => s.length - 1 - i, fun i => Nat.lt_succ_of_le (Nat.sub_le ..), fun k hk => ?_,
      fun value data => if_neg hzero⟩
    have hturn : s.length - 1 - (s.length - 1 - k) = k := by omega
    dsimp only
    rw [hturn]
    exact ⟨by omega, rfl, rfl⟩

theorem encode_empty {s : Span} (hzero : s.length = 0) (value : ℤ) (data : List UInt8) :
    s.encode value data = data := if_pos hzero

theorem length_encode (s : Span) (value : ℤ) (data : List UInt8) : (s.encode value data).length = data.length := by
  by_cases hzero : s.length = 0
  · rw [encode_empty hzero]
  · obtain ⟨byteIndex, bitInByte, turn, hbit, -, hloop⟩ := encode_eq_loop hzero
    rw [hloop, length_encodeLoop hbit]

/-- `encode_signal` changes no bit outside the signal. -/
theorem encode_frame (s : Span) (value : ℤ) (data : List UInt8) {q : ℕ} (hq : ¬s.Touches q) :
    bitAt (s.encode value data) q = bitAt data q := by
  by_cases hzero : s.length = 0
  · rw [encode_empty hzero]
  obtain ⟨byteIndex, bitInByte, turn, hbit, hturn, hloop⟩ := encode_eq_loop hzero
  rw [hloop]
  apply encodeLoop_frame hbit
  intro k hk heq
  obtain ⟨hlt, -, hplace⟩ := hturn k hk
  rw [Nat.zero_add, hplace] at heq
  exact hq ⟨_, hlt, heq⟩

/-- `encode_signal` writes the bits of the value to the positions of the signal. -/
theorem encode_written {s : Span} {data : List UInt8} (hin : s.Inside data.length) (value : ℤ) {j : ℕ}
    (hj : j < s.length) : bitAt (s.encode value data) (s.position j) = valueBit value j := by
  obtain ⟨byteIndex, bitInByte, turn, hbit, hturn, hloop⟩ := encode_eq_loop (Nat.ne_zero_of_lt hj)
  have hroom : ∀ k < s.length, place byteIndex bitInByte (0 + k) < 8 * data.length := by
    intro k hk
    obtain ⟨hlt, -, hplace⟩ := hturn k hk
    rw [Nat.zero_add, hplace]
    exact Span.position_lt hin hlt
  have hinj : ∀ k < s.length, ∀ l < s.length,
      place byteIndex bitInByte (0 + k) = place byteIndex bitInByte (0 + l) → k = l := by
    intro k hk l hl heq
    obtain ⟨hlt, hback, hplace⟩ := hturn k hk
    obtain ⟨hlt', hback', hplace'⟩ := hturn l hl
    rw [Nat.zero_add, Nat.zero_add, hplace, hplace'] at heq
    rw [← hback, Span.position_inj hlt hlt' heq, hback']
  -- the pass that writes bit `j`
  obtain ⟨hlt, hback, -⟩ := hturn j hj
  obtain ⟨-, -, hplace⟩ := hturn (turn j) hlt
  have hwritten : bitAt (encodeLoop byteIndex bitInByte (fun k => valueBit value (turn k)) s.length 0 data)
      (place byteIndex bitInByte (0 + turn j)) = valueBit value (turn (0 + turn j)) :=
    encodeLoop_written hbit s.length 0 data hroom hinj hlt
  rw [Nat.zero_add, hplace, hback] at hwritten
  rw [hloop]
  exact hwritten

end DualCan.Dbc
