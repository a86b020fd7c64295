import DualCan.Dbc.Words

/-!
# Generated code and codec

For messages of unscaled signals of at most 32 bits the arithmetic of the generated functions is exact. The pack
function agrees with `encode_signal`. The unpack function agrees with `decode_signal` if the message has eight bytes
or no Motorola signal: it shifts the bytes that it reads into a word of 64 bits, while `_signal_shift` counts from
the left end of that word.
-/

namespace DualCan.Dbc

open DualCan.Bits

/-- A message of up to eight bytes with unscaled, short signals that lie inside it and apart from each other. -/
structure Message.Plain (message : Message) : Prop where
  length_pos : 1 ≤ message.length
  length_le : message.length ≤ 8
  short : ∀ s ∈ message.signals, s.length ≤ 32
  unscaled : ∀ s ∈ message.signals, s.scale = .ofRat 1 ∧ s.offset = .ofRat 0
  inside : ∀ s ∈ message.signals, s.toSpan.Inside message.length
  disjoint : message.signals.Pairwise fun s t => s.toSpan.Disjoint t.toSpan

/-- The values of a signal without scale and offset. -/
def Signal.InRange (s : Signal) (value : ℤ) : Prop :=
  if s.isSigned then -2 ^ (s.length - 1) ≤ value ∧ value < 2 ^ (s.length - 1) else 0 ≤ value ∧ value < 2 ^ s.length

/-- `decode_signal` of a signal, with the sign of a signed one extended. -/
def decodedField (data : List UInt8) (s : Signal) : Option FieldValue :=
  match decodeSignalValue data s.startBit s.length s.byteOrder s.isSigned (.int 1) (.int 0) with
  | .ok (.int n) => some (.int n)
  | _ => none

/-- What the generated functions of a message promise. -/
structure Agrees (message : Message) (code : MessageCode) : Prop where
  packs : ∀ values, List.Forall₂ Signal.InRange message.signals values → ∃ payload,
    code.pack (values.map .int) = some payload ∧
      payload = encodeAll ((message.signals.map Signal.toSpan).zip values) (List.replicate message.length 0) ∧
      code.unpack payload = some (values.map .int)
  unpacks : ∀ data, data.length = message.length → code.unpack data = message.signals.mapM (decodedField data)

/-! ## The generator -/

theorem mapM_eq_pure {m : Type → Type} [Monad m] [LawfulMonad m] {α β : Type} {f : α → m β} {g : α → β}
    {l : List α} (h : ∀ a ∈ l, f a = pure (g a)) : l.mapM f = pure (l.map g) := by
  induction l with
  | nil => rfl
  | cons a l ih =>
    rw [List.mapM_cons, h a List.mem_cons_self, pure_bind, ih fun a' ha' => h a' (List.mem_cons_of_mem a ha'),
      pure_bind, List.map_cons]

theorem signalShift_eq {s : Signal} {size : ℕ} (hin : s.toSpan.Inside size) (hsize : size ≤ 8) :
    signalShift s = .ok s.toSpan.shift := by
  unfold Span.Inside at hin
  unfold signalShift Span.shift
  cases horder : s.byteOrder with
  | bigEndian =>
    rw [horder] at hin
    dsimp only at hin ⊢
    rw [networkPosition] at hin ⊢
    rw [if_neg (by omega)]
    congr 1
    omega
  | littleEndian =>
    rw [horder] at hin
    dsimp only at hin ⊢
    rw [if_neg (by omega)]
    congr 1

/-- The line of an unscaled signal. -/
def plainLine (s : Signal) : PackLine := ⟨s.byteOrder, .ofRat 0, .ofRat 1, maskLiteral s.length, s.toSpan.shift⟩

/-- The block of an unscaled signal. -/
def plainBlock (s : Signal) : UnpackBlock :=
  ⟨s.byteOrder, s.toSpan.shift, maskLiteral s.length,
    if s.isSigned then some (signLiteral s.length, extensionLiteral s.length) else none, s.isSigned, fieldType s,
    .ofRat 1, .ofRat 0⟩

section Signal

variable {s : Signal} {size : ℕ}

theorem packLine_eq (hin : s.toSpan.Inside size) (hsize : size ≤ 8)
    (hplain : s.scale = .ofRat 1 ∧ s.offset = .ofRat 0) : packLine s = .ok (plainLine s) := by
  have hone : numberLiteral (.ofRat 1) = .ok (.ofRat 1) := by rw [Double.ofRat_one, numberLiteral]
  have hzero : numberLiteral (.ofRat 0) = .ok (.ofRat 0) := by rw [Double.ofRat_zero, numberLiteral]
  rw [packLine, signalShift_eq hin hsize, hplain.1, hplain.2, Double.neg_ofRat_zero, hone, hzero]
  rfl

theorem unpackBlock_eq (hin : s.toSpan.Inside size) (hsize : size ≤ 8)
    (hplain : s.scale = .ofRat 1 ∧ s.offset = .ofRat 0) (hshort : s.length ≤ 32) :
    unpackBlock s = .ok (plainBlock s) := by
  have hone : numberLiteral (.ofRat 1) = .ok (.ofRat 1) := by rw [Double.ofRat_one, numberLiteral]
  have hzero : numberLiteral (.ofRat 0) = .ok (.ofRat 0) := by rw [Double.ofRat_zero, numberLiteral]
  have hextends : (s.isSigned = true ∧ s.length < 64) ↔ s.isSigned = true := and_iff_left (by omega)
  rw [unpackBlock, signalShift_eq hin hsize, hplain.1, hplain.2, hone, hzero]
  simp only [hextends]
  rfl

end Signal

theorem messageSource_eq {message : Message} (h : message.Plain) : messageSource message =
    .ok ⟨message.length, message.signals.map plainLine, message.signals.map plainBlock⟩ := by
  have hlines : message.signals.mapM packLine = .ok (message.signals.map plainLine) :=
    mapM_eq_pure fun s hs => packLine_eq (h.inside s hs) h.length_le (h.unscaled s hs)
  have hblocks : message.signals.mapM unpackBlock = .ok (message.signals.map plainBlock) :=
    mapM_eq_pure fun s hs => unpackBlock_eq (h.inside s hs) h.length_le (h.unscaled s hs) (h.short s hs)
  rw [messageSource, hlines, hblocks]
  rfl

/-! ## One field -/

/-- The number that the bits of a signal stand for. -/
def Signal.reading (s : Signal) (raw : ℕ) : ℤ := if s.isSigned then (raw : ℤ).bmod (2 ^ s.length) else raw

section Field

variable {s : Signal}

theorem reading_inRange (s : Signal) {raw : ℕ} (hraw : raw < 2 ^ s.length) : s.InRange (s.reading raw) := by
  have hpos := s.length_pos
  obtain ⟨m, hm⟩ := Nat.exists_eq_add_one_of_ne_zero hpos.ne'
  unfold Signal.InRange Signal.reading
  by_cases hsigned : s.isSigned = true
  · have hlow := Int.le_bmod (x := raw) (m := 2 ^ s.length) (Nat.two_pow_pos _)
    have hhigh := Int.bmod_lt (x := raw) (m := 2 ^ s.length) (Nat.two_pow_pos _)
    rw [if_pos hsigned, if_pos hsigned]
    rw [hm, Nat.add_sub_cancel] at *
    have hdouble := cast_two_pow_succ m
    omega
  · rw [if_neg hsigned, if_neg hsigned]
    exact ⟨Int.natCast_nonneg raw, by exact_mod_cast hraw⟩

/-- Values in range have no more bits than the signal. -/
theorem abs_of_inRange {n : ℕ} (hshort : s.length ≤ n) {value : ℤ} (h : s.InRange value) : |value| ≤ 2 ^ n := by
  have hpow : (2 : ℤ) ^ s.length ≤ 2 ^ n := pow_le_pow_right₀ (by norm_num) hshort
  have hhalf : (2 : ℤ) ^ (s.length - 1) ≤ 2 ^ s.length := pow_le_pow_right₀ (by norm_num) (Nat.sub_le ..)
  unfold Signal.InRange at h
  rw [abs_le]
  split at h
  · omega
  · omega

theorem convertInteger_eq {low high n : ℤ} {x : Double} (hx : x.truncate = some n) (hrange : low ≤ n ∧ n < high) :
    convertInteger low high x = some n := by
  simp [convertInteger, hx, hrange]

/-- The type of the field has them too. -/
theorem convert_fieldType (hplain : s.scale = .ofRat 1 ∧ s.offset = .ofRat 0) (hshort : s.length ≤ 48) {value : ℤ}
    (h : s.InRange value) : (fieldType s).convert (.ofRat value) = some (.int value) := by
  have hsmall : |value| ≤ 2 ^ 53 := (abs_of_inRange hshort h).trans (by norm_num)
  have hsigned : ∀ width, s.isSigned = true → s.length ≤ width →
      (FieldType.signed width).convert (.ofRat value) = some (.int value) := by
    intro width hs hwidth
    unfold Signal.InRange at h
    rw [if_pos hs] at h
    have hpow : (2 : ℤ) ^ (s.length - 1) ≤ 2 ^ (width - 1) := pow_le_pow_right₀ (by norm_num) (by omega)
    have hrange : -2 ^ (width - 1) ≤ value ∧ value < 2 ^ (width - 1) := by omega
    rw [FieldType.convert, convertInteger_eq (Double.truncate_intCast hsmall) hrange, Option.map_some]
  have hunsigned : ∀ width, ¬s.isSigned = true → s.length ≤ width →
      (FieldType.unsigned width).convert (.ofRat value) = some (.int value) := by
    intro width hs hwidth
    unfold Signal.InRange at h
    rw [if_neg hs] at h
    have hpow : (2 : ℤ) ^ s.length ≤ 2 ^ width := pow_le_pow_right₀ (by norm_num) hwidth
    have hrange : 0 ≤ value ∧ value < 2 ^ width := by omega
    rw [FieldType.convert, convertInteger_eq (Double.truncate_intCast hsmall) hrange, Option.map_some]
  unfold fieldType
  rw [if_pos hplain]
  by_cases hs : s.isSigned = true
  · rw [if_pos hs]
    split
    · exact hsigned 8 hs ‹_›
    split
    · exact hsigned 16 hs ‹_›
    split
    · exact hsigned 32 hs ‹_›
    · exact hsigned 64 hs (hshort.trans (by decide))
  · rw [if_neg hs]
    split
    · exact hunsigned 8 hs ‹_›
    split
    · exact hunsigned 16 hs ‹_›
    split
    · exact hunsigned 32 hs ‹_›
    · exact hunsigned 64 hs (hshort.trans (by decide))

theorem raw_plainLine (hshort : s.length ≤ 32) {value : ℤ} (h : s.InRange value) :
    (plainLine s).raw (.int value) = some (BitVec.ofInt 64 value) := by
  have habs := abs_of_inRange hshort h
  have hsmall : |value| < 2 ^ 52 := habs.trans_lt (by norm_num)
  have hrange : -2 ^ 63 ≤ value ∧ value < 2 ^ 63 := by
    rw [abs_le] at habs
    omega
  rw [PackLine.raw, FieldValue.toDouble, plainLine, Double.add_ofRat_zero, Double.div_ofRat_one, projectDbcRound,
    convertInteger_eq (Double.truncate_half hsmall) hrange]
  rfl

theorem toNat_rawBits_lt (s : Signal) (words : Words) : (s.toSpan.rawBits words).toNat < 2 ^ s.length := by
  apply Nat.lt_pow_two_of_testBit
  intro j hj
  rw [BitVec.testBit_toNat, Span.rawBits, BitVec.getLsbD_and]
  by_cases hj' : j < 64
  · rw [getLsbD_maskLiteral hj', decide_eq_false (Nat.not_lt.2 hj), Bool.and_false]
  · rw [BitVec.getLsbD_of_ge (maskLiteral s.length) j (Nat.not_lt.1 hj'), Bool.and_false]

/-- The sign is extended over the whole word. -/
theorem extended_eq (hshort : s.length ≤ 64) {raw : BitVec 64} (hraw : raw.toNat < 2 ^ s.length) :
    (if raw &&& signLiteral s.length ≠ 0#64 then raw ||| extensionLiteral s.length else raw) =
      (raw.setWidth s.length).signExtend 64 := by
  have hpos := s.length_pos
  have hhigh : ∀ j, s.length ≤ j → raw.getLsbD j = false := by
    intro j hj
    rw [← BitVec.testBit_toNat]
    exact Nat.testBit_lt_two_pow (hraw.trans_le (Nat.pow_le_pow_right (by decide) hj))
  have hsign : raw &&& signLiteral s.length ≠ 0#64 ↔ (raw.setWidth s.length).msb = true := by
    have htop : (raw &&& signLiteral s.length).toNat = raw.toNat &&& 2 ^ (s.length - 1) := by
      have hlt : 2 ^ (s.length - 1) < 2 ^ 64 := Nat.pow_lt_pow_right (by decide) (by omega)
      rw [BitVec.toNat_and, signLiteral, BitVec.toNat_ofNat, Nat.shiftLeft_eq, Nat.one_mul, Nat.mod_eq_of_lt hlt]
    rw [BitVec.msb_setWidth, decide_eq_true hpos, Bool.true_and, ← BitVec.testBit_toNat, ne_eq,
      ← BitVec.toNat_inj, htop, BitVec.toNat_zero, Nat.and_two_pow]
    cases raw.toNat.testBit (s.length - 1) with
    | true => simp
    | false => simp
  apply BitVec.eq_of_getLsbD_eq
  intro j hj
  rw [BitVec.getLsbD_signExtend, decide_eq_true hj, Bool.true_and, BitVec.getLsbD_setWidth]
  by_cases hlow : j < s.length
  · rw [if_pos hlow, decide_eq_true hlow, Bool.true_and]
    split
    · rw [BitVec.getLsbD_or, getLsbD_extensionLiteral hj, decide_eq_false (Nat.not_le.2 hlow), Bool.or_false]
    · rfl
  · rw [if_neg hlow]
    by_cases hmsb : (raw.setWidth s.length).msb = true
    · rw [if_pos (hsign.2 hmsb), hmsb, BitVec.getLsbD_or, getLsbD_extensionLiteral hj,
        decide_eq_true (Nat.not_lt.1 hlow), Bool.or_true]
    · rw [if_neg (mt hsign.1 hmsb), hhigh j (Nat.not_lt.1 hlow), Bool.eq_false_iff.2 hmsb]

/-- The number that a block computes from the bits that it takes from its word. -/
theorem number_eq (hshort : s.length ≤ 64) (words : Words) :
    (if s.isSigned then .ofRat ((plainBlock s).raw words).toInt else .ofRat ((plainBlock s).raw words).toNat) =
      Double.ofRat (s.reading (s.toSpan.rawBits words).toNat) := by
  have hraw := toNat_rawBits_lt s words
  have hword : (plainBlock s).raw words = if s.isSigned then
      ((s.toSpan.rawBits words).setWidth s.length).signExtend 64 else s.toSpan.rawBits words := by
    rw [← extended_eq hshort hraw]
    unfold UnpackBlock.raw plainBlock
    cases s.isSigned <;> rfl
  rw [hword, Signal.reading]
  by_cases hsigned : s.isSigned = true
  · have hmod : (s.toSpan.rawBits words).toNat % 2 ^ s.length = (s.toSpan.rawBits words).toNat :=
      Nat.mod_eq_of_lt hraw
    rw [if_pos hsigned, if_pos hsigned, if_pos hsigned, BitVec.toInt_signExtend_of_le (by omega),
      BitVec.toInt_eq_toNat_bmod, BitVec.toNat_setWidth, hmod]
  · rw [if_neg hsigned, if_neg hsigned, if_neg hsigned, Int.cast_natCast]

/-- A block stores the reading of these bits. -/
theorem field_eq (hplain : s.scale = .ofRat 1 ∧ s.offset = .ofRat 0) (hshort : s.length ≤ 32) (words : Words) :
    (plainBlock s).field words = some (.int (s.reading (s.toSpan.rawBits words).toNat)) := by
  have hraw := toNat_rawBits_lt s words
  have hconvert := convert_fieldType hplain (hshort.trans (by decide)) (reading_inRange s hraw)
  rw [← hconvert, ← number_eq (hshort.trans (by decide))]
  unfold UnpackBlock.field
  dsimp only [plainBlock]
  rw [Double.mul_ofRat_one, Double.add_ofRat_zero]
  rfl

/-- Inside the payload the codec finds a raw value of so many bits. -/
theorem lt_of_decode {data : List UInt8} (hin : s.toSpan.Inside data.length) : ∃ raw,
    s.toSpan.decode data = .ok raw ∧ raw < 2 ^ s.length ∧
      ∀ j < s.length, raw.testBit j = bitAt data (s.toSpan.position j) := by
  obtain ⟨raw, hraw, hbits⟩ := decode_eq hin
  refine ⟨raw, hraw, Nat.lt_pow_two_of_testBit _ fun j hj => ?_, fun j hj => ?_⟩
  · rw [hbits, decide_eq_false (Nat.not_lt.2 hj), Bool.false_and]
  · rw [hbits, decide_eq_true hj, Bool.true_and]

/-- Its value is made from the reading. -/
theorem decodeSignalValue_eq {data : List UInt8} {raw : ℕ} (hraw : raw < 2 ^ s.length)
    (hdecode : s.toSpan.decode data = .ok raw) (scale offset : Number) :
    decodeSignalValue data s.startBit s.length s.byteOrder s.isSigned scale offset =
      ((Number.int (s.reading raw)).mul scale).bind fun scaled => scaled.add offset := by
  have hdecode' : decodeSignal data s.startBit s.length s.byteOrder = .ok raw := hdecode
  have hpos := s.length_pos
  have hmod : ((raw : ℤ) % 2 ^ s.length).toNat = raw := by
    rw [Int.emod_eq_of_lt (Int.natCast_nonneg raw) (by exact_mod_cast hraw), Int.toNat_natCast]
  have hbmod := bmod_eq raw hpos
  rw [hmod] at hbmod
  rw [decodeSignalValue, hdecode', Signal.reading, hbmod]
  by_cases hsigned : s.isSigned = true
  · simp only [hsigned, true_and, hpos.ne', if_false, if_true]
    rfl
  · simp only [hsigned]
    rfl

/-- The codec reads a field the same way. -/
theorem decodedField_eq {data : List UInt8} {raw : ℕ} (hraw : raw < 2 ^ s.length)
    (hdecode : s.toSpan.decode data = .ok raw) : decodedField data s = some (.int (s.reading raw)) := by
  have hvalue : decodeSignalValue data s.startBit s.length s.byteOrder s.isSigned (.int 1) (.int 0) =
      .ok (.int (s.reading raw)) := by
    rw [decodeSignalValue_eq hraw hdecode]
    change Except.ok (Number.int (_ * 1 + 0)) = _
    rw [Int.mul_one, Int.add_zero]
  rw [decodedField, hvalue]

theorem reading_inj {raw raw' : ℕ} (hraw : raw < 2 ^ s.length) (hraw' : raw' < 2 ^ s.length)
    (h : s.reading raw = s.reading raw') : raw = raw' := by
  unfold Signal.reading at h
  by_cases hsigned : s.isSigned = true
  · rw [if_pos hsigned, if_pos hsigned] at h
    have hmod := congrArg (fun n : ℤ => n % (2 ^ s.length : ℕ)) h
    rw [Int.bmod_emod, Int.bmod_emod, ← Int.natCast_emod, ← Int.natCast_emod, Nat.mod_eq_of_lt hraw,
      Nat.mod_eq_of_lt hraw'] at hmod
    exact_mod_cast hmod
  · rw [if_neg hsigned, if_neg hsigned] at h
    exact_mod_cast h

theorem reading_toNat_emod {value : ℤ} (h : s.InRange value) : s.reading (value % 2 ^ s.length).toNat = value := by
  have hcast := cast_toNat_emod value s.length
  unfold Signal.InRange at h
  unfold Signal.reading
  by_cases hsigned : s.isSigned = true
  · obtain ⟨m, hm⟩ := Nat.exists_eq_add_one_of_ne_zero s.length_pos.ne'
    rw [if_pos hsigned] at h ⊢
    rw [hm, Nat.add_sub_cancel] at h
    rw [hcast, hm]
    have hdouble := cast_two_pow_succ m
    have hsame : (value % 2 ^ (m + 1)).bmod (2 ^ (m + 1)) = value.bmod (2 ^ (m + 1)) := by
      have hemod := Int.emod_bmod (n := 2 ^ (m + 1)) value
      push_cast at hemod
      exact hemod
    rw [hsame]
    apply Int.bmod_eq_of_le
    · omega
    · omega
  · rw [if_neg hsigned] at h ⊢
    rw [hcast, Int.emod_eq_of_lt h.1 h.2]

end Field

/-! ## The functions of a message -/

section Functions

variable {message : Message}

theorem packWords_eq {signals : List Signal} {values : List ℤ} (h : List.Forall₂ Signal.InRange signals values)
    (hshort : ∀ s ∈ signals, s.length ≤ 32) (words : Words) :
    packWords (signals.map plainLine) (values.map .int) words =
      some (words.orAll ((signals.map Signal.toSpan).zip values)) := by
  induction h generalizing words with
  | nil => rfl
  | @cons s value signals values hrange _ ih =>
    have hraw := raw_plainLine (hshort s List.mem_cons_self) hrange
    rw [List.map_cons, List.map_cons, packWords, hraw]
    exact ih (fun s' hs' => hshort s' (List.mem_cons_of_mem s hs')) _

theorem unpack_eq (h : message.Plain) (data : List UInt8) :
    (MessageCode.mk message.length (message.signals.map plainLine) (message.signals.map plainBlock)).unpack data =
      some (message.signals.map fun s =>
        .int (s.reading (s.toSpan.rawBits (readWords data message.length)).toNat)) := by
  have hfields : (message.signals.map plainBlock).mapM (fun block => block.field (readWords data message.length)) =
      some (message.signals.map fun s =>
        .int (s.reading (s.toSpan.rawBits (readWords data message.length)).toNat)) := by
    rw [List.mapM_map]
    exact mapM_eq_pure fun s hs => field_eq (h.unscaled s hs) (h.short s hs) _
  rw [MessageCode.unpack]
  simp [h.length_le, hfields]

/-- The codec finds the same fields exactly if it decodes every signal to the bits that the function takes. -/
theorem mapM_decodedField (h : message.Plain) {data : List UInt8} (hdata : data.length = message.length) :
    message.signals.mapM (decodedField data) = some (message.signals.map fun s =>
        .int (s.reading (s.toSpan.rawBits (readWords data message.length)).toNat)) ↔
      ∀ s ∈ message.signals, s.toSpan.decode data =
        .ok (s.toSpan.rawBits (readWords data message.length)).toNat := by
  constructor
  · intro hall s hs
    have hdecode : ∀ s ∈ message.signals, ∃ v, s.toSpan.decode data = .ok v ∧ v < 2 ^ s.length := by
      intro s hs
      obtain ⟨v, hv, hlt, -⟩ := lt_of_decode (hdata ▸ h.inside s hs : s.toSpan.Inside data.length)
      exact ⟨v, hv, hlt⟩
    have hfields : message.signals.mapM (decodedField data) =
        some (message.signals.map fun s => .int (s.reading ((s.toSpan.decode data).toOption.getD 0))) := by
      apply mapM_eq_pure
      intro s hs
      obtain ⟨v, hv, hlt⟩ := hdecode s hs
      rw [decodedField_eq hlt hv, hv]
      rfl
    rw [hfields] at hall
    have hsame := List.map_inj_left.1 (Option.some.inj hall) s hs
    obtain ⟨v, hv, hlt⟩ := hdecode s hs
    rw [hv] at hsame ⊢
    rw [reading_inj hlt (toNat_rawBits_lt s _) (FieldValue.int.inj hsame)]
  · intro hall
    exact mapM_eq_pure fun s hs => decodedField_eq (toNat_rawBits_lt s _) (hall s hs)

/-- The bits that an unpack function takes are those that the codec reads. -/
theorem decode_of_placed {s : Span} {length : ℕ} (hlength : length ≤ 8) (hin : s.Inside length)
    (hplace : length = 8 ∨ s.byteOrder = .littleEndian) {data : List UInt8} (hdata : data.length = length) :
    s.decode data = .ok (s.rawBits (readWords data length)).toNat := by
  obtain ⟨v, hv, hbits⟩ := decode_eq (hdata ▸ hin : s.Inside data.length)
  rw [hv]
  congr 1
  apply Nat.eq_of_testBit_eq
  intro j
  rw [hbits, BitVec.testBit_toNat, getLsbD_rawBits hlength hin]
  by_cases hj : j < s.length
  · obtain ⟨hlt, hposition⟩ := lookedUp_eq hlength hin hplace hj
    rw [decide_eq_true hlt, Bool.true_and, hposition]
  · rw [decide_eq_false hj, Bool.false_and, Bool.false_and]

/-- The payload with only the lowest bit of a Motorola signal set, in a shorter message. -/
theorem decode_ne_of_misplaced {s : Span} {length : ℕ} (hlength : length < 8) (hin : s.Inside length)
    (hpos : 0 < s.length) (horder : s.byteOrder = .bigEndian) :
    s.decode (s.encode 1 (List.replicate length 0)) ≠
      .ok (s.rawBits (readWords (s.encode 1 (List.replicate length 0)) length)).toNat := by
  have hin' : s.Inside (List.replicate length (0 : UInt8)).length := by rwa [List.length_replicate]
  have hlow : valueBit 1 0 = true := by decide
  intro h
  rw [decode_encode hin'] at h
  have hbit := congrArg (Nat.testBit · 0) (Except.ok.inj h)
  rw [testBit_toNat_emod, decide_eq_true hpos, hlow, BitVec.testBit_toNat, getLsbD_rawBits hlength.le hin,
    decide_eq_true hpos, Bool.true_and, Bool.true_and, eq_comm, Bool.and_eq_true, decide_eq_true_iff] at hbit
  obtain ⟨hshift, hone⟩ := hbit
  have hne := lookedUp_ne hlength hpos horder hshift
  by_cases htouch : s.Touches (s.lookedUp length 0)
  · obtain ⟨j, hj, hposition⟩ := htouch
    rw [← hposition, encode_written hin' 1 hj] at hone
    cases j with
    | zero => exact hne hposition.symm
    | succ j =>
      rw [valueBit_iff, Int.ediv_eq_zero_of_lt (by norm_num) (one_lt_pow₀ (by norm_num) j.succ_ne_zero)] at hone
      cases hone
  · rw [encode_frame s 1 _ htouch, bitAt_replicate_zero] at hone
    cases hone

/-- The generated functions of a plain message. -/
def plainCode (message : Message) : MessageCode :=
  ⟨message.length, message.signals.map plainLine, message.signals.map plainBlock⟩

theorem unpacks_of_placed (h : message.Plain)
    (hplace : message.length = 8 ∨ ∀ s ∈ message.signals, s.byteOrder = .littleEndian) {data : List UInt8}
    (hdata : data.length = message.length) :
    (plainCode message).unpack data = message.signals.mapM (decodedField data) := by
  have hall : ∀ s ∈ message.signals, s.toSpan.decode data =
      .ok (s.toSpan.rawBits (readWords data message.length)).toNat :=
    fun s hs => decode_of_placed h.length_le (h.inside s hs) (hplace.imp_right fun hle => hle s hs) hdata
  rw [(mapM_decodedField h hdata).2 hall]
  exact unpack_eq h data

/-- The signals with their values. -/
theorem settings_apart (h : message.Plain) {values : List ℤ}
    (hvalues : List.Forall₂ Signal.InRange message.signals values) :
    (∀ p ∈ (message.signals.map Signal.toSpan).zip values, p.1.Inside message.length) ∧
      ((message.signals.map Signal.toSpan).zip values).Pairwise fun p p' => p.1.Disjoint p'.1 := by
  have hlength : (message.signals.map Signal.toSpan).length ≤ values.length := by
    rw [List.length_map, hvalues.length_eq]
  constructor
  · intro p hp
    obtain ⟨s, hs, hspan⟩ := List.mem_map.1 (List.of_mem_zip hp).1
    rw [← hspan]
    exact h.inside s hs
  · rw [← List.pairwise_map (f := Prod.fst) (R := Span.Disjoint), List.map_fst_zip hlength, List.pairwise_map]
    exact h.disjoint

theorem pack_eq (h : message.Plain) {values : List ℤ} (hvalues : List.Forall₂ Signal.InRange message.signals values) :
    (plainCode message).pack (values.map .int) =
      some (encodeAll ((message.signals.map Signal.toSpan).zip values) (List.replicate message.length 0)) := by
  obtain ⟨hin, hdisjoint⟩ := settings_apart h hvalues
  have hwords := packWords_eq hvalues h.short ⟨0#64, 0#64⟩
  rw [← packed_eq_encodeAll h.length_le hin hdisjoint, MessageCode.pack, plainCode]
  simp [hwords, h.length_le]

theorem mapM_eq_of_zip {α β γ : Type} {f : α → Option γ} {g : β → γ} {as : List α} {bs : List β}
    (hlength : as.length = bs.length) (h : ∀ p ∈ as.zip bs, f p.1 = some (g p.2)) :
    as.mapM f = some (bs.map g) := by
  induction as generalizing bs with
  | nil =>
    rw [List.length_eq_zero_iff.1 hlength.symm]
    rfl
  | cons a as ih =>
    cases bs with
    | nil => cases hlength
    | cons b bs =>
      have hfirst : f a = some (g b) := h (a, b) List.mem_cons_self
      have hrest := ih (Nat.succ.inj hlength) fun p hp => h p (List.mem_cons_of_mem (a, b) hp)
      rw [List.mapM_cons, hfirst, hrest]
      rfl

/-- The codec finds the values that it has encoded. -/
theorem decodedField_encodeAll (h : message.Plain) {values : List ℤ}
    (hvalues : List.Forall₂ Signal.InRange message.signals values) :
    message.signals.mapM (decodedField (encodeAll ((message.signals.map Signal.toSpan).zip values)
      (List.replicate message.length 0))) = some (values.map .int) := by
  obtain ⟨hin, hdisjoint⟩ := settings_apart h hvalues
  obtain ⟨hlength, hrange⟩ := List.forall₂_iff_zip.1 hvalues
  have hzeros : (List.replicate message.length (0 : UInt8)).length = message.length := List.length_replicate
  rw [← hzeros] at hin
  apply mapM_eq_of_zip hlength
  rintro ⟨s, value⟩ hp
  have hp' : (s.toSpan, value) ∈ (message.signals.map Signal.toSpan).zip values := by
    rw [List.zip_map_left]
    exact List.mem_map_of_mem hp
  generalize (message.signals.map Signal.toSpan).zip values = settings at hin hdisjoint hp'
  have hs := h.inside s (List.of_mem_zip hp).1
  rw [← hzeros, ← length_encodeAll settings] at hs
  obtain ⟨v, hv, hbits⟩ := decode_eq hs
  have hvalue : v = (value % 2 ^ s.length).toNat := by
    apply Nat.eq_of_testBit_eq
    intro j
    rw [hbits, testBit_toNat_emod]
    by_cases hj : j < s.length
    · rw [encodeAll_written hin hdisjoint hp' hj]
    · rw [decide_eq_false hj, Bool.false_and, Bool.false_and]
  have hlt : v < 2 ^ s.length := by
    rw [hvalue]
    exact toNat_emod_lt value s.length
  rw [decodedField_eq hlt hv, hvalue, reading_toNat_emod (hrange hp)]

theorem not_agrees_of_misplaced (h : message.Plain) (hlength : message.length < 8) {s : Signal}
    (hs : s ∈ message.signals) (horder : s.byteOrder = .bigEndian) : ¬Agrees message (plainCode message) := by
  intro hagrees
  have hdata : (s.toSpan.encode 1 (List.replicate message.length 0)).length = message.length := by
    rw [length_encode, List.length_replicate]
  have hfields := hagrees.unpacks _ hdata
  rw [plainCode, unpack_eq h] at hfields
  exact decode_ne_of_misplaced hlength (h.inside s hs) s.length_pos horder
    ((mapM_decodedField h hdata).1 hfields.symm s hs)

/-- **Generated code**: the generator accepts every plain message, and its functions are inverse to each other and
agree with the codec exactly if the message has eight bytes or only Intel signals. -/
theorem generated_agrees_iff (h : message.Plain) : ∃ code, messageSource message = .ok code ∧
    (Agrees message code ↔ message.length = 8 ∨ ∀ s ∈ message.signals, s.byteOrder = .littleEndian) := by
  refine ⟨plainCode message, messageSource_eq h, ?_, ?_⟩
  · intro hagrees
    by_contra hnot
    simp only [not_or, not_forall] at hnot
    obtain ⟨hlength, s, hs, horder⟩ := hnot
    have hbig : s.byteOrder = .bigEndian := by
      cases hcase : s.byteOrder with
      | bigEndian => rfl
      | littleEndian => exact absurd hcase horder
    exact not_agrees_of_misplaced h (lt_of_le_of_ne h.length_le hlength) hs hbig hagrees
  · intro hplace
    constructor
    · intro values hvalues
      refine ⟨_, pack_eq h hvalues, rfl, ?_⟩
      have hpayload : (encodeAll ((message.signals.map Signal.toSpan).zip values)
          (List.replicate message.length 0)).length = message.length := by
        rw [length_encodeAll, List.length_replicate]
      rw [unpacks_of_placed h hplace hpayload]
      exact decodedField_encodeAll h hvalues
    · exact fun data hdata => unpacks_of_placed h hplace hdata

theorem oneByte_length_pos : 0 < 8 := by decide

/-- One byte that is a Motorola signal. -/
def oneByte : Signal where
  startBit := 7
  length := 8
  byteOrder := .bigEndian
  name := "OneByte"
  isSigned := false
  scale := .ofRat 1
  offset := .ofRat 0
  length_pos := oneByte_length_pos

theorem plain_oneByte {length : ℕ} (hlow : 1 ≤ length) (hhigh : length ≤ 8) : (Message.mk length [oneByte]).Plain where
  length_pos := hlow
  length_le := hhigh
  short s hs := by
    rw [List.mem_singleton.1 hs]
    decide
  unscaled s hs := by
    rw [List.mem_singleton.1 hs]
    exact ⟨rfl, rfl⟩
  inside s hs := by
    rw [List.mem_singleton.1 hs]
    change 0 + 8 ≤ 8 * length
    omega
  disjoint := List.pairwise_singleton ..

theorem generated_agrees_iff_oneByte : ∃ code, messageSource ⟨8, [oneByte]⟩ = .ok code ∧
    (Agrees ⟨8, [oneByte]⟩ code ↔ (8 = 8 ∨ ∀ s ∈ [oneByte], s.byteOrder = .littleEndian)) :=
  generated_agrees_iff (plain_oneByte (by decide) (by decide))

/-- In a message of one byte the unpack function never finds it. -/
theorem not_agrees_shortMessage : ∃ code, messageSource ⟨1, [oneByte]⟩ = .ok code ∧ ¬Agrees ⟨1, [oneByte]⟩ code :=
  have h := plain_oneByte (Nat.le_refl 1) (by decide)
  ⟨plainCode ⟨1, [oneByte]⟩, messageSource_eq h, not_agrees_of_misplaced h (by decide) List.mem_cons_self rfl⟩

end Functions

end DualCan.Dbc
