import DualCan.Dbc.Physical

/-!
# Generated code and physical values

The generated functions of messages whose signals have a scale and an offset and up to 48 bits. The unpack function
computes the very doubles of `decode_signal_value`, and the pack function puts them back where they came from, if the
message has eight bytes or no Motorola signal (`generated_values_iff`).
-/

namespace DualCan.Dbc

open DualCan.Bits

/-- A message of up to eight bytes with scaled signals that lie inside it and apart from each other. -/
structure Message.Scaled (message : Message) : Prop where
  length_le : message.length ≤ 8
  scaled : ∀ s ∈ message.signals, ∃ c, s.Scaled c
  inside : ∀ s ∈ message.signals, s.toSpan.Inside message.length
  disjoint : message.signals.Pairwise fun s t => s.toSpan.Disjoint t.toSpan

/-- What the generated functions promise of physical values. -/
structure ValuesAgree (message : Message) (code : MessageCode) : Prop where
  /-- The fields are the numbers of the codec. -/
  unpacks : ∀ data, data.length = message.length → ∃ fields, code.unpack data = some fields ∧
    List.Forall₂ (fun s field => s.decodeValue data = .ok (.float field.toDouble)) message.signals fields
  /-- Packed again, they are the payload, with zeros between the signals. -/
  repacks : ∀ data, data.length = message.length → ∃ fields payload, code.unpack data = some fields ∧
    code.pack fields = some payload ∧ payload.length = message.length ∧
      (∀ s ∈ message.signals, ∀ q, s.toSpan.Touches q → bitAt payload q = bitAt data q) ∧
        ∀ q, (∀ s ∈ message.signals, ¬s.toSpan.Touches q) → bitAt payload q = false

/-! ## The generator -/

/-- The line of a scaled signal. -/
def scaledLine (s : Signal) : PackLine := ⟨s.byteOrder, s.offset.neg, s.scale, maskLiteral s.length, s.toSpan.shift⟩

/-- The block of a scaled signal. -/
def scaledBlock (s : Signal) : UnpackBlock := { plainBlock s with scale := s.scale, offset := s.offset }

/-- The field of a value. -/
def fieldOf (s : Signal) (n : ℤ) : FieldValue :=
  if s.scale = .ofRat 1 ∧ s.offset = .ofRat 0 then .int n else .double (((Double.ofRat n).mul s.scale).add s.offset)

theorem numberLiteral_ofRat {q : ℚ} (h : IsDouble q) : numberLiteral (.ofRat q) = .ok (.ofRat q) := by
  rw [Double.ofRat_eq h, numberLiteral]

section Signal

variable {s : Signal} {c : Scaling} {size : ℕ}

theorem packLine_scaled (h : s.Scaled c) (hin : s.toSpan.Inside size) (hsize : size ≤ 8) :
    packLine s = .ok (scaledLine s) := by
  have hneg : (Double.ofRat c.offset).neg = .ofRat (-c.offset) := by rw [Double.ofRat_eq c.offset_double, Double.neg]
  rw [packLine, signalShift_eq hin hsize, scaledLine, h.scale, h.offset, hneg, numberLiteral_ofRat c.scale_double,
    numberLiteral_ofRat c.offset_double.neg]
  rfl

theorem unpackBlock_scaled (h : s.Scaled c) (hin : s.toSpan.Inside size) (hsize : size ≤ 8) :
    unpackBlock s = .ok (scaledBlock s) := by
  have hlength := h.length_le
  have hextends : (s.isSigned = true ∧ s.length < 64) ↔ s.isSigned = true := and_iff_left (by omega)
  rw [unpackBlock, signalShift_eq hin hsize, scaledBlock, h.scale, h.offset, numberLiteral_ofRat c.scale_double,
    numberLiteral_ofRat c.offset_double]
  simp only [hextends]
  rfl

/-! ## One field -/

theorem toDouble_fieldOf (h : s.Scaled c) (n : ℤ) : (fieldOf s n).toDouble = c.apply n := by
  rw [Scaling.apply, ← h.scale, ← h.offset, fieldOf]
  split
  · rename_i hunscaled
    rw [FieldValue.toDouble, hunscaled.1, hunscaled.2, Double.mul_ofRat_one, Double.add_ofRat_zero]
  · rfl

/-- A block stores the scaled reading of the bits that it takes from its word. -/
theorem field_scaled (h : s.Scaled c) (words : Words) :
    (scaledBlock s).field words = some (fieldOf s (s.reading (s.toSpan.rawBits words).toNat)) := by
  have hraw := toNat_rawBits_lt s words
  have hnumber := number_eq (h.length_le.trans (by norm_num)) words
  have hfield : (scaledBlock s).field words = (fieldType s).convert
      (((Double.ofRat (s.reading (s.toSpan.rawBits words).toNat)).mul s.scale).add s.offset) := by
    rw [← hnumber]
    rfl
  rw [hfield, fieldOf]
  by_cases hunscaled : s.scale = .ofRat 1 ∧ s.offset = .ofRat 0
  · rw [if_pos hunscaled, hunscaled.1, hunscaled.2, Double.mul_ofRat_one, Double.add_ofRat_zero]
    exact convert_fieldType hunscaled h.length_le (reading_inRange s hraw)
  · have hdouble : fieldType s = .double := if_neg hunscaled
    rw [if_neg hunscaled, hdouble]
    rfl

/-- A line finds the raw value of the field again. -/
theorem raw_scaledLine (h : s.Scaled c) {raw : ℕ} (hraw : raw < 2 ^ s.length) :
    (scaledLine s).raw (fieldOf s (s.reading raw)) = some (BitVec.ofInt 64 (s.reading raw)) := by
  have habs := abs_reading_le h hraw
  have hrange : -2 ^ 63 ≤ s.reading raw ∧ s.reading raw < 2 ^ 63 := by
    rw [abs_le] at habs
    omega
  have hunscaled : ((fieldOf s (s.reading raw)).toDouble.add (scaledLine s).negOffset).div (scaledLine s).scale =
      c.unapply (c.apply (s.reading raw)) := by
    rw [toDouble_fieldOf h, scaledLine, Scaling.unapply, h.scale, h.offset]
  rw [PackLine.raw, hunscaled, projectDbcRound,
    convertInteger_eq ((c.unapply_apply habs).truncate habs) hrange]
  rfl

end Signal

/-! ## The functions of a message -/

section Functions

variable {message : Message}

/-- The generated functions of a scaled message. -/
def scaledCode (message : Message) : MessageCode :=
  ⟨message.length, message.signals.map scaledLine, message.signals.map scaledBlock⟩

/-- The raw values that an unpack function takes from the payload. -/
def rawOf (message : Message) (data : List UInt8) (s : Signal) : ℕ :=
  (s.toSpan.rawBits (readWords data message.length)).toNat

/-- The signals with their values. -/
def settingsOf (message : Message) (data : List UInt8) : List Setting :=
  message.signals.map fun s => (s.toSpan, s.reading (rawOf message data s))

theorem messageSource_scaled (h : message.Scaled) : messageSource message = .ok (scaledCode message) := by
  have hlines : message.signals.mapM packLine = .ok (message.signals.map scaledLine) := by
    apply mapM_eq_pure
    intro s hs
    obtain ⟨c, hc⟩ := h.scaled s hs
    exact packLine_scaled hc (h.inside s hs) h.length_le
  have hblocks : message.signals.mapM unpackBlock = .ok (message.signals.map scaledBlock) := by
    apply mapM_eq_pure
    intro s hs
    obtain ⟨c, hc⟩ := h.scaled s hs
    exact unpackBlock_scaled hc (h.inside s hs) h.length_le
  rw [messageSource, hlines, hblocks]
  rfl

theorem unpack_scaled (h : message.Scaled) (data : List UInt8) : (scaledCode message).unpack data =
    some (message.signals.map fun s => fieldOf s (s.reading (rawOf message data s))) := by
  have hfields : (message.signals.map scaledBlock).mapM (fun block => block.field (readWords data message.length)) =
      some (message.signals.map fun s => fieldOf s (s.reading (rawOf message data s))) := by
    rw [List.mapM_map]
    apply mapM_eq_pure
    intro s hs
    obtain ⟨c, hc⟩ := h.scaled s hs
    exact field_scaled hc _
  rw [MessageCode.unpack, scaledCode]
  simp [h.length_le, hfields]

theorem packWords_scaled {signals : List Signal} {f : Signal → ℤ}
    (h : ∀ s ∈ signals, (scaledLine s).raw (fieldOf s (f s)) = some (BitVec.ofInt 64 (f s))) (words : Words) :
    packWords (signals.map scaledLine) (signals.map fun s => fieldOf s (f s)) words =
      some (words.orAll (signals.map fun s => (s.toSpan, f s))) := by
  induction signals generalizing words with
  | nil => rfl
  | cons s signals ih =>
    rw [List.map_cons, List.map_cons, packWords, h s List.mem_cons_self]
    exact ih (fun s' hs' => h s' (List.mem_cons_of_mem s hs')) _

theorem settingsOf_apart (h : message.Scaled) (data : List UInt8) :
    (∀ p ∈ settingsOf message data, p.1.Inside message.length) ∧
      (settingsOf message data).Pairwise fun p p' => p.1.Disjoint p'.1 := by
  constructor
  · intro p hp
    obtain ⟨s, hs, rfl⟩ := List.mem_map.1 hp
    exact h.inside s hs
  · rw [settingsOf, List.pairwise_map]
    exact h.disjoint

/-- What has been unpacked is packed into zeros by the codec's rules. -/
theorem pack_scaled (h : message.Scaled) (data : List UInt8) :
    (scaledCode message).pack (message.signals.map fun s => fieldOf s (s.reading (rawOf message data s))) =
      some (encodeAll (settingsOf message data) (List.replicate message.length 0)) := by
  obtain ⟨hin, hdisjoint⟩ := settingsOf_apart h data
  have hraw : ∀ s ∈ message.signals, (scaledLine s).raw (fieldOf s (s.reading (rawOf message data s))) =
      some (BitVec.ofInt 64 (s.reading (rawOf message data s))) := by
    intro s hs
    obtain ⟨c, hc⟩ := h.scaled s hs
    exact raw_scaledLine hc (toNat_rawBits_lt s _)
  have hwords := packWords_scaled hraw ⟨0#64, 0#64⟩
  rw [← packed_eq_encodeAll h.length_le hin hdisjoint, MessageCode.pack, scaledCode]
  simp [hwords, h.length_le, settingsOf]

theorem valuesAgree_of_placed (h : message.Scaled)
    (hplace : message.length = 8 ∨ ∀ s ∈ message.signals, s.byteOrder = .littleEndian) :
    ValuesAgree message (scaledCode message) := by
  have hdecode : ∀ data : List UInt8, data.length = message.length → ∀ s ∈ message.signals,
      s.toSpan.decode data = .ok (rawOf message data s) :=
    fun data hdata s hs => decode_of_placed h.length_le (h.inside s hs) (hplace.imp_right fun hle => hle s hs) hdata
  constructor
  · intro data hdata
    refine ⟨_, unpack_scaled h data, ?_⟩
    rw [List.forall₂_map_right_iff, List.forall₂_same]
    intro s hs
    obtain ⟨c, hc⟩ := h.scaled s hs
    rw [toDouble_fieldOf hc]
    exact decodeValue_eq hc (toNat_rawBits_lt s _) (hdecode data hdata s hs)
  · intro data hdata
    obtain ⟨hin, hdisjoint⟩ := settingsOf_apart h data
    have hzeros : (List.replicate message.length (0 : UInt8)).length = message.length := List.length_replicate
    rw [← hzeros] at hin
    refine ⟨_, _, unpack_scaled h data, pack_scaled h data, (length_encodeAll _ _).trans hzeros, ?_, ?_⟩
    · rintro s hs q ⟨j, hj, rfl⟩
      have hsetting : (s.toSpan, s.reading (rawOf message data s)) ∈ settingsOf message data :=
        List.mem_map_of_mem hs
      have hinside : s.toSpan.Inside data.length := hdata ▸ h.inside s hs
      obtain ⟨raw, hraw, hlt, hbits⟩ := lt_of_decode hinside
      rw [hdecode data hdata s hs] at hraw
      cases hraw
      rw [encodeAll_written hin hdisjoint hsetting hj, valueBit_reading hlt hj, hbits j hj]
    · intro q hnone
      rw [Bool.eq_false_iff, ne_eq, bitAt_encodeAll hin hdisjoint, bitAt_replicate_zero]
      rintro (⟨p, hp, j, hj, hposition, -⟩ | ⟨-, hset⟩)
      · obtain ⟨s, hs, rfl⟩ := List.mem_map.1 hp
        exact hnone s hs ⟨j, hj, hposition⟩
      · cases hset

/-- A Motorola signal of a shorter message is looked up in the wrong place, and has another value there. -/
theorem not_valuesAgree_of_misplaced (h : message.Scaled) (hlength : message.length < 8) {s : Signal}
    (hs : s ∈ message.signals) (horder : s.byteOrder = .bigEndian) : ¬ValuesAgree message (scaledCode message) := by
  intro hagree
  have hdata : (s.toSpan.encode 1 (List.replicate message.length 0)).length = message.length := by
    rw [length_encode, List.length_replicate]
  obtain ⟨fields, hfields, hall⟩ := hagree.unpacks _ hdata
  rw [unpack_scaled h] at hfields
  cases hfields
  rw [List.forall₂_map_right_iff, List.forall₂_same] at hall
  obtain ⟨c, hc⟩ := h.scaled s hs
  have hinside : s.toSpan.Inside (s.toSpan.encode 1 (List.replicate message.length 0)).length :=
    hdata.symm ▸ h.inside s hs
  obtain ⟨raw, hraw, hlt, -⟩ := lt_of_decode hinside
  have hvalue := hall s hs
  rw [toDouble_fieldOf hc, decodeValue_eq hc hlt hraw] at hvalue
  have hsame := Number.float.inj (Except.ok.inj hvalue)
  have hlt' := toNat_rawBits_lt s (readWords (s.toSpan.encode 1 (List.replicate message.length 0)) message.length)
  have hreading := c.apply_injOn (abs_reading_le hc hlt) (abs_reading_le hc hlt') hsame
  refine decode_ne_of_misplaced hlength (h.inside s hs) s.length_pos horder ?_
  rw [hraw, reading_inj hlt hlt' hreading]

/-- **Generated code for physical values**: the generator accepts every scaled message, and its functions compute the
codec's values and restore the payload exactly if the message has eight bytes or only Intel signals. -/
theorem generated_values_iff (h : message.Scaled) : ∃ code, messageSource message = .ok code ∧
    (ValuesAgree message code ↔ message.length = 8 ∨ ∀ s ∈ message.signals, s.byteOrder = .littleEndian) := by
  refine ⟨scaledCode message, messageSource_scaled h, ?_, valuesAgree_of_placed h⟩
  intro hagree
  by_contra hnot
  simp only [not_or, not_forall] at hnot
  obtain ⟨hlength, s, hs, horder⟩ := hnot
  have hbig : s.byteOrder = .bigEndian := by
    cases hcase : s.byteOrder with
    | bigEndian => rfl
    | littleEndian => exact absurd hcase horder
  exact not_valuesAgree_of_misplaced h (lt_of_le_of_ne h.length_le hlength) hs hbig hagree

end Functions

/-- `CoolantTemp` in a message of its own. -/
theorem scaled_coolantMessage : (Message.mk 8 [coolantTemp]).Scaled where
  length_le := Nat.le_refl 8
  scaled s hs := by
    rw [List.mem_singleton.1 hs]
    exact ⟨coolantScaling, scaled_coolantTemp⟩
  inside s hs := by
    rw [List.mem_singleton.1 hs]
    decide
  disjoint := List.pairwise_singleton ..

theorem generated_values_iff_coolantTemp : ∃ code, messageSource ⟨8, [coolantTemp]⟩ = .ok code ∧
    (ValuesAgree ⟨8, [coolantTemp]⟩ code ↔ (8 = 8 ∨ ∀ s ∈ [coolantTemp], s.byteOrder = .littleEndian)) :=
  generated_values_iff scaled_coolantMessage

end DualCan.Dbc
