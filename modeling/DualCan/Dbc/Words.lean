import DualCan.Dbc.Codegen
import DualCan.Dbc.Laws

/-!
# The words of the generated functions

A pack function puts bit `j` of a signal into bit `Span.shift s + j` of the word of its byte order, from where it
goes to position `Span.position s j` of the payload. An unpack function puts the payload into the words again; into
the Motorola word it puts it in the right place only if the message has eight bytes.
-/

namespace DualCan.Dbc

open DualCan.Bits

namespace Span

/-- The shift of the signal in its word. -/
def shift (s : Span) : ℕ :=
  match s.byteOrder with
  | .bigEndian => 64 - (networkPosition s.startBit + s.length)
  | .littleEndian => s.startBit

/-- The bit of a word that a pack function copies to a position of the payload. -/
def wordBit (byteOrder : ByteOrder) (q : ℕ) : ℕ :=
  match byteOrder with
  | .bigEndian => 63 - networkPosition q
  | .littleEndian => q

theorem shift_add_length {s : Span} {size : ℕ} (hin : s.Inside size) (hsize : size ≤ 8) :
    s.shift + s.length ≤ 64 := by
  unfold Inside at hin
  unfold shift
  cases horder : s.byteOrder with
  | bigEndian =>
    rw [horder] at hin
    dsimp only at hin ⊢
    omega
  | littleEndian =>
    rw [horder] at hin
    dsimp only at hin ⊢
    omega

/-- The bits of a signal in the word are its positions in the payload. -/
theorem wordBit_eq_iff {s : Span} {size q j : ℕ} (hin : s.Inside size) (hsize : size ≤ 8) (hq : q < 64)
    (hj : j < s.length) : wordBit s.byteOrder q = s.shift + j ↔ s.position j = q := by
  unfold Inside at hin
  unfold wordBit shift position
  cases horder : s.byteOrder with
  | littleEndian => exact eq_comm
  | bigEndian =>
    rw [horder] at hin
    dsimp only at hin ⊢
    have hnetwork : networkPosition q < 8 * 8 := networkPosition_lt hq
    constructor
    · intro h
      have hindex : networkPosition s.startBit + (s.length - 1 - j) = networkPosition q := by omega
      rw [hindex, networkPosition_networkPosition]
    · intro h
      rw [← h, networkPosition_networkPosition]
      omega

end Span

/-! ## Masks -/

theorem getLsbD_maskLiteral {length b : ℕ} (hb : b < 64) : (maskLiteral length).getLsbD b = decide (b < length) := by
  unfold maskLiteral
  split
  · have hones : 0xFFFFFFFFFFFFFFFF#64 = BitVec.allOnes 64 := by decide
    have hlt : b < length := by omega
    rw [hones, BitVec.getLsbD_allOnes, decide_eq_true hb, decide_eq_true hlt]
  · rw [BitVec.getLsbD_ofNat, Nat.shiftLeft_eq, Nat.one_mul, Nat.testBit_two_pow_sub_one, decide_eq_true hb,
      Bool.true_and]

theorem getLsbD_extensionLiteral {length b : ℕ} (hb : b < 64) :
    (extensionLiteral length).getLsbD b = decide (length ≤ b) := by
  have hones : 0xFFFFFFFFFFFFFFFF#64 = BitVec.allOnes 64 := by decide
  rw [extensionLiteral, hones, BitVec.allOnes_and, BitVec.getLsbD_not, BitVec.getLsbD_ofNat, Nat.shiftLeft_eq,
    Nat.one_mul, Nat.testBit_two_pow_sub_one, decide_eq_true hb, Bool.true_and, Bool.true_and, ← decide_not,
    decide_eq_decide, Nat.not_lt]

theorem getLsbD_ofInt (value : ℤ) {b : ℕ} (hb : b < 64) : (BitVec.ofInt 64 value).getLsbD b = valueBit value b := by
  rw [← BitVec.testBit_toNat, BitVec.toNat_ofInt, Nat.cast_pow, Nat.cast_ofNat, testBit_toNat_emod,
    decide_eq_true hb, Bool.true_and]

/-! ## Packing -/

/-- A signal and the value of its field. -/
abbrev Setting := Span × ℤ

/-- The setting puts a one at a position of the payload. -/
def Setting.Sets (p : Setting) (q : ℕ) : Prop := ∃ j < p.1.length, p.1.position j = q ∧ valueBit p.2 j = true

/-- What the line of a signal adds to its word. -/
def Setting.bits (p : Setting) : BitVec 64 := (BitVec.ofInt 64 p.2 &&& maskLiteral p.1.length) <<< p.1.shift

theorem getLsbD_bits {p : Setting} {size q : ℕ} (hin : p.1.Inside size) (hsize : size ≤ 8) (hq : q < 64) :
    p.bits.getLsbD (Span.wordBit p.1.byteOrder q) = true ↔ p.Sets q := by
  have hfits := Span.shift_add_length hin hsize
  have hword : Span.wordBit p.1.byteOrder q < 64 := by
    unfold Span.wordBit
    cases p.1.byteOrder with
    | bigEndian => exact Nat.lt_succ_of_le (Nat.sub_le ..)
    | littleEndian => exact hq
  unfold Setting.bits Setting.Sets
  rw [BitVec.getLsbD_shiftLeft, decide_eq_true hword, Bool.true_and]
  constructor
  · intro h
    rw [Bool.and_eq_true, Bool.not_eq_true', decide_eq_false_iff_not, Nat.not_lt, BitVec.getLsbD_and] at h
    obtain ⟨hle, hbit⟩ := h
    rw [getLsbD_ofInt _ (by omega), getLsbD_maskLiteral (by omega), Bool.and_eq_true, decide_eq_true_iff] at hbit
    obtain ⟨hvalue, hj⟩ := hbit
    refine ⟨_, hj, ?_, hvalue⟩
    rw [← Span.wordBit_eq_iff hin hsize hq hj]
    omega
  · rintro ⟨j, hj, hposition, hvalue⟩
    rw [← Span.wordBit_eq_iff hin hsize hq hj] at hposition
    have hnot : ¬p.1.shift + j < p.1.shift := by omega
    rw [hposition, decide_eq_false hnot, Bool.not_false, Bool.true_and, Nat.add_sub_cancel_left, BitVec.getLsbD_and,
      getLsbD_ofInt _ (by omega), getLsbD_maskLiteral (by omega), decide_eq_true hj, hvalue, Bool.and_true]

/-- The words with the bits of more settings. -/
def Words.orAll (words : Words) (ps : List Setting) : Words :=
  ps.foldl (fun words p => words.or p.1.byteOrder p.bits) words

theorem word_or (words : Words) (byteOrder byteOrder' : ByteOrder) (bits : BitVec 64) :
    (words.or byteOrder bits).word byteOrder' =
      if byteOrder = byteOrder' then words.word byteOrder' ||| bits else words.word byteOrder' := by
  cases byteOrder <;> cases byteOrder' <;> rfl

theorem getLsbD_orAll {size q : ℕ} (hsize : size ≤ 8) (hq : q < 64) (byteOrder : ByteOrder) (ps : List Setting)
    (hin : ∀ p ∈ ps, p.1.Inside size) (words : Words) :
    ((words.orAll ps).word byteOrder).getLsbD (Span.wordBit byteOrder q) = true ↔
      (words.word byteOrder).getLsbD (Span.wordBit byteOrder q) = true ∨
        ∃ p ∈ ps, p.1.byteOrder = byteOrder ∧ p.Sets q := by
  induction ps generalizing words with
  | nil => simp [Words.orAll]
  | cons p ps ih =>
    have hrest := ih (fun p' hp' => hin p' (List.mem_cons_of_mem p hp')) (words.or p.1.byteOrder p.bits)
    rw [Words.orAll, List.foldl_cons, ← Words.orAll, hrest, word_or]
    by_cases horder : p.1.byteOrder = byteOrder
    · subst horder
      rw [if_pos rfl, BitVec.getLsbD_or, Bool.or_eq_true, getLsbD_bits (hin p List.mem_cons_self) hsize hq, or_assoc]
      simp only [List.mem_cons, exists_eq_or_imp, true_and]
    · rw [if_neg horder]
      simp only [List.mem_cons, exists_eq_or_imp, horder, false_and, false_or]

theorem bitAt_map_byte (words : Words) {length q : ℕ} (hlength : length ≤ 8) (hq : q < 8 * length) :
    bitAt ((List.range length).map words.byte) q =
      (words.be.getLsbD (Span.wordBit .bigEndian q) || words.le.getLsbD (Span.wordBit .littleEndian q)) := by
  have hindex : q / 8 < length := by omega
  have hmod : q % 8 < 8 := Nat.mod_lt _ (by decide)
  have hbe : 8 * (7 - q / 8) + q % 8 = 63 - networkPosition q := by
    unfold networkPosition
    omega
  have hmask : (0xFF#64).getLsbD (q % 8) = true := by
    have hcases : ∀ k < 8, (0xFF#64).getLsbD k = true := by decide
    exact hcases _ hmod
  rw [bitAt, List.getD_eq_getElem?_getD, List.getElem?_map, List.getElem?_range hindex, Option.map_some,
    Option.getD_some, Words.byte]
  simp only [BitVec.getLsbD_or, BitVec.getLsbD_setWidth, BitVec.getLsbD_and, BitVec.getLsbD_ushiftRight, hmask,
    decide_eq_true hmod, Bool.true_and, Bool.and_true, hbe, Nat.div_add_mod]
  rfl

/-- The payload made of some settings has their ones. -/
theorem bitAt_packed {ps : List Setting} {length q : ℕ} (hlength : length ≤ 8) (hq : q < 8 * length)
    (hin : ∀ p ∈ ps, p.1.Inside length) :
    bitAt ((List.range length).map ((Words.mk 0#64 0#64).orAll ps).byte) q = true ↔ ∃ p ∈ ps, p.Sets q := by
  have hq' : q < 64 := by omega
  have hword := fun byteOrder => getLsbD_orAll hlength hq' byteOrder ps hin ⟨0#64, 0#64⟩
  have hbe := hword .bigEndian
  have hle := hword .littleEndian
  have hzero : ∀ b, (0#64).getLsbD b = true ↔ False := by simp
  simp only [Words.word, hzero, false_or] at hbe hle
  rw [bitAt_map_byte _ hlength hq, Bool.or_eq_true, hbe, hle]
  constructor
  · rintro (⟨p, hp, -, hsets⟩ | ⟨p, hp, -, hsets⟩)
    · exact ⟨p, hp, hsets⟩
    · exact ⟨p, hp, hsets⟩
  · rintro ⟨p, hp, hsets⟩
    cases horder : p.1.byteOrder with
    | bigEndian => exact Or.inl ⟨p, hp, horder, hsets⟩
    | littleEndian => exact Or.inr ⟨p, hp, horder, hsets⟩

/-! ## The codec on several signals -/

/-- `encode_signal` for one setting after another. -/
def encodeAll (ps : List Setting) (data : List UInt8) : List UInt8 :=
  ps.foldl (fun data p => p.1.encode p.2 data) data

theorem length_encodeAll (ps : List Setting) (data : List UInt8) : (encodeAll ps data).length = data.length := by
  induction ps generalizing data with
  | nil => rfl
  | cons p ps ih =>
    rw [encodeAll, List.foldl_cons, ← encodeAll, ih, length_encode]

theorem bitAt_encodeAll {ps : List Setting} {data : List UInt8} (hin : ∀ p ∈ ps, p.1.Inside data.length)
    (hdisjoint : ps.Pairwise fun p p' => p.1.Disjoint p'.1) (q : ℕ) : bitAt (encodeAll ps data) q = true ↔
      (∃ p ∈ ps, p.Sets q) ∨ (∀ p ∈ ps, ¬p.1.Touches q) ∧ bitAt data q = true := by
  induction ps generalizing data with
  | nil => simp [encodeAll]
  | cons p ps ih =>
    obtain ⟨hfirst, hothers⟩ := List.pairwise_cons.1 hdisjoint
    have hin' : ∀ p' ∈ ps, p'.1.Inside (p.1.encode p.2 data).length := by
      intro p' hp'
      rw [length_encode]
      exact hin p' (List.mem_cons_of_mem p hp')
    rw [encodeAll, List.foldl_cons, ← encodeAll, ih hin' hothers]
    by_cases htouch : p.1.Touches q
    · -- none of the other signals has the position
      have hnone : ∀ p' ∈ ps, ¬p'.1.Touches q := fun p' hp' => hfirst p' hp' q htouch
      have hunset : ¬∃ p' ∈ ps, p'.Sets q := by
        rintro ⟨p', hp', j, hj, hposition, -⟩
        exact hnone p' hp' ⟨j, hj, hposition⟩
      have hsets : p.Sets q ↔ bitAt (p.1.encode p.2 data) q = true := by
        obtain ⟨j, hj, rfl⟩ := htouch
        rw [encode_written (hin p List.mem_cons_self) p.2 hj]
        constructor
        · rintro ⟨k, hk, hposition, hvalue⟩
          rwa [Span.position_inj hk hj hposition] at hvalue
        · exact fun hvalue => ⟨j, hj, rfl, hvalue⟩
      simp only [List.mem_cons, exists_eq_or_imp, forall_eq_or_imp, htouch, not_true_eq_false, false_and, or_false,
        hunset, false_or, hsets]
      exact ⟨fun h => h.2, fun h => ⟨hnone, h⟩⟩
    · have hunset : ¬p.Sets q := by
        rintro ⟨j, hj, hposition, -⟩
        exact htouch ⟨j, hj, hposition⟩
      rw [encode_frame p.1 p.2 data htouch]
      simp only [List.mem_cons, exists_eq_or_imp, forall_eq_or_imp, htouch, not_false_eq_true, true_and, hunset,
        false_or]

theorem encodeAll_written {ps : List Setting} {data : List UInt8} (hin : ∀ p ∈ ps, p.1.Inside data.length)
    (hdisjoint : ps.Pairwise fun p p' => p.1.Disjoint p'.1) {p : Setting} (hp : p ∈ ps) {j : ℕ}
    (hj : j < p.1.length) : bitAt (encodeAll ps data) (p.1.position j) = valueBit p.2 j := by
  induction ps generalizing data with
  | nil => exact absurd hp List.not_mem_nil
  | cons p' ps ih =>
    obtain ⟨hfirst, hothers⟩ := List.pairwise_cons.1 hdisjoint
    have hin' : ∀ p ∈ ps, p.1.Inside (p'.1.encode p'.2 data).length := by
      intro p hp
      rw [length_encode]
      exact hin p (List.mem_cons_of_mem p' hp)
    rw [encodeAll, List.foldl_cons, ← encodeAll]
    rcases List.mem_cons.1 hp with rfl | hp
    · have htouch : p.1.Touches (p.1.position j) := ⟨j, hj, rfl⟩
      have hnone : ∀ p' ∈ ps, ¬p'.1.Touches (p.1.position j) := fun p' hp' => hfirst p' hp' _ htouch
      have hunset : ¬∃ p' ∈ ps, p'.Sets (p.1.position j) := by
        rintro ⟨p', hp', k, hk, hposition, -⟩
        exact hnone p' hp' ⟨k, hk, hposition⟩
      rw [Bool.eq_iff_iff, bitAt_encodeAll hin' hothers, encode_written (hin p List.mem_cons_self) p.2 hj]
      simp only [hunset, false_or]
      exact ⟨fun h => h.2, fun h => ⟨hnone, h⟩⟩
    · exact ih hin' hothers hp

/-- **Packing is encoding**: the payload of a pack function is that of the codec on a payload of zeros. -/
theorem packed_eq_encodeAll {ps : List Setting} {length : ℕ} (hlength : length ≤ 8)
    (hin : ∀ p ∈ ps, p.1.Inside length) (hdisjoint : ps.Pairwise fun p p' => p.1.Disjoint p'.1) :
    (List.range length).map ((Words.mk 0#64 0#64).orAll ps).byte = encodeAll ps (List.replicate length 0) := by
  apply bytes_ext
  · rw [length_encodeAll, List.length_map, List.length_range, List.length_replicate]
  intro q hq
  rw [List.length_map, List.length_range] at hq
  have hin' : ∀ p ∈ ps, p.1.Inside (List.replicate length (0 : UInt8)).length := by rwa [List.length_replicate]
  rw [Bool.eq_iff_iff, bitAt_packed hlength hq hin, bitAt_encodeAll hin' hdisjoint, bitAt_replicate_zero]
  simp only [Bool.false_eq_true, and_false, or_false]

/-! ## Unpacking -/

theorem readWords_succ (data : List UInt8) (length : ℕ) : readWords data (length + 1) =
    ⟨((readWords data length).be <<< 8) ||| (data.getD length 0).toBitVec.setWidth 64,
      (readWords data length).le ||| ((data.getD length 0).toBitVec.setWidth 64 <<< (8 * length))⟩ := by
  rw [readWords, List.range_succ, List.foldl_append]
  rfl

theorem getLsbD_readWords (data : List UInt8) {length : ℕ} (hlength : length ≤ 8) (b : ℕ) :
    (readWords data length).be.getLsbD b =
        (decide (b < 8 * length) && bitAt data (networkPosition (8 * length - 1 - b))) ∧
      (readWords data length).le.getLsbD b = (decide (b < 8 * length) && bitAt data b) := by
  induction length generalizing b with
  | zero => simp [readWords]
  | succ length ih =>
    have hbyte : ∀ k, ((data.getD length 0).toBitVec.setWidth 64).getLsbD k =
        (decide (k < 8) && bitAt data (8 * length + k)) := by
      intro k
      rw [BitVec.getLsbD_setWidth]
      by_cases hk : k < 8
      · have hdiv : (8 * length + k) / 8 = length := by omega
        have hmod : (8 * length + k) % 8 = k := by omega
        have hk' : k < 64 := by omega
        rw [bitAt, hdiv, hmod, decide_eq_true hk, decide_eq_true hk']
      · have hout : (data.getD length 0).toBitVec.getLsbD k = false :=
          BitVec.getLsbD_of_ge _ _ (Nat.not_lt.1 hk)
        rw [hout, decide_eq_false hk, Bool.and_false, Bool.false_and]
    rw [readWords_succ]
    dsimp only
    constructor
    · rw [BitVec.getLsbD_or, BitVec.getLsbD_shiftLeft, hbyte]
      by_cases hb : b < 8
      · have hposition : networkPosition (8 * (length + 1) - 1 - b) = 8 * length + b := by
          unfold networkPosition
          omega
        have hlt : b < 8 * (length + 1) := by omega
        simp [hb, hposition, decide_eq_true hlt]
      · have hindex : 8 * length - 1 - (b - 8) = 8 * (length + 1) - 1 - b := by omega
        have hiff : b - 8 < 8 * length ↔ b < 8 * (length + 1) := by omega
        rw [(ih (by omega) (b - 8)).1, hindex, decide_eq_false hb, Bool.false_and, Bool.or_false, Bool.not_false,
          Bool.and_true, decide_eq_decide.2 hiff]
        by_cases hlt : b < 8 * (length + 1)
        · have hword : b < 64 := by omega
          rw [decide_eq_true hword, Bool.true_and]
        · rw [decide_eq_false hlt, Bool.false_and, Bool.and_false]
    · rw [BitVec.getLsbD_or, BitVec.getLsbD_shiftLeft, hbyte, (ih (by omega) b).2]
      by_cases hb : b < 8 * length
      · have hlt : b < 8 * (length + 1) := by omega
        rw [decide_eq_true hb, decide_eq_true hlt, Bool.not_true, Bool.and_false, Bool.false_and, Bool.or_false]
      · have hindex : 8 * length + (b - 8 * length) = b := by omega
        have hiff : b - 8 * length < 8 ↔ b < 8 * (length + 1) := by omega
        rw [hindex, decide_eq_false hb, Bool.false_and, Bool.false_or, Bool.not_false, Bool.and_true,
          decide_eq_decide.2 hiff]
        by_cases hlt : b < 8 * (length + 1)
        · have hword : b < 64 := by omega
          rw [decide_eq_true hword, Bool.true_and]
        · rw [decide_eq_false hlt, Bool.false_and, Bool.and_false]

/-- The bits of a signal as an unpack function takes them from its word. -/
def Span.rawBits (s : Span) (words : Words) : BitVec 64 :=
  (words.word s.byteOrder >>> s.shift) &&& maskLiteral s.length

/-- Where an unpack function looks for bit `j` of a signal: a Motorola signal is shifted for eight bytes. -/
def Span.lookedUp (s : Span) (length j : ℕ) : ℕ :=
  match s.byteOrder with
  | .bigEndian => networkPosition (8 * length - 1 - (s.shift + j))
  | .littleEndian => s.shift + j

theorem getLsbD_rawBits {s : Span} {length j : ℕ} (hlength : length ≤ 8) (hin : s.Inside length) (data : List UInt8) :
    (s.rawBits (readWords data length)).getLsbD j =
      (decide (j < s.length) && (decide (s.shift + j < 8 * length) && bitAt data (s.lookedUp length j))) := by
  have hfits := Span.shift_add_length hin hlength
  unfold Span.rawBits Span.lookedUp
  rw [BitVec.getLsbD_and, BitVec.getLsbD_ushiftRight]
  by_cases hj : j < s.length
  · rw [getLsbD_maskLiteral (by omega), decide_eq_true hj, Bool.and_true, Bool.true_and]
    obtain ⟨hbe, hle⟩ := getLsbD_readWords data hlength (s.shift + j)
    cases s.byteOrder with
    | bigEndian => exact hbe
    | littleEndian => exact hle
  · rw [decide_eq_false hj, Bool.false_and]
    by_cases hj' : j < 64
    · rw [getLsbD_maskLiteral hj', decide_eq_false hj, Bool.and_false]
    · rw [BitVec.getLsbD_of_ge _ _ (Nat.not_lt.1 hj'), Bool.and_false]

/-- The lookup is right in a message of eight bytes, and for Intel signals in any. -/
theorem lookedUp_eq {s : Span} {length j : ℕ} (hlength : length ≤ 8) (hin : s.Inside length)
    (hplace : length = 8 ∨ s.byteOrder = .littleEndian) (hj : j < s.length) :
    s.shift + j < 8 * length ∧ s.lookedUp length j = s.position j := by
  unfold Span.Inside at hin
  unfold Span.lookedUp Span.shift Span.position
  cases horder : s.byteOrder with
  | littleEndian =>
    rw [horder] at hin
    dsimp only at hin ⊢
    exact ⟨by omega, rfl⟩
  | bigEndian =>
    rw [horder] at hin hplace
    rcases hplace with rfl | hplace
    · dsimp only at hin ⊢
      refine ⟨by omega, ?_⟩
      congr 1
      omega
    · cases hplace

/-- The lowest bit of a Motorola signal in a shorter message is not looked for in its place. -/
theorem lookedUp_ne {s : Span} {length : ℕ} (hlength : length < 8) (hpos : 0 < s.length)
    (horder : s.byteOrder = .bigEndian) (hshift : s.shift + 0 < 8 * length) :
    s.lookedUp length 0 ≠ s.position 0 := by
  unfold Span.lookedUp Span.shift Span.position
  unfold Span.shift at hshift
  rw [horder] at hshift ⊢
  dsimp only at hshift ⊢
  intro h
  have hnetwork := networkPosition_inj h
  omega

end DualCan.Dbc
