import DualCan.Bits.Double

/-!
# Errors of rounding

How far the rounding of binary64 moves a number, measured in steps of another one; and what scaling and unscaling
leave of an integer. Whole numbers of steps up to `2 ^ 48`, about an offset of no more steps than that, survive the
way there and back.
-/

namespace DualCan.Bits

/-! ## One rounding -/

theorem abs_roundEven_sub_le (q : ℚ) : |(roundEven q : ℚ) - q| ≤ 1 / 2 := by
  have hfloor := Int.floor_add_fract q
  have hlow := Int.fract_nonneg q
  have hhigh := Int.fract_lt_one q
  unfold roundEven
  rw [abs_le]
  split
  · constructor <;> linarith
  split
  · push_cast
    constructor <;> linarith
  split
  · constructor <;> linarith
  · push_cast
    constructor <;> linarith

/-- Only one integer is nearer than one half. -/
theorem roundEven_eq {q : ℚ} {n : ℤ} (h : |q - n| < 1 / 2) : roundEven q = n := by
  have hround := abs_roundEven_sub_le q
  have hlt : |((roundEven q - n : ℤ) : ℚ)| < 1 := by
    have hsplit : ((roundEven q - n : ℤ) : ℚ) = (roundEven q - q) + (q - n) := by
      push_cast
      ring
    rw [hsplit]
    exact (abs_add_le _ _).trans_lt (by linarith)
  have hzero : roundEven q - n = 0 := Int.abs_lt_one_iff.1 (by exact_mod_cast hlt)
  omega

theorem roundEven_half (k : ℤ) : roundEven (k + 1 / 2) = if k % 2 = 0 then k else k + 1 := by
  have hfloor : ⌊(k : ℚ) + 1 / 2⌋ = k := by
    rw [Int.floor_eq_iff]
    constructor <;> linarith
  have hfract : Int.fract ((k : ℚ) + 1 / 2) = 1 / 2 := by
    rw [Int.fract, hfloor]
    ring
  rw [roundEven, hfract, hfloor, if_neg (lt_irrefl _), if_neg (lt_irrefl _)]

/-- A number is nearer than one half to an integer, or halfway between two. -/
theorem near_or_half (q : ℚ) : (∃ n : ℤ, |q - n| < 1 / 2) ∨ ∃ k : ℤ, q = k + 1 / 2 := by
  have hfloor := Int.floor_add_fract q
  have hlow := Int.fract_nonneg q
  have hhigh := Int.fract_lt_one q
  rcases lt_trichotomy (Int.fract q) (1 / 2) with hlt | heq | hgt
  · refine .inl ⟨⌊q⌋, ?_⟩
    rw [abs_lt]
    constructor <;> linarith
  · exact .inr ⟨⌊q⌋, by linarith⟩
  · refine .inl ⟨⌊q⌋ + 1, ?_⟩
    push_cast
    rw [abs_lt]
    constructor <;> linarith

theorem roundEven_neg (q : ℚ) : roundEven (-q) = -roundEven q := by
  rcases near_or_half q with ⟨n, hn⟩ | ⟨k, rfl⟩
  · rw [roundEven_eq hn]
    apply roundEven_eq
    rwa [Int.cast_neg, ← neg_sub', abs_neg]
  · have hneg : -((k : ℚ) + 1 / 2) = ((-k - 1 : ℤ) : ℚ) + 1 / 2 := by
      push_cast
      ring
    rw [hneg, roundEven_half, roundEven_half]
    split
    · rw [if_neg (by omega)]
      omega
    · rw [if_pos (by omega)]
      omega

variable {p : ℕ} {emin : ℤ}

theorem abs_roundTo_sub_le (q : ℚ) : |roundTo p emin q - q| ≤ 2 ^ lastBit p emin q / 2 := by
  have hbit : (0 : ℚ) < 2 ^ lastBit p emin q := zpow_pos (by norm_num) _
  have hscaled : roundTo p emin q - q =
      (roundEven (q / 2 ^ lastBit p emin q) - q / 2 ^ lastBit p emin q) * 2 ^ lastBit p emin q := by
    rw [roundTo, sub_mul, div_mul_cancel₀ _ hbit.ne']
  rw [hscaled, abs_mul, abs_of_pos hbit]
  calc |(roundEven (q / 2 ^ lastBit p emin q) : ℚ) - q / 2 ^ lastBit p emin q| * 2 ^ lastBit p emin q
      ≤ 1 / 2 * 2 ^ lastBit p emin q := mul_le_mul_of_nonneg_right (abs_roundEven_sub_le _) hbit.le
    _ = 2 ^ lastBit p emin q / 2 := by ring

theorem roundTo_neg (q : ℚ) : roundTo p emin (-q) = -roundTo p emin q := by
  have hbit : lastBit p emin (-q) = lastBit p emin q := by rw [lastBit, lastBit, abs_neg]
  rw [roundTo, roundTo, hbit, neg_div, roundEven_neg, Int.cast_neg, neg_mul]

theorem IsDouble.neg {q : ℚ} (h : IsDouble q) : IsDouble (-q) where
  rounded := by
    rw [roundDouble, roundTo_neg]
    exact congrArg Neg.neg h.rounded
  small := by
    rw [abs_neg]
    exact h.small

/-- Relative to the number, or to the last subnormal bit. -/
theorem abs_roundDouble_sub_le (q : ℚ) : |roundDouble q - q| ≤ |q| / 2 ^ 53 + 1 / 2 ^ 1075 := by
  have hround : |roundDouble q - q| ≤ 2 ^ lastBit 53 (-1074) q / 2 := abs_roundTo_sub_le q
  have hrelative : 0 ≤ |q| / 2 ^ 53 := by positivity
  have habsolute : (0 : ℚ) ≤ 1 / 2 ^ 1075 := by positivity
  rcases eq_or_ne q 0 with rfl | hq
  · rw [roundDouble, ← zero_mul ((2 : ℚ) ^ (0 : ℤ)), ← Int.cast_zero, roundTo_exact (by norm_num) (by norm_num)]
    rw [sub_self, abs_zero]
    exact add_nonneg (by positivity) habsolute
  refine hround.trans ?_
  rcases max_choice (Int.log 2 |q| + 1 - (53 : ℕ)) (-1074) with hmax | hmax
  · rw [lastBit, hmax]
    have hlog := Int.zpow_log_le_self (b := 2) (by decide) (abs_pos.2 hq)
    have hpow : (2 : ℚ) ^ (Int.log 2 |q| + 1 - (53 : ℕ)) / 2 = 2 ^ Int.log 2 |q| / 2 ^ 53 := by
      rw [zpow_sub₀ (by norm_num), zpow_add₀ (by norm_num), zpow_one, zpow_natCast]
      ring
    rw [hpow]
    rw [Nat.cast_ofNat] at hlog
    have hdiv : (2 : ℚ) ^ Int.log 2 |q| / 2 ^ 53 ≤ |q| / 2 ^ 53 := div_le_div_of_nonneg_right hlog (by positivity)
    exact hdiv.trans (le_add_of_nonneg_right habsolute)
  · rw [lastBit, hmax]
    have hpow : (2 : ℚ) ^ (-1074 : ℤ) / 2 = 1 / 2 ^ 1075 := by
      rw [zpow_neg, zpow_ofNat, pow_succ (2 : ℚ) 1074, one_div, mul_inv, div_eq_mul_inv]
    rw [hpow]
    exact le_add_of_nonneg_left hrelative

/-! ## Near a number -/

namespace Double

/-- A finite double that differs from a number by at most so much. -/
def Near (x : Double) (q ε : ℚ) : Prop := ∃ v h, x = .finite v h ∧ |v - q| ≤ ε

/-- A distance in which errors are measured: it is neither huge nor tiny. -/
structure Step (t : ℚ) : Prop where
  low : 1 / 2 ^ 1000 ≤ t
  high : t ≤ 2 ^ 900

theorem Step.pos {t : ℚ} (h : Step t) : 0 < t := (by positivity : (0 : ℚ) < 1 / 2 ^ 1000).trans_le h.low

theorem step_one : Step 1 where
  low := div_le_one_of_le₀ (one_le_pow₀ (by norm_num)) (by positivity)
  high := one_le_pow₀ (by norm_num)

/-- Numbers of about `2 ^ 49` steps are rounded by less than a fifteenth of one. -/
theorem near_ofRat {t q : ℚ} (ht : Step t) (hq : |q| ≤ (2 ^ 49 + 1) * t) : (ofRat q).Near q (t / 15) := by
  have hpos := ht.pos
  have hrelative : |q| / 2 ^ 53 ≤ (2 ^ 49 + 1) * t / 2 ^ 53 := div_le_div_of_nonneg_right hq (by positivity)
  have htiny : (1 : ℚ) / 2 ^ 1075 ≤ t / 2 ^ 75 := by
    have hsplit : (1 : ℚ) / 2 ^ 1075 = 1 / 2 ^ 1000 / 2 ^ 75 := by rw [div_div, ← pow_add]
    rw [hsplit]
    exact div_le_div_of_nonneg_right ht.low (by positivity)
  have herror : |roundDouble q - q| ≤ t / 15 := by
    refine (abs_roundDouble_sub_le q).trans ((add_le_add hrelative htiny).trans ?_)
    norm_num
    linarith
  have hsteps : |roundDouble q| ≤ 2 ^ 50 * t := by
    have hsum := abs_add_le q (roundDouble q - q)
    rw [add_sub_cancel] at hsum
    refine hsum.trans ((add_le_add hq herror).trans ?_)
    norm_num
    linarith
  have hsmall : |roundDouble q| < 2 ^ 1024 := by
    have hbig : (2 : ℚ) ^ 50 * t ≤ 2 ^ 50 * 2 ^ 900 := mul_le_mul_of_nonneg_left ht.high (by positivity)
    have hlt : (2 : ℚ) ^ 50 * 2 ^ 900 < 2 ^ 1024 := by
      rw [← pow_add]
      exact pow_lt_pow_right₀ (by norm_num) (by norm_num)
    exact (hsteps.trans hbig).trans_lt hlt
  exact ⟨_, _, dif_pos hsmall, herror⟩

/-- Of an integer with a small error both roundings find the integer: to the nearest one, ... -/
theorem Near.roundEven {x : Double} {n : ℤ} (h : x.Near n (4 / 15)) : ∃ v hv, x = .finite v hv ∧ roundEven v = n := by
  obtain ⟨v, hv, hx, herror⟩ := h
  exact ⟨v, hv, hx, roundEven_eq (herror.trans_lt (by norm_num))⟩

/-- ... and half away from zero and then towards zero. -/
theorem Near.truncate {x : Double} {n : ℤ} (h : x.Near n (4 / 15)) (hn : |n| ≤ 2 ^ 48) :
    (if x.isNonneg then x.add (ofRat (1 / 2)) else x.add (ofRat (-(1 / 2)))).truncate = some n := by
  obtain ⟨v, hv, rfl, herror⟩ := h
  have hn' : |(n : ℚ)| ≤ 2 ^ 48 := by exact_mod_cast hn
  have hhalf : IsDouble (1 / 2) := by
    have hdouble := isDouble_half (n := 1) (by norm_num)
    rwa [Int.cast_one] at hdouble
  obtain ⟨hlow, hhigh⟩ := abs_le.1 herror
  obtain ⟨hlow', hhigh'⟩ := abs_le.1 hn'
  have hround : ∀ a : ℚ, |a| ≤ 1 → (ofRat (v + a)).Near (v + a) (1 / 15) := by
    intro a ha
    apply near_ofRat step_one
    obtain ⟨ha, ha'⟩ := abs_le.1 ha
    rw [abs_le]
    constructor <;> linarith
  rw [isNonneg]
  by_cases hsign : 0 ≤ v
  · obtain ⟨w, hw, hsum, hnear⟩ := hround (1 / 2) (by norm_num)
    obtain ⟨hdown, hup⟩ := abs_le.1 hnear
    rw [decide_eq_true hsign, if_pos rfl, ofRat_eq hhalf, add, hsum, Double.truncate, if_pos (by linarith)]
    congr 1
    rw [Int.floor_eq_iff]
    constructor <;> linarith
  · obtain ⟨w, hw, hsum, hnear⟩ := hround (-(1 / 2)) (by norm_num)
    obtain ⟨hdown, hup⟩ := abs_le.1 hnear
    rw [decide_eq_false hsign, if_neg Bool.false_ne_true, ofRat_eq hhalf.neg, add, hsum, Double.truncate,
      if_neg (by linarith)]
    congr 1
    rw [Int.ceil_eq_iff]
    constructor <;> linarith

end Double

/-! ## Scaling and unscaling -/

open Double

/-- A scale and an offset under which integers of 48 bits keep apart. -/
structure Scaling where
  scale : ℚ
  offset : ℚ
  scale_double : IsDouble scale
  offset_double : IsDouble offset
  step : Step |scale|
  offset_le : |offset| ≤ 2 ^ 48 * |scale|

namespace Scaling

variable (c : Scaling) {n : ℤ}

/-- `n * scale + offset`. -/
def apply (n : ℤ) : Double := ((ofRat n).mul (ofRat c.scale)).add (ofRat c.offset)

/-- `(x - offset) / scale`. -/
def unapply (x : Double) : Double := (x.add (ofRat c.offset).neg).div (ofRat c.scale)

theorem scale_ne_zero : c.scale ≠ 0 := abs_pos.1 c.step.pos

theorem apply_near (hn : |n| ≤ 2 ^ 48) : (c.apply n).Near (n * c.scale + c.offset) (2 / 15 * |c.scale|) := by
  have hpos := c.step.pos
  have hn' : |(n : ℚ)| ≤ 2 ^ 48 := by exact_mod_cast hn
  have hdouble : IsDouble n := isDouble_intCast (hn.trans (by norm_num))
  have hproduct : |n * c.scale| ≤ 2 ^ 48 * |c.scale| := by
    rw [abs_mul]
    exact mul_le_mul_of_nonneg_right hn' hpos.le
  obtain ⟨p, hp, hmul, hpnear⟩ := near_ofRat (q := n * c.scale) c.step (by linarith)
  have hsum : |p + c.offset| ≤ (2 ^ 49 + 1) * |c.scale| := by
    have hoffset := c.offset_le
    rw [abs_le] at *
    constructor <;> linarith
  obtain ⟨v, hv, hadd, hvnear⟩ := near_ofRat c.step hsum
  refine ⟨v, hv, ?_, ?_⟩
  · rw [apply, ofRat_eq hdouble, ofRat_eq c.scale_double, mul, hmul, ofRat_eq c.offset_double, add, hadd]
  · rw [abs_le] at *
    constructor <;> linarith

theorem unapply_near {v : ℚ} (hv : IsDouble v) (hsteps : |v - c.offset| ≤ (2 ^ 48 + 1) * |c.scale|) :
    (c.unapply (.finite v hv)).Near ((v - c.offset) / c.scale) (2 / 15) := by
  have hpos := c.step.pos
  obtain ⟨d, hd, hadd, hdnear⟩ := near_ofRat (q := v + -c.offset) c.step (by
    rw [← sub_eq_add_neg]
    linarith)
  rw [← sub_eq_add_neg] at hdnear
  have hmoved : |d / c.scale - (v - c.offset) / c.scale| ≤ 1 / 15 := by
    rw [← sub_div, abs_div, div_le_iff₀ hpos]
    linarith
  have hquotient : |d / c.scale| ≤ (2 ^ 49 + 1) * 1 := by
    have hdistance : |d| ≤ |d - (v - c.offset)| + |v - c.offset| := by
      have hsum := abs_add_le (d - (v - c.offset)) (v - c.offset)
      rwa [sub_add_cancel] at hsum
    rw [abs_div, div_le_iff₀ hpos]
    linarith
  obtain ⟨q, hq, hdiv, hqnear⟩ := near_ofRat step_one hquotient
  refine ⟨q, hq, ?_, ?_⟩
  · rw [unapply, ofRat_eq c.offset_double, neg, ofRat_eq c.offset_double.neg, add, hadd, ofRat_eq c.scale_double, div,
      if_neg c.scale_ne_zero, hdiv]
  · rw [abs_le] at *
    constructor <;> linarith

/-- There and back. -/
theorem unapply_apply (hn : |n| ≤ 2 ^ 48) : (c.unapply (c.apply n)).Near n (4 / 15) := by
  have hpos := c.step.pos
  have hn' : |(n : ℚ)| ≤ 2 ^ 48 := by exact_mod_cast hn
  obtain ⟨v, hv, hx, hnear⟩ := c.apply_near hn
  have hmoved : |(v - c.offset) / c.scale - n| ≤ 2 / 15 := by
    have hsplit : (v - c.offset) / c.scale - n = (v - (n * c.scale + c.offset)) / c.scale := by
      rw [← sub_sub, sub_right_comm, sub_div (v - c.offset), mul_div_cancel_right₀ _ c.scale_ne_zero]
    rw [hsplit, abs_div, div_le_iff₀ hpos]
    exact hnear
  have hsteps : |v - c.offset| ≤ (2 ^ 48 + 1) * |c.scale| := by
    have hbound : |(v - c.offset) / c.scale| ≤ 2 ^ 48 + 1 := by
      rw [abs_le] at *
      constructor <;> linarith
    rwa [abs_div, div_le_iff₀ hpos] at hbound
  obtain ⟨q, hq, hdiv, hqnear⟩ := c.unapply_near hv hsteps
  refine ⟨q, hq, hx ▸ hdiv, ?_⟩
  rw [abs_le] at *
  constructor <;> linarith

theorem apply_injOn {m : ℤ} (hm : |m| ≤ 2 ^ 48) (hn : |n| ≤ 2 ^ 48) (h : c.apply m = c.apply n) : m = n := by
  obtain ⟨v, _, hx, hround⟩ := (c.unapply_apply hm).roundEven
  obtain ⟨v', _, hx', hround'⟩ := (c.unapply_apply hn).roundEven
  rw [h, hx'] at hx
  cases hx
  rw [← hround, hround']

/-- An integer near the unscaled number is scaled to a number as near. -/
theorem apply_near_of_near {v : ℚ} (hn : |n| ≤ 2 ^ 48) (hnear : |n - (v - c.offset) / c.scale| ≤ 19 / 30) :
    (c.apply n).Near v (23 / 30 * |c.scale|) := by
  obtain ⟨v', hv', hx, hnear'⟩ := c.apply_near hn
  have hmoved : |n * c.scale + c.offset - v| ≤ 19 / 30 * |c.scale| := by
    have hsplit : n * c.scale + c.offset - v = (n - (v - c.offset) / c.scale) * c.scale := by
      rw [sub_mul, div_mul_cancel₀ _ c.scale_ne_zero]
      ring
    rw [hsplit, abs_mul]
    exact mul_le_mul_of_nonneg_right hnear c.step.pos.le
  refine ⟨v', hv', hx, ?_⟩
  rw [abs_le] at *
  constructor <;> linarith

end Scaling

end DualCan.Bits
