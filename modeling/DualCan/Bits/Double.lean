import Mathlib.Algebra.Order.Floor.Ring
import Mathlib.Data.Int.Log
import Mathlib.Data.Rat.Floor
import Mathlib.Tactic.FieldSimp
import Mathlib.Tactic.Linarith
import Mathlib.Tactic.NormNum
import Mathlib.Tactic.Positivity
import Mathlib.Tactic.Ring

/-!
# Double-precision numbers

Rational numbers rounded to `p` significant bits whose last one has an exponent of at least `emin`, to the
nearest and on ties to the even one; and the binary64 arithmetic built on it. A number that needs no more bits
is not changed by rounding, so arithmetic that stays among such numbers is exact.

The two zeros are one number here.
-/

namespace DualCan.Bits

/-! ## Rounding -/

/-- The nearest integer, of two the even one. -/
def roundEven (q : ℚ) : ℤ :=
  if Int.fract q < 1 / 2 then ⌊q⌋
  else if 1 / 2 < Int.fract q then ⌊q⌋ + 1
  else if ⌊q⌋ % 2 = 0 then ⌊q⌋ else ⌊q⌋ + 1

/-- The exponent of the last bit of a number rounded to `p` significant bits. -/
def lastBit (p : ℕ) (emin : ℤ) (q : ℚ) : ℤ := max (Int.log 2 |q| + 1 - p) emin

/-- The number rounded to `p` significant bits. -/
def roundTo (p : ℕ) (emin : ℤ) (q : ℚ) : ℚ := roundEven (q / 2 ^ lastBit p emin q) * 2 ^ lastBit p emin q

theorem roundEven_intCast (n : ℤ) : roundEven n = n := by
  unfold roundEven
  rw [Int.fract_intCast, Int.floor_intCast, if_pos (by norm_num)]

theorem floor_le_roundEven (q : ℚ) : ⌊q⌋ ≤ roundEven q ∧ roundEven q ≤ ⌊q⌋ + 1 := by
  unfold roundEven
  split
  · omega
  split
  · omega
  split <;> omega

/-- Between two integers rounding stays between them. -/
theorem roundEven_mem {q : ℚ} {m n : ℤ} (hm : (m : ℚ) ≤ q) (hn : q ≤ n) : m ≤ roundEven q ∧ roundEven q ≤ n := by
  obtain ⟨hlow, hhigh⟩ := floor_le_roundEven q
  refine ⟨(Int.le_floor.2 hm).trans hlow, ?_⟩
  rcases hn.eq_or_lt with rfl | hlt
  · rw [roundEven_intCast]
  · have hfloor := Int.floor_lt.2 hlt
    omega

variable {p : ℕ} {emin : ℤ}

theorem abs_lt_lastBit (q : ℚ) : |q| < 2 ^ ((p : ℤ) + lastBit p emin q) := by
  have hlog : |q| < (2 : ℕ) ^ (Int.log 2 |q| + 1) := Int.lt_zpow_succ_log_self (by decide) _
  refine hlog.trans_le ?_
  rw [Nat.cast_ofNat]
  apply zpow_le_zpow_right₀ (by norm_num)
  have hbit : Int.log 2 |q| + 1 - p ≤ lastBit p emin q := le_max_left _ _
  omega

/-- A number of at most `p` significant bits is not changed. -/
theorem roundTo_exact {m e : ℤ} (hm : |m| < 2 ^ p) (he : emin ≤ e) :
    roundTo p emin (m * 2 ^ e) = m * 2 ^ e := by
  rcases eq_or_ne m 0 with rfl | hne
  · rw [roundTo, Int.cast_zero, zero_mul, zero_div]
    have hzero := roundEven_intCast 0
    rw [Int.cast_zero] at hzero
    rw [hzero, Int.cast_zero, zero_mul]
  have hpos : 0 < |(m : ℚ) * 2 ^ e| := by
    have htwo : (2 : ℚ) ^ e ≠ 0 := zpow_ne_zero _ (by norm_num)
    exact abs_pos.2 (mul_ne_zero (Int.cast_ne_zero.2 hne) htwo)
  -- the leading bit is below bit `p` of the last one
  have hlog : Int.log 2 |(m : ℚ) * 2 ^ e| < p + e := by
    have hlow := Int.zpow_log_le_self (b := 2) (by decide) hpos
    have hhigh : |(m : ℚ) * 2 ^ e| < 2 ^ ((p : ℤ) + e) := by
      rw [abs_mul, abs_of_pos (zpow_pos (by norm_num : (0 : ℚ) < 2) e), zpow_add₀ (by norm_num), zpow_natCast]
      apply mul_lt_mul_of_pos_right _ (zpow_pos (by norm_num) e)
      exact_mod_cast hm
    have hlt := hlow.trans_lt hhigh
    rw [Nat.cast_ofNat] at hlt
    exact (zpow_lt_zpow_iff_right₀ (by norm_num)).1 hlt
  have hbit : lastBit p emin (m * 2 ^ e) ≤ e := max_le (by omega) he
  obtain ⟨k, hk⟩ := Int.eq_ofNat_of_zero_le (Int.sub_nonneg.2 hbit)
  have hwhole : (m : ℚ) * 2 ^ e / 2 ^ lastBit p emin (m * 2 ^ e) = ((m * 2 ^ k : ℤ) : ℚ) := by
    rw [mul_div_assoc, ← zpow_sub₀ (by norm_num), hk, zpow_natCast]
    push_cast
    rfl
  have htwo : (2 : ℚ) ^ lastBit p emin (m * 2 ^ e) ≠ 0 := zpow_ne_zero _ (by norm_num)
  rw [roundTo, hwhole, roundEven_intCast, ← hwhole, div_mul_cancel₀ _ htwo]

/-- A rounded number needs no more bits. -/
theorem roundTo_roundTo (hp : 0 < p) (q : ℚ) : roundTo p emin (roundTo p emin q) = roundTo p emin q := by
  have htwo : (0 : ℚ) < 2 ^ lastBit p emin q := zpow_pos (by norm_num) _
  have hlt : |q / 2 ^ lastBit p emin q| < 2 ^ p := by
    have hq := @abs_lt_lastBit p emin q
    rwa [zpow_add₀ (by norm_num), zpow_natCast, ← div_lt_iff₀ htwo, ← abs_of_pos htwo, ← abs_div]
      at hq
  obtain ⟨hlow, hhigh⟩ := abs_lt.1 hlt
  obtain ⟨hlow', hhigh'⟩ := roundEven_mem (m := -2 ^ p) (n := 2 ^ p) (by exact_mod_cast hlow.le)
    (by exact_mod_cast hhigh.le)
  have hemin : emin ≤ lastBit p emin q := le_max_right _ _
  have hone : |(1 : ℤ)| < 2 ^ p ∧ |(-1 : ℤ)| < 2 ^ p := by
    have hbig : (2 : ℤ) ^ 1 ≤ 2 ^ p := pow_le_pow_right₀ (by norm_num) hp
    rw [abs_neg, abs_one]
    omega
  -- the rounded significand is a power of two where it has one bit too many
  have hedge : ((2 ^ p : ℤ) : ℚ) * 2 ^ lastBit p emin q = 2 ^ ((p : ℤ) + lastBit p emin q) := by
    rw [zpow_add₀ (by norm_num), zpow_natCast]
    push_cast
    rfl
  have hedge' : emin ≤ (p : ℤ) + lastBit p emin q := by omega
  generalize hm : roundEven (q / 2 ^ lastBit p emin q) = m at hlow' hhigh'
  have hround : roundTo p emin q = m * 2 ^ lastBit p emin q := by rw [roundTo, hm]
  rw [hround]
  rcases hhigh'.eq_or_lt with rfl | hhigh'
  · have hexact := roundTo_exact hone.1 hedge'
    rwa [Int.cast_one, one_mul, ← hedge] at hexact
  rcases hlow'.eq_or_lt with rfl | hlow'
  · have hexact := roundTo_exact hone.2 hedge'
    rwa [Int.cast_neg, Int.cast_one, neg_mul, one_mul, ← hedge, ← neg_mul, ← Int.cast_neg] at hexact
  · exact roundTo_exact (abs_lt.2 ⟨hlow', hhigh'⟩) hemin

/-! ## Binary64 -/

/-- Rounding to 53 significant bits, none below the last subnormal one. -/
def roundDouble (q : ℚ) : ℚ := roundTo 53 (-1074) q

/-- The value of a finite double. -/
structure IsDouble (q : ℚ) : Prop where
  rounded : roundDouble q = q
  small : |q| < 2 ^ 1024

inductive Double where
  | finite (value : ℚ) (isDouble : IsDouble value)
  | infinity (negative : Bool)
  | nan
  deriving DecidableEq

namespace Double

/-- The double nearest to a number, infinite where it is too large. -/
def ofRat (q : ℚ) : Double :=
  if h : |roundDouble q| < 2 ^ 1024 then .finite (roundDouble q) ⟨roundTo_roundTo (by decide) q, h⟩
  else .infinity (q < 0)

/-- The value of a finite double. -/
def value? : Double → Option ℚ
  | .finite value _ => some value
  | _ => none

def add : Double → Double → Double
  | .finite a _, .finite b _ => ofRat (a + b)
  | .infinity s, .infinity t => if s = t then .infinity s else .nan
  | .infinity s, .finite _ _ => .infinity s
  | .finite _ _, .infinity s => .infinity s
  | _, _ => .nan

def mul : Double → Double → Double
  | .finite a _, .finite b _ => ofRat (a * b)
  | .infinity s, .infinity t => .infinity (s ^^ t)
  | .infinity s, .finite a _ => if a = 0 then .nan else .infinity (s ^^ a < 0)
  | .finite a _, .infinity s => if a = 0 then .nan else .infinity (s ^^ a < 0)
  | _, _ => .nan

def div : Double → Double → Double
  | .finite a _, .finite b _ =>
    if b = 0 then if a = 0 then .nan else .infinity (a < 0) else ofRat (a / b)
  | .infinity s, .finite b _ => .infinity (s ^^ b < 0)
  | .finite _ _, .infinity _ => ofRat 0
  | _, _ => .nan

def neg : Double → Double
  | .finite a _ => ofRat (-a)
  | .infinity s => .infinity (!s)
  | .nan => .nan

/-- The comparison `x ≥ 0`. -/
def isNonneg : Double → Bool
  | .finite a _ => 0 ≤ a
  | .infinity s => !s
  | .nan => false

/-- The integer part, towards zero. -/
def truncate : Double → Option ℤ
  | .finite a _ => some (if 0 ≤ a then ⌊a⌋ else ⌈a⌉)
  | _ => none

/-! ### Exact arithmetic -/

theorem ofRat_eq {q : ℚ} (h : IsDouble q) : ofRat q = .finite q h := by
  have hsmall : |roundDouble q| < 2 ^ 1024 := by
    rw [h.rounded]
    exact h.small
  rw [ofRat, dif_pos hsmall]
  congr 1
  exact h.rounded

theorem ofRat_add {a b : ℚ} (ha : IsDouble a) (hb : IsDouble b) : (ofRat a).add (ofRat b) = ofRat (a + b) := by
  rw [ofRat_eq ha, ofRat_eq hb, add]

end Double

theorem isDouble_scaled {m e : ℤ} (hm : |m| < 2 ^ 53) (he : -1074 ≤ e) (htop : e ≤ 971) :
    IsDouble (m * 2 ^ e) where
  rounded := roundTo_exact hm he
  small := by
    have hpos : (0 : ℚ) < 2 ^ e := zpow_pos (by norm_num) e
    have hm' : |(m : ℚ)| < 2 ^ 53 := by exact_mod_cast hm
    have hle : (2 : ℚ) ^ e ≤ 2 ^ (971 : ℤ) := zpow_le_zpow_right₀ (by norm_num) htop
    rw [abs_mul, abs_of_pos hpos]
    calc |(m : ℚ)| * 2 ^ e < 2 ^ 53 * 2 ^ e := mul_lt_mul_of_pos_right hm' hpos
      _ ≤ 2 ^ 53 * 2 ^ (971 : ℤ) := mul_le_mul_of_nonneg_left hle (by norm_num)
      _ = 2 ^ 1024 := by
        rw [← zpow_natCast, ← zpow_natCast, ← zpow_add₀ (by norm_num)]
        rfl

/-- Integers of at most 53 bits are doubles. -/
theorem isDouble_intCast {n : ℤ} (h : |n| ≤ 2 ^ 53) : IsDouble n := by
  rcases h.eq_or_lt with heq | hlt
  · have hone : ∀ m : ℤ, |m| < 2 ^ 53 → IsDouble (m * 2 ^ (53 : ℤ)) :=
      fun m hm => isDouble_scaled hm (by norm_num) (by norm_num)
    rcases (abs_eq (by norm_num)).1 heq with rfl | rfl
    · have hdouble := hone 1 (by norm_num)
      norm_num at hdouble ⊢
      exact hdouble
    · have hdouble := hone (-1) (by norm_num)
      norm_num at hdouble ⊢
      exact hdouble
  · have hdouble := isDouble_scaled hlt (e := 0) (by norm_num) (by norm_num)
    rwa [zpow_zero, mul_one] at hdouble

/-- So are the numbers halfway between two of them. -/
theorem isDouble_half {n : ℤ} (h : |n| < 2 ^ 53) : IsDouble (n / 2) := by
  have hdouble := isDouble_scaled h (e := -1) (by norm_num) (by norm_num)
  rwa [zpow_neg_one, ← div_eq_mul_inv] at hdouble

theorem isDouble_zero : IsDouble 0 := by
  have hzero : IsDouble (0 : ℤ) := isDouble_intCast (by norm_num)
  rwa [Int.cast_zero] at hzero

theorem isDouble_one : IsDouble 1 := by
  have hone : IsDouble (1 : ℤ) := isDouble_intCast (by norm_num)
  rwa [Int.cast_one] at hone

namespace Double

theorem ofRat_zero : ofRat 0 = .finite 0 isDouble_zero := ofRat_eq _

theorem ofRat_one : ofRat 1 = .finite 1 isDouble_one := ofRat_eq _

theorem mul_ofRat_one (x : Double) : x.mul (ofRat 1) = x := by
  rw [ofRat_one]
  cases x with
  | finite value hvalue => rw [mul, mul_one, ofRat_eq hvalue]
  | infinity negative =>
    have hpositive : decide ((1 : ℚ) < 0) = false := by norm_num
    rw [mul, if_neg one_ne_zero, hpositive, Bool.xor_false]
  | nan => rfl

theorem add_ofRat_zero (x : Double) : x.add (ofRat 0) = x := by
  rw [ofRat_zero]
  cases x with
  | finite value hvalue => rw [add, add_zero, ofRat_eq hvalue]
  | infinity negative => rfl
  | nan => rfl

theorem div_ofRat_one (x : Double) : x.div (ofRat 1) = x := by
  rw [ofRat_one]
  cases x with
  | finite value hvalue => rw [div, if_neg one_ne_zero, div_one, ofRat_eq hvalue]
  | infinity negative =>
    have hpositive : decide ((1 : ℚ) < 0) = false := by norm_num
    rw [div, hpositive, Bool.xor_false]
  | nan => rfl

theorem neg_ofRat_zero : (ofRat 0).neg = ofRat 0 := by
  rw [ofRat_zero, neg, neg_zero, ofRat_zero]

theorem isNonneg_ofRat {q : ℚ} (h : IsDouble q) : (ofRat q).isNonneg = decide (0 ≤ q) := by
  rw [ofRat_eq h, isNonneg]

theorem truncate_intCast {n : ℤ} (h : |n| ≤ 2 ^ 53) : (ofRat n).truncate = some n := by
  rw [ofRat_eq (isDouble_intCast h), truncate, Int.floor_intCast, Int.ceil_intCast, ite_self]

/-- Half away from zero and then towards zero: the integer itself. -/
theorem truncate_half {n : ℤ} (h : |n| < 2 ^ 52) :
    (if (ofRat n).isNonneg then (ofRat n).add (ofRat (1 / 2)) else (ofRat n).add (ofRat (-(1 / 2)))).truncate =
      some n := by
  have hint : IsDouble n := isDouble_intCast (h.le.trans (by norm_num))
  have hhalf : ∀ m : ℤ, |m| < 2 ^ 53 → IsDouble (m / 2) := fun m hm => isDouble_half hm
  obtain ⟨hlow, hhigh⟩ := abs_lt.1 h
  rw [isNonneg_ofRat hint]
  by_cases hn : 0 ≤ n
  · have hq : (0 : ℚ) ≤ n := by exact_mod_cast hn
    have hone : IsDouble (1 / 2) := by
      have hdouble := hhalf 1 (by norm_num)
      rwa [Int.cast_one] at hdouble
    have hsum : IsDouble (n + 1 / 2) := by
      have hdouble := hhalf (2 * n + 1) (by rw [abs_lt]; omega)
      push_cast at hdouble
      rwa [add_div, mul_div_cancel_left₀ _ (two_ne_zero)] at hdouble
    rw [decide_eq_true hq, if_pos rfl, ofRat_add hint hone, ofRat_eq hsum, truncate, if_pos (by positivity)]
    congr 1
    rw [Int.floor_eq_iff]
    constructor <;> linarith
  · have hq : ¬(0 : ℚ) ≤ n := by exact_mod_cast hn
    have hone : IsDouble (-(1 / 2)) := by
      have hdouble := hhalf (-1) (by norm_num)
      push_cast at hdouble
      rwa [neg_div] at hdouble
    have hsum : IsDouble (n + -(1 / 2)) := by
      have hdouble := hhalf (2 * n - 1) (by rw [abs_lt]; omega)
      push_cast at hdouble
      rwa [sub_div, mul_div_cancel_left₀ _ (two_ne_zero), sub_eq_add_neg] at hdouble
    have hnegative : ¬(0 : ℚ) ≤ n + -(1 / 2) := by linarith
    rw [decide_eq_false hq, if_neg Bool.false_ne_true, ofRat_add hint hone, ofRat_eq hsum, truncate, if_neg hnegative]
    congr 1
    rw [Int.ceil_eq_iff]
    constructor <;> linarith

end Double

end DualCan.Bits
