import Mathlib.Algebra.GroupWithZero.Nat
import Mathlib.Tactic.Common

/-!
# The independent watchdog

`Watchdog_Init` of `watchdog.c`. The reload value is computed in 32 bits and its range is checked after the
multiplication, so a timeout whose product with the oscillator's frequency wraps is judged, and programmed, by
what is left of the product.

A program sees the watchdog through its registers: what it writes to them, in order, and what its reads of the
status register return one after the other.
-/

namespace DualCan.App.Watchdog

/-! ## Data -/

/-- The processors that the helper supports. -/
inductive Family where
  | stm32f103xb
  | stm32f407xx
  deriving DecidableEq, Repr

/-- `WATCHDOG_LSI_HZ`. -/
def lsiHz : Family → UInt32
  | .stm32f103xb => 40000
  | .stm32f407xx => 32000

def prescalerDivider : UInt32 := 64
/-- `IWDG_PR_PR_2`. -/
def prescalerBits : UInt32 := 0x4
def reloadMax : UInt32 := 0x0FFF

def keyStart : UInt32 := 0x0000CCCC
def keyEnableWrite : UInt32 := 0x00005555
def keyReload : UInt32 := 0x0000AAAA

/-- `WATCHDOG_SYNC_SPIN_LIMIT`. -/
def syncSpinLimit : ℕ := 0x000FFFFF

/-- A write to a register of the watchdog. -/
inductive Write where
  | kr (value : UInt32)
  | pr (value : UInt32)
  | rlr (value : UInt32)
  deriving DecidableEq, Repr

/-- `s_iwdg_started`, and the writes so far. -/
structure Iwdg where
  writes : List Write
  started : Bool
  deriving DecidableEq, Repr

def Iwdg.write (iwdg : Iwdg) (w : Write) : Iwdg := { iwdg with writes := iwdg.writes ++ [w] }

/-- The reload values written. -/
def Iwdg.reloads (iwdg : Iwdg) : List UInt32 :=
  iwdg.writes.filterMap fun
    | .rlr value => some value
    | _ => none

/-! ## `Watchdog_Init` -/

/-- The loop that waits for the status register, from its read number `k` with `spin` turns left: the number
of the first read after it. -/
def syncSpin (sr : ℕ → UInt32) : (spin k : ℕ) → ℕ
  | 0, k => k + 1
  | spin + 1, k => if sr k ≠ 0 then syncSpin sr spin (k + 1) else k + 1

/-- The read after the loop finds the registers settled. -/
def synchronised (sr : ℕ → UInt32) : Bool := sr (syncSpin sr syncSpinLimit 0) = 0

def reloadOf (family : Family) (timeoutMs : UInt32) : UInt32 :=
  (timeoutMs * lsiHz family) / (prescalerDivider * 1000)

/-- `Watchdog_Init`. -/
def init (family : Family) (sr : ℕ → UInt32) (iwdg : Iwdg) (timeoutMs : UInt32) : Bool × Iwdg :=
  if timeoutMs = 0 then (false, iwdg)
  else
    let reload := reloadOf family timeoutMs
    if reload = 0 ∨ reload > reloadMax then (false, iwdg)
    else
      let iwdg := (((iwdg.write (.kr keyStart)).write (.kr keyEnableWrite)).write (.pr prescalerBits)).write
        (.rlr reload)
      if synchronised sr then (true, { iwdg.write (.kr keyReload) with started := true })
      else (false, iwdg)

/-! ## What it is for -/

/-- The reload value that stands for a timeout: the whole ticks of the prescaled oscillator in it. -/
def ticks (family : Family) (timeoutMs : UInt32) : ℕ := timeoutMs.toNat * (lsiHz family).toNat / 64000

/-- The timeouts that the 12-bit reload register can hold are accepted, no others, and programmed as they
are. -/
structure Faithful (family : Family) (sr : ℕ → UInt32) (iwdg : Iwdg) (timeoutMs : UInt32) : Prop where
  accepts : (init family sr iwdg timeoutMs).1 = true ↔
    1 ≤ ticks family timeoutMs ∧ ticks family timeoutMs ≤ 4095
  programs : (init family sr iwdg timeoutMs).1 = true →
    ∃ reload : UInt32, (init family sr iwdg timeoutMs).2.reloads = iwdg.reloads ++ [reload] ∧
      reload.toNat = ticks family timeoutMs
  notShorter : (init family sr iwdg timeoutMs).1 = true →
    ∀ reload : UInt32, (init family sr iwdg timeoutMs).2.reloads.getLast? = some reload →
      ticks family timeoutMs ≤ reload.toNat

/-- The product of timeout and frequency lies where its remainder modulo `2 ^ 32` is in the range of the
register although the product is not. -/
def Aliases (family : Family) (timeoutMs : UInt32) : Prop :=
  ∃ wraps : ℕ, 1 ≤ wraps ∧
    wraps * 2 ^ 32 + 64000 ≤ timeoutMs.toNat * (lsiHz family).toNat ∧
    timeoutMs.toNat * (lsiHz family).toNat < wraps * 2 ^ 32 + 4096 * 64000

variable {family : Family} {sr : ℕ → UInt32} {iwdg : Iwdg} {timeoutMs : UInt32}

theorem reloadOf_toNat (family : Family) (timeoutMs : UInt32) :
    (reloadOf family timeoutMs).toNat = timeoutMs.toNat * (lsiHz family).toNat % 2 ^ 32 / 64000 := by
  unfold reloadOf
  rw [UInt32.toNat_div, UInt32.toNat_mul]
  rfl

@[simp] theorem reloads_kr (iwdg : Iwdg) (value : UInt32) : (iwdg.write (.kr value)).reloads = iwdg.reloads := by
  simp [Iwdg.reloads, Iwdg.write]

@[simp] theorem reloads_pr (iwdg : Iwdg) (value : UInt32) : (iwdg.write (.pr value)).reloads = iwdg.reloads := by
  simp [Iwdg.reloads, Iwdg.write]

@[simp] theorem reloads_rlr (iwdg : Iwdg) (value : UInt32) :
    (iwdg.write (.rlr value)).reloads = iwdg.reloads ++ [value] := by
  simp [Iwdg.reloads, Iwdg.write]

/-- The timeouts that pass both checks. -/
theorem init_accepts (hsync : synchronised sr = true) :
    (init family sr iwdg timeoutMs).1 = true ↔
      reloadOf family timeoutMs ≠ 0 ∧ reloadOf family timeoutMs ≤ reloadMax := by
  unfold init
  by_cases hzero : timeoutMs = 0
  · have hreload : reloadOf family timeoutMs = 0 := by
      rw [hzero]
      cases family <;> rfl
    simp only [if_pos hzero, hreload, ne_eq, not_true_eq_false, false_and, iff_false]
    exact Bool.false_ne_true
  · rw [if_neg hzero]
    by_cases hrange : reloadOf family timeoutMs = 0 ∨ reloadOf family timeoutMs > reloadMax
    · have hnot : ¬(reloadOf family timeoutMs ≠ 0 ∧ reloadOf family timeoutMs ≤ reloadMax) := by
        rintro ⟨hne, hle⟩
        rcases hrange with h | h
        · exact hne h
        · exact UInt32.not_lt.2 hle h
      simp only [hrange, if_true, hnot, iff_false]
      exact Bool.false_ne_true
    · have hin := not_or.1 hrange
      simp only [hrange, if_false, hsync, if_true, true_iff]
      exact ⟨hin.1, UInt32.not_lt.1 hin.2⟩

/-- An accepted timeout is programmed as the value that was checked. -/
theorem init_reloads (h : (init family sr iwdg timeoutMs).1 = true) :
    (init family sr iwdg timeoutMs).2.reloads = iwdg.reloads ++ [reloadOf family timeoutMs] := by
  unfold init at h ⊢
  split at h
  · cases h
  rename_i hzero
  rw [if_neg hzero]
  dsimp only at h ⊢
  split at h
  · cases h
  rename_i hrange
  rw [if_neg hrange]
  split at h
  · rename_i hsync
    rw [if_pos hsync]
    show ((((((iwdg.write _).write _).write _).write _).write _)).reloads = _
    simp only [reloads_kr, reloads_rlr, reloads_pr]
  · cases h

/-- The range check in terms of what is left of the product. -/
theorem reload_in_range : reloadOf family timeoutMs ≠ 0 ∧ reloadOf family timeoutMs ≤ reloadMax ↔
    64000 ≤ timeoutMs.toNat * (lsiHz family).toNat % 2 ^ 32 ∧
      timeoutMs.toNat * (lsiHz family).toNat % 2 ^ 32 < 4096 * 64000 := by
  have hmax : reloadMax.toNat = 4095 := rfl
  rw [ne_eq, ← UInt32.toNat_inj, UInt32.le_iff_toNat_le, reloadOf_toNat, hmax, UInt32.toNat_zero]
  omega

theorem not_aliases_iff : ¬Aliases family timeoutMs ↔
    (reloadOf family timeoutMs ≠ 0 ∧ reloadOf family timeoutMs ≤ reloadMax →
      timeoutMs.toNat * (lsiHz family).toNat < 2 ^ 32) := by
  rw [reload_in_range]
  unfold Aliases
  generalize timeoutMs.toNat * (lsiHz family).toNat = product
  have hsplit := Nat.div_add_mod product (2 ^ 32)
  constructor
  · intro h hrange
    by_contra hlarge
    refine h ⟨product / 2 ^ 32, ?_, ?_, ?_⟩
    all_goals omega
  · rintro h ⟨wraps, hwraps, hlow, hhigh⟩
    have hrem : product % 2 ^ 32 = product - wraps * 2 ^ 32 := by
      have hdiv : product / 2 ^ 32 = wraps := by omega
      omega
    have := h (by omega)
    omega

/-- `Watchdog_Init` is faithful but for the timeouts that alias to shorter ones. -/
theorem faithful_iff (hsync : synchronised sr = true) :
    Faithful family sr iwdg timeoutMs ↔ ¬Aliases family timeoutMs := by
  rw [not_aliases_iff]
  have hvalue := reloadOf_toNat family timeoutMs
  constructor
  · intro h hrange
    have haccept : (init family sr iwdg timeoutMs).1 = true := (init_accepts hsync).2 hrange
    have hticks := (h.accepts.1 haccept).2
    unfold ticks at hticks
    omega
  · intro h
    have hexact : reloadOf family timeoutMs ≠ 0 ∧ reloadOf family timeoutMs ≤ reloadMax →
        (reloadOf family timeoutMs).toNat = ticks family timeoutMs := by
      intro hrange
      rw [hvalue, Nat.mod_eq_of_lt (h hrange), ticks]
    refine ⟨?_, ?_, ?_⟩
    · rw [init_accepts hsync]
      constructor
      · intro hrange
        have hmax := UInt32.le_iff_toNat_le.1 hrange.2
        have hpos : (reloadOf family timeoutMs).toNat ≠ 0 := fun h0 => hrange.1 (UInt32.toNat_inj.1 h0)
        rw [hexact hrange] at hmax hpos
        exact ⟨Nat.pos_of_ne_zero hpos, hmax⟩
      · intro hticks
        rw [reload_in_range]
        unfold ticks at hticks
        have hsmall : timeoutMs.toNat * (lsiHz family).toNat < 2 ^ 32 := by omega
        rw [Nat.mod_eq_of_lt hsmall]
        omega
    · intro haccept
      exact ⟨_, init_reloads haccept, hexact ((init_accepts hsync).1 haccept)⟩
    · intro haccept reload hlast
      rw [init_reloads haccept, List.getLast?_concat] at hlast
      have hticks := hexact ((init_accepts hsync).1 haccept)
      rw [Option.some.inj hlast] at hticks
      exact Nat.le_of_eq hticks.symm

/-- 65 s at 40 kHz: the product is below `2 ^ 32`. -/
theorem faithful_65s : Faithful .stm32f103xb (fun _ => 0) ⟨[], false⟩ 65000 := by
  refine (faithful_iff rfl).2 ?_
  rintro ⟨wraps, hwraps, hlow, -⟩
  have hproduct : (65000 : UInt32).toNat * (lsiHz .stm32f103xb).toNat = 2600000000 := rfl
  omega

/-- 134.22 s at 32 kHz are accepted, and programmed as one tick of 2 ms. -/
theorem init_aliases :
    (init .stm32f407xx (fun _ => 0) ⟨[], false⟩ 134220).1 = true ∧
      (init .stm32f407xx (fun _ => 0) ⟨[], false⟩ 134220).2.reloads = [1] ∧
      ticks .stm32f407xx 134220 = 67110 ∧
      ¬Faithful .stm32f407xx (fun _ => 0) ⟨[], false⟩ 134220 := by
  have haccept : (init .stm32f407xx (fun _ => 0) ⟨[], false⟩ 134220).1 = true := rfl
  refine ⟨haccept, rfl, rfl, fun h => ?_⟩
  exact absurd (h.accepts.1 haccept).2 (by decide)

end DualCan.App.Watchdog
