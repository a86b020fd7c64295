import Mathlib.Algebra.GroupWithZero.Nat
import Mathlib.Tactic.Common

/-!
# A countdown with a window

A counter that falls by one every `prescale` ticks of its clock, in a phase of its own, and fires when it
falls below its boundary. Reloading it starts it again, but fires it too when it has not yet fallen to its
window. `Since` says where the counter stands `t` ticks after a reload: it fires in between when the boundary is
crossed (`Since.elapse`, `Since.fires`), and a reload is good exactly when the window is open (`Since.reload`).
-/

namespace DualCan.Run

structure Countdown where
  counter : ℕ
  phase : ℕ
  fired : Bool
  deriving DecidableEq, Repr

namespace Countdown

/-- `d` ticks pass. -/
def elapse (prescale boundary d : ℕ) (c : Countdown) : Countdown where
  counter := c.counter - (c.phase + d) / prescale
  phase := (c.phase + d) % prescale
  fired := c.fired || c.counter < (c.phase + d) / prescale + boundary

/-- The counter is loaded with `value`. -/
def reload (window value : ℕ) (c : Countdown) : Countdown :=
  { c with counter := value, fired := c.fired || window < c.counter }

/-- The countdown was loaded with `value` in the phase `phase`, `t` ticks ago, and has not fired. -/
structure Since (prescale value phase t : ℕ) (c : Countdown) : Prop where
  counter : c.counter + (phase + t) / prescale = value
  phase : c.phase = (phase + t) % prescale
  fired : c.fired = false

variable {prescale boundary window value phase t d : ℕ} {c : Countdown}

theorem since_reload (hphase : c.phase < prescale) (hfired : c.fired = false)
    (hwindow : ¬window < c.counter) : Since prescale value c.phase 0 (c.reload window value) := by
  refine ⟨?_, ?_, ?_⟩
  · rw [Nat.add_zero, Nat.div_eq_of_lt hphase]
    rfl
  · rw [Nat.add_zero, Nat.mod_eq_of_lt hphase]
    rfl
  · rw [reload, hfired, Bool.false_or, decide_eq_false hwindow]

namespace Since

variable (h : Since prescale value phase t c)

include h

/-- The steps of the counter are those before now and those from now on. -/
theorem steps_add (hprescale : 0 < prescale) :
    (phase + (t + d)) / prescale = (phase + t) / prescale + (c.phase + d) / prescale := by
  have hsplit : phase + (t + d) = prescale * ((phase + t) / prescale) + ((phase + t) % prescale + d) := by
    have hdiv := Nat.div_add_mod (phase + t) prescale
    omega
  rw [hsplit, Nat.mul_add_div hprescale, h.phase]

/-- Short of the boundary it counts on. -/
theorem elapse (hprescale : 0 < prescale) (hshort : (phase + (t + d)) / prescale + boundary ≤ value) :
    Since prescale value phase (t + d) (c.elapse prescale boundary d) := by
  have hcounter := h.counter
  have hsteps := h.steps_add (d := d) hprescale
  refine ⟨?_, ?_, ?_⟩
  · rw [hsteps]
    simp only [Countdown.elapse]
    omega
  · simp only [Countdown.elapse, h.phase]
    rw [Nat.mod_add_mod, Nat.add_assoc]
  · simp only [Countdown.elapse, h.fired, Bool.false_or, decide_eq_false_iff_not]
    omega

/-- Past the boundary it has fired. -/
theorem fires (hprescale : 0 < prescale) (hpast : value < (phase + (t + d)) / prescale + boundary) :
    (c.elapse prescale boundary d).fired = true := by
  have hcounter := h.counter
  have hsteps := h.steps_add (d := d) hprescale
  simp only [Countdown.elapse, h.fired, Bool.false_or, decide_eq_true_eq]
  omega

/-- A reload finds the window open once the counter has had time to fall to it. -/
theorem reload (hprescale : 0 < prescale) (hopen : value ≤ window + (phase + t) / prescale) :
    Since prescale value c.phase 0 (c.reload window value) := by
  have hcounter := h.counter
  refine since_reload ?_ h.fired (by omega)
  rw [h.phase]
  exact Nat.mod_lt _ hprescale

/-- A reload before that fires. -/
theorem early (hclosed : window + (phase + t) / prescale < value) : (c.reload window value).fired = true := by
  have hcounter := h.counter
  simp only [Countdown.reload, h.fired, Bool.false_or, decide_eq_true_eq]
  omega

end Since

end Countdown

end DualCan.Run
