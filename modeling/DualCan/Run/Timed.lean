import DualCan.Run.Clock
import DualCan.Run.Past

/-!
# Runs in real time, and observers

A machine that reads a 32-bit clock is driven by events that say how much real time has passed since the
one before: every schedule of calls is a run, and what the clock's wrap does to it is for the proofs to find.
An observer runs beside a machine and writes down what it sees of each step; it changes nothing.
-/

namespace DualCan.Run

open DualCan.Clock

variable {σ ε γ : Type*}

/-- A machine's state and the real time of its last event. -/
structure Timed (σ : Type*) where
  now : ℕ
  state : σ

/-- One event, `e.1` ms after the one before. -/
def timed (step : σ → UInt32 → ε → σ) (s : Timed σ) (e : ℕ × ε) : Timed σ where
  now := s.now + e.1
  state := step s.state (tick (s.now + e.1)) e.2

/-- A step of a machine and of its observer, who sees the state before it and the event. -/
def observed (step : σ → ε → σ) (note : σ → ε → γ → γ) (s : σ × γ) (e : ε) : σ × γ :=
  (step s.1 e, note s.1 e s.2)

variable {step : σ → ε → σ} {note : σ → ε → γ → γ}

/-- **Run rule**: an invariant that every admissible step keeps, and under which such a step is as it should
be, makes every step of an admissible run as it should be. -/
theorem allSteps_of_invariant_of {I : σ → Prop} {C P : σ → ε → Prop} {s : σ} (h0 : I s)
    (hstep : ∀ t e, I t → C t e → I (step t e)) (hP : ∀ t e, I t → C t e → P t e) (es : List ε)
    (hC : AllSteps step s C es) : AllSteps step s P es := by
  intro a e b hes
  subst hes
  rw [allSteps_append, allSteps_cons] at hC
  exact hP _ _ (after_invariant_of h0 hstep a hC.1) hC.2.1

end DualCan.Run
