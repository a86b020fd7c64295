import Mathlib.Data.List.Induction
import Mathlib.Tactic.Common

/-!
# Runs of a deterministic machine and past-time properties

A machine is a step function `σ → ε → σ`; a run is a list of events, oldest first, and `after` is the
state it leads to. Three past-time operators speak about the steps of a run: `Once` (some step),
`AllSteps` (every step) and `Since` (some step, and a second condition at every later one). A step is
judged by the state it starts from and its event.

Two rules connect them with state invariants. `since_of_state` reads a state predicate backwards: it can
only have been switched on by a step of one kind, and every step since then kept it. `state_of_since`
reads it forwards: what one kind of step switches on survives every later step of a second kind.
-/

namespace DualCan.Run

variable {σ ε : Type*} (step : σ → ε → σ) (s : σ)

/-- The state a run leads to. -/
def after (es : List ε) : σ := es.foldl step s

@[simp] theorem after_nil : after step s [] = s := rfl

theorem after_append (es fs : List ε) :
    after step s (es ++ fs) = after step (after step s es) fs := by
  simp [after, List.foldl_append]

@[simp] theorem after_snoc (es : List ε) (e : ε) :
    after step s (es ++ [e]) = step (after step s es) e := by
  simp [after, List.foldl_append]

@[simp] theorem after_cons (e : ε) (es : List ε) :
    after step s (e :: es) = after step (step s e) es := rfl

/-- Some step of the run satisfies `P`. -/
def Once (P : σ → ε → Prop) (es : List ε) : Prop :=
  ∃ a e b, es = a ++ e :: b ∧ P (after step s a) e

/-- Every step of the run satisfies `P`. -/
def AllSteps (P : σ → ε → Prop) (es : List ε) : Prop :=
  ∀ a e b, es = a ++ e :: b → P (after step s a) e

/-- Some step of the run satisfies `P`, and every step after it satisfies `Q`. -/
def Since (P Q : σ → ε → Prop) (es : List ε) : Prop :=
  ∃ a e b, es = a ++ e :: b ∧ P (after step s a) e ∧
    AllSteps step (step (after step s a) e) Q b

variable {step s} {P P' Q Q' C : σ → ε → Prop} {I : σ → Prop} {es : List ε} {e : ε}

/-- Splitting a run that ends in `e`: the split point is that last step or an earlier one. -/
theorem snoc_eq_split {a b : List ε} {x : ε} :
    es ++ [e] = a ++ x :: b ↔ (es = a ∧ e = x ∧ b = []) ∨ ∃ b', b = b' ++ [e] ∧ es = a ++ x :: b' := by
  constructor
  · intro h
    rcases List.eq_nil_or_concat b with rfl | ⟨b', y, rfl⟩
    · have h' := List.append_inj' h rfl
      exact Or.inl ⟨h'.1, by simpa using h'.2, rfl⟩
    · rw [List.concat_eq_append] at h ⊢
      have hsplit : es ++ [e] = (a ++ x :: b') ++ [y] := by simpa using h
      have h' := List.append_inj' hsplit rfl
      obtain rfl : e = y := by simpa using h'.2
      exact Or.inr ⟨b', rfl, h'.1⟩
  · rintro (⟨rfl, rfl, rfl⟩ | ⟨b', rfl, rfl⟩) <;> simp

/-! ## The operators along a run -/

theorem Once.mono (h : Once step s P es) (hPP : ∀ t e, P t e → P' t e) : Once step s P' es :=
  let ⟨a, x, b, hes, hP⟩ := h
  ⟨a, x, b, hes, hPP _ _ hP⟩

theorem allSteps_nil : AllSteps step s P [] := by
  intro a e b h
  simp at h

theorem allSteps_snoc :
    AllSteps step s P (es ++ [e]) ↔ AllSteps step s P es ∧ P (after step s es) e := by
  constructor
  · intro h
    refine ⟨fun a x b hes => h a x (b ++ [e]) (by simp [hes]), h es e [] rfl⟩
  · rintro ⟨h, hP⟩ a x b hes
    rcases snoc_eq_split.1 hes with ⟨rfl, rfl, -⟩ | ⟨b', -, h'⟩
    · exact hP
    · exact h a x b' h'

theorem allSteps_cons :
    AllSteps step s P (e :: es) ↔ P s e ∧ AllSteps step (step s e) P es := by
  constructor
  · intro h
    refine ⟨h [] e es rfl, ?_⟩
    rintro a x b rfl
    exact h (e :: a) x b rfl
  · rintro ⟨hP, h⟩ a x b hes
    cases a with
    | nil =>
      obtain ⟨rfl, rfl⟩ := by simpa using hes
      exact hP
    | cons y a =>
      obtain ⟨rfl, rfl⟩ := by simpa using hes
      exact h a x b rfl

theorem allSteps_append {fs : List ε} : AllSteps step s P (es ++ fs) ↔
    AllSteps step s P es ∧ AllSteps step (after step s es) P fs := by
  induction fs using List.reverseRecOn with
  | nil => simp [allSteps_nil]
  | append_singleton fs e ih =>
    rw [← List.append_assoc, allSteps_snoc, allSteps_snoc, ih, after_append, and_assoc]

/-- A condition on single steps is checked along a run. -/
def decideAllSteps [∀ t e, Decidable (P t e)] : (s : σ) → (es : List ε) →
    Decidable (AllSteps step s P es)
  | _, [] => isTrue allSteps_nil
  | s, e :: es =>
    have := decideAllSteps (step s e) es
    decidable_of_iff _ allSteps_cons.symm

instance [∀ t e, Decidable (P t e)] : Decidable (AllSteps step s P es) := decideAllSteps s es

theorem AllSteps.mono (h : AllSteps step s P es) (hPP : ∀ t e, P t e → P' t e) :
    AllSteps step s P' es :=
  fun a x b hes => hPP _ _ (h a x b hes)

/-- What is known of the data a run is made from is known at its steps. -/
theorem AllSteps.of_map {α : Type*} {f : α → ε} {xs : List α} {D : α → Prop}
    (h : AllSteps step s P (xs.map f)) (hD : ∀ x ∈ xs, D x) :
    AllSteps step s (fun t e => P t e ∧ ∃ x, e = f x ∧ D x) (xs.map f) := by
  intro a e b hes
  have hmem : e ∈ xs.map f := by
    rw [hes]
    exact List.mem_append_right a List.mem_cons_self
  obtain ⟨x, hx, rfl⟩ := List.mem_map.1 hmem
  exact ⟨h a _ b hes, x, rfl, hD x hx⟩

theorem not_since_nil : ¬Since step s P Q [] := by
  rintro ⟨a, e, b, h, -⟩
  simp at h

theorem since_snoc :
    Since step s P Q (es ++ [e]) ↔
      P (after step s es) e ∨ (Since step s P Q es ∧ Q (after step s es) e) := by
  constructor
  · rintro ⟨a, x, b, h, hP, hQ⟩
    rcases snoc_eq_split.1 h with ⟨rfl, rfl, -⟩ | ⟨b', rfl, rfl⟩
    · exact Or.inl hP
    · rw [allSteps_snoc] at hQ
      refine Or.inr ⟨⟨a, x, b', rfl, hP, hQ.1⟩, ?_⟩
      rw [after_append]
      exact hQ.2
  · rintro (hP | ⟨⟨a, x, b, rfl, hP, hQ⟩, hQe⟩)
    · exact ⟨es, e, [], rfl, hP, allSteps_nil⟩
    · rw [after_append] at hQe
      exact ⟨a, x, b ++ [e], by simp, hP, allSteps_snoc.2 ⟨hQ, hQe⟩⟩

theorem since_append {fs : List ε} :
    Since step s P Q (es ++ fs) ↔ Since step (after step s es) P Q fs ∨
      (Since step s P Q es ∧ AllSteps step (after step s es) Q fs) := by
  induction fs using List.reverseRecOn with
  | nil => simp [not_since_nil, allSteps_nil]
  | append_singleton fs e ih =>
    rw [← List.append_assoc, since_snoc, since_snoc, allSteps_snoc, ih, ← after_append]
    tauto

/-- A step of neither kind lies before the latest `P`-step. -/
theorem Since.once_after {fs : List ε} (h : Since step s P Q (es ++ e :: fs))
    (hP : ¬P (after step s es) e) (hQ : ¬Q (after step s es) e) :
    Once step (step (after step s es) e) P fs := by
  rw [List.append_cons, since_append, after_snoc, since_snoc] at h
  rcases h with ⟨a, x, b, hes, hx, -⟩ | ⟨h | h, -⟩
  · exact ⟨a, x, b, hes, hx⟩
  · exact absurd h hP
  · exact absurd h.2 hQ

theorem Since.once (h : Since step s P Q es) : Once step s P es :=
  let ⟨a, x, b, hes, hP, _⟩ := h
  ⟨a, x, b, hes, hP⟩

theorem Since.mono (h : Since step s P Q es) (hPP : ∀ t e, P t e → P' t e)
    (hQQ : ∀ t e, Q t e → Q' t e) : Since step s P' Q' es :=
  let ⟨a, x, b, hes, hP, hQ⟩ := h
  ⟨a, x, b, hes, hPP _ _ hP, hQ.mono hQQ⟩

/-! ## Invariants -/

/-- **Invariant rule**: what holds at the start and is kept by every step holds after every run. -/
theorem after_invariant (h0 : I s) (hstep : ∀ t e, I t → I (step t e)) (es : List ε) :
    I (after step s es) := by
  induction es using List.reverseRecOn with
  | nil => exact h0
  | append_singleton es e ih => rw [after_snoc]; exact hstep _ _ ih

/-- The invariant rule for runs whose steps all satisfy `C`. -/
theorem after_invariant_of (h0 : I s) (hstep : ∀ t e, I t → C t e → I (step t e)) :
    ∀ es, AllSteps step s C es → I (after step s es) := by
  intro es
  induction es using List.reverseRecOn with
  | nil => exact fun _ => h0
  | append_singleton es e ih =>
    intro hC
    rw [allSteps_snoc] at hC
    rw [after_snoc]
    exact hstep _ _ (ih hC.1) hC.2

/-- **Translation rule**: a map that turns each step of one machine into a step of another, wherever the
other's step satisfies `C`, turns runs into runs. -/
theorem after_translate {τ : Type*} {step' : τ → ε → τ} {f : σ → τ} {C : τ → ε → Prop}
    (hstep : ∀ t e, C (f t) e → f (step t e) = step' (f t) e) :
    ∀ es, AllSteps step' (f s) C es → f (after step s es) = after step' (f s) es := by
  intro es
  induction es using List.reverseRecOn with
  | nil => exact fun _ => rfl
  | append_singleton es e ih =>
    intro hC
    rw [allSteps_snoc] at hC
    rw [after_snoc, after_snoc, ← ih hC.1]
    refine hstep _ _ ?_
    rw [ih hC.1]
    exact hC.2

/-- **Purge rule**: a view that only the steps of some events change, and that is all these steps read of the
state, is the view of the run of these events alone. -/
theorem view_after_filter {ρ : Type*} {view : σ → ρ} {mine : ε → Bool}
    (hother : ∀ t e, mine e = false → view (step t e) = view t)
    (hmine : ∀ t t' e, mine e = true → view t = view t' → view (step t e) = view (step t' e)) (es : List ε) :
    view (after step s es) = view (after step s (es.filter mine)) := by
  induction es using List.reverseRecOn with
  | nil => rfl
  | append_singleton es e ih =>
    rw [after_snoc, List.filter_append]
    cases he : mine e with
    | false =>
      rw [hother _ _ he, ih, List.filter_cons_of_neg (by rw [he]; exact Bool.false_ne_true), List.filter_nil,
        List.append_nil]
    | true =>
      rw [List.filter_cons_of_pos he, List.filter_nil, after_snoc]
      exact hmine _ _ _ he ih

/-- What every step from an invariant state satisfies, every step of every run satisfies. -/
theorem allSteps_of_invariant (h0 : I s) (hstep : ∀ t e, I t → I (step t e))
    (hP : ∀ t e, I t → P t e) (es : List ε) : AllSteps step s P es :=
  fun a e _ _ => hP _ e (after_invariant h0 hstep a)

/-- **Backward rule**: a predicate that is off at the start, that only `P`-steps switch on and that
otherwise only survives `Q`-steps, was switched on by a `P`-step with only `Q`-steps since. `J` is an
invariant the steps may use. -/
theorem since_of_state {J : σ → Prop} (hJ0 : J s) (hJ : ∀ t e, J t → J (step t e)) (h0 : ¬I s)
    (hstep : ∀ t e, J t → I (step t e) → P t e ∨ (I t ∧ Q t e)) :
    ∀ es, I (after step s es) → Since step s P Q es := by
  intro es
  induction es using List.reverseRecOn with
  | nil => exact fun h => absurd h h0
  | append_singleton es e ih =>
    intro h
    rw [after_snoc] at h
    rw [since_snoc]
    rcases hstep _ _ (after_invariant hJ0 hJ es) h with hP | ⟨hI, hQ⟩
    · exact Or.inl hP
    · exact Or.inr ⟨ih hI, hQ⟩

/-- **Forward rule**: what every `P`-step switches on and every `Q`-step keeps holds since the last
`P`-step, in a run whose steps satisfy `C`. -/
theorem state_of_since {J : σ → Prop} (hJ0 : J s) (hJ : ∀ t e, J t → J (step t e))
    (hon : ∀ t e, J t → C t e → P t e → I (step t e))
    (hkeep : ∀ t e, J t → C t e → I t → Q t e → I (step t e)) :
    ∀ es, AllSteps step s C es → Since step s P Q es → I (after step s es) := by
  intro es
  induction es using List.reverseRecOn with
  | nil => exact fun _ h => absurd h not_since_nil
  | append_singleton es e ih =>
    intro hC h
    rw [allSteps_snoc] at hC
    rw [after_snoc]
    have hJe := after_invariant hJ0 hJ es
    rcases since_snoc.1 h with hP | ⟨hS, hQ⟩
    · exact hon _ _ hJe hC.2 hP
    · exact hkeep _ _ hJe hC.2 (ih hC.1 hS) hQ

/-- The number of `P`-steps after the last `R`-step. -/
def tally (step : σ → ε → σ) (s : σ) (P R : σ → ε → Bool) (es : List ε) : ℕ :=
  (es.foldl (fun t e => (step t.1 e, if R t.1 e then 0 else if P t.1 e then t.2 + 1 else t.2))
    (s, 0)).2

theorem tally_snoc (P R : σ → ε → Bool) (es : List ε) (e : ε) :
    tally step s P R (es ++ [e]) =
      if R (after step s es) e then 0
      else if P (after step s es) e then tally step s P R es + 1
      else tally step s P R es := by
  have hfst : (es.foldl (fun t e => (step t.1 e, if R t.1 e then 0 else if P t.1 e then t.2 + 1
      else t.2)) (s, 0)).1 = after step s es := by
    induction es using List.reverseRecOn with
    | nil => rfl
    | append_singleton es e ih => simp only [List.foldl_append, List.foldl_cons, List.foldl_nil, after_snoc, ih]
  unfold tally
  simp only [List.foldl_append, List.foldl_cons, List.foldl_nil, hfst]

/-- **Budget rule**: a counter that is only raised by one, and only by a step that switches `I` off, is at most
the number of `P`-steps, when only those switch `I` on. -/
theorem counter_le_tally {J : σ → Prop} {P : σ → ε → Bool} {f : σ → ℕ} (hJ0 : J s)
    (hJ : ∀ t e, J t → J (step t e)) (h0 : ¬I s) (hf0 : f s = 0)
    (hon : ∀ t e, J t → I (step t e) → P t e = true ∨ I t)
    (hcount : ∀ t e, J t → f (step t e) = f t ∨ (f (step t e) = f t + 1 ∧ I t ∧ ¬I (step t e))) :
    ∀ es, f (after step s es) ≤ tally step s P (fun _ _ => false) es := by
  -- while `I` holds, one `P`-step is not used up
  have hbudget : ∀ es, f (after step s es) ≤ tally step s P (fun _ _ => false) es ∧
      (I (after step s es) → f (after step s es) + 1 ≤ tally step s P (fun _ _ => false) es) := by
    intro es
    induction es using List.reverseRecOn with
    | nil => exact ⟨Nat.le_of_eq hf0, fun h => absurd h h0⟩
    | append_singleton es e ih =>
      obtain ⟨hle, hspare⟩ := ih
      have hJe := after_invariant hJ0 hJ es
      rw [after_snoc, tally_snoc, if_neg Bool.false_ne_true]
      have hgrow : tally step s P (fun _ _ => false) es ≤
          if P (after step s es) e then tally step s P (fun _ _ => false) es + 1
          else tally step s P (fun _ _ => false) es := by
        split
        · exact Nat.le_succ _
        · exact Nat.le_refl _
      rcases hcount _ e hJe with hsame | ⟨hraised, hbefore, hafter⟩
      · rw [hsame]
        refine ⟨Nat.le_trans hle hgrow, fun h => ?_⟩
        rcases hon _ e hJe h with hP | hI
        · rw [if_pos hP]
          exact Nat.succ_le_succ hle
        · exact Nat.le_trans (hspare hI) hgrow
      · rw [hraised]
        exact ⟨Nat.le_trans (hspare hbefore) hgrow, fun h => absurd h hafter⟩
  exact fun es => (hbudget es).1

end DualCan.Run
