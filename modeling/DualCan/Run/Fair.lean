import DualCan.Run.Past

/-!
# Infinite executions and progress by rank

An execution runs a machine forever. `Execution.invariant_of` carries an invariant along it, and two rules
give progress: `Execution.first_helpful` finds the first helpful event of a state that waits for one, and
`Execution.exists_goal_of_rank` reaches a goal when a rank that no step raises keeps falling. On a finite run,
`rests_of_rank` bounds the steps to rest by a rank that every step lowers.
-/

namespace DualCan.Run

variable {σ ε : Type*} {step : σ → ε → σ}

/-- An infinite execution of a deterministic machine. -/
structure Execution (step : σ → ε → σ) where
  state : ℕ → σ
  event : ℕ → ε
  next : ∀ n, state (n + 1) = step (state n) (event n)

namespace Execution

/-- The execution from `s` whose events are given. -/
def ofEvents (step : σ → ε → σ) (s : σ) (events : ℕ → ε) : Execution step where
  state n := n.rec s fun k t => step t (events k)
  event := events
  next _ := rfl

variable (x : Execution step)

/-- A machine that takes each event of an execution along, step by step, has an execution beside it. -/
theorem exists_beside {τ φ : Type*} {step' : τ → φ → τ} (f : ε → φ) {R : σ → τ → Prop} {t₀ : τ}
    (h0 : R (x.state 0) t₀)
    (hstep : ∀ n t, R (x.state n) t → R (x.state (n + 1)) (step' t (f (x.event n)))) :
    ∃ y : Execution step', y.state 0 = t₀ ∧ (∀ n, y.event n = f (x.event n)) ∧
      ∀ n, R (x.state n) (y.state n) := by
  refine ⟨ofEvents step' t₀ fun n => f (x.event n), rfl, fun _ => rfl, fun n => ?_⟩
  induction n with
  | zero => exact h0
  | succ n ih => exact hstep n _ ih

/-- An invariant of the steps holds in every state of an execution, when the events met satisfy `C`. -/
theorem invariant_of {I : σ → Prop} {C : σ → ε → Prop} (h0 : I (x.state 0))
    (hstep : ∀ t e, I t → C t e → I (step t e)) (hC : ∀ n, C (x.state n) (x.event n)) (n : ℕ) :
    I (x.state n) := by
  induction n with
  | zero => exact h0
  | succ n ih => rw [x.next]; exact hstep _ _ ih (hC n)

/-- An invariant holds from where it first holds on. -/
theorem invariant_from {I : σ → Prop} {k : ℕ} (hk : I (x.state k))
    (hstep : ∀ n, k ≤ n → I (x.state n) → I (x.state (n + 1))) {n : ℕ} (h : k ≤ n) : I (x.state n) := by
  obtain ⟨d, rfl⟩ := Nat.exists_eq_add_of_le h
  clear h
  induction d with
  | zero => exact hk
  | succ d ih => exact hstep (k + d) (Nat.le_add_right k d) ih

/-- What an execution meets before it comes to an invariant, and what the invariant implies, it always
meets. -/
theorem forall_of_settles {I : σ → Prop} {P : ℕ → Prop} {k : ℕ} (hfirst : ∀ n < k, P n)
    (hk : I (x.state k)) (hstep : ∀ n, I (x.state n) → I (x.state (n + 1)))
    (hP : ∀ n, I (x.state n) → P n) (n : ℕ) : P n := by
  rcases Nat.lt_or_ge n k with hlt | hge
  · exact hfirst n hlt
  · exact hP n (x.invariant_from hk (fun m _ hm => hstep m hm) hge)

/-- A rank that no step raises is antitone along an execution. -/
theorem rank_le {rank : σ → ℕ} (hle : ∀ n, rank (x.state (n + 1)) ≤ rank (x.state n))
    {m n : ℕ} (h : m ≤ n) : rank (x.state n) ≤ rank (x.state m) := by
  obtain ⟨d, rfl⟩ := Nat.exists_eq_add_of_le h
  clear h
  induction d with
  | zero => exact Nat.le_refl _
  | succ d ih => exact Nat.le_trans (hle (m + d)) ih

/-- A state that satisfies `P` keeps it until the first helpful event, unless `R` is reached before. -/
theorem first_helpful {P R : σ → Prop} {H : ℕ → Prop} {n : ℕ} (hP : P (x.state n))
    (hkeep : ∀ k, n ≤ k → P (x.state k) → ¬H k → P (x.state (k + 1)) ∨ R (x.state (k + 1)))
    (hH : ∃ m, n ≤ m ∧ H m) :
    ∃ m, n ≤ m ∧ (R (x.state m) ∨ (P (x.state m) ∧ H m)) := by
  obtain ⟨m, hm, hHm⟩ := hH
  obtain ⟨d, rfl⟩ := Nat.exists_eq_add_of_le hm
  clear hm
  induction d generalizing n with
  | zero => exact ⟨n, Nat.le_refl n, Or.inr ⟨hP, hHm⟩⟩
  | succ d ih =>
    by_cases hn : H n
    · exact ⟨n, Nat.le_refl n, Or.inr ⟨hP, hn⟩⟩
    · rcases hkeep n (Nat.le_refl n) hP hn with hP' | hR
      · have hHm' : H (n + 1 + d) := by rwa [Nat.add_assoc, Nat.add_comm 1 d]
        obtain ⟨m, hm, h⟩ := ih hP' (fun k hk => hkeep k (by omega)) hHm'
        exact ⟨m, by omega, h⟩
      · exact ⟨n + 1, by omega, Or.inl hR⟩

/-- **Progress by rank**: if from every state short of the goal a later one reaches it or has a lower
rank, the goal is reached. -/
theorem exists_goal_of_rank (G : σ → Prop) (rank : σ → ℕ)
    (hdec : ∀ n, ¬G (x.state n) →
      ∃ m, n ≤ m ∧ (G (x.state m) ∨ rank (x.state m) < rank (x.state n))) (n : ℕ) :
    ∃ m, n ≤ m ∧ G (x.state m) := by
  induction hr : rank (x.state n) using Nat.strongRecOn generalizing n with
  | _ r ih =>
    by_cases hG : G (x.state n)
    · exact ⟨n, Nat.le_refl n, hG⟩
    · obtain ⟨m, hm, hGm | hlt⟩ := hdec n hG
      · exact ⟨m, hm, hGm⟩
      · obtain ⟨k, hk, hGk⟩ := ih _ (hr ▸ hlt) m rfl
        exact ⟨k, Nat.le_trans hm hk, hGk⟩

/-- A state that only rank-lowering steps leave is still there when its rank is. -/
theorem eq_or_rank_lt {rank : σ → ℕ}
    (hmove : ∀ n, x.state (n + 1) = x.state n ∨ rank (x.state (n + 1)) < rank (x.state n)) {m n : ℕ}
    (h : m ≤ n) : x.state n = x.state m ∨ rank (x.state n) < rank (x.state m) := by
  obtain ⟨d, rfl⟩ := Nat.exists_eq_add_of_le h
  clear h
  induction d with
  | zero => exact Or.inl rfl
  | succ d ih =>
    rcases hmove (m + d) with hsame | hlt
    · rw [← Nat.add_assoc, hsame]
      exact ih
    · rw [← Nat.add_assoc]
      rcases ih with ih | ih
      · rw [ih] at hlt
        exact Or.inr hlt
      · exact Or.inr (Nat.lt_trans hlt ih)

/-- **Progress by turns**: every step changes nothing or lowers the rank, every state short of the goal has
a party whose turn lowers it, and every party has its turn again and again. -/
theorem exists_goal_of_turns {κ : Type*} {G : σ → Prop} {rank : σ → ℕ} {turn : κ → ε → Prop}
    (hmove : ∀ n, x.state (n + 1) = x.state n ∨ rank (x.state (n + 1)) < rank (x.state n))
    (hturn : ∀ n, ¬G (x.state n) →
      ∃ k, ∀ e, turn k e → rank (step (x.state n) e) < rank (x.state n))
    (hfair : ∀ k n, ∃ m, n ≤ m ∧ turn k (x.event m)) (n : ℕ) : ∃ m, n ≤ m ∧ G (x.state m) := by
  apply x.exists_goal_of_rank G rank
  intro n hG
  obtain ⟨k, hk⟩ := hturn n hG
  obtain ⟨m, hm, hturn⟩ := hfair k n
  rcases x.eq_or_rank_lt hmove hm with hsame | hlt
  · refine ⟨m + 1, by omega, Or.inr ?_⟩
    rw [x.next, hsame]
    exact hk _ hturn
  · exact ⟨m, hm, Or.inr hlt⟩

end Execution

/-- **Coming to rest**: where every admissible step lowers the rank or brings the machine to rest, and rest is
kept, a run of as many steps as the rank ends at rest. -/
theorem rests_of_rank (step : σ → ε → σ) (I Rest : σ → Prop) (C : σ → ε → Prop) (rank : σ → ℕ)
    (hrest : ∀ t e, Rest t → C t e → Rest (step t e)) (hpos : ∀ t, I t → 0 < rank t)
    (hfall : ∀ t e, I t → C t e → Rest (step t e) ∨ (I (step t e) ∧ rank (step t e) < rank t)) :
    ∀ (es : List ε) (s : σ), AllSteps step s C es → Rest s ∨ (I s ∧ rank s ≤ es.length) →
      Rest (after step s es) := by
  intro es
  induction es with
  | nil =>
    rintro s - (hs | ⟨hI, hle⟩)
    · exact hs
    · have := hpos s hI
      simp only [List.length_nil] at hle
      omega
  | cons e es ih =>
    intro s hC hs
    rw [allSteps_cons] at hC
    rw [after_cons]
    apply ih _ hC.2
    rcases hs with hs | ⟨hI, hle⟩
    · exact Or.inl (hrest s e hs hC.1)
    · rcases hfall s e hI hC.1 with hrest' | ⟨hI', hlt⟩
      · exact Or.inl hrest'
      · refine Or.inr ⟨hI', ?_⟩
        simp only [List.length_cons] at hle
        omega

end DualCan.Run
