import Mathlib.Data.List.Nodup
import Mathlib.Logic.Function.Basic
import Mathlib.Tactic.Common

/-!
# Tokens in custody

Tokens are numbered in the order of their issue. Each is handed to one party, which keeps its tokens in a
line and lets the foremost one go. `Once` says that no token is in two places, and `Accounted` that one
that is nowhere is settled, in whatever sense the user gives to it.
-/

namespace DualCan.Run

structure Custody (ν : Type*) where
  issued : ℕ
  held : ν → List ℕ

namespace Custody

variable {ν : Type*} {c : Custody ν} {n : ν} {t : ℕ} {rest : List ℕ}

/-- A new token goes to the end of the line of `n`. -/
def issue [DecidableEq ν] (c : Custody ν) (n : ν) : Custody ν :=
  { issued := c.issued + 1, held := Function.update c.held n (c.held n ++ [c.issued]) }

/-- `n` is left with the tokens of `rest`. -/
def release [DecidableEq ν] (c : Custody ν) (n : ν) (rest : List ℕ) : Custody ν :=
  { c with held := Function.update c.held n rest }

/-- No token is in two places. -/
structure Once (c : Custody ν) : Prop where
  nodup : ∀ n, (c.held n).Nodup
  unique : ∀ n k t, t ∈ c.held n → t ∈ c.held k → n = k
  bound : ∀ n t, t ∈ c.held n → t < c.issued

/-- A token that is with none of the parties is settled. -/
def Accounted (parties : ν → Prop) (settled : ℕ → Prop) (c : Custody ν) : Prop :=
  ∀ t, t < c.issued → settled t ∨ ∃ n, parties n ∧ t ∈ c.held n

theorem Once.start (h : ∀ n, c.held n = []) : c.Once := by
  refine ⟨fun n => ?_, fun n k t hn => ?_, fun n t hn => ?_⟩
  · rw [h]
    exact List.nodup_nil
  · rw [h] at hn
    cases hn
  · rw [h] at hn
    cases hn

variable {parties : ν → Prop} {settled settled' : ℕ → Prop}

theorem Accounted.mono (h : Accounted parties settled c) (hs : ∀ t, settled t → settled' t) :
    Accounted parties settled' c :=
  fun t ht => (h t ht).imp_left (hs t)

variable [DecidableEq ν]

theorem mem_issue {k : ν} : t ∈ (c.issue n).held k ↔ t ∈ c.held k ∨ (k = n ∧ t = c.issued) := by
  unfold issue
  by_cases hk : k = n
  · subst hk
    simp
  · simp [hk]

theorem Once.issue (h : c.Once) (n : ν) : (c.issue n).Once := by
  refine ⟨fun k => ?_, fun i k t hi hk => ?_, fun k t hk => ?_⟩
  · by_cases hk : k = n
    · subst hk
      have hnew : c.issued ∉ c.held k := fun hmem => absurd (h.bound k _ hmem) (Nat.lt_irrefl _)
      simpa [Custody.issue, List.nodup_append, h.nodup k] using
        fun t ht he => hnew (by rwa [← he])
    · simpa [Custody.issue, hk] using h.nodup k
  · rcases mem_issue.1 hi with hold | ⟨hin, ht⟩
    · rcases mem_issue.1 hk with hold' | ⟨-, ht⟩
      · exact h.unique i k t hold hold'
      · exact absurd (h.bound i t hold) (by omega)
    · rcases mem_issue.1 hk with hold | ⟨hkn, -⟩
      · exact absurd (h.bound k t hold) (by omega)
      · rw [hin, hkn]
  · rcases mem_issue.1 hk with hk | ⟨-, rfl⟩
    · exact Nat.lt_succ_of_lt (h.bound k t hk)
    · exact Nat.lt_succ_self _

/-- What is held after a release was held before it. -/
theorem mem_of_mem_release {k : ν} {u : ℕ} (hheld : c.held n = t :: rest)
    (hu : u ∈ (c.release n rest).held k) : u ∈ c.held k := by
  by_cases hk : k = n
  · subst hk
    rw [hheld]
    exact List.mem_cons_of_mem _ (by simpa [release] using hu)
  · simpa [release, hk] using hu

theorem Once.release (h : c.Once) (hheld : c.held n = t :: rest) : (c.release n rest).Once := by
  refine ⟨fun k => ?_, fun i k u hi hk => ?_, fun k u hk => ?_⟩
  · by_cases hk : k = n
    · subst hk
      have hnodup := h.nodup k
      rw [hheld] at hnodup
      simpa [Custody.release] using hnodup.of_cons
    · simpa [Custody.release, hk] using h.nodup k
  · exact h.unique i k u (mem_of_mem_release hheld hi) (mem_of_mem_release hheld hk)
  · exact h.bound k u (mem_of_mem_release hheld hk)

/-- A token that is let go is nowhere. -/
theorem Once.released (h : c.Once) (hheld : c.held n = t :: rest) (k : ν) :
    t ∉ (c.release n rest).held k := by
  intro hmem
  have hn : t ∈ c.held n := by
    rw [hheld]
    exact List.mem_cons_self ..
  obtain rfl := h.unique n k t hn (mem_of_mem_release hheld hmem)
  have hnodup := h.nodup n
  rw [hheld] at hnodup
  exact hnodup.notMem (by simpa [Custody.release] using hmem)

theorem Accounted.issue (h : Accounted parties settled c) (hn : parties n) :
    Accounted parties settled (c.issue n) := by
  intro t ht
  rcases Nat.lt_succ_iff_lt_or_eq.1 ht with hlt | rfl
  · rcases h t hlt with hsettled | ⟨k, hk, hmem⟩
    · exact Or.inl hsettled
    · exact Or.inr ⟨k, hk, mem_issue.2 (Or.inl hmem)⟩
  · exact Or.inr ⟨n, hn, mem_issue.2 (Or.inr ⟨rfl, rfl⟩)⟩

/-- The token that is let go has to be settled. -/
theorem Accounted.release (h : Accounted parties settled c) (hheld : c.held n = t :: rest)
    (ht : settled t) : Accounted parties settled (c.release n rest) := by
  intro u hu
  rcases h u hu with hsettled | ⟨k, hk, hmem⟩
  · exact Or.inl hsettled
  · by_cases hkn : k = n
    · subst hkn
      rw [hheld] at hmem
      rcases List.mem_cons.1 hmem with rfl | hmem
      · exact Or.inl ht
      · exact Or.inr ⟨k, hk, by simpa [Custody.release] using hmem⟩
    · exact Or.inr ⟨k, hk, by simpa [Custody.release, hkn] using hmem⟩

end Custody

end DualCan.Run
