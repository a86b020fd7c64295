import DualCan.Run.Past

/-!
# Machines that report

A machine whose steps have an output, and the same machine with its outputs written to a log, oldest
first. A run of the logged machine is a run of the first with everything it reported. `logs_eq_of_related`
compares two runs.
-/

namespace DualCan.Run

variable {σ ε ο : Type*} {step : σ → ε → ο × σ}

/-- A state and the log so far. -/
abbrev Logged (σ ο : Type*) := σ × List ο

/-- One step, with its output at the end of the log. -/
def logged (step : σ → ε → ο × σ) (s : Logged σ ο) (e : ε) : Logged σ ο :=
  ((step s.1 e).2, s.2 ++ [(step s.1 e).1])

@[simp] theorem logged_fst (s : Logged σ ο) (e : ε) : (logged step s e).1 = (step s.1 e).2 := rfl

@[simp] theorem logged_snd (s : Logged σ ο) (e : ε) :
    (logged step s e).2 = s.2 ++ [(step s.1 e).1] := rfl

/-- **Two-run rule**: states related by a relation that every step keeps, and under which a step reports the
same from both, report the same along every run. -/
theorem logs_eq_of_related {R : σ → σ → Prop} {s t : σ} (h0 : R s t)
    (hstep : ∀ s t e, R s t → (step t e).1 = (step s e).1 ∧ R (step s e).2 (step t e).2) (log : List ο)
    (es : List ε) :
    (after (logged step) (t, log) es).2 = (after (logged step) (s, log) es).2 ∧
      R (after (logged step) (s, log) es).1 (after (logged step) (t, log) es).1 := by
  induction es generalizing s t log with
  | nil => exact ⟨rfl, h0⟩
  | cons e es ih =>
    obtain ⟨hreport, hnext⟩ := hstep s t e h0
    rw [after_cons, after_cons, logged, logged, hreport]
    exact ih hnext _

/-! ## Reading a log -/

variable {α : Type*} {f : ο → Option α}

/-- A finer reading of a log is a part of a coarser one. -/
theorem sublist_filterMap_of {h : ο → Option α} (hfh : ∀ o a, f o = some a → h o = some a)
    (log : List ο) : (log.filterMap f).Sublist (log.filterMap h) := by
  induction log with
  | nil => exact List.Sublist.refl []
  | cons o log ih =>
    cases hf : f o with
    | some a =>
      rw [List.filterMap_cons_some hf, List.filterMap_cons_some (hfh o a hf)]
      exact ih.cons_cons a
    | none =>
      rw [List.filterMap_cons_none hf]
      cases hh : h o with
      | none =>
        rw [List.filterMap_cons_none hh]
        exact ih
      | some b =>
        rw [List.filterMap_cons_some hh]
        exact ih.cons b

theorem filterMap_snoc (log : List ο) (o : ο) :
    (log ++ [o]).filterMap f = log.filterMap f ++ (f o).toList := by
  rw [List.filterMap_append]
  cases hf : f o with
  | none => simp [hf]
  | some a => simp [hf]

/-- **First in, first out**: where every step takes what it lets out from the front of a line and puts what
it lets in at its end, everything let in has been let out in the same order or is still in the line. -/
theorem conserved {s : σ} {line : σ → List α} {enters leaves : ο → Option α} {I : σ → Prop}
    (h0 : line s = []) (hI0 : I s) (hI : ∀ t e, I t → I (step t e).2)
    (hstep : ∀ t e, I t → line t ++ (enters (step t e).1).toList =
      (leaves (step t e).1).toList ++ line (step t e).2) (es : List ε) :
    (after (logged step) (s, []) es).2.filterMap enters =
      (after (logged step) (s, []) es).2.filterMap leaves ++
        line (after (logged step) (s, []) es).1 := by
  have hinv : ∀ es, I (after (logged step) (s, []) es).1 :=
    after_invariant (I := fun (t : Logged σ ο) => I t.1) hI0 fun t e ht => hI t.1 e ht
  induction es using List.reverseRecOn with
  | nil => simp [h0]
  | append_singleton es e ih =>
    rw [after_snoc, logged_fst, logged_snd, filterMap_snoc, filterMap_snoc, ih, List.append_assoc,
      hstep _ e (hinv es), List.append_assoc]

end DualCan.Run
