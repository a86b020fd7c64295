import Mathlib.Data.List.Count
import Mathlib.Tactic.Common

/-!
# One request at a time over a line that keeps order

A requester has at most one request open. It closes it with the first answer that arrives, or gives it up.
The line and the peer behind it keep the order and answer a request at most once; they may lose anything. A
request carries no name, so an answer that comes late is taken for the answer to the request that is open
then. `Lawful.matched` bounds the mistake: the `k`-th request is closed by an answer to a request not later
than itself, and earlier by at most as many as were given up before.
-/

namespace DualCan.Run

/-- How a request was closed: by the answer to a request, or by giving up. -/
structure Entry where
  opened : ℕ
  closed : ℕ
  answer : Option ℕ
  deriving DecidableEq, Repr

/-- The requester's ledger, and the numbers of the requests whose answer may still arrive. -/
structure Dialogue where
  sent : ℕ
  line : List ℕ
  pending : Option ℕ
  ledger : List Entry
  deriving DecidableEq, Repr

namespace Dialogue

def idle : Dialogue := ⟨0, [], none, []⟩

/-- Requests of the ledger that were given up. -/
def givenUp (ledger : List Entry) : ℕ := ledger.countP fun e => e.answer.isNone

/-- Requests of the ledger that were answered. -/
def answered (ledger : List Entry) : ℕ := ledger.countP fun e => e.answer.isSome

/-! ## What can happen -/

/-- A request is sent. -/
def send (d : Dialogue) (now : ℕ) : Dialogue :=
  { d with sent := d.sent + 1, line := d.line ++ [d.sent], pending := some now }

/-- The line loses a request or its answer. -/
def lose (d : Dialogue) (i : ℕ) : Dialogue := { d with line := d.line.eraseIdx i }

/-- The open request is closed. -/
def close (d : Dialogue) (now : ℕ) (answer : Option ℕ) : Dialogue :=
  match d.pending with
  | none => d
  | some opened => { d with pending := none, ledger := d.ledger ++ [⟨opened, now, answer⟩] }

/-- The next answer arrives, and closes the open request if there is one. -/
def arrive (d : Dialogue) (now : ℕ) : Dialogue :=
  match d.line with
  | [] => d
  | j :: line => { d with line := line }.close now (some j)

/-- The next answer arrives and is thrown away. -/
def discard (d : Dialogue) : Dialogue := { d with line := d.line.tail }

/-- The open request is given up. -/
def expire (d : Dialogue) (now : ℕ) : Dialogue := d.close now none

/-! ## The laws of a dialogue -/

/-- Every request is in the ledger or open, the ledger is in the order of time, and what the line may still
bring are answers to requests not earlier than the answers there have been. -/
structure Lawful (now : ℕ) (d : Dialogue) : Prop where
  sent : d.sent = d.ledger.length + if d.pending.isSome then 1 else 0
  order : d.line.Pairwise (· < ·)
  behind : ∀ j ∈ d.line, answered d.ledger ≤ j
  asked : ∀ j ∈ d.line, j < d.sent
  matched : ∀ k e j, d.ledger[k]? = some e → e.answer = some j →
    j ≤ k ∧ k ≤ j + givenUp (d.ledger.take k)
  spans : ∀ e ∈ d.ledger, e.opened ≤ e.closed
  apart : d.ledger.Pairwise fun e f => e.closed ≤ f.opened
  past : ∀ e ∈ d.ledger, e.closed ≤ now
  opened : ∀ t, d.pending = some t → t ≤ now ∧ ∀ e ∈ d.ledger, e.closed ≤ t

theorem arrive_sent (d : Dialogue) {now : ℕ} : (d.arrive now).sent = d.sent := by
  unfold arrive close
  split
  · rfl
  · split <;> rfl

/-- An arrival adds an answered request to the ledger, or nothing. -/
theorem mem_arrive (d : Dialogue) {now : ℕ} {e : Entry} (he : e ∈ (d.arrive now).ledger) :
    e ∈ d.ledger ∨ e.answer ≠ none := by
  unfold arrive close at he
  split at he
  · exact .inl he
  · split at he
    · exact .inl he
    · rcases List.mem_append.1 he with he | he
      · exact .inl he
      · obtain rfl := List.mem_singleton.1 he
        exact .inr nofun

theorem answered_add_givenUp (ledger : List Entry) : answered ledger + givenUp ledger = ledger.length := by
  have h := List.length_eq_countP_add_countP (fun e : Entry => e.answer.isSome) (l := ledger)
  rw [h, answered, givenUp]
  congr 1
  apply List.countP_congr
  intro e _
  cases e.answer <;> simp

theorem lawful_idle (now : ℕ) : Lawful now idle := by
  refine ⟨rfl, List.Pairwise.nil, ?_, ?_, ?_, ?_, List.Pairwise.nil, ?_, ?_⟩ <;> simp [idle]

namespace Lawful

variable {d : Dialogue} {now t : ℕ}

theorem later (h : Lawful now d) (ht : now ≤ t) : Lawful t d := by
  refine ⟨h.sent, h.order, h.behind, h.asked, h.matched, h.spans, h.apart, ?_, ?_⟩
  · exact fun e he => Nat.le_trans (h.past e he) ht
  · exact fun o ho => ⟨Nat.le_trans (h.opened o ho).1 ht, (h.opened o ho).2⟩

theorem answered_le (h : Lawful now d) : answered d.ledger ≤ d.sent := by
  have hsum := answered_add_givenUp d.ledger
  have hsent := h.sent
  omega

theorem send (h : Lawful now d) (hpending : d.pending = none) : Lawful now (d.send now) := by
  have hsent := h.sent
  rw [hpending] at hsent
  refine ⟨?_, ?_, ?_, ?_, h.matched, h.spans, h.apart, h.past, ?_⟩
  · exact congrArg (· + 1) hsent
  · refine List.pairwise_append.2 ⟨h.order, List.pairwise_singleton _ _, ?_⟩
    intro j hj k hk
    obtain rfl := List.mem_singleton.1 hk
    exact h.asked j hj
  · intro j hj
    rcases List.mem_append.1 hj with hj | hj
    · exact h.behind j hj
    · obtain rfl := List.mem_singleton.1 hj
      exact h.answered_le
  · intro j hj
    rcases List.mem_append.1 hj with hj | hj
    · exact Nat.lt_succ_of_lt (h.asked j hj)
    · obtain rfl := List.mem_singleton.1 hj
      exact Nat.lt_succ_self _
  · intro o ho
    obtain rfl : now = o := Option.some.inj ho
    exact ⟨Nat.le_refl _, h.past⟩

/-- A part of the line in its order. -/
theorem shrink (h : Lawful now d) {line : List ℕ} (hline : line.Sublist d.line) :
    Lawful now { d with line := line } :=
  ⟨h.sent, h.order.sublist hline, fun j hj => h.behind j (hline.subset hj),
    fun j hj => h.asked j (hline.subset hj), h.matched, h.spans, h.apart, h.past, h.opened⟩

theorem lose (h : Lawful now d) (i : ℕ) : Lawful now (d.lose i) := h.shrink (List.eraseIdx_sublist _ _)

theorem discard (h : Lawful now d) : Lawful now d.discard := h.shrink (List.tail_sublist _)

/-- The open request is closed by an answer that the line cannot bring again. -/
theorem close (h : Lawful now d) {answer : Option ℕ}
    (hanswer : ∀ j, answer = some j →
      answered d.ledger ≤ j ∧ j < d.sent ∧ ∀ k ∈ d.line, j < k) :
    Lawful now (d.close now answer) := by
  unfold Dialogue.close
  cases hpending : d.pending with
  | none => exact h
  | some o =>
    have hsent := h.sent
    rw [hpending] at hsent
    obtain ⟨ho, hafter⟩ := h.opened o hpending
    have hsum := answered_add_givenUp d.ledger
    refine ⟨?_, h.order, ?_, h.asked, ?_, ?_, ?_, ?_, nofun⟩
    · simpa using hsent
    · intro k hk
      have hk' := h.behind k hk
      simp only [answered, List.countP_append, List.countP_singleton] at hk' ⊢
      cases hj : answer with
      | none => simpa using hk'
      | some j =>
        obtain ⟨hj1, -, hj2⟩ := hanswer j hj
        have hlt := hj2 k hk
        simp only [answered] at hj1
        simp only [Option.isSome_some, if_true]
        omega
    · intro k e j he hj
      rcases Nat.lt_trichotomy k d.ledger.length with hk | hk | hk
      · rw [List.getElem?_append_left hk] at he
        rw [List.take_append_of_le_length (Nat.le_of_lt hk)]
        exact h.matched k e j he hj
      · subst hk
        rw [List.getElem?_append_right (Nat.le_refl _), Nat.sub_self] at he
        obtain rfl : Entry.mk o now answer = e := Option.some.inj he
        obtain ⟨hj1, hj2, -⟩ := hanswer j hj
        rw [List.take_left]
        simp only [Option.isSome_some, if_true] at hsent
        omega
      · rw [List.getElem?_eq_none (by simp only [List.length_append, List.length_singleton]; omega)] at he
        cases he
    · intro e he
      rcases List.mem_append.1 he with he | he
      · exact h.spans e he
      · obtain rfl := List.mem_singleton.1 he
        exact ho
    · refine List.pairwise_append.2 ⟨h.apart, List.pairwise_singleton _ _, ?_⟩
      intro e he f hf
      obtain rfl := List.mem_singleton.1 hf
      exact hafter e he
    · intro e he
      rcases List.mem_append.1 he with he | he
      · exact h.past e he
      · obtain rfl := List.mem_singleton.1 he
        exact Nat.le_refl now

theorem expire (h : Lawful now d) : Lawful now (d.expire now) := h.close nofun

theorem arrive (h : Lawful now d) : Lawful now (d.arrive now) := by
  unfold Dialogue.arrive
  cases hline : d.line with
  | nil => exact h
  | cons j line =>
    have hsub : line.Sublist d.line := hline ▸ List.sublist_cons_self j line
    have hmem : j ∈ d.line := hline ▸ List.mem_cons_self
    have horder := h.order
    rw [hline] at horder
    refine (h.shrink hsub).close fun i hi => ?_
    obtain rfl : j = i := Option.some.inj hi
    exact ⟨h.behind j hmem, h.asked j hmem, fun k hk => (List.pairwise_cons.1 horder).1 k hk⟩

end Lawful

end Dialogue

end DualCan.Run
