import DualCan.Isotp.TxSteps

/-!
# ISO-TP: the sender and the blocks it is granted

An observer (`Grant`) follows one transfer from outside: whether its first frame has been accepted, the block
size of the latest Continue-To-Send and the Consecutive Frames accepted since. `Stage` ties the sender's flags
to it. The sender listens for Flow Control from the moment it *schedules* the frame the peer will answer; a
Flow Control frame that arrives while that frame still waits for a mailbox is taken too early, and that is the
only way in which a grant is exceeded.
-/

namespace DualCan.Isotp

open DualCan.Clock DualCan.Run

namespace IsotpTx

/-- What has been seen of the transfer: its first frame was accepted, a Continue-To-Send was taken after that,
and the block size of the latest Continue-To-Send with the Consecutive Frames accepted since. -/
structure Grant where
  opened : Bool
  released : Bool
  block : Option (UInt8 × ℕ)

namespace Grant

/-- Before any transfer. -/
def fresh : Grant where
  opened := false
  released := false
  block := none

/-- Frames accepted by the channel. -/
def take (g : Grant) (frames : List Frame) : Grant :=
  { g with
    opened := g.opened || !frames.isEmpty
    block := g.block.map fun b => (b.1, b.2 + frames.countP fun frame => frame.pci = pciCf) }

/-- The frames stay within what is granted. -/
def Allows (g : Grant) (frames : List Frame) : Prop :=
  (0 < frames.countP (fun frame => frame.pci = pciCf) → g.released = true) ∧
    ∀ b ∈ g.block, b.1 ≠ 0 → b.2 + frames.countP (fun frame => frame.pci = pciCf) ≤ b.1.toNat

instance (g : Grant) (frames : List Frame) : Decidable (g.Allows frames) :=
  have : Decidable (∀ b ∈ g.block, b.1 ≠ 0 →
      b.2 + frames.countP (fun frame => frame.pci = pciCf) ≤ b.1.toNat) := Option.decidableForallMem _
  inferInstanceAs (Decidable ((_ → _) ∧ _))

/-- No Flow Control frame is due: the first frame has not been accepted, or the block is not used up. -/
def unripe (g : Grant) : Bool :=
  !g.opened || g.block.any fun b => decide (b.1 = 0) || decide (b.2 < b.1.toNat)

/-- What the observer writes down of an operation that had `frames` accepted. -/
def update (g : Grant) (tx : IsotpTx) (op : Op) (result : IsotpResult) (frames : List Frame) : Grant :=
  match op with
  | .start _ => if result = .ok then fresh.take frames else g
  | .poll => g.take frames
  | .onFrame frame =>
    if tx.takes frame fcCts then
      { g with released := g.released || g.opened, block := some (getElem frame 1 Frame.one_lt, 0) }
    else g
  | .reset => g

def note (s : Endpoint) (e : ℕ × Op) (g : Grant) : Grant :=
  g.update s.state.1 e.2 (s.resultOf e) (s.accepted e)

theorem take_nil (g : Grant) : g.take [] = g := by
  obtain ⟨opened, released, block⟩ := g
  cases block <;> simp [take]

theorem take_append (g : Grant) (frames frames' : List Frame) :
    g.take (frames ++ frames') = (g.take frames).take frames' := by
  obtain ⟨opened, released, block⟩ := g
  simp only [take, List.countP_append]
  congr 1
  · cases frames <;> simp
  · cases block <;> simp [Nat.add_assoc]

theorem Allows.nil {g : Grant} (h : ∀ b ∈ g.block, b.1 ≠ 0 → b.2 ≤ b.1.toNat) : g.Allows [] :=
  ⟨fun hpos => absurd hpos (Nat.lt_irrefl 0), h⟩

theorem Allows.append {g : Grant} {frames frames' : List Frame} (h : g.Allows frames)
    (h' : (g.take frames).Allows frames') : g.Allows (frames ++ frames') := by
  refine ⟨?_, ?_⟩
  · rw [List.countP_append]
    intro hpos
    rcases Nat.eq_zero_or_pos (frames.countP fun frame => frame.pci = pciCf) with hz | hp
    · exact h'.1 (by omega)
    · exact h.1 hp
  · intro b hb hne
    have hle := h'.2 (b.1, b.2 + frames.countP fun frame => frame.pci = pciCf) ?_ hne
    · rw [List.countP_append, ← Nat.add_assoc]
      exact hle
    · simp only [take, Option.mem_def] at hb ⊢
      rw [hb]
      rfl

theorem Allows.take {g : Grant} {frames : List Frame} (h : g.Allows frames) :
    ∀ b ∈ (g.take frames).block, b.1 ≠ 0 → b.2 ≤ b.1.toNat := by
  intro b hb hne
  simp only [Grant.take, Option.mem_def, Option.map_eq_some_iff] at hb
  obtain ⟨b₀, hb₀, rfl⟩ := hb
  exact h.2 b₀ hb₀ hne

end Grant

/-- The sender beside its observer. -/
def grantedStep : Endpoint × Grant → ℕ × Op → Endpoint × Grant := observed Endpoint.step Grant.note

/-- The operation respects Flow Control: every Consecutive Frame it has accepted was released by a
Continue-To-Send taken after the First Frame was accepted and lies within the latest block, and a Flow Control
frame that is not due leaves the sender as it was. -/
def Complies (s : Endpoint × Grant) (e : ℕ × Op) : Prop :=
  s.2.Allows (s.1.accepted e) ∧
    ∀ frame, e.2 = .onFrame frame → frame.pci = pciFc → s.2.unripe = true →
      (s.1.step e).state.1 = s.1.state.1

/-- The steps that do not reach the defect: no Flow Control frame reaches a listening sender whose last frame
still waits for a mailbox. -/
def Ripe (s : Endpoint × Grant) (e : ℕ × Op) : Prop :=
  match e.2 with
  | .onFrame frame => frame.pci = pciFc → s.1.state.1.hears = true → s.1.state.1.txWaitingEnqueue = false
  | _ => True

instance (s : Endpoint × Grant) : (e : ℕ × Op) → Decidable (Ripe s e)
  | (_, .onFrame _) => inferInstanceAs (Decidable (_ → _ → _))
  | (_, .start _) => isTrue trivial
  | (_, .poll) => isTrue trivial
  | (_, .reset) => isTrue trivial

/-! ## Stages of a transfer -/

/-- Where a busy sender stands. -/
inductive Stage (tx : IsotpTx) (g : Grant) : Prop
  | single (hfc : tx.txWaitingFc = false) (hcf : tx.txHasSentCf = false) (hin : tx.txSentInBlock = 0)
      (hall : tx.txData.length ≤ tx.txOffset) (hblock : g.block = none)
  | first (hfc : tx.txWaitingFc = true) (hcf : tx.txHasSentCf = false) (hin : tx.txSentInBlock = 0)
      (hopened : g.opened = !tx.txWaitingEnqueue) (hblock : g.block = none)
  | granted (n : ℕ) (hfc : tx.txWaitingFc = false) (hopened : g.opened = true)
      (hreleased : g.released = true) (hblock : g.block = some (tx.blockSize, n))
      (hcf : tx.txWaitingEnqueue = true → tx.txHasSentCf = true)
      (hin : tx.txSentInBlock = n + tx.txWaitingEnqueue.toNat)
      (hle : tx.blockSize ≠ 0 → tx.txSentInBlock ≤ tx.blockSize.toNat)
  | used (hfc : tx.txWaitingFc = true) (hw : tx.txWaitingEnqueue = false) (hopened : g.opened = true)
      (hreleased : g.released = true) (hblock : g.block = some (tx.blockSize, tx.txSentInBlock))
      (hne : tx.blockSize ≠ 0) (hin : tx.txSentInBlock = tx.blockSize.toNat)

variable {tx tx' : IsotpTx} {c c' : Channel} {g : Grant} {now : UInt32} {op : Op} {result : IsotpResult}
  {frames : List Frame}

theorem afterBlock_iff : tx.afterBlock = true ↔ tx.blockSize ≠ 0 ∧ tx.blockSize.toNat ≤ tx.txSentInBlock := by
  rw [afterBlock, Bool.and_eq_true, decide_eq_true_eq, decide_eq_true_eq, UInt8.lt_iff_toNat_lt, Ne,
    ← UInt8.toNat_inj]
  simp only [UInt8.toNat_zero]
  omega

/-- What is granted is respected so far. -/
theorem Stage.within (h : Stage tx g) : ∀ b ∈ g.block, b.1 ≠ 0 → b.2 ≤ b.1.toNat := by
  intro b hb hne
  cases h with
  | single _ _ _ _ hblock => rw [hblock] at hb; cases hb
  | first _ _ _ _ hblock => rw [hblock] at hb; cases hb
  | granted n _ _ _ hblock _ hin hle =>
    rw [hblock] at hb
    cases hb
    have := hle hne
    dsimp only
    omega
  | used _ _ _ _ hblock _ hin =>
    rw [hblock] at hb
    cases hb
    exact Nat.le_of_eq hin

/-- The frame that waited for a mailbox is accepted, whatever the controller says of it. -/
theorem Stage.settle (h : Stage tx g) (hreg : Regular tx) (pending : Bool) (asDeadlineMs : UInt32) :
    Stage { tx with
      txWaitingEnqueue := false
      txFramePending := pending
      txAsDeadlineMs := asDeadlineMs } (g.take (settles tx)) ∧ g.Allows (settles tx) := by
  cases hw : tx.txWaitingEnqueue with
  | false =>
    have hnil : settles tx = [] := by simp [settles, hw]
    rw [hnil, g.take_nil]
    refine ⟨?_, .nil h.within⟩
    cases h with
    | single hfc hcf hin hall hblock => exact .single hfc hcf hin hall hblock
    | first hfc hcf hin hopened hblock =>
      rw [hw] at hopened
      exact .first hfc hcf hin hopened hblock
    | granted n hfc hopened hreleased hblock hcf hin hle =>
      rw [hw] at hin
      exact .granted n hfc hopened hreleased hblock (fun h => by cases h) hin hle
    | used hfc _ hopened hreleased hblock hne hin => exact .used hfc rfl hopened hreleased hblock hne hin
  | true =>
    have hcount := hreg.settles_consecutive
    have hone : settles tx = [tx.txPendingFrame] := if_pos hw
    rw [hw, Bool.true_and] at hcount
    cases h with
    | single hfc hcf hin hall hblock =>
      rw [hcf] at hcount
      refine ⟨.single hfc hcf hin hall (by rw [Grant.take, hblock]; rfl), ?_, ?_⟩
      · rw [hcount]
        exact fun hpos => absurd hpos (Nat.lt_irrefl 0)
      · rw [hblock]
        exact fun b hb => by cases hb
    | first hfc hcf hin hopened hblock =>
      rw [hcf] at hcount
      refine ⟨.first hfc hcf hin ?_ (by rw [Grant.take, hblock]; rfl), ?_, ?_⟩
      · rw [Grant.take, hone]
        exact Bool.or_true _
      · rw [hcount]
        exact fun hpos => absurd hpos (Nat.lt_irrefl 0)
      · rw [hblock]
        exact fun b hb => by cases hb
    | granted n hfc hopened hreleased hblock hcf hin hle =>
      rw [hcf hw] at hcount
      rw [hw] at hin
      have hin : tx.txSentInBlock = n + 1 := hin
      refine ⟨.granted (n + 1) hfc ?_ hreleased ?_ (fun h => by cases h) hin hle, fun _ => hreleased, ?_⟩
      · simp only [Grant.take, hopened, Bool.true_or]
      · rw [Grant.take, hcount, hblock]
        rfl
      · rw [hblock, hcount]
        intro b hb hne
        cases hb
        have := hle hne
        rw [hin] at this
        exact this
    | used _ hw' =>
      rw [hw'] at hw
      cases hw

/-- The second part of a poll. -/
theorem Stage.advance (h : Stage tx g) (hw : tx.txWaitingEnqueue = false)
    (hadv : Advanced tx now result frames tx') :
    (tx'.txOngoing = true → Stage tx' (g.take frames)) ∧ g.Allows frames := by
  cases hadv with
  | listening =>
    rw [g.take_nil]
    exact ⟨fun _ => h, .nil h.within⟩
  | unanswered => exact ⟨(fun ho => by cases ho), .nil h.within⟩
  | full hfc hfull =>
    obtain ⟨hne, hge⟩ := afterBlock_iff.1 hfull
    rw [g.take_nil]
    refine ⟨fun _ => ?_, .nil h.within⟩
    cases h with
    | single _ _ hin => exact absurd (UInt8.toNat_inj.1 (by simp only [UInt8.toNat_zero]; omega)) hne
    | first hfc' => rw [hfc] at hfc'; cases hfc'
    | granted n _ hopened hreleased hblock _ hin hle =>
      rw [hw] at hin
      have hin : tx.txSentInBlock = n := hin
      refine .used rfl hw hopened hreleased ?_ hne ?_
      · rw [hblock, ← hin]
      · have := hle hne
        dsimp only
        omega
    | used hfc' => rw [hfc] at hfc'; cases hfc'
  | finished => exact ⟨(fun ho => by cases ho), .nil h.within⟩
  | separated =>
    rw [g.take_nil]
    exact ⟨fun _ => h, .nil h.within⟩
  | consecutive answer hfc hfull hmore =>
    cases h with
    | single _ _ _ hall => omega
    | first hfc' => rw [hfc] at hfc'; cases hfc'
    | granted n _ hopened hreleased hblock _ hin hle =>
      rw [hw] at hin
      have hin : tx.txSentInBlock = n := hin
      -- the block is not full, so one more frame fits
      have hroom : tx.blockSize ≠ 0 → n + 1 ≤ tx.blockSize.toNat := by
        intro hne
        have hlt : ¬tx.blockSize.toNat ≤ tx.txSentInBlock := by
          intro hge
          rw [afterBlock_iff.2 ⟨hne, hge⟩] at hfull
          cases hfull
        omega
      refine ⟨fun _ => .granted (n + answer.isSome.toNat) ?_ ?_ ?_ ?_ ?_ ?_ ?_, ?_, ?_⟩
      · rw [handed_txWaitingFc]
        exact hfc
      · simp only [Grant.take, hopened, Bool.true_or]
      · exact hreleased
      · rw [Grant.take, hblock, taken_consecutive, handed_blockSize]
        rfl
      · intro _
        rw [handed_txHasSentCf]
        rfl
      · rw [handed_txSentInBlock, handed_txWaitingEnqueue]
        cases answer <;> simp [advanceCf, hin]
      · rw [handed_blockSize, handed_txSentInBlock]
        intro hne
        have := hroom hne
        simp only [advanceCf]
        omega
      · exact fun _ => hreleased
      · rw [hblock, taken_consecutive]
        intro b hb hne
        cases hb
        have := hroom hne
        cases answer <;> simp <;> omega
    | used hfc' => rw [hfc] at hfc'; cases hfc'

/-- A sender that listens, with no frame waiting for a mailbox, is one whose peer is to answer. -/
theorem Stage.ripe (h : Stage tx g) (hw : tx.txWaitingEnqueue = false) (hh : tx.hears = true) :
    g.unripe = false ∧ g.opened = true := by
  simp only [hears, Bool.and_eq_true, Bool.or_eq_true] at hh
  cases h with
  | single hfc _ hin =>
    rw [hfc] at hh
    rcases hh.2 with hh | hfull
    · cases hh
    · obtain ⟨hne, hge⟩ := afterBlock_iff.1 hfull
      exact absurd (UInt8.toNat_inj.1 (by simp only [UInt8.toNat_zero]; omega)) hne
  | first _ _ _ hopened hblock =>
    rw [hw] at hopened
    have hopened : g.opened = true := hopened
    exact ⟨by simp [Grant.unripe, hopened, hblock], hopened⟩
  | granted n hfc hopened _ hblock _ hin =>
    rw [hfc] at hh
    rw [hw] at hin
    have hin : tx.txSentInBlock = n := hin
    rcases hh.2 with hh | hfull
    · cases hh
    · obtain ⟨hne, hge⟩ := afterBlock_iff.1 hfull
      rw [hin] at hge
      exact ⟨by simp [Grant.unripe, hopened, hblock, hne, hge], hopened⟩
  | used _ _ hopened _ hblock hne hin =>
    exact ⟨by simp [Grant.unripe, hopened, hblock, hne, hin], hopened⟩

/-- The deadline of a Flow Control wait is no part of the stage. -/
theorem Stage.wait {deadlineMs : UInt32} (h : Stage tx g) : Stage { tx with txDeadlineMs := deadlineMs } g := by
  cases h with
  | single hfc hcf hin hall hblock => exact .single hfc hcf hin hall hblock
  | first hfc hcf hin hopened hblock => exact .first hfc hcf hin hopened hblock
  | granted n hfc hopened hreleased hblock hcf hin hle =>
    exact .granted n hfc hopened hreleased hblock hcf hin hle
  | used hfc hw hopened hreleased hblock hne hin => exact .used hfc hw hopened hreleased hblock hne hin

/-- A received frame, where no Flow Control frame comes while the last frame waits for a mailbox. -/
theorem Stage.frame {frame : Frame} {tx' : IsotpTx} (h : Stage tx g)
    (hripe : frame.pci = pciFc → tx.hears = true → tx.txWaitingEnqueue = false)
    (hfr : Framed tx now frame result tx') :
    (tx'.txOngoing = true → Stage tx' (g.update tx (.onFrame frame) result [])) ∧
      (frame.pci = pciFc → g.unripe = true → tx' = tx) := by
  cases hfr with
  | refused hh =>
    rw [Grant.update, if_neg (not_takes_of_refused hh)]
    exact ⟨fun _ => h, fun _ _ => rfl⟩
  | wait hh hpci hlow =>
    rw [Grant.update, if_neg (not_takes_cts hlow)]
    refine ⟨fun _ => h.wait, fun _ hunripe => ?_⟩
    rw [(h.ripe (hripe hpci hh) hh).1] at hunripe
    cases hunripe
  | abandoned hh hpci hlow =>
    refine ⟨(fun ho => by cases ho), fun _ hunripe => ?_⟩
    rw [(h.ripe (hripe hpci hh) hh).1] at hunripe
    cases hunripe
  | cts hh hpci hlow =>
    have hw := hripe hpci hh
    obtain ⟨hdue, hopened⟩ := h.ripe hw hh
    rw [Grant.update, if_pos (takes_iff.2 ⟨hh, hpci, hlow⟩)]
    refine ⟨fun _ => .granted 0 rfl hopened ?_ rfl ?_ ?_ (fun _ => Nat.zero_le _), fun _ hunripe => ?_⟩
    · rw [hopened]
      exact Bool.or_true _
    · intro hw'
      rw [show tx.txWaitingEnqueue = true from hw'] at hw
      cases hw
    · simp only [hw]
      rfl
    · rw [hdue] at hunripe
      cases hunripe

/-- A transfer that starts. -/
theorem Stage.start {data : List UInt8} (hst : Started tx now data result frames tx') (hok : result = .ok) :
    Stage tx' (Grant.fresh.take frames) := by
  cases hst with
  | refused hr => exact absurd hok hr
  | single answer =>
    refine .single ?_ ?_ ?_ ?_ rfl
    · simp only [handed_txWaitingFc]
      rfl
    · simp only [handed_txHasSentCf]
      rfl
    · simp only [handed_txSentInBlock]
      rfl
    · simp only [handed_txData, handed_txOffset]
      exact Nat.le_refl _
  | multi answer =>
    refine .first ?_ ?_ ?_ ?_ rfl
    · simp only [handed_txWaitingFc]
      rfl
    · simp only [handed_txHasSentCf]
      rfl
    · simp only [handed_txSentInBlock]
      rfl
    · rw [handed_txWaitingEnqueue]
      cases answer <;> rfl

/-! ## Runs -/

/-- What ties the observer to the sender: the stage of the transfer, while there is one. -/
structure Granted (s : Endpoint × Grant) : Prop where
  regular : Regular s.1.state.1
  stage : s.1.state.1.txOngoing = true → Stage s.1.state.1 s.2
  within : ∀ b ∈ s.2.block, b.1 ≠ 0 → b.2 ≤ b.1.toNat

theorem Granted.init (config : IsotpConfig) (c : Channel) (now : ℕ) :
    Granted (Endpoint.init config c now, Grant.fresh) where
  regular := Regular.init config
  stage := fun ho => by cases ho
  within := fun b hb => by cases hb

variable {s : Endpoint × Grant} {e : ℕ × Op}

/-- One operation under the observer. -/
theorem Granted.acts {s' : Endpoint} (h : Granted s) (hreg : Regular s'.state.1)
    (hact : Acts s.1.state.1 s.1.state.2 now op result frames s'.state.1)
    (hripe : ∀ frame, op = .onFrame frame → frame.pci = pciFc → s.1.state.1.hears = true →
      s.1.state.1.txWaitingEnqueue = false) :
    Granted (s', s.2.update s.1.state.1 op result frames) ∧ s.2.Allows frames := by
  generalize hs' : s'.state.1 = tx' at hact
  -- an operation that has no frame accepted and tells the observer nothing
  have hquiet : (tx'.txOngoing = true → Stage tx' s.2) → Granted (s', s.2) ∧ s.2.Allows [] :=
    fun hstage => ⟨⟨hreg, hs' ▸ hstage, h.within⟩, .nil h.within⟩
  have hnil := s.2.take_nil
  cases hact with
  | start hst =>
    have hcount := hst.consecutive
    by_cases hok : result = .ok
    · have hstage := Stage.start hst hok
      rw [Grant.update, if_pos hok]
      refine ⟨⟨hreg, hs' ▸ fun _ => hstage, hstage.within⟩, ?_, ?_⟩
      · rw [hcount]
        exact fun hpos => absurd hpos (Nat.lt_irrefl 0)
      · rw [hcount]
        exact h.within
    · rw [Grant.update, if_neg hok]
      cases hst with
      | refused => exact hquiet h.stage
      | single => exact absurd rfl hok
      | multi => exact absurd rfl hok
  | idle ho =>
    rw [Grant.update, hnil]
    exact hquiet h.stage
  | stopped ho hclears hstop =>
    rw [Grant.update]
    cases hstop with
    | accepted hw =>
      obtain ⟨hstage, hallows⟩ := (h.stage ho).settle h.regular true (now + s.1.state.1.nAsMs.toUInt32)
      rw [settles, if_pos hw] at hstage hallows
      exact ⟨⟨hreg, hs' ▸ fun _ => hstage, hallows.take⟩, hallows⟩
    | refused | held =>
      rw [hnil]
      exact hquiet h.stage
    | expired | unconfirmed =>
      rw [hnil]
      exact hquiet fun ho => by cases ho
  | advanced ho hclears hadv =>
    obtain ⟨hstage, hallows⟩ := (h.stage ho).settle h.regular false _
    obtain ⟨hstage', hallows'⟩ := hstage.advance rfl hadv
    have hall := hallows.append hallows'
    rw [Grant.update]
    refine ⟨⟨hreg, ?_, hall.take⟩, hall⟩
    rw [hs', s.2.take_append]
    exact hstage'
  | @framed frame _ _ hfr =>
    have hwithin : ∀ b ∈ (s.2.update s.1.state.1 (.onFrame frame) result []).block,
        b.1 ≠ 0 → b.2 ≤ b.1.toNat := by
      rw [Grant.update]
      split
      · rintro b hb -
        cases hb
        exact Nat.zero_le _
      · exact h.within
    refine ⟨⟨hreg, ?_, hwithin⟩, .nil h.within⟩
    rw [hs']
    intro ho'
    exact ((h.stage (hfr.ongoing ho')).frame (hripe frame rfl) hfr).1 ho'
  | reset => exact hquiet fun ho => by cases ho

/-- A Flow Control frame that is not due. -/
theorem Granted.due {frame : Frame} (h : Granted s)
    (hripe : frame.pci = pciFc → s.1.state.1.hears = true → s.1.state.1.txWaitingEnqueue = false)
    (hfr : Framed s.1.state.1 now frame result tx') (hpci : frame.pci = pciFc)
    (hunripe : s.2.unripe = true) : tx' = s.1.state.1 := by
  cases ho : s.1.state.1.txOngoing with
  | true => exact ((h.stage ho).frame hripe hfr).2 hpci hunripe
  | false => exact hfr.deaf (by rw [hears, ho, Bool.false_and])

theorem Granted.step (h : Granted s) (hC : Ripe s e) : Granted (grantedStep s e) ∧ Complies s e := by
  have hspec := s.1.step_spec h.regular.nAs e
  have hripe : ∀ frame, e.2 = .onFrame frame → frame.pci = pciFc → s.1.state.1.hears = true →
      s.1.state.1.txWaitingEnqueue = false := by
    intro frame hop
    rw [Ripe, hop] at hC
    exact hC
  obtain ⟨hgranted, hallows⟩ := h.acts (s.1.step_regular h.regular e) hspec hripe
  refine ⟨hgranted, hallows, ?_⟩
  intro frame hop hpci hunripe
  exact h.due (hripe frame hop) (s.1.step_frame hop) hpci hunripe

/-- **Flow Control compliance**: in a run in which no Flow Control frame comes while the frame before it waits
for a mailbox, every Consecutive Frame is released and within its block, and no Flow Control frame takes
effect before it is due. -/
theorem flow_control_respected (config : IsotpConfig) (c : Channel) (now : ℕ) (es : List (ℕ × Op)) :
    AllSteps grantedStep (Endpoint.init config c now, Grant.fresh) Ripe es →
      AllSteps grantedStep (Endpoint.init config c now, Grant.fresh) Complies es :=
  allSteps_of_invariant_of (Granted.init config c now) (fun _ _ h hC => (h.step hC).1)
    (fun _ _ h hC => (h.step hC).2) es

/-- A driver that refuses the frame with the given index once. -/
def refusesOnce (k : ℕ) : Channel where
  sendAnswers := fun n => n ≠ k
  pendingAnswers := fun _ => false
  sent := []

/-- A Flow Control frame. -/
def fcFrame (status blockSize : UInt8) : Frame := Frame.fill 0xCC [0x30 ||| status, blockSize, 0]

/-- Blocks of one frame; the second frame waits for a mailbox before its answer comes. -/
def blocksOfOne : List (ℕ × Op) :=
  [(0, .start (List.replicate 20 0)), (1, .onFrame (fcFrame 1 0)), (1, .onFrame (fcFrame 0 1)), (1, .poll),
    (1, .poll), (1, .onFrame (fcFrame 0 1)), (1, .poll)]

theorem flow_control_respected_blocks :
    AllSteps grantedStep (Endpoint.init (IsotpConfig.init none) (refusesOnce 1) 0, Grant.fresh) Complies
      blocksOfOne :=
  flow_control_respected _ _ _ _ (by decide +kernel)

/-- A Continue-To-Send under a First Frame that waits for a mailbox releases Consecutive Frames before the
First Frame is accepted; one under the last frame of a block lets that frame through beside a full block. -/
theorem not_flow_control_respected :
    (¬AllSteps grantedStep (Endpoint.init (IsotpConfig.init none) (refusesOnce 0) 0, Grant.fresh) Complies
      [(0, .start (List.replicate 20 0)), (1, .onFrame (fcFrame 0 1)), (1, .poll)]) ∧
    ¬AllSteps grantedStep (Endpoint.init (IsotpConfig.init none) (refusesOnce 1) 0, Grant.fresh) Complies
      [(0, .start (List.replicate 20 0)), (1, .onFrame (fcFrame 0 1)), (1, .poll),
        (1, .onFrame (fcFrame 0 1)), (1, .poll), (1, .poll), (1, .onFrame (fcFrame 0 1))] := by
  constructor
  · intro h
    have hsent := (h [(0, .start (List.replicate 20 0)), (1, .onFrame (fcFrame 0 1))] (1, .poll) [] rfl).1
    revert hsent
    decide +kernel
  · intro h
    have hsent := (h [(0, .start (List.replicate 20 0)), (1, .onFrame (fcFrame 0 1)), (1, .poll),
      (1, .onFrame (fcFrame 0 1))] (1, .poll) [(1, .poll), (1, .onFrame (fcFrame 0 1))] rfl).1
    revert hsent
    decide +kernel

end IsotpTx

end DualCan.Isotp
