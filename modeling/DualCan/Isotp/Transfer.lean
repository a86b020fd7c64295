import DualCan.Isotp.Exchange

/-!
# ISO-TP: one event of a lossless link

On a bus that loses and repeats nothing, `Exchange` ties the two sides of a multi-frame transfer together:
no segment is delivered before it was sent, no grant taken before it was given, and a grant on the bus is
always due. Each event keeps it (`Exchange.moved`), and `rank`, the amount of work left, never grows. With
nothing on the bus only the sender can get on, unless it sits on a full block and everything has been
delivered (`Exchange.free`).
-/

namespace DualCan.Isotp.Link

open DualCan.Clock

/-! ## Events of a lossless bus -/

/-- The events of a bus that loses and repeats nothing. -/
def Lossless : Event → Prop
  | .advance _ | .pollTx | .pollRx | .deliverRx false | .deliverTx false => True
  | _ => False

instance (e : Event) : Decidable (Lossless e) :=
  match e with
  | .advance _ | .pollTx | .pollRx | .deliverRx false | .deliverTx false => isTrue trivial
  | .deliverRx true | .deliverTx true | .read _ | .dropRx | .dropTx => isFalse id

variable {padding : UInt8} {payload : List UInt8} {bs s : ℕ} {fc : Frame} {l : Link}

/-! ## The invariant of a multi-frame exchange -/

structure Exchange (padding : UInt8) (payload : List UInt8) (bs : ℕ) (fc : Frame) (s : ℕ) (l : Link) :
    Prop where
  multi : 7 < payload.length
  max : payload.length ≤ 4095
  tx : IsotpTx.TxAt padding payload bs s l.toTx l.tx l.txChannel
  rx : IsotpRx.RxAt payload bs fc l.toRx l.rx l.rxChannel
  bus : l.toRx ≤ s + 1
  taken : l.toTx ≤ grantCount payload bs l.toRx

/-- What is left: frames to send, frames and grants to deliver, and the sender's return to idle. -/
def rank (payload : List UInt8) (l : Link) : ℕ :=
  (cfCount payload + 1 - l.txChannel.sent.length) + (cfCount payload + 1 - l.toRx) +
    (cfCount payload + 1 - l.toTx) + if l.tx.txOngoing then 1 else 0

/-- The blocks of the payload end before its last Consecutive Frame does. -/
def EndsInsideBlock (payload : List UInt8) (bs : ℕ) : Prop := bs = 0 ∨ cfCount payload % bs ≠ 0

/-- The sender does not end up on a full block, or the receiver has not got everything yet. -/
def Free (payload : List UInt8) (bs : ℕ) (l : Link) : Prop :=
  EndsInsideBlock payload bs ∨ l.toRx ≤ cfCount payload

namespace Exchange

variable (h : Exchange padding payload bs fc s l)

include h

theorem headRx_isSome : l.headRx.isSome = true ↔ l.toRx < s + 1 := by
  simp [headRx, h.tx.length_sent]

theorem headTx_isSome : l.headTx.isSome = true ↔ l.toTx < grantCount payload bs l.toRx := by
  simp [headTx, h.rx.grants]

theorem headTx_eq {frame : Frame} (hhead : l.headTx = some frame) : frame = fc := by
  rw [headTx, h.rx.grants] at hhead
  exact List.eq_of_mem_replicate (List.mem_of_getElem? hhead)

theorem headRx_eq {frame : Frame} (hhead : l.headRx = some frame) :
    (segments padding payload)[l.toRx]? = some frame := by
  have hsent := h.tx.scheduled.accepted h.tx.enqueued
  rw [headRx, hsent, List.nil_append] at hhead
  rw [← hhead, List.getElem?_take_of_lt]
  have hlt := (List.getElem?_eq_some_iff.1 hhead).1
  rw [List.length_take] at hlt
  omega

theorem grantCount_le : grantCount payload bs l.toRx ≤ cfCount payload := by
  have hm := h.multi
  have hle := Nat.div_le_self (min (l.toRx - 1) (cfCount payload - 1)) bs
  unfold grantCount cfCount at *
  split <;> omega

/-- A grant on the bus is due: the sender waits for its first one or has used up the others. -/
theorem due (hlt : l.toTx < grantCount payload bs l.toRx) :
    l.toTx = 0 ∨ l.tx.afterBlock = true := by
  rcases Nat.eq_zero_or_pos l.toTx with h0 | hpos
  · exact Or.inl h0
  · obtain ⟨-, hcount, hblock⟩ := h.tx.granted hpos
    have hbus := h.bus
    unfold grantCount at hlt
    split at hlt
    · omega
    · have hdiv : l.toTx ≤ min (l.toRx - 1) (cfCount payload - 1) / bs := by omega
      have hb : bs ≠ 0 := by
        rintro rfl
        rw [Nat.div_zero] at hdiv
        omega
      have hmul := (Nat.le_div_iff_mul_le (Nat.pos_of_ne_zero hb)).1 hdiv
      have hle := hblock hb
      have hpred := IsotpTx.pred_mul_add bs hpos
      exact Or.inr ((h.tx.afterBlock_iff hpos).2 ⟨hb, by omega⟩)

/-- A due grant finds the sender in its transfer. -/
theorem ongoing_of_due (hlt : l.toTx < grantCount payload bs l.toRx) : l.tx.txOngoing = true := by
  by_contra hidle
  obtain ⟨hfc, hblock, -⟩ := h.tx.ended (by simpa using hidle)
  rcases h.due hlt with h0 | hfull
  · rw [(h.tx.ungranted h0).1] at hfc
    cases hfc
  · rw [hblock] at hfull
    cases hfull

/-- With nothing on the bus, a sender with a full block has sent everything: it waits for a grant that no
one owes it. -/
theorem free (hfree : Free payload bs l) (hrx : l.headRx.isSome = false) (htx : l.headTx.isSome = false) :
    ¬(l.tx.txWaitingFc = true ∨ l.tx.afterBlock = true) := by
  intro hwait
  have hbus := h.bus
  have htaken := h.taken
  have hle := h.tx.le h.multi
  have hrx' : ¬l.toRx < s + 1 := fun hlt => by simp [h.headRx_isSome.2 hlt] at hrx
  have htx' : ¬l.toTx < grantCount payload bs l.toRx :=
    fun hlt => by simp [h.headTx_isSome.2 hlt] at htx
  have heq : l.toRx = s + 1 := by omega
  have hgrants : l.toTx = 1 + min s (cfCount payload - 1) / bs := by
    have hcount : grantCount payload bs (s + 1) = 1 + min s (cfCount payload - 1) / bs := by
      simp [grantCount]
    rw [heq, hcount] at htaken htx'
    exact Nat.le_antisymm htaken (Nat.le_of_not_lt htx')
  have hpos : 0 < l.toTx := by
    rw [hgrants]
    exact Nat.lt_of_lt_of_le Nat.one_pos (Nat.le_add_right 1 _)
  have hfull : l.tx.afterBlock = true := by
    rcases hwait with hfc | hb
    · exact h.tx.waiting hpos hfc
    · exact hb
  obtain ⟨hb, hs⟩ := (h.tx.afterBlock_iff hpos).1 hfull
  have hlast : s = cfCount payload := by
    by_contra hne
    have hlt : s ≤ cfCount payload - 1 := Nat.le_sub_one_of_lt (Nat.lt_of_le_of_ne hle hne)
    rw [Nat.min_eq_left hlt] at hgrants
    have hlt := Nat.lt_mul_div_succ s (Nat.pos_of_ne_zero hb)
    rw [Nat.mul_comm, ← Nat.add_comm 1 (s / bs), ← hgrants] at hlt
    omega
  rcases hfree with (hb0 | hmod) | hmore
  · exact hb hb0
  · rw [← hlast, hs, Nat.mul_mod_left] at hmod
    exact hmod rfl
  · rw [heq, hlast] at hmore
    exact Nat.not_succ_le_self _ hmore

/-- A sender whose payload ends on a full block never ends its transfer by itself. -/
theorem ongoing_of_full (hfull : ¬EndsInsideBlock payload bs) : l.tx.txOngoing = true := by
  by_contra hidle
  obtain ⟨hfc, hblock, hs⟩ := h.tx.ended (by simpa using hidle)
  have htaken := h.taken
  have hm := h.multi
  simp only [EndsInsideBlock, not_or, not_not] at hfull
  obtain ⟨hb, hmod⟩ := hfull
  have hpos : 0 < l.toTx := by
    by_contra h0
    rw [(h.tx.ungranted (by omega)).1] at hfc
    cases hfc
  obtain ⟨-, hcount, hin⟩ := h.tx.granted hpos
  have hle : l.toTx - 1 ≤ (cfCount payload - 1) / bs := by
    have hmono : min (l.toRx - 1) (cfCount payload - 1) / bs ≤ (cfCount payload - 1) / bs :=
      Nat.div_le_div_right (Nat.min_le_right _ _)
    unfold grantCount at htaken
    split at htaken <;> omega
  have hmul := (Nat.le_div_iff_mul_le (Nat.pos_of_ne_zero hb)).1 hle
  have hN : 1 ≤ cfCount payload := by
    unfold cfCount
    omega
  have hin' := hin hb
  -- the frames of the current block are a positive multiple of the block size
  have hrest : l.tx.txSentInBlock % bs = 0 := by
    rw [← hs, ← hcount, Nat.add_comm, Nat.add_mul_mod_self_right] at hmod
    exact hmod
  have hbs : l.tx.txSentInBlock = bs := by
    rcases Nat.lt_or_ge l.tx.txSentInBlock bs with hlt | hge
    · rw [Nat.mod_eq_of_lt hlt] at hrest
      omega
    · omega
  have hpred := IsotpTx.pred_mul_add bs hpos
  have hend : l.tx.afterBlock = true := (h.tx.afterBlock_iff hpos).2 ⟨hb, by omega⟩
  rw [hblock] at hend
  cases hend

/-! ## One event -/

theorem step_deliverRx (hhead : l.headRx.isSome = true) :
    ∃ rx c, l.step (.deliverRx false) = { l with rx := rx, rxChannel := c, toRx := l.toRx + 1 } ∧
      Exchange padding payload bs fc s (l.step (.deliverRx false)) := by
  obtain ⟨frame, hframe⟩ := Option.isSome_iff_exists.1 hhead
  obtain ⟨rx, c, hrx, hnext⟩ := h.rx.onFrame l.now h.multi h.max (h.headRx_eq hframe)
  have hstep : l.step (.deliverRx false) =
      { l with rx := rx, rxChannel := c, toRx := l.toRx + 1 } := by
    simp [step, hframe, hrx, advanceCursor]
  have hlt := h.headRx_isSome.1 hhead
  have htaken := h.taken
  have hmono := grantCount_mono payload bs (Nat.le_succ l.toRx)
  refine ⟨rx, c, hstep, ?_⟩
  rw [hstep]
  exact ⟨h.multi, h.max, h.tx, hnext, hlt, Nat.le_trans htaken hmono⟩

theorem step_deliverTx (hhead : l.headTx.isSome = true) :
    ∃ tx, l.step (.deliverTx false) = { l with tx := tx, toTx := l.toTx + 1 } ∧
      l.txResult (.deliverTx false) = .ok ∧ tx.txOngoing = true ∧
      Exchange padding payload bs fc s (l.step (.deliverTx false)) := by
  obtain ⟨frame, hframe⟩ := Option.isSome_iff_exists.1 hhead
  have hlt := h.headTx_isSome.1 hhead
  obtain ⟨hpci, hlow, hbs⟩ := h.rx.isGrant
  obtain rfl := h.headTx_eq hframe
  obtain ⟨tx, htx, hnext, ho⟩ := h.tx.onFrame l.now (h.ongoing_of_due hlt) (h.due hlt)
    hpci hlow hbs
  have hstep : l.step (.deliverTx false) = { l with tx := tx, toTx := l.toTx + 1 } := by
    simp [step, hframe, htx, advanceCursor]
  refine ⟨tx, hstep, ?_, ho, ?_⟩
  · simp [txResult, hframe, htx]
  · rw [hstep]
    exact ⟨h.multi, h.max, hnext, h.rx, h.bus, hlt⟩

theorem step_pollRx
    (hto : l.rx.rxInProgress = true → reached l.now l.rx.rxDeadlineMs = false) :
    l.step .pollRx = l := by
  simp [step, h.rx.poll hto]

/-- What is left after a poll of the sender. -/
theorem step_pollTx (ho : l.tx.txOngoing = true)
    (hto : l.tx.txWaitingFc = true → reached l.now l.tx.txDeadlineMs = false) :
    ∃ tx c, l.step .pollTx = { l with tx := tx, txChannel := c } ∧ l.txResult .pollTx = .ok ∧
      IsotpTx.Polled padding payload bs s l.toTx l.tx l.txChannel l.now tx c ∧
      ∃ s', s ≤ s' ∧ Exchange padding payload bs fc s' (l.step .pollTx) := by
  obtain ⟨tx, c, hpoll, hpolled⟩ := h.tx.poll l.now h.multi ho hto
  have hstep : l.step .pollTx = { l with tx := tx, txChannel := c } := by simp [step, hpoll]
  have hbus := h.bus
  refine ⟨tx, c, hstep, by simp [txResult, hpoll], hpolled, ?_⟩
  rw [hstep]
  cases hpolled with
  | waitsFc next same _ _ => exact ⟨s, Nat.le_refl s, h.multi, h.max, next, h.rx, hbus, h.taken⟩
  | waitsSep sameTx same _ =>
    subst sameTx same
    exact ⟨s, Nat.le_refl s, h.multi, h.max, h.tx, h.rx, hbus, h.taken⟩
  | ends next same _ => exact ⟨s, Nat.le_refl s, h.multi, h.max, next, h.rx, hbus, h.taken⟩
  | sends next _ => exact ⟨s + 1, Nat.le_succ s, h.multi, h.max, next, h.rx, by simp only; omega, h.taken⟩

omit h in
theorem step_pollTx_idle (ho : l.tx.txOngoing = false) :
    l.step .pollTx = l ∧ l.txResult .pollTx = .ok := by
  simp [step, txResult, IsotpTx.poll, ho]

/-! ## The rank -/

theorem rank_deliverRx (hhead : l.headRx.isSome = true) :
    rank payload (l.step (.deliverRx false)) < rank payload l := by
  obtain ⟨rx, c, hstep, -⟩ := h.step_deliverRx hhead
  have hlt := h.headRx_isSome.1 hhead
  have hle := h.tx.le h.multi
  rw [hstep]
  simp only [rank]
  omega

theorem rank_deliverTx (hhead : l.headTx.isSome = true) :
    rank payload (l.step (.deliverTx false)) < rank payload l := by
  obtain ⟨tx, hstep, -, ho, -⟩ := h.step_deliverTx hhead
  have hlt := h.headTx_isSome.1 hhead
  have hle := h.grantCount_le
  rw [hstep]
  simp only [rank, ho, h.ongoing_of_due hlt]
  omega

theorem rank_pollTx (hto : l.tx.txWaitingFc = true → reached l.now l.tx.txDeadlineMs = false) :
    rank payload (l.step .pollTx) ≤ rank payload l := by
  cases ho : l.tx.txOngoing with
  | false => exact Nat.le_of_eq (by rw [(step_pollTx_idle ho).1])
  | true =>
    obtain ⟨tx, c, hstep, -, hpolled, -⟩ := h.step_pollTx ho hto
    rw [hstep]
    simp only [rank, ho, if_true]
    cases hpolled with
    | waitsFc _ same ongoing _ => simp [same, ongoing]
    | waitsSep sameTx same _ => simp [sameTx, same, ho]
    | ends _ same idle => simp [same, idle]
    | sends next ongoing =>
      simp only [ongoing, next.length_sent, h.tx.length_sent, if_true]
      omega

/-- With nothing on the bus, a poll of a sender in its transfer gets on, or the separation time is not
over. -/
theorem progress_pollTx (hfree : Free payload bs l) (hrx : l.headRx.isSome = false)
    (htx : l.headTx.isSome = false) (ho : l.tx.txOngoing = true) :
    rank payload (l.step .pollTx) < rank payload l ∨
      (l.step .pollTx = l ∧ l.now - l.tx.txLastCfMs < l.tx.stminMs.toUInt32) := by
  have hnot := h.free hfree hrx htx
  obtain ⟨tx, c, hstep, -, hpolled, -⟩ := h.step_pollTx ho fun hfc => absurd (Or.inl hfc) hnot
  rw [hstep]
  cases hpolled with
  | waitsFc _ _ _ wait => exact absurd wait hnot
  | waitsSep sameTx same sep =>
    subst sameTx same
    exact Or.inr ⟨rfl, sep⟩
  | ends _ same idle =>
    refine Or.inl ?_
    simp only [rank, same, idle, ho]
    simp
  | sends next ongoing =>
    have hle := next.le h.multi
    refine Or.inl ?_
    simp only [rank, ongoing, ho, next.length_sent, h.tx.length_sent]
    omega

/-- What every event leaves: the invariant, counters that only grow and a rank that only falls. -/
structure Moved (padding : UInt8) (payload : List UInt8) (bs : ℕ) (fc : Frame) (s : ℕ) (l : Link)
    (e : Event) : Prop where
  ok : l.txResult e = .ok
  next : ∃ s', s ≤ s' ∧ Exchange padding payload bs fc s' (l.step e)
  toRx : l.toRx ≤ (l.step e).toRx
  toRx_eq : e ≠ .deliverRx false → (l.step e).toRx = l.toRx
  toTx_eq : e ≠ .deliverTx false → (l.step e).toTx = l.toTx
  rank_le : rank payload (l.step e) ≤ rank payload l

/-- **One event** on a lossless bus, when no poll finds a timer run out. -/
theorem moved {e : Event} (he : Lossless e)
    (htx : e = .pollTx → l.tx.txWaitingFc = true → reached l.now l.tx.txDeadlineMs = false)
    (hrx : e = .pollRx → l.rx.rxInProgress = true → reached l.now l.rx.rxDeadlineMs = false) :
    Moved padding payload bs fc s l e := by
  have hstay : l.step e = l → l.txResult e = .ok → Moved padding payload bs fc s l e := by
    intro hstep hok
    refine ⟨hok, ⟨s, Nat.le_refl s, by rwa [hstep]⟩, Nat.le_of_eq (by rw [hstep]), fun _ => ?_,
      fun _ => ?_, Nat.le_of_eq (by rw [hstep])⟩ <;> rw [hstep]
  match e, he with
  | .advance ms, _ =>
    exact ⟨rfl, ⟨s, Nat.le_refl s, h.multi, h.max, h.tx, h.rx, h.bus, h.taken⟩, Nat.le_refl _,
      fun _ => rfl, fun _ => rfl, Nat.le_refl _⟩
  | .pollRx, _ => exact hstay (h.step_pollRx (hrx rfl)) rfl
  | .pollTx, _ =>
    cases ho : l.tx.txOngoing with
    | false => exact hstay (step_pollTx_idle ho).1 (step_pollTx_idle ho).2
    | true =>
      have hrank := h.rank_pollTx (htx rfl)
      obtain ⟨tx, c, hstep, hok, -, hnext⟩ := h.step_pollTx ho (htx rfl)
      exact ⟨hok, hnext, Nat.le_of_eq (by rw [hstep]), fun _ => by rw [hstep],
        fun _ => by rw [hstep], hrank⟩
  | .deliverRx false, _ =>
    cases hhead : l.headRx with
    | none => exact hstay (by simp [step, hhead]) rfl
    | some frame =>
      have hsome : l.headRx.isSome = true := by rw [hhead]; rfl
      have hrank := h.rank_deliverRx hsome
      obtain ⟨rx, c, hstep, hnext⟩ := h.step_deliverRx hsome
      exact ⟨rfl, ⟨s, Nat.le_refl s, hnext⟩, by rw [hstep]; exact Nat.le_succ _,
        fun hne => absurd rfl hne, fun _ => by rw [hstep], Nat.le_of_lt hrank⟩
  | .deliverTx false, _ =>
    cases hhead : l.headTx with
    | none => exact hstay (by simp [step, hhead]) (by simp [txResult, hhead])
    | some frame =>
      have hsome : l.headTx.isSome = true := by rw [hhead]; rfl
      have hrank := h.rank_deliverTx hsome
      obtain ⟨tx, hstep, hok, -, hnext⟩ := h.step_deliverTx hsome
      exact ⟨hok, ⟨s, Nat.le_refl s, hnext⟩, Nat.le_of_eq (by rw [hstep]),
        fun _ => by rw [hstep], fun hne => absurd rfl hne, Nat.le_of_lt hrank⟩

/-- With nothing on the bus, an event that is no poll of the sender only moves the clock. -/
theorem quiet {e : Event} (he : Lossless e) (hpoll : e ≠ .pollTx)
    (hrx : e = .pollRx → l.rx.rxInProgress = true → reached l.now l.rx.rxDeadlineMs = false)
    (hheadRx : l.headRx.isSome = false) (hheadTx : l.headTx.isSome = false) :
    ∃ clock, l.step e = { l with clock := clock } := by
  have hrxNone : l.headRx = none := by simpa using hheadRx
  have htxNone : l.headTx = none := by simpa using hheadTx
  match e, he with
  | .advance ms, _ => exact ⟨_, rfl⟩
  | .pollRx, _ => exact ⟨l.clock, h.step_pollRx (hrx rfl)⟩
  | .pollTx, _ => exact absurd rfl hpoll
  | .deliverRx false, _ => exact ⟨l.clock, by simp [step, hrxNone]⟩
  | .deliverTx false, _ => exact ⟨l.clock, by simp [step, htxNone]⟩

end Exchange

end DualCan.Isotp.Link
