import DualCan.Param.Nor

/-!
# Records in the flash region

What a region of the parameter log looks like at any time: a number of records, of which the last is the
store, then one slot that holds no record but may be partly written, then blank slots. A scan of such a region
finds that store; a record that is appended keeps it so.
-/

namespace DualCan.Param

/-! ## The region -/

/-- The image of the last of `count` records. -/
def latestImage (bytes : ℕ → UInt8) : ℕ → Option (List UInt8)
  | 0 => none
  | count + 1 => some (slotBytes bytes count)

/-- The store that the last of `count` records holds. -/
def latestStore (bytes : ℕ → UInt8) (count : ℕ) : Option ParamStore :=
  match latestImage bytes count with
  | none => some ParamStore.init
  | some image => ParamStore.decode image

/-- The region holds `count` records, the last one of the store with these values. -/
structure Records (slotCount : ℕ) (bytes : ℕ → UInt8) (count : ℕ) (values : Values) : Prop where
  le : count ≤ slotCount
  packed : Packed values
  record : ∀ slot < count, (ParamStore.decode (slotBytes bytes slot)).isSome = true
  latest : latestStore bytes count = some (ParamStore.ofValues values)
  next : count < slotCount → ParamStore.decode (slotBytes bytes count) = none
  blank : ∀ slot, count < slot → slot < slotCount → imageIsErased (slotBytes bytes slot) = true

theorem erased_no_record {bytes : ℕ → UInt8} {slot : ℕ} (h : imageIsErased (slotBytes bytes slot) = true) :
    ParamStore.decode (slotBytes bytes slot) = none := by
  have hall : slotBytes bytes slot = List.replicate imageSize 0xFF := by
    apply List.eq_replicate_iff.2
    refine ⟨region_length .., ?_⟩
    intro byte hbyte
    exact beq_iff_eq.1 (List.all_eq_true.1 h byte hbyte)
  rw [hall]
  decide +kernel

/-- A write to a slot leaves the other slots as they are. -/
theorem programWords_other {flash : Nor} {slot other : ℕ} {image : List UInt8}
    (hlength : image.length = imageSize) (hne : other ≠ slot) :
    slotBytes (flash.programWords (slotOffset slot) image).2.bytes other = slotBytes flash.bytes other := by
  apply region_congr
  intro a hle hlt
  apply programWords_outside
  rw [hlength]
  unfold slotOffset imageSize at *
  omega

namespace Records

variable {slotCount count : ℕ} {bytes bytes' : ℕ → UInt8} {values values' : Values}

theorem blankRegion (slotCount : ℕ) : Records slotCount blankBytes 0 [] where
  le := Nat.zero_le _
  packed := packed_nil
  record _ hlt := absurd hlt (Nat.not_lt_zero _)
  latest := rfl
  next _ := erased_no_record (blank_erased ..)
  blank _ _ _ := blank_erased ..

/-- Without a record, an erase loses nothing. -/
theorem erased (h : Records slotCount bytes 0 values) : Records slotCount blankBytes 0 values where
  le := h.le
  packed := h.packed
  record _ hlt := absurd hlt (Nat.not_lt_zero _)
  latest := h.latest
  next _ := erased_no_record (blank_erased ..)
  blank _ _ _ := blank_erased ..

/-- The slot after the records may hold anything that is no record. -/
theorem torn (h : Records slotCount bytes count values)
    (hother : ∀ slot, slot ≠ count → slotBytes bytes' slot = slotBytes bytes slot)
    (hnone : count < slotCount → ParamStore.decode (slotBytes bytes' count) = none) :
    Records slotCount bytes' count values where
  le := h.le
  packed := h.packed
  record slot hlt := by
    rw [hother slot (Nat.ne_of_lt hlt)]
    exact h.record slot hlt
  latest := by
    rw [← h.latest]
    cases count with
    | zero => rfl
    | succ count =>
      change ParamStore.decode (slotBytes bytes' count) = ParamStore.decode (slotBytes bytes count)
      rw [hother count (Nat.ne_of_lt (Nat.lt_succ_self count))]
  next := hnone
  blank slot hlt hslot := by
    rw [hother slot (Nat.ne_of_gt hlt)]
    exact h.blank slot hlt hslot

/-- The slot after the records may take the next record. -/
theorem appended (h : Records slotCount bytes count values) (hroom : count < slotCount)
    (hother : ∀ slot, slot ≠ count → slotBytes bytes' slot = slotBytes bytes slot)
    (hpacked : Packed values') (himage : slotBytes bytes' count = imageOf values') :
    Records slotCount bytes' (count + 1) values' := by
  have hdecode : ParamStore.decode (slotBytes bytes' count) = some (ParamStore.ofValues values') := by
    rw [himage]
    exact decode_imageOf hpacked
  refine ⟨hroom, hpacked, ?_, hdecode, ?_, ?_⟩
  · intro slot hlt
    rcases Nat.lt_succ_iff_lt_or_eq.1 hlt with hbefore | rfl
    · rw [hother slot (Nat.ne_of_lt hbefore)]
      exact h.record slot hbefore
    · rw [hdecode]
      rfl
  · intro hnext
    rw [hother _ (Nat.ne_of_gt (Nat.lt_succ_self count))]
    exact erased_no_record (h.blank _ (Nat.lt_succ_self count) hnext)
  · intro slot hlt hslot
    have hbefore : count < slot := Nat.lt_of_succ_lt hlt
    rw [hother slot (Nat.ne_of_gt hbefore)]
    exact h.blank slot hbefore hslot

/-- The latest record may be copied to the front of a blank region. -/
theorem rewritten (h : Records slotCount bytes (count + 1) values)
    (hother : ∀ slot, slot ≠ 0 → slotBytes bytes' slot = slotBytes blankBytes slot)
    (himage : slotBytes bytes' 0 = slotBytes bytes count) : Records slotCount bytes' 1 values := by
  have hdecode : ParamStore.decode (slotBytes bytes' 0) = some (ParamStore.ofValues values) := by
    rw [himage]
    exact h.latest
  refine ⟨Nat.lt_of_lt_of_le (Nat.zero_lt_succ count) h.le, h.packed, ?_, hdecode, ?_, ?_⟩
  · intro slot hlt
    rw [Nat.lt_one_iff.1 hlt, hdecode]
    rfl
  · intro _
    rw [hother 1 Nat.one_ne_zero]
    exact erased_no_record (blank_erased ..)
  · intro slot hlt _
    rw [hother slot (Nat.ne_of_gt (Nat.lt_trans Nat.zero_lt_one hlt))]
    exact blank_erased ..

end Records

/-! ## The scan -/

/-- Every blank slot lies behind one that holds no record either: the scan finds no place to append. -/
def Compacts (slotCount : ℕ) (bytes : ℕ → UInt8) : Prop :=
  ∀ slot < slotCount, imageIsErased (slotBytes bytes slot) = true →
    ∃ earlier < slot, ParamStore.decode (slotBytes bytes earlier) = none

section Scan

variable {size slotCount count : ℕ} {bytes : ℕ → UInt8} {values : Values}

theorem Records.compacts_iff (h : Records slotCount bytes count values) : Compacts slotCount bytes ↔
    ¬(count < slotCount ∧ imageIsErased (slotBytes bytes count) = true) := by
  constructor
  · rintro hcompacts ⟨hroom, herased⟩
    obtain ⟨slot, hlt, hnone⟩ := hcompacts count hroom herased
    have hsome := h.record slot hlt
    rw [hnone] at hsome
    cases hsome
  · intro hfull slot hslot herased
    rcases Nat.lt_trichotomy slot count with hbefore | rfl | hafter
    · have hsome := h.record slot hbefore
      rw [erased_no_record herased] at hsome
      cases hsome
    · exact absurd ⟨hslot, herased⟩ hfull
    · exact ⟨count, hafter, h.next (Nat.lt_trans hafter hslot)⟩

theorem read_slot {slot : ℕ} (hsize : slotOffset slotCount ≤ size) (hslot : slot < slotCount)
    (flash : Nor) : (Nor.io size).read (slotOffset slot) imageSize flash =
      (some (slotBytes flash.bytes slot), flash) := by
  have hfits : ¬slotOffset slot + imageSize > size := by
    unfold slotOffset imageSize at *
    omega
  simp only [Nor.io, if_neg hfits]
  rfl

/-- The scan passes the records it has not seen and ends with the latest. -/
theorem Records.scan (h : Records slotCount bytes count values) (hsize : slotOffset slotCount ≤ size)
    (limit : Option ℕ) (slot : ℕ) (hslot : slot ≤ count) {store : ParamStore}
    (hstore : latestStore bytes slot = some store) :
    ParamLog.scan (Nor.io size) (slotCount - slot) slot ⟨store, slot, slotCount⟩ (latestImage bytes slot)
        ⟨bytes, limit⟩ =
      (if count < slotCount ∧ imageIsErased (slotBytes bytes count) = true then
        .blankSlot ⟨ParamStore.ofValues values, count, slotCount⟩
      else .compact ⟨ParamStore.ofValues values, count, slotCount⟩ (latestImage bytes count),
        ⟨bytes, limit⟩) := by
  induction hleft : count - slot generalizing slot store with
  | zero =>
    obtain rfl : slot = count := by omega
    obtain rfl : ParamStore.ofValues values = store := Option.some.inj (h.latest.symm.trans hstore)
    by_cases hroom : slot < slotCount
    case neg =>
      have hnone : slotCount - slot = 0 := by omega
      rw [hnone, if_neg (fun hblank => hroom hblank.1)]
      rfl
    have hmore : slotCount - slot = (slotCount - (slot + 1)) + 1 := by omega
    rw [hmore, ParamLog.scan, read_slot hsize hroom]
    dsimp only
    by_cases herased : imageIsErased (slotBytes bytes slot) = true
    · rw [if_pos herased, if_pos ⟨hroom, herased⟩]
    · rw [if_neg herased, if_neg (fun hblank => herased hblank.2), h.next hroom]
  | succ left ih =>
    have hbefore : slot < count := by omega
    have hroom : slot < slotCount := Nat.lt_of_lt_of_le hbefore h.le
    have hmore : slotCount - slot = (slotCount - (slot + 1)) + 1 := by omega
    obtain ⟨candidate, hdecode⟩ := Option.isSome_iff_exists.1 (h.record slot hbefore)
    have hused : ¬imageIsErased (slotBytes bytes slot) = true := by
      intro herased
      rw [erased_no_record herased] at hdecode
      cases hdecode
    rw [hmore, ParamLog.scan, read_slot hsize hroom]
    dsimp only
    rw [if_neg hused, hdecode]
    exact ih _ hbefore hdecode (by omega)

/-- `ParamLog_Load` on records: the log is taken over as it is, or compacted. -/
theorem Records.load (h : Records slotCount bytes count values) (hcount : 0 < slotCount)
    (hmax : slotCount ≤ maxSlots) (hsize : slotOffset slotCount ≤ size) (log : ParamLog)
    (limit : Option ℕ) : ParamLog.load (Nor.io size) slotCount log ⟨bytes, limit⟩ =
      if count < slotCount ∧ imageIsErased (slotBytes bytes count) = true then
        (true, ⟨ParamStore.ofValues values, count, slotCount⟩, ⟨bytes, limit⟩)
      else ParamLog.compact (Nor.io size) ⟨ParamStore.ofValues values, count, slotCount⟩
        (latestImage bytes count) ⟨bytes, limit⟩ := by
  have hvalid : ¬(slotCount = 0 ∨ slotCount > maxSlots) := by omega
  have hscan := h.scan hsize limit 0 (Nat.zero_le count) rfl
  rw [Nat.sub_zero] at hscan
  change ParamLog.scan (Nor.io size) slotCount 0 { ParamLog.init with slotCount := slotCount } none
    ⟨bytes, limit⟩ = _ at hscan
  unfold ParamLog.load
  rw [if_neg hvalid, hscan]
  by_cases hblank : count < slotCount ∧ imageIsErased (slotBytes bytes count) = true
  · rw [if_pos hblank, if_pos hblank]
  · rw [if_neg hblank, if_neg hblank]

end Scan

/-! ## Writing a record -/

section Write

variable {size slotCount count : ℕ} {bytes : ℕ → UInt8} {values values' : Values}

/-- The write of an image to a slot of the region, with the check that it arrived. -/
theorem write_slot {slot : ℕ} (hsize : slotOffset slotCount ≤ size) (hslot : slot < slotCount)
    {image : List UInt8} (hlength : image.length = imageSize) (flash : Nor) :
    (Nor.io size).write (slotOffset slot) image flash = flash.programWords (slotOffset slot) image := by
  have hfits : ¬(slotOffset slot % 4 ≠ 0 ∨ image.length % 4 ≠ 0 ∨ slotOffset slot + image.length > size) := by
    rw [hlength]
    unfold slotOffset imageSize at *
    omega
  simp only [Nor.io, if_neg hfits]

theorem written_slot {slot : ℕ} {image : List UInt8} (hlength : image.length = imageSize) {flash : Nor}
    (h : (flash.programWords (slotOffset slot) image).1 = true) :
    slotBytes (flash.programWords (slotOffset slot) image).2.bytes slot = image := by
  have hwritten := programWords_written (by rw [hlength]; rfl) h
  rw [hlength] at hwritten
  exact hwritten

/-- The end of `ParamLog_Set` and `ParamLog_Clear` on records: it succeeds exactly if the image is written. -/
theorem append_eq (hsize : slotOffset slotCount ≤ size) (hroom : count < slotCount) (hpacked : Packed values')
    (store : ParamStore) (flash : Nor) :
    let written := flash.programWords (slotOffset count) (imageOf values')
    ParamLog.append (Nor.io size) ⟨store, count, slotCount⟩ (ParamStore.ofValues values') flash =
      if written.1 then (true, ⟨ParamStore.ofValues values', count + 1, slotCount⟩, written.2)
      else (false, ⟨store, count, slotCount⟩, written.2) := by
  intro written
  have hlength := imageOf_length hpacked
  have hslot : written.1 = true → slotBytes written.2.bytes count = imageOf values' := written_slot hlength
  have hwrite : (Nor.io size).write (slotOffset count) (imageOf values') flash = written :=
    write_slot hsize hroom hlength flash
  have hread := read_slot hsize hroom written.2
  unfold ParamLog.append
  rw [encode_ofValues hpacked]
  simp only [hwrite]
  clear_value written
  obtain ⟨ok, after⟩ := written
  cases ok with
  | false => rfl
  | true =>
    rw [hslot rfl] at hread
    simp only [hread, if_true]

/-- The compaction of records: erase, then write the latest image to slot 0. -/
theorem compact_eq (bytes : ℕ → UInt8) (hsize : slotOffset slotCount ≤ size) (hcount : 0 < slotCount)
    (log : ParamLog)
    {limit : Option ℕ} (hlimit : limit ≠ some 0) {image : List UInt8} (hlength : image.length = imageSize) :
    let written := (⟨blankBytes, limit.map (· - 1)⟩ : Nor).programWords (slotOffset 0) image
    ParamLog.compact (Nor.io size) log (some image) ⟨bytes, limit⟩ =
      if written.1 then (true, { log with nextSlot := 1 }, written.2)
      else (false, ParamLog.init, written.2) := by
  intro written
  have hslot : written.1 = true → slotBytes written.2.bytes 0 = image := written_slot hlength
  have herase : (Nor.io size).erase ⟨bytes, limit⟩ = (true, ⟨blankBytes, limit.map (· - 1)⟩) := if_neg hlimit
  have hwrite : (Nor.io size).write 0 image ⟨blankBytes, limit.map (· - 1)⟩ = written :=
    write_slot hsize hcount hlength ⟨blankBytes, limit.map (· - 1)⟩
  have hread : (Nor.io size).read 0 imageSize written.2 = (some (slotBytes written.2.bytes 0), written.2) :=
    read_slot hsize hcount written.2
  unfold ParamLog.compact
  simp only [herase, hwrite]
  clear_value written
  obtain ⟨ok, after⟩ := written
  cases ok with
  | false => rfl
  | true =>
    rw [hslot rfl] at hread
    simp only [hread, if_true]

end Write

end DualCan.Param
