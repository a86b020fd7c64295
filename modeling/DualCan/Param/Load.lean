import DualCan.Param.Log

/-!
# Loads that fail

`ParamLog_Load` fails in two ways. Where the compaction fails it initialises the log again; where a read fails
in the middle of the scan it leaves the log as the scan has filled it. `load_clean_iff` says which loads leave
a clean log.
-/

namespace DualCan.Param

/-- A log that holds nothing and takes nothing. -/
structure CleanLog {φ : Type} (io : ParamStoreIo φ) (log : ParamLog) : Prop where
  state : log = ParamLog.init
  get : ∀ did capacity value, log.get did capacity = some value → value = []
  set : ∀ did value flash, log.set io did value flash = (false, log, flash)

/-- Of the `count` slots from `slot` on, one cannot be read, and those before it hold records: their images
decode and are not blank. -/
inductive ReadFails {φ : Type} (io : ParamStoreIo φ) : ℕ → ℕ → φ → Prop
  | here {count slot : ℕ} {flash : φ} (h : (io.read (slotOffset slot) imageSize flash).1 = none) :
      ReadFails io (count + 1) slot flash
  | later {count slot : ℕ} {flash flash' : φ} {image : List UInt8}
      (hread : io.read (slotOffset slot) imageSize flash = (some image, flash'))
      (hblank : imageIsErased image = false) (hrecord : (ParamStore.decode image).isSome = true)
      (h : ReadFails io count (slot + 1) flash') : ReadFails io (count + 1) slot flash

variable {φ : Type} {io : ParamStoreIo φ}

theorem cleanLog_init (io : ParamStoreIo φ) : CleanLog io ParamLog.init where
  state := rfl
  get did capacity value h := by
    have hempty : ∀ entry ∈ ParamStore.init.entries, entry = blankEntry := fun _ => List.eq_of_mem_replicate
    unfold ParamLog.get ParamStore.get at h
    split at h
    · cases h
    · rename_i entry hfind
      rw [hempty entry (List.mem_of_find?_eq_some hfind)] at h
      split at h
      · cases h
      · exact (Option.some.inj h).symm
  set _ _ _ := rfl

theorem scan_unread {count slot : ℕ} {log : ParamLog} {latest : Option (List UInt8)} {flash flash' : φ}
    (hread : io.read (slotOffset slot) imageSize flash = (none, flash')) :
    ParamLog.scan io (count + 1) slot log latest flash = (.failed log, flash') := by
  simp only [ParamLog.scan, hread]

theorem scan_record {count slot : ℕ} {log : ParamLog} {latest : Option (List UInt8)} {flash flash' : φ}
    {image : List UInt8} {store : ParamStore}
    (hread : io.read (slotOffset slot) imageSize flash = (some image, flash'))
    (hblank : imageIsErased image = false) (hdecode : ParamStore.decode image = some store) :
    ParamLog.scan io (count + 1) slot log latest flash =
      ParamLog.scan io count (slot + 1) { log with store := store, nextSlot := slot + 1 } (some image) flash' := by
  simp only [ParamLog.scan, hread, hblank, hdecode, Bool.false_eq_true, if_false]

/-- A scan that fails leaves the number of slots in the log. -/
theorem scan_slotCount {count slot : ℕ} {log log' : ParamLog} {latest : Option (List UInt8)} {flash : φ}
    (h : (ParamLog.scan io count slot log latest flash).1 = .failed log') : log'.slotCount = log.slotCount := by
  induction count generalizing slot log latest flash with
  | zero => cases h
  | succ count ih =>
    unfold ParamLog.scan at h
    split at h
    · cases h
      rfl
    · split at h
      · cases h
      · split at h
        · have hrest := ih h
          exact hrest
        · cases h

theorem scan_failed_iff (count slot : ℕ) (log : ParamLog) (latest : Option (List UInt8)) (flash : φ) :
    (∃ log', (ParamLog.scan io count slot log latest flash).1 = .failed log') ↔
      ReadFails io count slot flash := by
  induction count generalizing slot log latest flash with
  | zero => exact ⟨nofun, nofun⟩
  | succ count ih =>
    rcases hread : io.read (slotOffset slot) imageSize flash with ⟨_ | image, flash'⟩
    · have hfailed : ReadFails io (count + 1) slot flash := .here (by rw [hread])
      rw [scan_unread hread]
      exact ⟨fun _ => hfailed, fun _ => ⟨log, rfl⟩⟩
    -- the slot can be read, so the failure comes later
    have hlater : ReadFails io (count + 1) slot flash ↔ imageIsErased image = false ∧
        (ParamStore.decode image).isSome = true ∧ ReadFails io count (slot + 1) flash' := by
      constructor
      · intro h
        cases h with
        | here h =>
          rw [hread] at h
          cases h
        | later hread' hblank hrecord h =>
          rw [hread] at hread'
          cases hread'
          exact ⟨hblank, hrecord, h⟩
      · rintro ⟨hblank, hrecord, h⟩
        exact .later hread hblank hrecord h
    rw [hlater]
    simp only [ParamLog.scan, hread]
    cases hblank : imageIsErased image with
    | true => simp
    | false =>
      cases hdecode : ParamStore.decode image with
      | none => simp
      | some candidate => simp [ih]

theorem compact_clean (log : ParamLog) (latest : Option (List UInt8)) (flash : φ)
    (h : (ParamLog.compact io log latest flash).1 = false) :
    (ParamLog.compact io log latest flash).2.1 = ParamLog.init := by
  unfold ParamLog.compact at h ⊢
  split at h
  · rfl
  · split at h
    · cases h
    · split at h
      · rfl
      · dsimp only at h ⊢
        split at h
        · cases h
        · rename_i hverify
          rw [if_neg hverify]

/-- **Clean failures**: a load that fails leaves a clean log exactly if no read of the scan fails. -/
theorem load_clean_iff (io : ParamStoreIo φ) {slotCount : ℕ} (hcount : 0 < slotCount)
    (hmax : slotCount ≤ maxSlots) (log : ParamLog) (flash : φ) :
    ((ParamLog.load io slotCount log flash).1 = false → CleanLog io (ParamLog.load io slotCount log flash).2.1) ↔
      ¬ReadFails io slotCount 0 flash := by
  have hvalid : ¬(slotCount = 0 ∨ slotCount > maxSlots) := by omega
  rw [← scan_failed_iff slotCount 0 { ParamLog.init with slotCount := slotCount } none flash]
  unfold ParamLog.load
  rw [if_neg hvalid]
  rcases hscan : ParamLog.scan io slotCount 0 { ParamLog.init with slotCount := slotCount } none flash with
    ⟨log' | log' | ⟨log', latest⟩, flash'⟩
  · have hslots := scan_slotCount (congrArg Prod.fst hscan)
    constructor
    · intro hclean
      have hinit := congrArg ParamLog.slotCount (hclean rfl).state
      rw [hslots] at hinit
      exact absurd hinit (Nat.ne_of_gt hcount)
    · exact fun hnot => absurd ⟨log', rfl⟩ hnot
  · exact ⟨fun _ => nofun, fun _ => nofun⟩
  · refine ⟨fun _ => nofun, fun _ hfalse => ?_⟩
    dsimp only at hfalse ⊢
    rw [compact_clean _ _ _ hfalse]
    exact cleanLog_init io

/-- A region of two slots with a record in the first; the second cannot be read, and nothing can be erased. -/
def unreadableSecond (image : List UInt8) : ParamStoreIo Unit where
  read offset _ _ := (if offset = 0 then some image else none, ())
  erase _ := (false, ())
  write _ _ _ := (true, ())

/-- One stored identifier. -/
def oneValue : Values := [(0xF190, [0x41])]

theorem packed_oneValue : Packed oneValue := ⟨by decide, by decide, by decide⟩

theorem load_clean_iff_oneSlot :
    ((ParamLog.load (unreadableSecond (imageOf oneValue)) 1 ParamLog.init ()).1 = false →
        CleanLog (unreadableSecond (imageOf oneValue))
          (ParamLog.load (unreadableSecond (imageOf oneValue)) 1 ParamLog.init ()).2.1) ↔
      ¬ReadFails (unreadableSecond (imageOf oneValue)) 1 0 () :=
  load_clean_iff _ (by decide) (by decide) ParamLog.init ()

theorem load_unreadableSecond {image : List UInt8} {store : ParamStore} (hblank : imageIsErased image = false)
    (hdecode : ParamStore.decode image = some store) :
    ParamLog.load (unreadableSecond image) 2 ParamLog.init () = (false, ⟨store, 1, 2⟩, ()) := by
  have hvalid : ¬(2 = 0 ∨ 2 > maxSlots) := by decide
  have hfirst : (unreadableSecond image).read (slotOffset 0) imageSize () = (some image, ()) := rfl
  have hsecond : (unreadableSecond image).read (slotOffset (0 + 1)) imageSize () = (none, ()) := rfl
  rw [ParamLog.load, if_neg hvalid, scan_record hfirst hblank hdecode, scan_unread hsecond]

/-- The failed load of both slots leaves the value of the first, and room for the next record. -/
theorem not_load_clean : ¬((ParamLog.load (unreadableSecond (imageOf oneValue)) 2 ParamLog.init ()).1 = false →
    CleanLog (unreadableSecond (imageOf oneValue))
      (ParamLog.load (unreadableSecond (imageOf oneValue)) 2 ParamLog.init ()).2.1) := by
  have hblank : imageIsErased (imageOf oneValue) = false := by
    have hmagic : imageOf oneValue = 0x42 :: (imageOf oneValue).tail := rfl
    rw [hmagic]
    rfl
  intro h
  rw [load_unreadableSecond hblank (decode_imageOf packed_oneValue)] at h
  have hstate := congrArg ParamLog.slotCount (h rfl).state
  exact absurd hstate (by decide)

end DualCan.Param
