import DualCan.Param.Store

/-!
# The parameter log

`param_log.c`: images of the store are appended to slots of 80 bytes, and a start-up scan takes the last one.
When no blank slot follows the records the scan erases the region and writes that image to slot 0. The flash
callbacks act on a state `φ`, what their context pointer reaches.
-/

namespace DualCan.Param

def maxSlots : ℕ := 1638

/-- `ParamStoreIo_t`. `none` and `false` are failures; the three callbacks are set. -/
structure ParamStoreIo (φ : Type) where
  read : ℕ → ℕ → φ → Option (List UInt8) × φ
  erase : φ → Bool × φ
  write : ℕ → List UInt8 → φ → Bool × φ

/-- `ParamLog_t`. -/
structure ParamLog where
  store : ParamStore
  nextSlot : ℕ
  slotCount : ℕ
  deriving DecidableEq, Repr

def slotOffset (slot : ℕ) : ℕ := slot * imageSize

def imageIsErased (image : List UInt8) : Bool := image.all fun byte => byte == 0xFF

/-- How the scan of the slots ends. -/
inductive Scanned where
  | failed (log : ParamLog)
  | blankSlot (log : ParamLog)
  | compact (log : ParamLog) (latest : Option (List UInt8))

namespace ParamLog

variable {φ : Type} (io : ParamStoreIo φ)

/-- `ParamLog_Init`. -/
def init : ParamLog := ⟨ParamStore.init, 0, 0⟩

/-- The loop of `ParamLog_Load` over `count` slots from `slot` on. -/
def scan : ℕ → ℕ → ParamLog → Option (List UInt8) → φ → Scanned × φ
  | 0, _, log, latest, flash => (.compact log latest, flash)
  | count + 1, slot, log, latest, flash =>
    match io.read (slotOffset slot) imageSize flash with
    | (none, flash) => (.failed log, flash)
    | (some image, flash) =>
      if imageIsErased image then (.blankSlot { log with nextSlot := slot }, flash)
      else
        match ParamStore.decode image with
        | some candidate =>
          scan count (slot + 1) { log with store := candidate, nextSlot := slot + 1 } (some image) flash
        | none => (.compact log latest, flash)

/-- The end of `ParamLog_Load`: the region is erased and the latest image written back. -/
def compact (log : ParamLog) (latest : Option (List UInt8)) (flash : φ) : Bool × ParamLog × φ :=
  match io.erase flash with
  | (false, flash) => (false, init, flash)
  | (true, flash) =>
    match latest with
    | none => (true, log, flash)
    | some image =>
      match io.write 0 image flash with
      | (false, flash) => (false, init, flash)
      | (true, flash) =>
        match io.read 0 imageSize flash with
        | (verification, flash) =>
          if verification = some image then (true, { log with nextSlot := 1 }, flash)
          else (false, init, flash)

/-- `ParamLog_Load`. -/
def load (slotCount : ℕ) (log : ParamLog) (flash : φ) : Bool × ParamLog × φ :=
  if slotCount = 0 ∨ slotCount > maxSlots then (false, log, flash)
  else
    match scan io slotCount 0 { init with slotCount := slotCount } none flash with
    | (.failed log, flash) => (false, log, flash)
    | (.blankSlot log, flash) => (true, log, flash)
    | (.compact log latest, flash) => compact io log latest flash

/-- `ParamLog_Get`. -/
def get (log : ParamLog) (did : UInt16) (capacity : ℕ) : Option (List UInt8) := log.store.get did capacity

/-- The end of `ParamLog_Set` and `ParamLog_Clear`: the image of the store is written and read back. -/
def append (log : ParamLog) (candidate : ParamStore) (flash : φ) : Bool × ParamLog × φ :=
  match candidate.encode with
  | none => (false, log, flash)
  | some image =>
    match io.write (slotOffset log.nextSlot) image flash with
    | (false, flash) => (false, log, flash)
    | (true, flash) =>
      match io.read (slotOffset log.nextSlot) imageSize flash with
      | (verification, flash) =>
        if verification = some image then
          (true, { log with store := candidate, nextSlot := log.nextSlot + 1 }, flash)
        else (false, log, flash)

/-- `ParamLog_Set`. -/
def set (log : ParamLog) (did : UInt16) (value : List UInt8) (flash : φ) : Bool × ParamLog × φ :=
  if log.nextSlot ≥ log.slotCount then (false, log, flash)
  else
    match log.store.update did value with
    | none => (false, log, flash)
    | some candidate => log.append io candidate flash

/-- `ParamLog_Clear`. -/
def clear (log : ParamLog) (flash : φ) : Bool × ParamLog × φ :=
  if log.nextSlot ≥ log.slotCount then (false, log, flash) else log.append io ParamStore.init flash

end ParamLog

end DualCan.Param
