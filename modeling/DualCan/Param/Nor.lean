import DualCan.Param.Log

/-!
# The flash region

The callbacks of `app_param_storage.c` over a NOR region: a word is programmed only where it is blank, an
erase makes the whole region blank, reads are faithful. A limit counts the physical operations that still
succeed, so that a write can tear, or the power fail, between any two of them.
-/

namespace DualCan.Param

/-- The bytes of the region, and how many erases and word programs still succeed, if that is limited. -/
structure Nor where
  bytes : ℕ → UInt8
  limit : Option ℕ

def blankBytes : ℕ → UInt8 := fun _ => 0xFF

/-- The bytes from `offset` on. -/
def region (bytes : ℕ → UInt8) (offset length : ℕ) : List UInt8 :=
  (List.range length).map fun index => bytes (offset + index)

/-- The bytes of a slot. -/
def slotBytes (bytes : ℕ → UInt8) (slot : ℕ) : List UInt8 := region bytes (slotOffset slot) imageSize

/-- The region after the bytes at `address` are set. -/
def program (bytes : ℕ → UInt8) (address : ℕ) (word : List UInt8) : ℕ → UInt8 := fun a =>
  if address ≤ a ∧ a < address + word.length then word.getD (a - address) 0 else bytes a

namespace Nor

/-- The loop of `app_flash_write`. -/
def programWords (flash : Nor) (address : ℕ) : List UInt8 → Bool × Nor
  | b0 :: b1 :: b2 :: b3 :: rest =>
    if ¬imageIsErased (region flash.bytes address 4) then (false, flash)
    else if flash.limit = some 0 then (false, flash)
    else
      programWords ⟨program flash.bytes address [b0, b1, b2, b3], flash.limit.map (· - 1)⟩ (address + 4) rest
  | _ => (true, flash)

/-- `app_flash_read`, `app_flash_erase` and `app_flash_write` on a region of `size` bytes. -/
def io (size : ℕ) : ParamStoreIo Nor where
  read offset length flash :=
    (if offset + length > size then none else some (region flash.bytes offset length), flash)
  erase flash :=
    if flash.limit = some 0 then (false, flash) else (true, ⟨blankBytes, flash.limit.map (· - 1)⟩)
  write offset data flash :=
    if offset % 4 ≠ 0 ∨ data.length % 4 ≠ 0 ∨ offset + data.length > size then (false, flash)
    else flash.programWords offset data

end Nor

/-! ## Regions -/

theorem region_length (bytes : ℕ → UInt8) (offset length : ℕ) :
    (region bytes offset length).length = length := by
  rw [region, List.length_map, List.length_range]

theorem region_congr {bytes bytes' : ℕ → UInt8} {offset length : ℕ}
    (h : ∀ a, offset ≤ a → a < offset + length → bytes' a = bytes a) :
    region bytes' offset length = region bytes offset length := by
  apply List.map_congr_left
  intro index hindex
  have hlt := List.mem_range.1 hindex
  exact h _ (Nat.le_add_right ..) (Nat.add_lt_add_left hlt _)

theorem region_eq {bytes : ℕ → UInt8} {offset : ℕ} {data : List UInt8}
    (h : ∀ index (hindex : index < data.length), bytes (offset + index) = data[index]) :
    region bytes offset data.length = data := by
  apply List.ext_getElem (region_length ..)
  intro index hleft hright
  simp only [region, List.getElem_map, List.getElem_range]
  exact h index hright

theorem region_add (bytes : ℕ → UInt8) (offset first rest : ℕ) :
    region bytes offset (first + rest) = region bytes offset first ++ region bytes (offset + first) rest := by
  simp only [region, List.range_add, List.map_append, List.map_map, Function.comp_def, Nat.add_assoc]

theorem blank_erased (offset length : ℕ) : imageIsErased (region blankBytes offset length) = true := by
  apply List.all_eq_true.2
  intro byte hbyte
  obtain ⟨index, -, rfl⟩ := List.mem_map.1 hbyte
  rfl

/-! ## Writing -/

theorem program_outside {bytes : ℕ → UInt8} {address a : ℕ} {word : List UInt8}
    (h : a < address ∨ address + word.length ≤ a) : program bytes address word a = bytes a := by
  unfold program
  rw [if_neg (by omega)]

theorem program_word (bytes : ℕ → UInt8) (address : ℕ) (word : List UInt8) :
    region (program bytes address word) address word.length = word := by
  apply region_eq
  intro index hindex
  unfold program
  rw [if_pos ⟨Nat.le_add_right .., Nat.add_lt_add_left hindex _⟩, Nat.add_sub_cancel_left,
    List.getD_eq_getElem?_getD, List.getElem?_eq_getElem hindex, Option.getD_some]

/-- A write changes nothing outside its bytes. -/
theorem programWords_outside (flash : Nor) (address : ℕ) (data : List UInt8) {a : ℕ}
    (h : a < address ∨ address + data.length ≤ a) :
    (flash.programWords address data).2.bytes a = flash.bytes a := by
  fun_induction Nor.programWords flash address data with
  | case1 => rfl
  | case2 => rfl
  | case3 flash address b0 b1 b2 b3 rest hblank hlimit ih =>
    simp only [List.length_cons] at h
    rw [ih (by omega)]
    exact program_outside (by simp only [List.length_cons, List.length_nil]; omega)
  | case4 => rfl

/-- Whole words of which there is not one. -/
theorem eq_nil_of_words {data : List UInt8} (hwords : data.length % 4 = 0)
    (h : ∀ b0 b1 b2 b3 rest, data = b0 :: b1 :: b2 :: b3 :: rest → False) : data = [] := by
  match data with
  | [] => rfl
  | b0 :: b1 :: b2 :: b3 :: rest => exact (h b0 b1 b2 b3 rest rfl).elim

/-- A write that succeeds leaves its data. -/
theorem programWords_written {flash : Nor} {address : ℕ} {data : List UInt8} (hwords : data.length % 4 = 0)
    (h : (flash.programWords address data).1 = true) :
    region (flash.programWords address data).2.bytes address data.length = data := by
  fun_induction Nor.programWords flash address data with
  | case1 => cases h
  | case2 => cases h
  | case3 flash address b0 b1 b2 b3 rest hblank hlimit ih =>
    simp only [List.length_cons] at hwords
    have hrest := ih (by omega) h
    have hword := program_word flash.bytes address [b0, b1, b2, b3]
    have hkept : region (Nor.programWords ⟨program flash.bytes address [b0, b1, b2, b3],
        flash.limit.map (· - 1)⟩ (address + 4) rest).2.bytes address 4 =
        region (program flash.bytes address [b0, b1, b2, b3]) address 4 :=
      region_congr fun a _ hlt => programWords_outside _ _ _ (Or.inl hlt)
    have hlength : (b0 :: b1 :: b2 :: b3 :: rest).length = 4 + rest.length := by
      simp only [List.length_cons]
      omega
    rw [hlength, region_add, hrest, hkept]
    exact congrArg (· ++ rest) hword
  | case4 data flash address hshort =>
    rw [eq_nil_of_words hwords hshort]
    rfl

/-- On blank words a write succeeds exactly if the limit covers them. -/
theorem programWords_blank {flash : Nor} {address : ℕ} {data : List UInt8} (hwords : data.length % 4 = 0)
    (h : imageIsErased (region flash.bytes address data.length) = true) :
    (flash.programWords address data).1 =
      flash.limit.all fun limit => decide (data.length / 4 ≤ limit) := by
  fun_induction Nor.programWords flash address data with
  | case1 flash address b0 b1 b2 b3 rest hused =>
    have hlength : (b0 :: b1 :: b2 :: b3 :: rest).length = 4 + rest.length := by
      simp only [List.length_cons]
      omega
    rw [hlength, region_add, imageIsErased, List.all_append, Bool.and_eq_true] at h
    exact absurd h.1 hused
  | case2 flash address b0 b1 b2 b3 rest hblank hlimit =>
    rw [hlimit]
    simp only [Option.all_some, List.length_cons]
    exact (decide_eq_false (by omega)).symm
  | case3 flash address b0 b1 b2 b3 rest hblank hlimit ih =>
    have hlength : (b0 :: b1 :: b2 :: b3 :: rest).length = 4 + rest.length := by
      simp only [List.length_cons]
      omega
    rw [hlength, region_add, imageIsErased, List.all_append, Bool.and_eq_true] at h
    have hlater : region (program flash.bytes address [b0, b1, b2, b3]) (address + 4) rest.length =
        region flash.bytes (address + 4) rest.length :=
      region_congr fun a hle _ => program_outside (Or.inr hle)
    rw [ih (by omega) (by rw [hlater]; exact h.2), hlength]
    cases hl : flash.limit with
    | none => rfl
    | some limit =>
      have hpositive : limit ≠ 0 := fun hzero => hlimit (hzero ▸ hl)
      simp only [Option.map_some, Option.all_some]
      congr 1
      apply propext
      omega
  | case4 data flash address hshort =>
    rw [eq_nil_of_words hwords hshort]
    cases flash.limit with
    | none => rfl
    | some limit => exact (decide_eq_true (Nat.zero_le limit)).symm

end DualCan.Param
