import Mathlib.Algebra.GroupWithZero.Nat
import Mathlib.Data.List.Basic
import Mathlib.Data.List.Perm.Subperm
import Mathlib.Logic.Function.Iterate
import Mathlib.Tactic.Common

/-!
# The parameter store and its image

`param_store.c`: three entries in RAM, and the 80-byte image that is written to flash. A store that is built
by updates has a normal form, the list of its identifiers with their values; `decode_encode` is the round
trip on these.
-/

namespace DualCan.Param

/-! ## Constants -/

def maxEntries : ℕ := 3
def valueMax : ℕ := 17
def imageSize : ℕ := 80
def storeMagic : UInt32 := 0x50324442
def storeVersion : UInt16 := 1
def headerSize : ℕ := 8
def entrySize : ℕ := 22
def crcOffset : ℕ := 76

def paramStoreDids : List UInt16 := [0xF190, 0xF191, 0x0100]

/-! ## Bytes -/

def putU16 (value : UInt16) : List UInt8 := [value.toUInt8, (value >>> 8).toUInt8]

def putU32 (value : UInt32) : List UInt8 :=
  [value.toUInt8, (value >>> 8).toUInt8, (value >>> 16).toUInt8, (value >>> 24).toUInt8]

def getU16 (image : List UInt8) (offset : ℕ) : UInt16 :=
  (image.getD offset 0).toUInt16 ||| ((image.getD (offset + 1) 0).toUInt16 <<< 8)

def getU32 (image : List UInt8) (offset : ℕ) : UInt32 :=
  (image.getD offset 0).toUInt32 ||| ((image.getD (offset + 1) 0).toUInt32 <<< 8) |||
    ((image.getD (offset + 2) 0).toUInt32 <<< 16) ||| ((image.getD (offset + 3) 0).toUInt32 <<< 24)

def crcBit (crc : UInt32) : UInt32 :=
  if crc &&& 1 ≠ 0 then (crc >>> 1) ^^^ 0xEDB88320 else crc >>> 1

/-- `param_crc32`. -/
def paramCrc32 (data : List UInt8) : UInt32 :=
  ~~~data.foldl (fun crc byte => crcBit^[8] (crc ^^^ byte.toUInt32)) 0xFFFFFFFF

/-- Bytes followed by zeros up to a length. -/
def padded (size : ℕ) (data : List UInt8) : List UInt8 := data ++ List.replicate (size - data.length) 0

/-! ## The store -/

/-- `ParamStoreEntry_t`. `data` has 17 bytes, of which `length` are the value. -/
structure ParamStoreEntry where
  did : UInt16
  length : ℕ
  data : List UInt8
  deriving DecidableEq, Repr

/-- `ParamStore_t`. -/
structure ParamStore where
  entries : List ParamStoreEntry
  deriving DecidableEq, Repr

def blankEntry : ParamStoreEntry := ⟨0, 0, List.replicate valueMax 0⟩

/-- An entry with a value. -/
def valueEntry (did : UInt16) (value : List UInt8) : ParamStoreEntry :=
  ⟨did, value.length, padded valueMax value⟩

def knownDid (did : UInt16) : Bool := paramStoreDids.contains did

/-- The list with its first element that satisfies `p` replaced. -/
def replaceFirst {α : Type*} (p : α → Bool) (new : α) : List α → Option (List α)
  | [] => none
  | first :: rest =>
    if p first then some (new :: rest) else (replaceFirst p new rest).map (first :: ·)

namespace ParamStore

/-- `ParamStore_Init`. -/
def init : ParamStore := ⟨List.replicate maxEntries blankEntry⟩

def findEntry (store : ParamStore) (did : UInt16) : Option ParamStoreEntry :=
  store.entries.find? fun entry => entry.did == did

/-- `ParamStore_Get`. -/
def get (store : ParamStore) (did : UInt16) (capacity : ℕ) : Option (List UInt8) :=
  match store.findEntry did with
  | none => none
  | some entry => if entry.length > capacity then none else some (entry.data.take entry.length)

/-- `ParamStore_Update`: `none` where it returns `false`. The entry of the identifier is overwritten, else
the first entry without a value. -/
def update (store : ParamStore) (did : UInt16) (value : List UInt8) : Option ParamStore :=
  if value.length = 0 ∨ value.length > valueMax ∨ !knownDid did then none
  else
    match replaceFirst (fun entry => entry.did == did) (valueEntry did value) store.entries with
    | some entries => some ⟨entries⟩
    | none =>
      (replaceFirst (fun entry => entry.length == 0) (valueEntry did value) store.entries).map .mk

/-- The 22 bytes of an entry in the image. -/
def entryBytes (entry : ParamStoreEntry) : List UInt8 :=
  putU16 entry.did ++ putU16 entry.length.toUInt16 ++
    padded (entrySize - 4) (entry.data.take entry.length)

/-- The loop of `serialize`. -/
def serializeEntries : List ParamStoreEntry → ℕ → Option (List (List UInt8))
  | [], _ => some []
  | entry :: rest, offset =>
    if entry.length = 0 then serializeEntries rest offset
    else if entry.length > valueMax ∨ !knownDid entry.did ∨ offset + entrySize > crcOffset then none
    else (serializeEntries rest (offset + entrySize)).map (entryBytes entry :: ·)

/-- The image up to its checksum. -/
def imageBody (blocks : List (List UInt8)) : List UInt8 :=
  padded crcOffset (putU32 storeMagic ++ putU16 storeVersion ++ putU16 blocks.length.toUInt16 ++
    blocks.flatten)

/-- `ParamStore_Encode`. -/
def encode (store : ParamStore) : Option (List UInt8) :=
  (serializeEntries store.entries headerSize).map fun blocks =>
    imageBody blocks ++ putU32 (paramCrc32 (imageBody blocks))

/-- The loop of `deserialize`, for the entries from `index` on. -/
def deserializeEntries (image : List UInt8) : ℕ → ℕ → ParamStore → Option ParamStore
  | 0, _, store => some store
  | count + 1, index, store =>
    let offset := headerSize + entrySize * index
    let did := getU16 image offset
    let length := (getU16 image (offset + 2)).toNat
    if length > valueMax ∨ !knownDid did ∨ (store.findEntry did).isSome then none
    else
      let entry := valueEntry did ((image.drop (offset + 4)).take length)
      deserializeEntries image count (index + 1) ⟨store.entries.set index entry⟩

/-- `ParamStore_Decode`. -/
def decode (image : List UInt8) : Option ParamStore :=
  if getU32 image 0 ≠ storeMagic ∨ getU16 image 4 ≠ storeVersion ∨
      getU32 image crcOffset ≠ paramCrc32 (image.take crcOffset) then none
  else
    let count := (getU16 image 6).toNat
    if count > maxEntries then none else deserializeEntries image count 0 init

end ParamStore

/-! ## Reading what was put -/

theorem or_shifted {a k : ℕ} (h : a < 2 ^ k) (b : ℕ) : a ||| b * 2 ^ k = a + b * 2 ^ k := by
  rw [Nat.or_comm, Nat.add_comm, ← Nat.shiftLeft_eq, Nat.shiftLeft_add_eq_or_of_lt h]

theorem getU16_put (value : UInt16) (rest : List UInt8) : getU16 (putU16 value ++ rest) 0 = value := by
  change value.toUInt8.toUInt16 ||| ((value >>> 8).toUInt8.toUInt16 <<< 8) = value
  apply UInt16.toNat_inj.1
  have hlt := value.toNat_lt
  have hlow : value.toNat % 256 < 2 ^ 8 := Nat.mod_lt _ (Nat.two_pow_pos 8)
  have hhigh : ((value.toNat >>> 8 % 256) <<< 8) % 65536 = value.toNat / 256 * 2 ^ 8 := by
    rw [Nat.shiftLeft_eq, Nat.shiftRight_eq_div_pow]
    omega
  simp only [UInt16.toNat_or, UInt16.toNat_shiftLeft, UInt8.toNat_toUInt16, UInt16.toNat_toUInt8,
    UInt16.toNat_shiftRight, UInt16.reduceToNat, Nat.reduceMod, Nat.reducePow]
  rw [hhigh, or_shifted hlow]
  omega

theorem getU32_put (value : UInt32) (rest : List UInt8) : getU32 (putU32 value ++ rest) 0 = value := by
  change value.toUInt8.toUInt32 ||| ((value >>> 8).toUInt8.toUInt32 <<< 8) |||
    ((value >>> 16).toUInt8.toUInt32 <<< 16) ||| ((value >>> 24).toUInt8.toUInt32 <<< 24) = value
  apply UInt32.toNat_inj.1
  have hlt := value.toNat_lt
  simp only [UInt32.toNat_or, UInt32.toNat_shiftLeft, UInt8.toNat_toUInt32, UInt32.toNat_toUInt8,
    UInt32.toNat_shiftRight, UInt32.reduceToNat, Nat.reduceMod, Nat.reducePow, Nat.shiftLeft_eq,
    Nat.shiftRight_eq_div_pow]
  generalize value.toNat = n at hlt
  have hfirst := or_shifted (a := n % 256) (k := 8) (by omega) (n / 256 % 256)
  have hsecond := or_shifted (a := n % 256 + n / 256 % 256 * 2 ^ 8) (k := 16) (by omega) (n / 65536 % 256)
  have hthird := or_shifted (a := n % 256 + n / 256 % 256 * 2 ^ 8 + n / 65536 % 256 * 2 ^ 16) (k := 24)
    (by omega) (n / 16777216 % 256)
  simp only [Nat.reducePow] at hfirst hsecond hthird
  rw [Nat.mod_eq_of_lt (a := n / 256 % 256 * 256) (by omega),
    Nat.mod_eq_of_lt (a := n / 65536 % 256 * 65536) (by omega),
    Nat.mod_eq_of_lt (a := n / 16777216 % 256 * 16777216) (by omega), hfirst, hsecond, hthird]
  omega

theorem getU16_drop (image : List UInt8) (offset index : ℕ) :
    getU16 (image.drop offset) index = getU16 image (offset + index) := by
  simp only [getU16, List.getD_eq_getElem?_getD, List.getElem?_drop, Nat.add_assoc]

theorem getU32_drop (image : List UInt8) (offset index : ℕ) :
    getU32 (image.drop offset) index = getU32 image (offset + index) := by
  simp only [getU32, List.getD_eq_getElem?_getD, List.getElem?_drop, Nat.add_assoc]

theorem padded_length {size : ℕ} {data : List UInt8} (h : data.length ≤ size) :
    (padded size data).length = size := by
  rw [padded, List.length_append, List.length_replicate, Nat.add_sub_cancel' h]

theorem padded_take (size : ℕ) (data : List UInt8) : (padded size data).take data.length = data :=
  List.take_left

/-! ## The normal form -/

/-- Identifiers with their values, in the order of their entries. -/
abbrev Values := List (UInt16 × List UInt8)

/-- The first entries hold the values, the others are blank. -/
def ParamStore.ofValues (values : Values) : ParamStore :=
  ⟨values.map (fun v => valueEntry v.1 v.2) ++ List.replicate (maxEntries - values.length) blankEntry⟩

/-- What updates build: known identifiers, each once, with values of 1 to 17 bytes. -/
structure Packed (values : Values) : Prop where
  nodup : (values.map Prod.fst).Nodup
  known : ∀ v ∈ values, knownDid v.1 = true
  sized : ∀ v ∈ values, 0 < v.2.length ∧ v.2.length ≤ valueMax

theorem packed_nil : Packed [] := ⟨List.nodup_nil, nofun, nofun⟩

theorem Packed.length_le {values : Values} (h : Packed values) : values.length ≤ maxEntries := by
  have hsub : values.map Prod.fst ⊆ paramStoreDids := by
    intro did hmem
    obtain ⟨v, hv, rfl⟩ := List.mem_map.1 hmem
    exact List.contains_iff_mem.1 (h.known v hv)
  have hle := (List.subperm_of_subset h.nodup hsub).length_le
  rwa [List.length_map] at hle

theorem Packed.tail {v : UInt16 × List UInt8} {rest : Values} (h : Packed (v :: rest)) : Packed rest :=
  ⟨(List.nodup_cons.1 h.nodup).2, fun w hw => h.known w (List.mem_cons_of_mem _ hw),
    fun w hw => h.sized w (List.mem_cons_of_mem _ hw)⟩

theorem blank_did_unknown {did : UInt16} (h : knownDid did = true) : blankEntry.did ≠ did := by
  rintro rfl
  exact absurd h (by decide)

/-- The identifiers with a value are those with an entry. -/
theorem findEntry_ofValues {did : UInt16} (hknown : knownDid did = true) (values : Values) :
    (ParamStore.ofValues values).findEntry did =
      (values.lookup did).map (valueEntry did) := by
  unfold ParamStore.findEntry ParamStore.ofValues
  generalize maxEntries - values.length = blanks
  induction values with
  | nil =>
    have hblank : (blankEntry.did == did) = false := beq_false_of_ne (blank_did_unknown hknown)
    simp [hblank]
  | cons v rest ih =>
    rw [List.map_cons, List.cons_append, List.find?_cons, List.lookup_cons]
    by_cases heq : v.1 = did
    · subst heq
      simp [valueEntry]
    · have hleft : ((valueEntry v.1 v.2).did == did) = false := beq_false_of_ne heq
      have hright : (did == v.1) = false := beq_false_of_ne (Ne.symm heq)
      simp only [hleft, hright]
      exact ih

/-- `ParamStore_Get` of a known identifier finds its value. -/
theorem get_ofValues {did : UInt16} (hknown : knownDid did = true) (values : Values) (capacity : ℕ) :
    (ParamStore.ofValues values).get did capacity =
      (values.lookup did).filter fun value => value.length ≤ capacity := by
  unfold ParamStore.get
  rw [findEntry_ofValues hknown]
  cases values.lookup did with
  | none => rfl
  | some value =>
    have htake : (valueEntry did value).data.take (valueEntry did value).length = value :=
      padded_take valueMax value
    dsimp only [Option.map_some, Option.filter_some]
    rw [htake]
    by_cases hlong : (valueEntry did value).length > capacity
    · have hnot : ¬value.length ≤ capacity := Nat.not_le.2 hlong
      simp [hlong, hnot]
    · have hle : value.length ≤ capacity := Nat.not_lt.1 hlong
      simp [hlong, hle]

/-! ## Updates -/

/-- The values with that of an identifier replaced, or added. -/
def setValue (did : UInt16) (value : List UInt8) : Values → Values
  | [] => [(did, value)]
  | first :: rest => if first.1 = did then (did, value) :: rest else first :: setValue did value rest

theorem lookup_values (other : UInt16) (first : UInt16 × List UInt8) (rest : Values) :
    List.lookup other (first :: rest) = if other = first.1 then some first.2 else rest.lookup other := by
  rw [List.lookup_cons]
  by_cases heq : other = first.1
  · rw [if_pos heq, beq_iff_eq.2 heq]
  · rw [if_neg heq, beq_false_of_ne heq]

theorem lookup_setValue (did other : UInt16) (value : List UInt8) (values : Values) :
    (setValue did value values).lookup other = if other = did then some value else values.lookup other := by
  induction values with
  | nil => rw [setValue, lookup_values]
  | cons first rest ih =>
    unfold setValue
    by_cases hfirst : first.1 = did
    · rw [if_pos hfirst, lookup_values, lookup_values, hfirst]
      by_cases heq : other = did
      · rw [if_pos heq, if_pos heq]
      · rw [if_neg heq, if_neg heq, if_neg heq]
    · rw [if_neg hfirst, lookup_values, lookup_values, ih]
      by_cases heq : other = did
      · have hother : other ≠ first.1 := fun h => hfirst (h.symm.trans heq)
        rw [if_neg hother, if_pos heq, if_pos heq]
      · rw [if_neg heq, if_neg heq]

theorem mem_setValue {did : UInt16} {value : List UInt8} {values : Values} {v : UInt16 × List UInt8}
    (h : v ∈ setValue did value values) : v = (did, value) ∨ v ∈ values := by
  induction values with
  | nil => exact Or.inl (List.mem_singleton.1 h)
  | cons first rest ih =>
    unfold setValue at h
    split at h
    · rcases List.mem_cons.1 h with rfl | hrest
      · exact Or.inl rfl
      · exact Or.inr (List.mem_cons_of_mem _ hrest)
    · rcases List.mem_cons.1 h with rfl | hrest
      · exact Or.inr List.mem_cons_self
      · exact (ih hrest).imp_right (List.mem_cons_of_mem _)

theorem setValue_new {did : UInt16} {value : List UInt8} {values : Values}
    (h : did ∉ values.map Prod.fst) : setValue did value values = values ++ [(did, value)] := by
  induction values with
  | nil => rfl
  | cons first rest ih =>
    rw [List.map_cons, List.mem_cons, not_or] at h
    rw [setValue, if_neg (Ne.symm h.1), ih h.2]
    rfl

theorem setValue_keys {did : UInt16} {value : List UInt8} {values : Values}
    (h : did ∈ values.map Prod.fst) : (setValue did value values).map Prod.fst = values.map Prod.fst := by
  induction values with
  | nil => cases h
  | cons first rest ih =>
    unfold setValue
    by_cases hfirst : first.1 = did
    · rw [if_pos hfirst, List.map_cons, List.map_cons, hfirst]
    · rw [List.map_cons, List.mem_cons] at h
      rw [if_neg hfirst, List.map_cons, List.map_cons, ih (h.resolve_left (Ne.symm hfirst))]

theorem Packed.setValue {values : Values} (h : Packed values) {did : UInt16} {value : List UInt8}
    (hknown : knownDid did = true) (hsized : 0 < value.length ∧ value.length ≤ valueMax) :
    Packed (setValue did value values) := by
  refine ⟨?_, ?_, ?_⟩
  · by_cases hmem : did ∈ values.map Prod.fst
    · rw [setValue_keys hmem]
      exact h.nodup
    · rw [setValue_new hmem, List.map_append]
      refine List.nodup_append.2 ⟨h.nodup, List.pairwise_singleton .., ?_⟩
      intro key hkey _ hsame heq
      rw [List.map_singleton, List.mem_singleton] at hsame
      rw [heq, hsame] at hkey
      exact hmem hkey
  · intro v hv
    rcases mem_setValue hv with rfl | hold
    · exact hknown
    · exact h.known v hold
  · intro v hv
    rcases mem_setValue hv with rfl | hold
    · exact hsized
    · exact h.sized v hold

theorem replaceFirst_skip {α : Type*} {p : α → Bool} (new : α) {front : List α}
    (h : ∀ x ∈ front, p x = false) (back : List α) :
    replaceFirst p new (front ++ back) = (replaceFirst p new back).map (front ++ ·) := by
  induction front with
  | nil => exact Option.map_id'.symm
  | cons first rest ih =>
    have hfirst := h first List.mem_cons_self
    rw [List.cons_append, replaceFirst, if_neg (by rw [hfirst]; exact Bool.false_ne_true),
      ih fun x hx => h x (List.mem_cons_of_mem _ hx), Option.map_map]
    rfl

theorem replaceFirst_none {α : Type*} {p : α → Bool} {new : α} {l : List α} (h : ∀ x ∈ l, p x = false) :
    replaceFirst p new l = none := by
  have hskip := replaceFirst_skip new h []
  rw [List.append_nil] at hskip
  exact hskip

/-- An identifier that has a value gets the new one in place. -/
theorem replaceFirst_known {did : UInt16} {value : List UInt8} {values : Values}
    (h : did ∈ values.map Prod.fst) (back : List ParamStoreEntry) :
    replaceFirst (fun entry => entry.did == did) (valueEntry did value)
        (values.map (fun v => valueEntry v.1 v.2) ++ back) =
      some ((setValue did value values).map (fun v => valueEntry v.1 v.2) ++ back) := by
  induction values with
  | nil => cases h
  | cons first rest ih =>
    unfold setValue
    rw [List.map_cons, List.cons_append, replaceFirst]
    by_cases hfirst : first.1 = did
    · have htest : ((valueEntry first.1 first.2).did == did) = true := beq_iff_eq.2 hfirst
      rw [if_pos htest, if_pos hfirst]
      rfl
    · have htest : ¬((valueEntry first.1 first.2).did == did) = true := fun h => hfirst (beq_iff_eq.1 h)
      rw [List.map_cons, List.mem_cons] at h
      rw [if_neg htest, if_neg hfirst, ih (h.resolve_left (Ne.symm hfirst))]
      rfl

/-- `ParamStore_Update` accepts a known identifier with 1 to 17 bytes, and nothing else. -/
theorem update_ofValues {values : Values} (h : Packed values) (did : UInt16) (value : List UInt8) :
    (ParamStore.ofValues values).update did value =
      if 0 < value.length ∧ value.length ≤ valueMax ∧ knownDid did = true then
        some (ParamStore.ofValues (setValue did value values))
      else none := by
  unfold ParamStore.update
  by_cases hvalid : 0 < value.length ∧ value.length ≤ valueMax ∧ knownDid did = true
  case neg =>
    rw [if_neg hvalid, if_pos]
    by_contra hnot
    simp only [not_or, Nat.not_lt, Bool.not_eq_true', Bool.not_eq_false] at hnot
    exact hvalid ⟨Nat.pos_of_ne_zero hnot.1, hnot.2.1, hnot.2.2⟩
  obtain ⟨hpositive, hshort, hknown⟩ := hvalid
  have haccept : ¬(value.length = 0 ∨ value.length > valueMax ∨ (!knownDid did) = true) := by
    simp only [not_or, Nat.not_lt, Bool.not_eq_true', Bool.not_eq_false]
    exact ⟨Nat.ne_of_gt hpositive, hshort, hknown⟩
  rw [if_neg haccept, if_pos ⟨hpositive, hshort, hknown⟩]
  unfold ParamStore.ofValues
  by_cases hmem : did ∈ values.map Prod.fst
  · have hlength : (setValue did value values).length = values.length := by
      rw [← List.length_map Prod.fst, setValue_keys hmem, List.length_map]
    rw [replaceFirst_known hmem, hlength]
  -- a new identifier takes the first blank entry, and there is one
  have hpacked := h.setValue hknown ⟨hpositive, hshort⟩
  have hle := hpacked.length_le
  rw [setValue_new hmem, List.length_append, List.length_singleton] at hle ⊢
  have hblanks : maxEntries - values.length = (maxEntries - (values.length + 1)) + 1 := by omega
  have hothers : ∀ entry ∈ values.map (fun v => valueEntry v.1 v.2) ++
      List.replicate (maxEntries - values.length) blankEntry, (entry.did == did) = false := by
    intro entry hentry
    rcases List.mem_append.1 hentry with hvalue | hblank
    · obtain ⟨v, hv, rfl⟩ := List.mem_map.1 hvalue
      exact beq_false_of_ne fun heq => hmem (heq ▸ List.mem_map_of_mem hv)
    · rw [List.eq_of_mem_replicate hblank]
      exact beq_false_of_ne (blank_did_unknown hknown)
  have hused : ∀ entry ∈ values.map (fun v => valueEntry v.1 v.2), (entry.length == 0) = false := by
    intro entry hentry
    obtain ⟨v, hv, rfl⟩ := List.mem_map.1 hentry
    exact beq_false_of_ne (Nat.ne_of_gt (h.sized v hv).1)
  rw [replaceFirst_none hothers, hblanks, List.replicate_succ, replaceFirst_skip _ hused, List.map_append,
    List.append_assoc]
  rfl

/-! ## The round trip -/

/-- The 22 bytes of an identifier with its value. -/
def valueBytes (v : UInt16 × List UInt8) : List UInt8 :=
  putU16 v.1 ++ putU16 v.2.length.toUInt16 ++ padded (entrySize - 4) v.2

theorem entryBytes_value (v : UInt16 × List UInt8) :
    ParamStore.entryBytes (valueEntry v.1 v.2) = valueBytes v := by
  have htake : (valueEntry v.1 v.2).data.take (valueEntry v.1 v.2).length = v.2 := padded_take valueMax v.2
  unfold ParamStore.entryBytes valueBytes
  rw [htake]
  rfl

theorem valueBytes_length {v : UInt16 × List UInt8} (h : v.2.length ≤ valueMax) :
    (valueBytes v).length = entrySize := by
  have hpadded : (padded (entrySize - 4) v.2).length = entrySize - 4 :=
    padded_length (Nat.le_trans h (by decide))
  unfold valueBytes
  rw [List.length_append, hpadded]
  rfl

theorem serializeEntries_values {values : Values} (h : Packed values) (blanks : ℕ) {offset : ℕ}
    (hfits : offset + entrySize * values.length ≤ crcOffset) :
    ParamStore.serializeEntries
        (values.map (fun v => valueEntry v.1 v.2) ++ List.replicate blanks blankEntry) offset =
      some (values.map valueBytes) := by
  induction values generalizing offset with
  | nil =>
    induction blanks with
    | zero => rfl
    | succ blanks ih =>
      rw [List.map_nil, List.nil_append] at ih ⊢
      have hblank : blankEntry.length = 0 := rfl
      rw [List.replicate_succ, ParamStore.serializeEntries, if_pos hblank]
      exact ih
  | cons v rest ih =>
    have hv := h.sized v List.mem_cons_self
    rw [List.length_cons, Nat.mul_succ] at hfits
    have hused : ¬(valueEntry v.1 v.2).length = 0 := Nat.ne_of_gt hv.1
    have hwrite : ¬((valueEntry v.1 v.2).length > valueMax ∨ (!knownDid (valueEntry v.1 v.2).did) = true ∨
        offset + entrySize > crcOffset) := by
      simp only [not_or, Nat.not_lt, Bool.not_eq_true', Bool.not_eq_false]
      exact ⟨hv.2, h.known v List.mem_cons_self, by omega⟩
    rw [List.map_cons, List.cons_append, ParamStore.serializeEntries, if_neg hused, if_neg hwrite,
      ih h.tail (by omega), entryBytes_value]
    rfl

/-- The image of a store in normal form. -/
def imageOf (values : Values) : List UInt8 :=
  ParamStore.imageBody (values.map valueBytes) ++
    putU32 (paramCrc32 (ParamStore.imageBody (values.map valueBytes)))

theorem encode_ofValues {values : Values} (h : Packed values) :
    (ParamStore.ofValues values).encode = some (imageOf values) := by
  have hle := h.length_le
  have hfits : headerSize + entrySize * values.length ≤ crcOffset := by
    unfold headerSize entrySize crcOffset maxEntries at *
    omega
  unfold ParamStore.encode ParamStore.ofValues
  rw [serializeEntries_values h _ hfits]
  rfl

/-- The entry after the last value is replaced by the next one. -/
theorem ofValues_snoc {done : Values} (hroom : done.length < maxEntries) (v : UInt16 × List UInt8) :
    (⟨(ParamStore.ofValues done).entries.set done.length (valueEntry v.1 v.2)⟩ : ParamStore) =
      ParamStore.ofValues (done ++ [v]) := by
  have hblanks : maxEntries - done.length = (maxEntries - (done.length + 1)) + 1 := by omega
  have hat : done.length = (done.map fun v => valueEntry v.1 v.2).length := (List.length_map _).symm
  unfold ParamStore.ofValues
  rw [hblanks, List.replicate_succ, List.set_append_right _ _ (Nat.le_of_eq hat.symm), ← hat, Nat.sub_self,
    List.set_cons_zero, List.map_append, List.append_assoc, List.length_append, List.length_singleton]
  rfl

/-- The loop of `deserialize` reads back the blocks from `index` on. -/
theorem deserializeEntries_values {image post : List UInt8} (done : Values) {rest : Values}
    (h : Packed (done ++ rest))
    (himage : image.drop (headerSize + entrySize * done.length) = (rest.map valueBytes).flatten ++ post) :
    ParamStore.deserializeEntries image rest.length done.length (ParamStore.ofValues done) =
      some (ParamStore.ofValues (done ++ rest)) := by
  induction rest generalizing done with
  | nil =>
    rw [List.append_nil]
    rfl
  | cons v rest ih =>
    have hv : v ∈ done ++ v :: rest := List.mem_append_right _ List.mem_cons_self
    have hsized := h.sized v hv
    have hknown := h.known v hv
    have hle := h.length_le
    rw [List.length_append, List.length_cons] at hle
    rw [List.map_cons, List.flatten_cons, List.append_assoc] at himage
    have hsplit : image.drop (headerSize + entrySize * done.length) = putU16 v.1 ++
        (putU16 v.2.length.toUInt16 ++ (padded (entrySize - 4) v.2 ++
          ((rest.map valueBytes).flatten ++ post))) := by
      rw [himage, valueBytes, List.append_assoc, List.append_assoc]
    have hdid : getU16 image (headerSize + entrySize * done.length) = v.1 := by
      have hread := getU16_drop image (headerSize + entrySize * done.length) 0
      rwa [hsplit, getU16_put, Nat.add_zero, eq_comm] at hread
    have hlength : (getU16 image (headerSize + entrySize * done.length + 2)).toNat = v.2.length := by
      have hread := getU16_drop image (headerSize + entrySize * done.length + 2) 0
      rw [← List.drop_drop, hsplit] at hread
      rw [Nat.add_zero] at hread
      rw [← hread]
      change (getU16 (putU16 v.2.length.toUInt16 ++ _) 0).toNat = _
      rw [getU16_put, Nat.toUInt16_eq, UInt16.toNat_ofNat']
      exact Nat.mod_eq_of_lt (Nat.lt_of_le_of_lt hsized.2 (by decide))
    have hvalue : (image.drop (headerSize + entrySize * done.length + 4)).take v.2.length = v.2 := by
      rw [← List.drop_drop, hsplit]
      change (padded (entrySize - 4) v.2 ++ _).take v.2.length = _
      rw [padded, List.append_assoc]
      exact List.take_left
    have hnew : (ParamStore.ofValues done).findEntry v.1 = none := by
      rw [findEntry_ofValues hknown, Option.map_eq_none_iff, List.lookup_eq_none_iff]
      intro w hw
      have hnodup := h.nodup
      rw [List.map_append, List.map_cons, List.nodup_append] at hnodup
      exact bne_iff_ne.2 (hnodup.2.2 w.1 (List.mem_map_of_mem hw) v.1 List.mem_cons_self).symm
    have haccept : ¬(v.2.length > valueMax ∨ (!knownDid v.1) = true ∨
        ((ParamStore.ofValues done).findEntry v.1).isSome = true) := by
      rw [hnew, hknown]
      simp only [Bool.not_true, Option.isSome_none, Bool.false_eq_true, or_false]
      exact Nat.not_lt.2 hsized.2
    have hnext := ih (done ++ [v]) (by rwa [List.append_assoc]) (by
      rw [List.length_append, List.length_singleton, Nat.mul_succ, ← Nat.add_assoc, ← List.drop_drop, himage,
        ← valueBytes_length hsized.2]
      exact List.drop_left)
    rw [List.length_append, List.length_singleton, List.append_assoc] at hnext
    rw [List.length_cons, ParamStore.deserializeEntries]
    simp only [hdid, hlength]
    rw [if_neg haccept, hvalue, ofValues_snoc (by omega)]
    exact hnext

theorem flatten_valueBytes_length {values : Values} (h : Packed values) :
    (values.map valueBytes).flatten.length = entrySize * values.length := by
  induction values with
  | nil => rfl
  | cons v rest ih =>
    rw [List.map_cons, List.flatten_cons, List.length_append, ih h.tail,
      valueBytes_length (h.sized v List.mem_cons_self).2, List.length_cons, Nat.mul_succ, Nat.add_comm]

theorem imageBody_length {values : Values} (h : Packed values) :
    (ParamStore.imageBody (values.map valueBytes)).length = crcOffset := by
  have hle := h.length_le
  unfold ParamStore.imageBody
  apply padded_length
  rw [List.length_append, flatten_valueBytes_length h]
  unfold maxEntries at hle
  change 8 + 22 * values.length ≤ 76
  omega

theorem imageOf_length {values : Values} (h : Packed values) : (imageOf values).length = imageSize := by
  rw [imageOf, List.length_append, imageBody_length h]
  rfl

/-- Decoding undoes encoding. -/
theorem decode_imageOf {values : Values} (h : Packed values) :
    ParamStore.decode (imageOf values) = some (ParamStore.ofValues values) := by
  have hbody := imageBody_length h
  have hle := h.length_le
  have hcount : values.length < 2 ^ 16 := Nat.lt_of_le_of_lt hle (by decide)
  have htake : (imageOf values).take crcOffset = ParamStore.imageBody (values.map valueBytes) := by
    rw [imageOf, ← hbody]
    exact List.take_left
  have hcrc : getU32 (imageOf values) crcOffset =
      paramCrc32 (ParamStore.imageBody (values.map valueBytes)) := by
    have hread := getU32_drop (imageOf values) crcOffset 0
    rw [Nat.add_zero, imageOf] at hread
    nth_rewrite 1 [← hbody] at hread
    rw [List.drop_left] at hread
    rw [imageOf, ← hread]
    have hput := getU32_put (paramCrc32 (ParamStore.imageBody (values.map valueBytes))) []
    rwa [List.append_nil] at hput
  obtain ⟨post, hsplit⟩ : ∃ post, imageOf values = putU32 storeMagic ++ (putU16 storeVersion ++
      (putU16 values.length.toUInt16 ++ ((values.map valueBytes).flatten ++ post))) := by
    unfold imageOf ParamStore.imageBody padded
    rw [List.length_map]
    simp only [List.append_assoc]
    exact ⟨_, rfl⟩
  have hmagic : getU32 (imageOf values) 0 = storeMagic := by
    rw [hsplit, getU32_put]
  have hversion : getU16 (imageOf values) 4 = storeVersion := by
    have hread := getU16_drop (imageOf values) 4 0
    rw [← hread, hsplit]
    exact getU16_put ..
  have hvalues : (getU16 (imageOf values) 6).toNat = values.length := by
    have hread := getU16_drop (imageOf values) 6 0
    rw [← hread, hsplit]
    change (getU16 (putU16 values.length.toUInt16 ++ _) 0).toNat = _
    rw [getU16_put, Nat.toUInt16_eq, UInt16.toNat_ofNat']
    exact Nat.mod_eq_of_lt hcount
  have hrest : (imageOf values).drop (headerSize + entrySize * ([] : Values).length) =
      (values.map valueBytes).flatten ++ post := by
    rw [hsplit]
    rfl
  have hloop := deserializeEntries_values [] (by simpa using h) hrest
  unfold ParamStore.decode
  rw [htake, hmagic, hversion, hcrc, hvalues]
  simp only [ne_eq, not_true_eq_false, or_self, if_false, if_neg (Nat.not_lt.2 hle)]
  exact hloop

end DualCan.Param
