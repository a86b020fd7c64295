import DualCan.Param.Store
import DualCan.Run.Past

/-!
# Updates

Runs of `ParamStore_Update` from `ParamStore_Init`, accepted or not. What they build always serialises and
comes back. It is a map from the three identifiers to their values; as a map from all identifiers it has one
entry too many, since `ParamStore_Get` takes an unused entry for one of identifier 0.
-/

namespace DualCan.Param

open DualCan.Run

/-- The arguments of a `ParamStore_Update`. -/
structure Update where
  did : UInt16
  value : List UInt8
  deriving DecidableEq, Repr

namespace Update

/-- The update returns `true`. -/
def accepted (store : ParamStore) (u : Update) : Bool := (store.update u.did u.value).isSome

/-- What an update leaves. -/
def step (store : ParamStore) (u : Update) : ParamStore := (store.update u.did u.value).getD store

/-- The checks of an update that look at its arguments. -/
def valid (u : Update) : Bool := 0 < u.value.length && u.value.length ≤ valueMax && knownDid u.did

/-- The update is accepted, and for this identifier. -/
def sets (did : UInt16) (store : ParamStore) (u : Update) : Prop := u.did = did ∧ u.accepted store = true

/-- The store after a run. -/
def store (us : List Update) : ParamStore := after step ParamStore.init us

/-- The values after a run, in the order of their entries. -/
def values (us : List Update) : Values :=
  us.foldl (fun values u => if u.valid then setValue u.did u.value values else values) []

theorem values_snoc (us : List Update) (u : Update) :
    values (us ++ [u]) = if u.valid then setValue u.did u.value (values us) else values us := by
  rw [values, List.foldl_append]
  rfl

theorem valid_iff (u : Update) :
    u.valid = true ↔ 0 < u.value.length ∧ u.value.length ≤ valueMax ∧ knownDid u.did = true := by
  rw [valid, Bool.and_eq_true, Bool.and_eq_true, decide_eq_true_eq, decide_eq_true_eq, and_assoc]

/-! ## What a run builds -/

theorem update_eq {vs : Values} (h : Packed vs) (u : Update) :
    (ParamStore.ofValues vs).update u.did u.value =
      if u.valid then some (ParamStore.ofValues (setValue u.did u.value vs)) else none := by
  rw [update_ofValues h]
  exact if_congr u.valid_iff.symm rfl rfl

theorem store_packed (us : List Update) : store us = ParamStore.ofValues (values us) ∧ Packed (values us) := by
  induction us using List.reverseRecOn with
  | nil => exact ⟨rfl, packed_nil⟩
  | append_singleton us u ih =>
    obtain ⟨hstore, hpacked⟩ := ih
    rw [values_snoc, store, after_snoc, ← store, hstore, step, update_eq hpacked]
    by_cases hvalid : u.valid = true
    · obtain ⟨hpositive, hshort, hknown⟩ := u.valid_iff.1 hvalid
      rw [if_pos hvalid, if_pos hvalid]
      exact ⟨rfl, hpacked.setValue hknown ⟨hpositive, hshort⟩⟩
    · rw [if_neg hvalid, if_neg hvalid]
      exact ⟨rfl, hpacked⟩

/-- After any run an update is accepted exactly if its arguments are valid. -/
theorem accepted_store (us : List Update) (u : Update) : u.accepted (store us) = u.valid := by
  obtain ⟨hstore, hpacked⟩ := store_packed us
  rw [accepted, hstore, update_eq hpacked]
  cases u.valid <;> rfl

/-- The value of an identifier is that of its last accepted update. -/
theorem lookup_values_iff (us : List Update) (did : UInt16) (value : List UInt8) :
    (values us).lookup did = some value ↔
      Since step ParamStore.init (fun s u => sets did s u ∧ u.value = value) (fun s u => ¬sets did s u) us := by
  induction us using List.reverseRecOn with
  | nil => exact ⟨nofun, fun h => absurd h not_since_nil⟩
  | append_singleton us u ih =>
    rw [since_snoc, ← ih, ← store, values_snoc]
    simp only [sets, accepted_store]
    by_cases hvalid : u.valid = true
    · rw [if_pos hvalid, lookup_setValue]
      by_cases hdid : did = u.did
      · simp [hdid, hvalid]
      · simp [hdid, Ne.symm hdid]
    · simp [hvalid]

theorem mem_setValue_keys {did other : UInt16} {value : List UInt8} {vs : Values} :
    other ∈ (setValue did value vs).map Prod.fst ↔ other = did ∨ other ∈ vs.map Prod.fst := by
  by_cases hmem : did ∈ vs.map Prod.fst
  · rw [setValue_keys hmem]
    exact ⟨Or.inr, fun h => h.elim (fun heq => heq ▸ hmem) id⟩
  · rw [setValue_new hmem, List.map_append, List.mem_append, List.map_singleton, List.mem_singleton, or_comm]

theorem mem_values_iff (us : List Update) (did : UInt16) :
    did ∈ (values us).map Prod.fst ↔ ∃ u ∈ us, u.did = did ∧ u.valid = true := by
  induction us using List.reverseRecOn with
  | nil => simp [values]
  | append_singleton us u ih =>
    have hsplit : (∃ x ∈ us ++ [u], x.did = did ∧ x.valid = true) ↔
        (∃ x ∈ us, x.did = did ∧ x.valid = true) ∨ (u.did = did ∧ u.valid = true) := by
      simp only [List.mem_append, List.mem_singleton, or_and_right, exists_or, exists_eq_left]
    rw [values_snoc, hsplit, ← ih]
    by_cases hvalid : u.valid = true
    · rw [if_pos hvalid, mem_setValue_keys, or_comm]
      simp [hvalid, eq_comm]
    · simp [hvalid]

/-! ## The round trip -/

theorem mem_of_lookup {vs : Values} {did : UInt16} {value : List UInt8} (h : vs.lookup did = some value) :
    (did, value) ∈ vs := by
  obtain ⟨front, back, rfl, -⟩ := List.lookup_eq_some_iff.1 h
  exact List.mem_append_right front List.mem_cons_self

theorem get_values {us : List Update} {did : UInt16} {value : List UInt8}
    (h : (values us).lookup did = some value) {capacity : ℕ} (hroom : value.length ≤ capacity) :
    (store us).get did capacity = some value := by
  obtain ⟨hstore, hpacked⟩ := store_packed us
  have hmem := mem_of_lookup h
  rw [hstore, get_ofValues (hpacked.known _ hmem), h, Option.filter_some, if_pos (decide_eq_true hroom)]

/-- **Round trip**: the store after any updates serialises, its image decodes, and gives the store back; in
particular it gives back the value of the last accepted update of every identifier. -/
theorem decode_encode_store (us : List Update) : ∃ image, (store us).encode = some image ∧
    ParamStore.decode image = some (store us) ∧
    ∀ did value, Since step ParamStore.init (fun s u => sets did s u ∧ u.value = value)
        (fun s u => ¬sets did s u) us →
      ((ParamStore.decode image).bind fun decoded => decoded.get did valueMax) = some value := by
  obtain ⟨hstore, hpacked⟩ := store_packed us
  have hdecode := decode_imageOf hpacked
  rw [← hstore] at hdecode
  refine ⟨imageOf (values us), by rw [hstore, encode_ofValues hpacked], hdecode, ?_⟩
  intro did value hsince
  have hlookup := (lookup_values_iff us did value).2 hsince
  have hshort := (hpacked.sized _ (mem_of_lookup hlookup)).2
  rw [hdecode, Option.bind_some, get_values hlookup hshort]

/-- Two values for one identifier, one for another, an unknown identifier and an empty value. -/
def fiveUpdates : List Update :=
  [⟨0xF190, [0x41]⟩, ⟨0x1234, [0x07]⟩, ⟨0xF190, [0x42, 0x43]⟩, ⟨0x0100, [0x05]⟩, ⟨0xF191, []⟩]

/-- The image gives back the later value of the first identifier, and that of the second. -/
theorem decode_encode_store_fiveUpdates : ∃ image, (store fiveUpdates).encode = some image ∧
    ((ParamStore.decode image).bind fun decoded => decoded.get 0xF190 valueMax) = some [0x42, 0x43] ∧
    ((ParamStore.decode image).bind fun decoded => decoded.get 0x0100 valueMax) = some [0x05] := by
  obtain ⟨image, hencode, -, hget⟩ := decode_encode_store fiveUpdates
  have hvin := (lookup_values_iff fiveUpdates 0xF190 [0x42, 0x43]).1 rfl
  have hcustom := (lookup_values_iff fiveUpdates 0x0100 [0x05]).1 rfl
  exact ⟨image, hencode, hget 0xF190 _ hvin, hget 0x0100 _ hcustom⟩

/-! ## The map -/

/-- The used entries are full exactly if every known identifier has one. -/
theorem full_iff {vs : Values} (h : Packed vs) :
    maxEntries ≤ vs.length ↔ ∀ known ∈ paramStoreDids, known ∈ vs.map Prod.fst := by
  have hsub : vs.map Prod.fst ⊆ paramStoreDids := by
    intro did hmem
    obtain ⟨v, hv, rfl⟩ := List.mem_map.1 hmem
    exact List.contains_iff_mem.1 (h.known v hv)
  constructor
  · intro hfull known hknown
    have hperm := (List.subperm_of_subset h.nodup hsub).perm_of_length_le (by rwa [List.length_map])
    exact hperm.mem_iff.2 hknown
  · intro hall
    have hnodup : paramStoreDids.Nodup := by decide
    have hle := (List.subperm_of_subset hnodup hall).length_le
    rwa [List.length_map] at hle

/-- What `ParamStore_Get` finds for an identifier that has no place in the store. -/
theorem get_unknown {vs : Values} (h : Packed vs) {did : UInt16} (hunknown : knownDid did = false)
    (capacity : ℕ) : (ParamStore.ofValues vs).get did capacity =
      if did = 0 ∧ vs.length < maxEntries then some [] else none := by
  have hused : (vs.map fun v => valueEntry v.1 v.2).find? (fun entry => entry.did == did) = none := by
    apply List.find?_eq_none.2
    intro entry hentry heq
    obtain ⟨v, hv, rfl⟩ := List.mem_map.1 hentry
    have hdid : v.1 = did := beq_iff_eq.1 heq
    have hknown := h.known v hv
    rw [hdid, hunknown] at hknown
    cases hknown
  have hfind : (ParamStore.ofValues vs).findEntry did =
      if did = 0 ∧ vs.length < maxEntries then some blankEntry else none := by
    unfold ParamStore.findEntry ParamStore.ofValues
    rw [List.find?_append, hused, Option.none_or]
    by_cases hzero : did = 0
    · by_cases hroom : vs.length < maxEntries
      · rw [if_pos ⟨hzero, hroom⟩, hzero, List.find?_replicate]
        have hsome : ¬maxEntries - vs.length = 0 := by omega
        simp [hsome, blankEntry]
      · rw [if_neg fun h => hroom h.2, Nat.sub_eq_zero_of_le (Nat.not_lt.1 hroom)]
        rfl
    · rw [if_neg fun h => hzero h.1, List.find?_replicate]
      simp [blankEntry, Ne.symm hzero]
  unfold ParamStore.get
  rw [hfind]
  by_cases hblank : did = 0 ∧ vs.length < maxEntries
  · rw [if_pos hblank, if_pos hblank]
    rfl
  · rw [if_neg hblank, if_neg hblank]

/-- What `ParamStore_Get` finds is the value among the values. -/
theorem get_eq_lookup {vs : Values} (h : Packed vs) {did : UInt16} (hplace : did ≠ 0 ∨ maxEntries ≤ vs.length)
    (capacity : ℕ) : (ParamStore.ofValues vs).get did capacity =
      (vs.lookup did).filter fun value => value.length ≤ capacity := by
  cases hknown : knownDid did with
  | true => exact get_ofValues hknown vs capacity
  | false =>
    have hnone : vs.lookup did = none := by
      apply List.lookup_eq_none_iff.2
      intro v hv
      apply bne_iff_ne.2
      intro heq
      have hv := h.known v hv
      rw [← heq, hknown] at hv
      cases hv
    rw [get_unknown h hknown, hnone, if_neg]
    · rfl
    · rintro ⟨hzero, hroom⟩
      exact hplace.elim (fun hne => hne hzero) (Nat.not_le.2 hroom)

theorem once_sets_iff (us : List Update) (did : UInt16) :
    Once step ParamStore.init (sets did) us ↔ ∃ u ∈ us, u.did = did ∧ u.valid = true := by
  constructor
  · rintro ⟨a, u, b, rfl, hdid, haccept⟩
    rw [← store, accepted_store] at haccept
    exact ⟨u, List.mem_append_right a List.mem_cons_self, hdid, haccept⟩
  · rintro ⟨u, hmem, hdid, hvalid⟩
    obtain ⟨a, b, rfl⟩ := List.append_of_mem hmem
    refine ⟨a, u, b, rfl, hdid, ?_⟩
    rw [← store, accepted_store]
    exact hvalid

/-- After these updates `ParamStore_Get` sees the map of the accepted ones at this identifier: the last value,
with room for it, nothing where there is none, and no change by an update of another identifier. -/
structure MapLaw (us : List Update) (did : UInt16) : Prop where
  stored : ∀ value, Since step ParamStore.init (fun s u => sets did s u ∧ u.value = value)
      (fun s u => ¬sets did s u) us →
    ∀ capacity, value.length ≤ capacity → (store us).get did capacity = some value
  absent : ¬Once step ParamStore.init (sets did) us → ∀ capacity, (store us).get did capacity = none
  others : ∀ u : Update, u.did ≠ did → ∀ capacity,
    (step (store us) u).get did capacity = (store us).get did capacity

/-- **The store is a map**, but for identifier 0 while an entry is unused. -/
theorem mapLaw_iff (us : List Update) (did : UInt16) : MapLaw us did ↔
    did ≠ 0 ∨ ∀ known ∈ paramStoreDids, ∃ u ∈ us, u.did = known ∧ u.valid = true := by
  obtain ⟨hstore, hpacked⟩ := store_packed us
  have hfull : (∀ known ∈ paramStoreDids, ∃ u ∈ us, u.did = known ∧ u.valid = true) ↔
      maxEntries ≤ (values us).length := by
    simp only [full_iff hpacked, mem_values_iff]
  rw [hfull]
  constructor
  · intro h
    by_contra hnot
    simp only [not_or, not_not, Nat.not_le] at hnot
    have hnone : ¬Once step ParamStore.init (sets did) us := by
      rw [once_sets_iff]
      rintro ⟨u, -, hdid, hvalid⟩
      have hknown := (u.valid_iff.1 hvalid).2.2
      rw [hdid, hnot.1] at hknown
      exact absurd hknown (by decide)
    have hget := h.absent hnone 0
    rw [hstore, get_unknown hpacked (by rw [hnot.1]; decide), if_pos hnot] at hget
    cases hget
  · intro hcond
    have hget := get_eq_lookup hpacked hcond
    refine ⟨?_, ?_, ?_⟩
    · intro value hsince capacity hroom
      exact get_values ((lookup_values_iff us did value).2 hsince) hroom
    · intro hnever capacity
      rw [hstore, hget]
      cases hlookup : (values us).lookup did with
      | none => rfl
      | some value => exact absurd (((lookup_values_iff us did value).1 hlookup).once.mono fun _ _ h => h.1) hnever
    · intro u hother capacity
      obtain ⟨hnext, hpacked'⟩ := store_packed (us ++ [u])
      have hstep : step (store us) u = store (us ++ [u]) := (after_snoc ..).symm
      -- an entry in use stays in use
      have hcond' : did ≠ 0 ∨ maxEntries ≤ (values (us ++ [u])).length := by
        refine hcond.imp_right fun hroom => ?_
        rw [← hfull] at hroom
        rw [full_iff hpacked']
        intro known hknown
        obtain ⟨x, hx, hvalid⟩ := hroom known hknown
        exact (mem_values_iff ..).2 ⟨x, List.mem_append_left _ hx, hvalid⟩
      have hlookup : (values (us ++ [u])).lookup did = (values us).lookup did := by
        rw [values_snoc]
        split
        · rw [lookup_setValue, if_neg (Ne.symm hother)]
        · rfl
      rw [hstep, hnext, get_eq_lookup hpacked' hcond', hlookup, hstore, hget]

/-- After one accepted update identifier 0 is found, with an empty value. -/
theorem not_mapLaw_unusedEntry : ¬MapLaw [⟨0xF190, [0x41]⟩] 0 := by
  intro h
  have hnone : ¬Once step ParamStore.init (sets 0) [⟨0xF190, [0x41]⟩] := by
    rintro ⟨a, u, b, hes, hdid, -⟩
    have hmem : u ∈ [(⟨0xF190, [0x41]⟩ : Update)] := by
      rw [hes]
      exact List.mem_append_right a List.mem_cons_self
    rw [List.mem_singleton.1 hmem] at hdid
    exact absurd hdid (by decide)
  have hget : (store [⟨0xF190, [0x41]⟩]).get 0 0 = some [] := by decide
  rw [h.absent hnone 0] at hget
  cases hget

end Update

end DualCan.Param
