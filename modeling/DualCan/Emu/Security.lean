import DualCan.Emu.VirtualEcu
import Mathlib.Data.Nat.Bitwise

/-!
# Seeds and keys in both languages

The 32-bit arithmetic of `uds_server.c` and the masked integers of `security.py` give the same seeds and
keys. The two generators keep a state of 0 differently, so their states agree up to that.
-/

namespace DualCan.Emu

open DualCan.Uds

theorem and_mask (n : ℕ) : n &&& 0xFFFFFFFF = n % 2 ^ 32 := Nat.and_two_pow_sub_one_eq_mod n 32

/-- The state of the Python generator that stands for a state of the server's. -/
def generatorState (state : UInt32) : ℕ := if state = 0 then defaultSeed else state.toNat

theorem seedToKey_eq (seed salt : UInt32) :
    seedToKey seed.toNat salt.toNat = (computeKey seed salt).toNat := by
  have hxor : (seed.toNat ^^^ salt.toNat) % 2 ^ 32 = (seed ^^^ salt).toNat := by
    rw [← UInt32.toNat_xor]
    exact Nat.mod_eq_of_lt (UInt32.toNat_lt _)
  unfold seedToKey computeKey
  simp only [and_mask, hxor]
  generalize seed ^^^ salt = a
  have hrotate : (a.toNat <<< 13 ||| a.toNat >>> 19) % 2 ^ 32 = (a <<< 13 ||| a >>> 19).toNat := by
    rw [UInt32.toNat_or, UInt32.toNat_shiftLeft, UInt32.toNat_shiftRight, Nat.or_mod_two_pow]
    congr 1
    exact Nat.mod_eq_of_lt (Nat.lt_of_le_of_lt (Nat.shiftRight_le ..) a.toNat_lt)
  rw [hrotate]
  generalize a <<< 13 ||| a >>> 19 = b
  have hadd : (b.toNat + 0x9E3779B9) % 2 ^ 32 = (b + 0x9E3779B9).toNat := by
    rw [UInt32.toNat_add]
    rfl
  rw [hadd]
  generalize b + 0x9E3779B9 = c
  have hlast : c.toNat ^^^ c.toNat >>> 16 = (c ^^^ c >>> 16).toNat := by
    rw [UInt32.toNat_xor, UInt32.toNat_shiftRight]
    rfl
  rw [hlast]
  exact Nat.mod_eq_of_lt (UInt32.toNat_lt _)

theorem nextSeed_eq (state : UInt32) :
    nextSeed (generatorState state) =
      ((Uds.nextSeed state).1.toNat, generatorState (Uds.nextSeed state).2) := by
  have hstart : generatorState state = (if state = 0 then Uds.defaultSeed else state).toNat := by
    unfold generatorState
    split <;> rfl
  unfold nextSeed Uds.nextSeed
  rw [hstart]
  generalize (if state = 0 then Uds.defaultSeed else state) = a
  have hleft : ∀ (x k : UInt32), x.toNat ^^^ (x.toNat <<< (k.toNat % 32)) % 2 ^ 32 = (x ^^^ x <<< k).toNat := by
    intro x k
    rw [UInt32.toNat_xor, UInt32.toNat_shiftLeft]
  have hright : ∀ x : UInt32, x.toNat ^^^ x.toNat >>> 17 = (x ^^^ x >>> 17).toNat := by
    intro x
    rw [UInt32.toNat_xor, UInt32.toNat_shiftRight]
    rfl
  have h13 := hleft a 13
  have h5 := hleft (a ^^^ a <<< 13 ^^^ (a ^^^ a <<< 13) >>> 17) 5
  simp only [and_mask]
  change a.toNat ^^^ a.toNat <<< 13 % 2 ^ 32 = _ at h13
  rw [h13, hright]
  change _ ^^^ _ <<< 5 % 2 ^ 32 = _ at h5
  rw [h5]
  generalize a ^^^ a <<< 13 ^^^ (a ^^^ a <<< 13) >>> 17 ^^^
    (a ^^^ a <<< 13 ^^^ (a ^^^ a <<< 13) >>> 17) <<< 5 = b
  rw [Nat.mod_eq_of_lt b.toNat_lt]
  have hzero : b.toNat = 0 ↔ b = 0 := by
    rw [← UInt32.toNat_inj]
    rfl
  have hones : b.toNat = 0xFFFFFFFF ↔ b = 0xFFFFFFFF := by
    rw [← UInt32.toNat_inj]
    rfl
  simp only [hzero, hones, generatorState]
  split <;> rfl

theorem toBytes4_eq (seed : UInt32) : VirtualEcu.toBytes4 seed.toNat = UdsServer.seedBytes seed := by
  have hbyte : ∀ k : UInt32, (seed.toNat >>> (k.toNat % 32)).toUInt8 = (seed >>> k).toUInt8 := by
    intro k
    rw [← UInt8.toNat_inj, UInt32.toNat_toUInt8, UInt32.toNat_shiftRight, Nat.toUInt8_eq, UInt8.toNat_ofNat']
  have h24 : (seed.toNat >>> 24).toUInt8 = (seed >>> 24).toUInt8 := hbyte 24
  have h16 : (seed.toNat >>> 16).toUInt8 = (seed >>> 16).toUInt8 := hbyte 16
  have h8 : (seed.toNat >>> 8).toUInt8 = (seed >>> 8).toUInt8 := hbyte 8
  have h0 : seed.toNat.toUInt8 = seed.toUInt8 := by
    rw [← UInt8.toNat_inj, UInt32.toNat_toUInt8, Nat.toUInt8_eq, UInt8.toNat_ofNat']
  unfold VirtualEcu.toBytes4 UdsServer.seedBytes
  rw [h24, h16, h8, h0]

/-- A byte below a shifted number is added to it. -/
theorem shifted_or (a k b : ℕ) (hb : b < 2 ^ k) : a * 2 ^ k ||| b = a * 2 ^ k + b := by
  rw [← Nat.shiftLeft_eq, Nat.shiftLeft_add_eq_or_of_lt hb]

theorem fromBytes_eq (k0 k1 k2 k3 : UInt8) :
    VirtualEcu.fromBytes [k0, k1, k2, k3] = (word32 k0 k1 k2 k3).toNat := by
  have h0 := k0.toNat_lt
  have h1 := k1.toNat_lt
  have h2 := k2.toNat_lt
  have h3 := k3.toNat_lt
  have hshift : ∀ (k : UInt8) (n : UInt32), (k.toUInt32 <<< n).toNat =
      k.toNat * 2 ^ (n.toNat % 32) % 2 ^ 32 := by
    intro k n
    rw [UInt32.toNat_shiftLeft, Nat.shiftLeft_eq, UInt8.toNat_toUInt32]
  unfold word32
  rw [UInt32.toNat_or, UInt32.toNat_or, UInt32.toNat_or, hshift, hshift, hshift, UInt8.toNat_toUInt32]
  simp only [UInt32.reduceToNat, Nat.reduceMod, VirtualEcu.fromBytes, List.foldl_cons, List.foldl_nil]
  generalize k0.toNat = a at h0 ⊢
  generalize k1.toNat = b at h1 ⊢
  generalize k2.toNat = c at h2 ⊢
  generalize k3.toNat = d at h3 ⊢
  rw [Nat.mod_eq_of_lt (by omega), Nat.mod_eq_of_lt (by omega), Nat.mod_eq_of_lt (by omega)]
  have hfirst : a * 2 ^ 24 ||| b * 2 ^ 16 = (a * 2 ^ 8 + b) * 2 ^ 16 := by
    rw [shifted_or a 24 (b * 2 ^ 16) (by omega)]
    omega
  have hsecond : (a * 2 ^ 8 + b) * 2 ^ 16 ||| c * 2 ^ 8 = ((a * 2 ^ 8 + b) * 2 ^ 8 + c) * 2 ^ 8 := by
    rw [shifted_or (a * 2 ^ 8 + b) 16 (c * 2 ^ 8) (by omega)]
    omega
  rw [hfirst, hsecond, shifted_or _ 8 d (by omega)]
  omega

end DualCan.Emu
