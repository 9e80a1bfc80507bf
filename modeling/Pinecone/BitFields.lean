import Mathlib.Data.Nat.Bitwise

/-! Fields of machine words: reading them by shifts and masks, and putting a word together
from its fields. -/

namespace BitFields

variable {n : Nat}

theorem extract_of_masked {w mask value : BitVec n} (h : w &&& mask = value) (start len : Nat)
    (hm : mask.extractLsb' start len = BitVec.allOnes len) :
    w.extractLsb' start len = value.extractLsb' start len := by
  rw [← h, BitVec.extractLsb'_and, hm, BitVec.and_allOnes]

theorem masked_ne {w mask value mask' value' : BitVec n} (h : w &&& mask = value)
    (hd : mask &&& mask' &&& (value ^^^ value') ≠ 0) : w &&& mask' ≠ value' := by
  intro h'
  apply hd
  rw [← h, ← h']
  apply BitVec.eq_of_getLsbD_eq
  intro i hi
  simp only [BitVec.getLsbD_and, BitVec.getLsbD_xor, BitVec.ofNat_eq_ofNat, BitVec.getLsbD_zero]
  cases w.getLsbD i <;> cases mask.getLsbD i <;> cases mask'.getLsbD i <;> rfl

theorem masked_or_twoPow {w mask value : BitVec n} (h : w &&& mask = value) {bit : Nat}
    (hbit : w.getLsbD bit = true) :
    w &&& (mask ||| BitVec.twoPow n bit) = value ||| BitVec.twoPow n bit := by
  rw [← h]
  apply BitVec.eq_of_getLsbD_eq
  intro i hi
  simp only [BitVec.getLsbD_and, BitVec.getLsbD_or, BitVec.getLsbD_twoPow]
  by_cases hib : bit = i
  · subst hib
    simp [hi, hbit]
  · simp [hib]

theorem masked_or_twoPow_of_clear {w mask value : BitVec n} (h : w &&& mask = value) {bit : Nat}
    (hbit : w.getLsbD bit = false) : w &&& (mask ||| BitVec.twoPow n bit) = value := by
  rw [← h]
  apply BitVec.eq_of_getLsbD_eq
  intro i hi
  simp only [BitVec.getLsbD_and, BitVec.getLsbD_or, BitVec.getLsbD_twoPow]
  by_cases hib : bit = i
  · subst hib
    simp [hbit]
  · simp [hib]

theorem extractLsb'_one {w : BitVec n} {bit : Nat} {b : Bool} (h : w.getLsbD bit = b) :
    w.extractLsb' bit 1 = BitVec.ofBool b := by
  apply BitVec.eq_of_getLsbD_eq
  intro j hj
  have h0 : j = 0 := by omega
  simp [h0, h]

theorem shiftRight_and_mask (w mask : BitVec n) (start len : Nat)
    (hm : mask.toNat = 2 ^ len - 1) :
    (w >>> start) &&& mask = (w.extractLsb' start len).setWidth n := by
  apply BitVec.eq_of_toNat_eq
  rw [BitVec.toNat_and, hm, Nat.and_two_pow_sub_one_eq_mod]
  simp only [BitVec.toNat_ushiftRight, BitVec.toNat_setWidth, BitVec.extractLsb'_toNat]
  have hlt : w.toNat >>> start % 2 ^ len < 2 ^ n :=
    (Nat.mod_le _ _).trans_lt ((Nat.shiftRight_le _ _).trans_lt w.isLt)
  rw [Nat.mod_eq_of_lt hlt]

theorem and_mask (w mask : BitVec n) (len : Nat) (hm : mask.toNat = 2 ^ len - 1) :
    w &&& mask = (w.extractLsb' 0 len).setWidth n := by
  have h := shiftRight_and_mask w mask 0 len hm
  rwa [BitVec.ushiftRight_zero] at h

theorem ofBool_getLsbD (w : BitVec n) (i : Nat) :
    BitVec.ofBool (w.getLsbD i) = w.extractLsb' i 1 :=
  (extractLsb'_one rfl).symm

theorem extractLsb'_append (w : BitVec n) {start₁ start₂ len₁ len₂ : Nat}
    (h : start₂ = start₁ + len₁) :
    w.extractLsb' start₂ len₂ ++ w.extractLsb' start₁ len₁ =
      w.extractLsb' start₁ (len₂ + len₁) := by
  apply BitVec.eq_of_getLsbD_eq
  intro i hi
  rw [BitVec.getLsbD_append]
  by_cases hlt : i < len₁
  · simp [hlt, hi]
  · have hadd : start₂ + (i - len₁) = start₁ + i := by omega
    have hle : i - len₁ < len₂ := by omega
    simp [hlt, hi, hle, hadd]

theorem and_high_mask {k l : Nat} (w : BitVec (k + l)) :
    w &&& (BitVec.allOnes k ++ (0 : BitVec l)) = w.extractLsb' l k ++ (0 : BitVec l) := by
  apply BitVec.eq_of_getLsbD_eq
  intro i hi
  rw [BitVec.getLsbD_and, BitVec.getLsbD_append, BitVec.getLsbD_append]
  by_cases hlt : i < l
  · simp [hlt]
  · have hadd : l + (i - l) = i := by omega
    have hle : i - l < k := by omega
    simp [hlt, hle, hadd]

/-- The bits of `mask` have in `w` the values that they have in `value`. -/
def Fixes (w mask value : BitVec n) : Prop :=
  w &&& mask = value

namespace Fixes

theorem free (w : BitVec n) : Fixes w 0 0 :=
  BitVec.and_zero

theorem fixed (w : BitVec n) : Fixes w (BitVec.allOnes n) w :=
  BitVec.and_allOnes

theorem append {k l : Nat} {x mask value : BitVec k} {y mask' value' : BitVec l}
    (hx : Fixes x mask value) (hy : Fixes y mask' value') :
    Fixes (x ++ y) (mask ++ mask') (value ++ value') := by
  rw [Fixes, BitVec.and_append, show x &&& mask = value from hx, show y &&& mask' = value' from hy]

end Fixes

end BitFields
