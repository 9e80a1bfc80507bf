import Pinecone.IntegerExecutor
import Pinecone.ArmArithmetic
import Mathlib.Tactic.IntervalCases

/-! The arithmetic helpers compute the functions of the Arm pseudocode. A value of a 32-bit
instruction is held in 64 bits with the high half zero. -/

namespace Pinecone

theorem getLsbD_maskForBits (bits i : Nat) :
    (maskForBits bits).getLsbD i = (decide (i < bits) && decide (i < 64)) := by
  unfold maskForBits
  by_cases h0 : bits = 0
  · simp [h0]
  · rw [if_neg h0]
    by_cases h64 : 64 ≤ bits
    · rw [if_pos h64]
      have hones : (0xffffffffffffffff : U64) = BitVec.allOnes 64 := by decide
      rw [hones, BitVec.getLsbD_allOnes]
      by_cases hi : i < 64
      · simp [hi, show i < bits by omega]
      · simp [hi]
    · rw [if_neg h64]
      have hpow : 2 ^ bits < 2 ^ 64 := Nat.pow_lt_pow_right (by decide) (by omega)
      have hpos : 0 < 2 ^ bits := Nat.two_pow_pos bits
      have hnat : ((1#64 <<< bits) - 1).toNat = 2 ^ bits - 1 := by
        rw [BitVec.toNat_sub, BitVec.toNat_shiftLeft]
        have hone : (1#64).toNat = 1 := rfl
        have hsub : (1 : U64).toNat = 1 := rfl
        rw [hone, hsub, Nat.one_shiftLeft, Nat.mod_eq_of_lt hpow]
        omega
      rw [BitVec.getLsbD, hnat, Nat.testBit_two_pow_sub_one]
      by_cases hi : i < bits
      · simp [hi, show i < 64 by omega]
      · simp [hi]

theorem and_maskForBits (x : U64) (bits : Nat) :
    x &&& maskForBits bits = (x.setWidth bits).setWidth 64 := by
  apply BitVec.eq_of_getLsbD_eq
  intro i hi
  rw [BitVec.getLsbD_and, getLsbD_maskForBits, BitVec.getLsbD_setWidth, BitVec.getLsbD_setWidth]
  simp [hi, Bool.and_comm]

theorem setWidth_and_maskForBits {bits : Nat} (x : BitVec bits) (h : bits ≤ 64) :
    x.setWidth 64 &&& maskForBits bits = x.setWidth 64 := by
  rw [and_maskForBits, BitVec.setWidth_setWidth_of_le _ h, BitVec.setWidth_eq]

theorem maskedOperand_eq {bits : Nat} (h : bits = 32 ∨ bits = 64) (x : U64) :
    maskedOperand x bits = (x.setWidth bits).setWidth 64 := by
  rcases h with rfl | rfl
  · exact and_maskForBits x 32
  · rw [maskedOperand, if_pos rfl, BitVec.setWidth_eq, BitVec.setWidth_eq]

theorem not_and_maskForBits {bits : Nat} (x : BitVec bits) (h : bits ≤ 64) :
    ~~~(x.setWidth 64) &&& maskForBits bits = (~~~x).setWidth 64 := by
  rw [and_maskForBits, BitVec.setWidth_not h, BitVec.setWidth_setWidth_of_le _ h, BitVec.setWidth_eq]

theorem shiftLeft_and_maskForBits {bits : Nat} (x : BitVec bits) (amount : Nat) :
    (x.setWidth 64 <<< amount) &&& maskForBits bits = (x <<< amount).setWidth 64 := by
  apply BitVec.eq_of_getLsbD_eq
  intro i hi
  simp only [BitVec.getLsbD_and, getLsbD_maskForBits, BitVec.getLsbD_setWidth,
    BitVec.getLsbD_shiftLeft]
  by_cases hib : i < bits
  · simp [hi, hib, show i - amount < 64 by omega]
  · simp [hib]

theorem and_twoPow_ne_zero {width : Nat} (x : BitVec width) {i : Nat} (h : i < width) :
    x &&& BitVec.twoPow width i ≠ 0 ↔ x.getLsbD i = true := by
  rw [BitVec.and_twoPow]
  cases x.getLsbD i with
  | true =>
    refine ⟨fun _ => rfl, fun _ hzero => ?_⟩
    have hbit := congrArg (fun word : BitVec width => word.getLsbD i) hzero
    simp [h] at hbit
  | false => exact ⟨fun hne => absurd rfl hne, fun hf => by cases hf⟩

theorem setWidth_and_not {bits : Nat} (x y : BitVec bits) :
    x.setWidth 64 &&& ~~~(y.setWidth 64) = (x &&& ~~~y).setWidth 64 := by
  apply BitVec.eq_of_getLsbD_eq
  intro i hi
  simp only [BitVec.getLsbD_and, BitVec.getLsbD_not, BitVec.getLsbD_setWidth, hi]
  by_cases hib : i < bits
  · simp [hib]
  · simp [BitVec.getLsbD_of_ge x i (by omega)]

theorem getLsbD_signBitForBits {bits : Nat} (h0 : 0 < bits) (h : bits ≤ 64) (i : Nat) :
    (signBitForBits bits).getLsbD i = decide (i = bits - 1) := by
  have hsign : signBitForBits bits = BitVec.twoPow 64 (bits - 1) := by
    unfold signBitForBits
    rw [if_neg (by omega)]
    by_cases h64 : 64 ≤ bits
    · have hb : bits = 64 := by omega
      subst hb
      decide
    · rw [if_neg h64]
      rfl
  rw [hsign, BitVec.getLsbD_twoPow]
  by_cases hi : i = bits - 1
  · simp [hi, show bits - 1 < 64 by omega]
  · simp [hi, show bits - 1 ≠ i from Ne.symm hi]

theorem and_signBitForBits_ne_zero {bits : Nat} (h0 : 0 < bits) (h : bits ≤ 64)
    (x : BitVec bits) : (x.setWidth 64 &&& signBitForBits bits != 0) = x.msb := by
  have hbit : ∀ i, (x.setWidth 64 &&& signBitForBits bits).getLsbD i =
      (decide (i = bits - 1) && x.msb) := by
    intro i
    rw [BitVec.getLsbD_and, getLsbD_signBitForBits h0 h, BitVec.getLsbD_setWidth,
      BitVec.msb_eq_getLsbD_last]
    by_cases hi : i = bits - 1
    · simp [hi, show bits - 1 < 64 by omega]
    · simp [hi]
  cases hmsb : x.msb with
  | true =>
    rw [bne_iff_ne]
    intro hzero
    have := hbit (bits - 1)
    rw [hzero, hmsb] at this
    simp at this
  | false =>
    have hzero : x.setWidth 64 &&& signBitForBits bits = 0 := by
      apply BitVec.eq_of_getLsbD_eq
      intro i _
      rw [hbit, hmsb]
      simp
    rw [hzero]
    rfl

/-- The flags at the bits they have in PSTATE. -/
def flagsWord (flags : Arm.ConditionFlags) : U64 :=
  flags.toBits.setWidth 64 <<< 28

theorem toNat_setWidth64 {bits : Nat} (x : BitVec bits) (h : bits ≤ 64) :
    (x.setWidth 64).toNat = x.toNat := by
  rw [BitVec.toNat_setWidth]
  exact Nat.mod_eq_of_lt (x.isLt.trans_le (Nat.pow_le_pow_right (by decide) h))

theorem addWithCarryNzcv_result {bits : Nat} (h : bits ≤ 64) (x y : BitVec bits) (c : Bool) :
    (x.setWidth 64 + y.setWidth 64 + (if c then 1 else 0)) &&& maskForBits bits =
      (Arm.addWithCarry x y c).1.setWidth 64 := by
  rw [and_maskForBits, BitVec.setWidth_add _ _ h, BitVec.setWidth_add _ _ h,
    BitVec.setWidth_setWidth_of_le _ h, BitVec.setWidth_setWidth_of_le _ h, BitVec.setWidth_eq,
    BitVec.setWidth_eq]
  congr 1
  apply BitVec.eq_of_toNat_eq
  simp only [Arm.addWithCarry, BitVec.toNat_add, BitVec.toNat_setWidth, BitVec.toNat_ofNat]
  cases c <;> simp

theorem addWithCarryNzcv_carry {bits : Nat} (h : bits ≤ 64) (x y : BitVec bits) (c : Bool) :
    ((x.setWidth 64).setWidth 128 + (y.setWidth 64).setWidth 128 + (if c then 1 else 0) :
      BitVec 128) >>> bits ≠ 0 ↔ (Arm.addWithCarry x y c).2.c = true := by
  have hx := x.isLt
  have hy := y.isLt
  have hpow : 2 ^ bits ≤ 2 ^ 64 := Nat.pow_le_pow_right (by decide) h
  have hpow64 : (2 : Nat) ^ 64 = 18446744073709551616 := by decide
  have hc : c.toNat ≤ 1 := Bool.toNat_le c
  have hsum : ((x.setWidth 64).setWidth 128 + (y.setWidth 64).setWidth 128 +
      (if c then 1 else 0) : BitVec 128).toNat = x.toNat + y.toNat + c.toNat := by
    have hcarry : (if c then 1 else 0 : BitVec 128).toNat = c.toNat := by cases c <;> rfl
    have hx64 := toNat_setWidth64 x h
    have hy64 := toNat_setWidth64 y h
    rw [BitVec.toNat_add, BitVec.toNat_add, hcarry, BitVec.toNat_setWidth 128,
      BitVec.toNat_setWidth 128, hx64, hy64]
    omega
  rw [Ne, ← BitVec.toNat_inj, BitVec.toNat_ushiftRight, hsum, Nat.shiftRight_eq_div_pow]
  simp only [Arm.addWithCarry, bne_iff_ne, BitVec.toNat_ofNat]
  generalize x.toNat + y.toNat + c.toNat = sum at hsum
  rw [show (0 : BitVec 128).toNat = 0 from rfl, Nat.div_eq_zero_iff]
  constructor
  · intro hdiv hmod
    exact hdiv (Or.inr (hmod ▸ Nat.mod_lt sum (Nat.two_pow_pos bits)))
  · intro hmod hdiv
    rcases hdiv with hzero | hlt
    · exact absurd hzero (Nat.two_pow_pos bits).ne'
    · exact hmod (Nat.mod_eq_of_lt hlt)

theorem addWithCarry_overflow {bits : Nat} (h0 : 0 < bits) (x y : BitVec bits) (c : Bool) :
    (Arm.addWithCarry x y c).2.v =
      (x.msb == y.msb && x.msb != (Arm.addWithCarry x y c).1.msb) := by
  have hx := x.isLt
  have hy := y.isLt
  have hc : c.toNat ≤ 1 := Bool.toNat_le c
  obtain ⟨n, rfl⟩ : ∃ n, bits = n + 1 := ⟨bits - 1, by omega⟩
  have hpow : 2 ^ (n + 1) = 2 * 2 ^ n := by rw [Nat.pow_succ, Nat.mul_comm]
  have hresult : (Arm.addWithCarry x y c).1.toNat =
      if x.toNat + y.toNat + c.toNat < 2 ^ (n + 1) then x.toNat + y.toNat + c.toNat
      else x.toNat + y.toNat + c.toNat - 2 ^ (n + 1) := by
    simp only [Arm.addWithCarry, BitVec.toNat_ofNat]
    split
    · next hlt => exact Nat.mod_eq_of_lt hlt
    · rw [Nat.mod_eq_sub_mod (by omega), Nat.mod_eq_of_lt (by omega)]
  have hv : (Arm.addWithCarry x y c).2.v =
      ((Arm.addWithCarry x y c).1.toInt != x.toInt + y.toInt + c.toNat) := rfl
  rw [hv, Bool.eq_iff_iff, bne_iff_ne, Bool.and_eq_true, beq_iff_eq, bne_iff_ne]
  simp only [BitVec.msb_eq_decide, BitVec.toInt_eq_toNat_cond, Nat.add_sub_cancel,
    decide_eq_decide, ne_eq]
  generalize (Arm.addWithCarry x y c).1.toNat = result at hresult
  rw [hpow] at *
  split_ifs at hresult ⊢ <;> omega

theorem addWithCarryNzcv_eq {bits : Nat} (h0 : 0 < bits) (h : bits ≤ 64) (x y : BitVec bits)
    (c : Bool) : addWithCarryNzcv (x.setWidth 64) (y.setWidth 64) c bits =
      (flagsWord (Arm.addWithCarry x y c).2, (Arm.addWithCarry x y c).1.setWidth 64) := by
  have hzero : (Arm.addWithCarry x y c).1.setWidth 64 = 0 ↔ (Arm.addWithCarry x y c).2.z = true := by
    simp only [Arm.addWithCarry, beq_iff_eq]
    rw [← BitVec.toNat_inj, toNat_setWidth64 _ h, ← BitVec.toNat_inj]
    rfl
  have hnegative : (Arm.addWithCarry x y c).2.n = (Arm.addWithCarry x y c).1.msb := rfl
  have hoverflow := addWithCarry_overflow h0 x y c
  simp only [addWithCarryNzcv, addWithCarryNzcv_result h, addWithCarryNzcv_carry h,
    and_signBitForBits_ne_zero h0 h, hzero]
  refine Prod.ext ?_ rfl
  dsimp only
  generalize (Arm.addWithCarry x y c).2 = flags at hnegative hoverflow
  rw [← hnegative] at hoverflow ⊢
  generalize x.msb = xNegative at hoverflow
  generalize y.msb = yNegative at hoverflow
  obtain ⟨n, z, c, v⟩ := flags
  obtain rfl : v = (xNegative == yNegative && xNegative != n) := hoverflow
  cases n <;> cases z <;> cases c <;> cases xNegative <;> cases yNegative <;> decide

theorem setFlags_flagsWord (cpu : NativeCpu) (flags : Arm.ConditionFlags) :
    cpu.setFlags (flagsWord flags) = { cpu with pstate := Arm.withFlags cpu.pstate flags } := by
  have hbits : ∀ i < 64, (0xf0000000#64).getLsbD i = decide (28 ≤ i ∧ i < 32) := by decide
  have hpstate : (cpu.pstate &&& ~~~0xf0000000#64) ||| (flagsWord flags &&& 0xf0000000#64) =
      Arm.withFlags cpu.pstate flags := by
    apply BitVec.eq_of_getLsbD_eq
    intro i hi
    simp only [Arm.getLsbD_withFlags, BitVec.getLsbD_or, BitVec.getLsbD_and, BitVec.getLsbD_not,
      hbits i hi, flagsWord, BitVec.getLsbD_shiftLeft, BitVec.getLsbD_setWidth]
    by_cases hin : 28 ≤ i ∧ i < 32
    · simp [hi, hin, show i - 28 < 64 by omega, show ¬ i < 28 by omega]
    · simp [hi, hin]
  rw [NativeCpu.setFlags, hpstate]

theorem setLogicalFlags_eq {bits : Nat} (h0 : 0 < bits) (h : bits ≤ 64) (cpu : NativeCpu)
    (result : BitVec bits) :
    cpu.setLogicalFlags (result.setWidth 64) bits =
      { cpu with pstate := Arm.withFlags cpu.pstate ⟨result.msb, result == 0, false, false⟩ } := by
  have hzero : result.setWidth 64 = 0 ↔ (result == 0) = true := by
    rw [beq_iff_eq, ← BitVec.toNat_inj, toNat_setWidth64 _ h, ← BitVec.toNat_inj]
    rfl
  have hnegative : result.setWidth 64 &&& signBitForBits bits ≠ 0 ↔ result.msb = true := by
    rw [← and_signBitForBits_ne_zero h0 h, bne_iff_ne]
  rw [← setFlags_flagsWord]
  simp only [NativeCpu.setLogicalFlags, NativeCpu.setFlags, hzero, hnegative]
  generalize cpu.pstate &&& ~~~0xf0000000#64 = rest
  cases result.msb <;> cases (result == 0) <;> simp [flagsWord, Arm.ConditionFlags.toBits, BitVec.or_assoc]

theorem conditionHolds_eq (condition : BitVec 4) (pstate : U64) :
    conditionHolds (condition.setWidth 8) pstate = Arm.conditionHolds condition (Arm.flagsOf pstate) := by
  have hbit : ∀ (i : Nat) (mask : U64), mask = BitVec.twoPow 64 i → i < 64 →
      (pstate &&& mask != 0) = pstate.getLsbD i := by
    intro i mask hmask hi
    rw [hmask, Bool.eq_iff_iff, bne_iff_ne]
    exact and_twoPow_ne_zero pstate hi
  have hn := hbit 31 0x80000000 (by decide) (by decide)
  have hz := hbit 30 0x40000000 (by decide) (by decide)
  have hc := hbit 29 0x20000000 (by decide) (by decide)
  have hv := hbit 28 0x10000000 (by decide) (by decide)
  have hflags : Arm.flagsOf pstate = ⟨pstate.getLsbD 31, pstate.getLsbD 30, pstate.getLsbD 29,
      pstate.getLsbD 28⟩ := by
    simp [Arm.flagsOf, Arm.ConditionFlags.ofBits]
  rw [hflags]
  simp only [conditionHolds, hn, hz, hc, hv]
  generalize pstate.getLsbD 31 = n
  generalize pstate.getLsbD 30 = z
  generalize pstate.getLsbD 29 = c
  generalize pstate.getLsbD 28 = v
  revert condition n z c v
  decide

theorem shiftLeft_of_lt (value : U64) {amount : Nat} (h : amount < 64) :
    shiftLeft value amount = some (value <<< amount) := if_pos h

theorem shiftRight_of_lt (value : U64) {amount : Nat} (h : amount < 64) :
    shiftRight value amount = some (value >>> amount) := if_pos h

theorem rotateRightWidth_eq {bits : Nat} (h0 : 0 < bits) (h : bits ≤ 64) (x : BitVec bits)
    (amount : Nat) :
    rotateRightWidth (x.setWidth 64) amount bits = some ((x.rotateRight amount).setWidth 64) := by
  have hr : amount % bits < bits := Nat.mod_lt amount h0
  simp only [rotateRightWidth, setWidth_and_maskForBits x h]
  by_cases hzero : amount % bits = 0
  · have hx : x.rotateRight amount = x := by
      rw [← BitVec.rotateRight_mod_eq_rotateRight, hzero]
      simp [BitVec.rotateRight_def]
    rw [if_pos hzero, hx]
  · rw [if_neg hzero, shiftRight_of_lt _ (by omega), shiftLeft_of_lt _ (by omega)]
    have hrotated : (x.setWidth 64 >>> (amount % bits) ||| x.setWidth 64 <<< (bits - amount % bits))
        &&& maskForBits bits = (x.rotateRight amount).setWidth 64 := by
      rw [BitVec.rotateRight_def, BitVec.setWidth_or, BitVec.setWidth_ushiftRight h,
        ← shiftLeft_and_maskForBits, BitVec.and_comm, BitVec.and_or_distrib_left, 
        BitVec.and_comm _ (x.setWidth 64 >>> _), BitVec.and_comm (maskForBits bits),
        ← BitVec.setWidth_ushiftRight h, setWidth_and_maskForBits _ h]
    exact congrArg some hrotated

theorem signExtend_and_maskForBits {bits : Nat} (x : BitVec bits) (h : bits ≤ 64) :
    x.signExtend 64 &&& maskForBits bits = x.setWidth 64 := by
  rw [and_maskForBits]
  congr 1
  apply BitVec.eq_of_getLsbD_eq
  intro i hi
  rw [BitVec.getLsbD_setWidth, BitVec.getLsbD_signExtend]
  simp [hi, show i < 64 by omega]

theorem arithmeticShiftRight_eq {bits : Nat} (h : bits = 32 ∨ bits = 64) (x : BitVec bits)
    {amount : Nat} (hamount : amount < bits) :
    (if bits = 64 then do
        let shifted ← arithmeticShiftRight64 (x.setWidth 64) amount
        some (shifted &&& maskForBits bits)
      else do
        let shifted ← arithmeticShiftRight32 (x.setWidth 64) amount
        some (shifted &&& maskForBits bits)) = some ((x.sshiftRight amount).setWidth 64) := by
  rcases h with rfl | rfl
  · rw [if_neg (by decide), arithmeticShiftRight32, if_pos hamount,
      BitVec.setWidth_setWidth_of_le _ (by decide), BitVec.setWidth_eq]
    exact congrArg some (signExtend_and_maskForBits _ (by decide))
  · rw [if_pos rfl, arithmeticShiftRight64, if_pos hamount, BitVec.setWidth_eq]
    exact congrArg some (setWidth_and_maskForBits (x.sshiftRight amount) (by decide))

theorem shiftedRegisterValue_eq {bits : Nat} (h : bits = 32 ∨ bits = 64) (x : U64)
    (shiftType : Arm.ShiftType) {amount : Nat} (hamount : amount < bits) :
    shiftedRegisterValue x shiftType.toBits.toNat amount bits =
      some ((Arm.shiftReg (x.setWidth bits) shiftType amount).setWidth 64) := by
  have h64 : bits ≤ 64 := by omega
  simp only [shiftedRegisterValue, and_maskForBits x bits]
  cases shiftType with
  | lsl =>
    show (shiftLeft _ amount).bind _ = _
    rw [shiftLeft_of_lt _ (by omega)]
    exact congrArg some (shiftLeft_and_maskForBits _ _)
  | lsr =>
    show (if amount = 0 then _ else _) = _
    by_cases hzero : amount = 0
    · rw [if_pos hzero, hzero]
      simp [Arm.shiftReg]
    · rw [if_neg hzero, shiftRight_of_lt _ (by omega)]
      exact congrArg some (BitVec.setWidth_ushiftRight h64).symm
  | asr =>
    show (if amount = 0 then _ else _) = _
    by_cases hzero : amount = 0
    · rw [if_pos hzero, hzero]
      simp [Arm.shiftReg]
    · rw [if_neg hzero]
      exact arithmeticShiftRight_eq h _ hamount
  | ror => exact rotateRightWidth_eq (by omega) h64 _ _

theorem signExtendLoaded_eq {bits : Nat} (h0 : 0 < bits) (h : bits ≤ 64) (x : BitVec bits) :
    signExtendLoaded (x.setWidth 64) bits = x.signExtend 64 := by
  have hsign : x.setWidth 64 &&& signBitForBits bits = 0 ↔ x.msb = false := by
    rw [← and_signBitForBits_ne_zero h0 h, bne_eq_false_iff_eq]
  unfold signExtendLoaded
  apply BitVec.eq_of_getLsbD_eq
  intro i hi
  rw [BitVec.getLsbD_signExtend]
  by_cases hwide : 64 ≤ bits
  · rw [if_pos (Or.inl hwide), BitVec.getLsbD_setWidth]
    simp [show i < bits by omega]
  · cases hmsb : x.msb with
    | false =>
      rw [if_pos (Or.inr (hsign.mpr hmsb)), BitVec.getLsbD_setWidth]
      by_cases hib : i < bits
      · simp [hib]
      · simp [hib, BitVec.getLsbD_of_ge x i (by omega)]
    | true =>
      rw [if_neg (by rw [hsign, hmsb]; simp [hwide]), BitVec.getLsbD_or, BitVec.getLsbD_not,
        getLsbD_maskForBits, BitVec.getLsbD_setWidth]
      by_cases hib : i < bits
      · simp [hib, hi]
      · simp [hib, hi]

theorem extendedRegisterValue_eq (x : U64) (extendType : Arm.ExtendType) :
    extendedRegisterValue x (extendType.toBits.setWidth 8) =
      if extendType.isUnsigned then (x.setWidth extendType.length).setWidth 64
      else (x.setWidth extendType.length).signExtend 64 := by
  have h8 := and_maskForBits x 8
  have h16 := and_maskForBits x 16
  have h32 := and_maskForBits x 32
  have hsigned : ∀ bits, 0 < bits → bits ≤ 64 →
      signExtendLoaded (x &&& maskForBits bits) bits = (x.setWidth bits).signExtend 64 := by
    intro bits h0 h
    rw [and_maskForBits]
    exact signExtendLoaded_eq h0 h _
  cases extendType with
  | uxtb => exact h8
  | uxth => exact h16
  | uxtw => exact h32
  | uxtx => simp [extendedRegisterValue, Arm.ExtendType.toBits, Arm.ExtendType.isUnsigned, Arm.ExtendType.length]
  | sxtb => exact hsigned 8 (by decide) (by decide)
  | sxth => exact hsigned 16 (by decide) (by decide)
  | sxtw => exact hsigned 32 (by decide) (by decide)
  | sxtx => simp [extendedRegisterValue, Arm.ExtendType.toBits, Arm.ExtendType.isUnsigned, Arm.ExtendType.length]

theorem extendReg_eq {bits : Nat} (h : bits = 32 ∨ bits = 64) (x : U64)
    (extendType : Arm.ExtendType) {shift : Nat} (hshift : shift ≤ 4) :
    (extendedRegisterValue x (extendType.toBits.setWidth 8) <<< shift).setWidth bits =
      Arm.extendReg bits x extendType shift := by
  have hlength : 8 ≤ extendType.length ∧ extendType.length ≤ 64 := by
    cases extendType <;> decide
  rw [extendedRegisterValue_eq]
  unfold Arm.extendReg
  generalize extendType.length = length at *
  apply BitVec.eq_of_getLsbD_eq
  intro i hi
  rw [BitVec.getLsbD_setWidth, BitVec.getLsbD_shiftLeft]
  cases extendType.isUnsigned with
  | true =>
    simp only [if_true, BitVec.getLsbD_setWidth, BitVec.getLsbD_append]
    by_cases hlow : i < shift
    · simp [hlow]
    · simp [hi, hlow, show i < 64 by omega, show i - shift < 64 by omega,
        show i - shift < bits - shift by omega]
  | false =>
    simp only [Bool.false_eq_true, if_false, BitVec.getLsbD_signExtend, BitVec.getLsbD_append]
    by_cases hlow : i < shift
    · simp [hi, hlow, show i < min length (bits - shift) + shift by omega, show i < 64 by omega]
    · by_cases hin : i - shift < length
      · have hfield : i < min length (bits - shift) + shift := by omega
        simp [hi, hlow, hin, hfield, show i < 64 by omega, show i - shift < 64 by omega,
          show i - shift < bits - shift by omega]
      · have hfield : ¬ i < min length (bits - shift) + shift := by omega
        have hmin : min length (bits - shift) = length := by omega
        rw [if_neg hfield, if_neg hin, BitVec.msb_append]
        simp [hi, hlow, hmin, BitVec.msb_setWidth, show i < 64 by omega,
          show i - shift < 64 by omega, show length ≠ 0 by omega]

theorem highestSetBitFrom_eq (value : U32) {bound : Nat} (h : bound ≤ 32) :
    highestSetBitFrom value bound = Arm.highestSetBitBelow value bound := by
  induction bound with
  | zero => rfl
  | succ bound ih =>
    have hbit : value &&& (1#32 <<< bound) ≠ 0 ↔ value.getLsbD bound = true :=
      and_twoPow_ne_zero value (by omega)
    simp only [highestSetBitFrom, Arm.highestSetBitBelow, hbit, ih (by omega)]

theorem encodedLength_eq (n : Bool) (imms : BitVec 6) :
    highestSetBit ((((BitVec.ofBool n).setWidth 32) <<< 6) ||| (~~~(imms.setWidth 32) &&& 0x3f)) =
      Arm.highestSetBit (BitVec.ofBool n ++ ~~~imms) := by
  have hword : (((BitVec.ofBool n).setWidth 32) <<< 6) ||| (~~~(imms.setWidth 32) &&& 0x3f) =
      (BitVec.ofBool n ++ ~~~imms).setWidth 32 := by
    revert n imms
    decide
  rw [hword, highestSetBit, highestSetBitFrom_eq _ (Nat.le_refl _)]
  exact Arm.highestSetBitBelow_setWidth _ (by decide) (by decide)

theorem maskForBits_eq {count size : Nat} (h : count ≤ size) :
    maskForBits count = ((BitVec.allOnes count).setWidth size).setWidth 64 := by
  apply BitVec.eq_of_getLsbD_eq
  intro i hi
  rw [getLsbD_maskForBits, BitVec.getLsbD_setWidth, BitVec.getLsbD_setWidth, BitVec.getLsbD_allOnes]
  by_cases hc : i < count
  · simp [hi, hc, show i < size by omega]
  · simp [hc]

theorem replicateElement_eq {size bits : Nat} (h0 : 0 < size) (h : bits ≤ 64) (hdvd : size ∣ bits)
    (element : BitVec size) : replicateElement (element.setWidth 64) size bits =
      some ((BitVec.replicate (bits / size) element).setWidth 64) := by
  obtain ⟨count, rfl⟩ := hdvd
  have hcount : (size * count + size - 1) / size = count := by
    rw [show size * count + size - 1 = size - 1 + size * count by omega,
      Nat.add_mul_div_left _ _ h0, Nat.div_eq_of_lt (by omega), Nat.zero_add]
  unfold replicateElement
  rw [hcount, Nat.mul_div_cancel_left _ h0]
  clear hcount
  induction count with
  | zero => rfl
  | succ count ih =>
    have hsucc : size * (count + 1) = size * count + size := Nat.mul_succ size count
    have hamount : count * size < 64 := by
      rw [Nat.mul_comm]
      omega
    rw [List.range_succ, List.foldlM_append, ih (by omega)]
    simp only [List.foldlM_cons, List.foldlM_nil, shiftLeft_of_lt _ hamount, Option.bind_eq_bind,
      Option.bind_some, Option.pure_def]
    congr 1
    apply BitVec.eq_of_getLsbD_eq
    intro i hi
    rw [BitVec.replicate_succ, Nat.mul_comm count size]
    simp only [BitVec.getLsbD_or, BitVec.getLsbD_setWidth, BitVec.getLsbD_shiftLeft,
      BitVec.getLsbD_cast, BitVec.getLsbD_append, hi]
    by_cases hlow : i < size * count
    · simp [hlow]
    · rw [BitVec.getLsbD_of_ge _ i (by omega)]
      simp [hlow, show i - size * count < 64 by omega]

theorem levels_eq {length : Nat} (h : length ≤ 6) :
    (1#32 <<< length) - 1 = (BitVec.ofNat 6 (2 ^ length - 1)).setWidth 32 ∧
      (1#32 <<< length).toNat = 2 ^ length := by
  revert length
  decide

theorem toNat_setWidth_field (x : BitVec 6) :
    (x.setWidth 32).toNat = x.toNat ∧ (x.setWidth 32 + 1).toNat = x.toNat + 1 := by
  have hx := x.isLt
  have hone : (1 : U32).toNat = 1 := rfl
  rw [BitVec.toNat_add, BitVec.toNat_setWidth, hone]
  omega

theorem and_levels_toNat (x : BitVec 6) {length : Nat} (h : length ≤ 6) :
    (x &&& BitVec.ofNat 6 (2 ^ length - 1)).toNat = x.toNat % 2 ^ length := by
  have hpow : 2 ^ length ≤ 2 ^ 6 := Nat.pow_le_pow_right (by decide) h
  have hpos := Nat.two_pow_pos length
  rw [BitVec.toNat_and, BitVec.toNat_ofNat, Nat.mod_eq_of_lt (by omega),
    Nat.and_two_pow_sub_one_eq_mod]

theorem and_levels_lt (x : BitVec 6) {length : Nat} (h : length ≤ 6) :
    (x &&& BitVec.ofNat 6 (2 ^ length - 1)).toNat < 2 ^ length := by
  rw [and_levels_toNat x h]
  exact Nat.mod_lt _ (Nat.two_pow_pos length)

theorem diff_and_levels (imms immr : BitVec 6) {length : Nat} (h : length ≤ 6) :
    ((imms &&& BitVec.ofNat 6 (2 ^ length - 1)).setWidth 32 -
      (immr &&& BitVec.ofNat 6 (2 ^ length - 1)).setWidth 32) &&&
      (BitVec.ofNat 6 (2 ^ length - 1)).setWidth 32 =
      ((imms - immr) &&& BitVec.ofNat 6 (2 ^ length - 1)).setWidth 32 := by
  have hpow : 2 ^ length ≤ 2 ^ 6 := Nat.pow_le_pow_right (by decide) h
  have hpos := Nat.two_pow_pos length
  have hs := imms.isLt
  have hr := immr.isLt
  have hword : ∀ y : U32, (y &&& (BitVec.ofNat 6 (2 ^ length - 1)).setWidth 32).toNat =
      y.toNat % 2 ^ length := by
    intro y
    rw [BitVec.toNat_and, BitVec.toNat_setWidth, BitVec.toNat_ofNat,
      Nat.mod_eq_of_lt (show 2 ^ length - 1 < 2 ^ 6 by omega), Nat.mod_eq_of_lt (by omega),
      Nat.and_two_pow_sub_one_eq_mod]
  apply BitVec.eq_of_toNat_eq
  rw [hword, BitVec.toNat_sub, (toNat_setWidth_field _).1, (toNat_setWidth_field _).1,
    (toNat_setWidth_field _).1, and_levels_toNat _ h, and_levels_toNat _ h, and_levels_toNat _ h,
    BitVec.toNat_sub]
  interval_cases length <;> omega

theorem length_le (n : Bool) (imms : BitVec 6) :
    Arm.highestSetBit (BitVec.ofBool n ++ ~~~imms) ≤ 6 ∧
      (n = false → Arm.highestSetBit (BitVec.ofBool n ++ ~~~imms) ≤ 5) := by
  revert n imms
  decide

theorem elementSize_dvd {bits l : Nat} {n : Bool} (h : bits = 32 ∨ bits = 64)
    (hn : bits = 32 → n = false) (hl : l ≤ 6) (hl5 : n = false → l ≤ 5) : 2 ^ l ∣ bits := by
  rcases h with rfl | rfl
  · exact pow_dvd_pow 2 (hl5 (hn rfl))
  · exact pow_dvd_pow 2 hl

theorem rotatedMask_eq {size count : Nat} (h0 : 0 < size) (h : size ≤ 64) (hcount : count ≤ size)
    (rotate : Nat) : rotateRightWidth (maskForBits count) rotate size =
      some ((((BitVec.allOnes count).setWidth size).rotateRight rotate).setWidth 64) := by
  rw [maskForBits_eq hcount]
  exact rotateRightWidth_eq h0 h _ rotate

theorem replicate_and_maskForBits {size bits : Nat} (h : bits ≤ 64) (element : BitVec size) :
    (BitVec.replicate (bits / size) element).setWidth 64 &&& maskForBits bits =
      ((BitVec.replicate (bits / size) element).setWidth bits).setWidth 64 := by
  rw [and_maskForBits, BitVec.setWidth_setWidth_of_le (BitVec.replicate (bits / size) element) h]

theorem decodeLogicalImmediate_eq (n : Bool) (immr imms : BitVec 6) {bits : Nat}
    (h : bits = 32 ∨ bits = 64) (hn : bits = 32 → n = false) :
    decodeLogicalImmediate ((BitVec.ofBool n).setWidth 32) (immr.setWidth 32) (imms.setWidth 32)
      bits = (Arm.decodeBitMasks n imms immr true).map
        fun masks => (masks.wmask bits).setWidth 64 := by
  have hguard : ¬ (bits = 32 ∧ (BitVec.ofBool n).setWidth 32 ≠ 0) := by
    rintro ⟨hbits, hne⟩
    rw [hn hbits] at hne
    exact hne rfl
  have hlength := length_le n imms
  simp only [decodeLogicalImmediate, Arm.decodeBitMasks, if_neg hguard, encodedLength_eq]
  generalize Arm.highestSetBit (BitVec.ofBool n ++ ~~~imms) = length at hlength
  by_cases hone : length < 1
  · simp [hone]
  · obtain ⟨l, rfl⟩ : ∃ l : Nat, length = l := ⟨length.toNat, by omega⟩
    have hl : l ≤ 6 := by omega
    have hdvd := elementSize_dvd h hn hl (fun hf => by have := hlength.2 hf; omega)
    have hsmall : ¬ bits < 2 ^ l := Nat.not_lt.mpr (Nat.le_of_dvd (by omega) hdvd)
    have hs := and_levels_lt imms hl
    have hbits64 : bits ≤ 64 := by omega
    have h64 : 2 ^ l ≤ 64 := by omega
    obtain ⟨hlevels, hsize⟩ := levels_eq hl
    simp only [if_neg hone, Int.toNat_natCast, hlevels, hsize, ← BitVec.setWidth_and, true_and,
      if_neg hsmall, toNat_setWidth_field]
    have hall : (imms &&& BitVec.ofNat 6 (2 ^ l - 1)).setWidth 32 =
        (BitVec.ofNat 6 (2 ^ l - 1)).setWidth 32 ↔
        imms &&& BitVec.ofNat 6 (2 ^ l - 1) = BitVec.ofNat 6 (2 ^ l - 1) := by
      rw [← BitVec.toNat_inj, (toNat_setWidth_field _).1, (toNat_setWidth_field _).1,
        BitVec.toNat_inj]
    simp only [rotatedMask_eq (Nat.two_pow_pos l) h64 hs,
      replicateElement_eq (Nat.two_pow_pos l) hbits64 hdvd, replicate_and_maskForBits hbits64,
      Option.bind_eq_bind, Option.bind_some]
    by_cases hones : imms &&& BitVec.ofNat 6 (2 ^ l - 1) = BitVec.ofNat 6 (2 ^ l - 1)
    · rw [if_pos (hall.mpr hones), if_pos hones]
      rfl
    · rw [if_neg (mt hall.mp hones), if_neg hones]
      rfl

theorem decodeBitfieldMasks_eq (n : Bool) (immr imms : BitVec 6) {bits : Nat}
    (h : bits = 32 ∧ n = false ∨ bits = 64 ∧ n = true) :
    decodeBitfieldMasks ((BitVec.ofBool n).setWidth 32) (immr.setWidth 32) (imms.setWidth 32)
      bits = (Arm.decodeBitMasks n imms immr false).map
        fun masks => ((masks.wmask bits).setWidth 64, (masks.tmask bits).setWidth 64) := by
  have hguard : ¬ (bits = 32 ∧ (BitVec.ofBool n).setWidth 32 ≠ (0 : U32) ∨
      bits = 64 ∧ (BitVec.ofBool n).setWidth 32 ≠ (1 : U32)) := by
    rcases h with ⟨rfl, rfl⟩ | ⟨rfl, rfl⟩ <;> decide
  have hbits : bits = 32 ∨ bits = 64 := by omega
  have hlength := length_le n imms
  simp only [decodeBitfieldMasks, Arm.decodeBitMasks, if_neg hguard, encodedLength_eq]
  generalize Arm.highestSetBit (BitVec.ofBool n ++ ~~~imms) = length at hlength
  by_cases hone : length < 1
  · simp [hone]
  · obtain ⟨l, rfl⟩ : ∃ l : Nat, length = l := ⟨length.toNat, by omega⟩
    have hl : l ≤ 6 := by omega
    have hdvd : 2 ^ l ∣ bits := elementSize_dvd hbits
      (fun h32 => by rcases h with h | h; exacts [h.2, absurd (h.1.symm.trans h32) (by decide)])
      hl (fun hf => by have := hlength.2 hf; omega)
    have hsmall : ¬ bits < 2 ^ l := Nat.not_lt.mpr (Nat.le_of_dvd (by omega) hdvd)
    have hs := and_levels_lt imms hl
    have hd := and_levels_lt (imms - immr) hl
    have hbits64 : bits ≤ 64 := by omega
    have h64 : 2 ^ l ≤ 64 := by omega
    obtain ⟨hlevels, hsize⟩ := levels_eq hl
    simp only [if_neg hone, Int.toNat_natCast, hlevels, hsize, ← BitVec.setWidth_and,
      Bool.false_eq_true, false_and, if_false, if_neg hsmall, diff_and_levels _ _ hl,
      toNat_setWidth_field]
    simp only [rotatedMask_eq (Nat.two_pow_pos l) h64 hs, maskForBits_eq hd,
      replicateElement_eq (Nat.two_pow_pos l) hbits64 hdvd, replicate_and_maskForBits hbits64,
      Option.bind_eq_bind, Option.bind_some]
    rfl

end Pinecone
