import Pinecone.ArmEncodings
import Pinecone.BitFields
import Pinecone.InstructionDecoder
import Pinecone.NativeArithmetic

/-! The fields that the decoder reads from a word. -/

namespace Pinecone

open BitFields

variable (w : U32)

@[simp] theorem bitAt_eq (lsb : Nat) : bitAt w lsb = w.getLsbD lsb := by
  have h := shiftRight_and_mask w 1 lsb 1 rfl
  rw [bitAt, h, ← ofBool_getLsbD]
  cases w.getLsbD lsb <;> rfl

@[simp] theorem rdField_eq : rdField w = (w.extractLsb' 0 5).toNat := by
  rw [rdField, and_mask w 0x1f 5 rfl]
  exact BitVec.toNat_setWidth_of_le (by decide)

theorem toNat_field (start len : Nat) (mask : U32) (hm : mask.toNat = 2 ^ len - 1)
    (h : len ≤ 32) : ((w >>> start) &&& mask).toNat = (w.extractLsb' start len).toNat := by
  rw [shiftRight_and_mask w mask start len hm]
  exact BitVec.toNat_setWidth_of_le h

@[simp] theorem rnField_eq : rnField w = (w.extractLsb' 5 5).toNat :=
  toNat_field w 5 5 0x1f rfl (by decide)

@[simp] theorem raField_eq : raField w = (w.extractLsb' 10 5).toNat :=
  toNat_field w 10 5 0x1f rfl (by decide)

@[simp] theorem rmField_eq : rmField w = (w.extractLsb' 16 5).toNat :=
  toNat_field w 16 5 0x1f rfl (by decide)

@[simp] theorem sizeField_eq : sizeField w = (w.extractLsb' 30 2).toNat :=
  toNat_field w 30 2 3 rfl (by decide)

@[simp] theorem bitsField_eq : bitsField w = datasize (w.getLsbD 31) := by
  rw [bitsField, bitAt_eq]; rfl

@[simp] theorem addSubField_eq :
    addSubField w = DataProcessing.addSubFlags (w.getLsbD 30) (w.getLsbD 29) := by
  rw [addSubField, bitAt_eq, bitAt_eq]; rfl

theorem setWidth_field (start len width : Nat) (mask : U32)
    (hm : mask.toNat = 2 ^ len - 1) (h : len ≤ 32) :
    ((w >>> start) &&& mask).setWidth width = (w.extractLsb' start len).setWidth width := by
  rw [shiftRight_and_mask w mask start len hm]
  exact BitVec.setWidth_setWidth (by omega)

theorem signExtendU64_eq {n : Nat} (h0 : 0 < n) (h : n < 64) (x : BitVec n) :
    signExtendU64 (x.setWidth 64) n = x.signExtend 64 := by
  have hmask : x.setWidth 64 &&& maskForBits n = x.setWidth 64 :=
    setWidth_and_maskForBits x (by omega)
  have hsign := and_signBitForBits_ne_zero h0 (by omega) x
  rw [signExtendU64, if_neg (by omega), if_neg (by omega), hmask]
  generalize hs : signBitForBits n = s at hsign ⊢
  have hbit (i : Nat) : s.getLsbD i = decide (i = n - 1) := by
    rw [← hs, getLsbD_signBitForBits h0 (by omega)]
  have hvbit (i : Nat) : (x.setWidth 64).getLsbD i = x.getLsbD i := by
    rw [BitVec.getLsbD_setWidth]
    by_cases hi : i < n
    · simp [show i < 64 by omega]
    · simp [BitVec.getLsbD_of_ge x i (by omega)]
  cases hmsb : x.msb with
  | false =>
    -- the sign bit is clear: flipping it adds it
    have hand : x.setWidth 64 &&& s = 0 := by simpa [hmsb] using hsign
    have hxor : x.setWidth 64 ^^^ s = x.setWidth 64 + s := by
      rw [BitVec.add_eq_or_of_and_eq_zero _ _ hand]
      apply BitVec.eq_of_getLsbD_eq
      intro i _
      have hi : ((x.setWidth 64).getLsbD i && s.getLsbD i) = false := by
        rw [← BitVec.getLsbD_and, hand]
        simp
      rw [BitVec.getLsbD_xor, BitVec.getLsbD_or]
      revert hi
      cases (x.setWidth 64).getLsbD i <;> cases s.getLsbD i <;> simp
    rw [hxor, BitVec.add_sub_cancel, BitVec.signExtend_eq_setWidth_of_msb_false hmsb]
  | true =>
    have hand : (x.setWidth 64 ^^^ s) &&& s = 0 := by
      apply BitVec.eq_of_getLsbD_eq
      intro i _
      rw [BitVec.getLsbD_and, BitVec.getLsbD_xor, hbit, hvbit]
      by_cases hi : i = n - 1
      · have hx : x.getLsbD (n - 1) = true := by rw [← BitVec.msb_eq_getLsbD_last, hmsb]
        simp [hi, hx]
      · simp [hi]
    have hor : (x.setWidth 64 ^^^ s) + s = x.setWidth 64 := by
      rw [BitVec.add_eq_or_of_and_eq_zero _ _ hand]
      apply BitVec.eq_of_getLsbD_eq
      intro i _
      rw [BitVec.getLsbD_or, BitVec.getLsbD_xor, hbit, hvbit]
      by_cases hi : i = n - 1
      · have hx : x.getLsbD (n - 1) = true := by rw [← BitVec.msb_eq_getLsbD_last, hmsb]
        simp [hi, hx]
      · simp [hi]
    have hxor : x.setWidth 64 ^^^ s = x.setWidth 64 - s := by
      rw [BitVec.eq_sub_iff_add_eq, hor]
    have hsNat : s.toNat = 2 ^ (n - 1) := by
      have htwo : s = BitVec.twoPow 64 (n - 1) := by
        apply BitVec.eq_of_getLsbD_eq
        intro i _
        rw [hbit, BitVec.getLsbD_twoPow]
        by_cases hi : i = n - 1
        · simp [hi, show n - 1 < 64 by omega]
        · simp [hi, show n - 1 ≠ i from Ne.symm hi]
      rw [htwo, BitVec.toNat_twoPow_of_lt (by omega)]
    apply BitVec.eq_of_toNat_eq
    have hpow : 2 ^ n = 2 * 2 ^ (n - 1) := by
      rw [← Nat.pow_succ', Nat.succ_eq_add_one, Nat.sub_add_cancel h0]
    have hle : 2 ^ n ≤ 2 ^ 63 := Nat.pow_le_pow_right (by decide) (by omega)
    have hx := x.isLt
    have hv : (x.setWidth 64).toNat = x.toNat := toNat_setWidth64 x (by omega)
    rw [hxor, BitVec.toNat_signExtend, hmsb, hv, BitVec.toNat_sub, BitVec.toNat_sub, hv, hsNat,
      if_pos rfl]
    have hge : 2 ^ (n - 1) ≤ x.toNat := by
      rw [BitVec.msb_eq_decide, decide_eq_true_iff] at hmsb
      exact hmsb
    omega

theorem signExtend_mul {m : Nat} (k : Nat) (x : BitVec m) :
    x.signExtend 64 * BitVec.ofNat 64 (2 ^ k) = (x ++ BitVec.ofNat k 0).signExtend 64 := by
  rw [BitVec.signExtend, BitVec.signExtend, BitVec.toInt_append_zero, BitVec.ofInt_mul,
    BitVec.mul_comm]
  congr 1

theorem decodeScaledSignedImmediate_eq {m : Nat} (h0 : 0 < m) (h : m < 64) (x : BitVec m) :
    decodeScaledSignedImmediate (x.setWidth 64) m 4 = (x ++ 0b00#2).signExtend 64 := by
  rw [decodeScaledSignedImmediate, signExtendU64_eq h0 h]
  exact signExtend_mul 2 x

theorem flag_field (lsb : Nat) :
    ((w >>> lsb) &&& 1).setWidth 8 = if w.getLsbD lsb then (1 : BitVec 8) else 0 := by
  rw [setWidth_field w lsb 1 8 1 rfl (by decide), ← ofBool_getLsbD]
  cases w.getLsbD lsb <;> rfl

theorem shiftLeft_or_setWidth {m k : Nat} (h : m + k ≤ 64) (x : BitVec m) (y : BitVec k) :
    (x.setWidth 64 <<< k) ||| y.setWidth 64 = (x ++ y).setWidth 64 := by
  apply BitVec.eq_of_getLsbD_eq
  intro i hi
  rw [BitVec.getLsbD_or, BitVec.getLsbD_shiftLeft, BitVec.getLsbD_setWidth,
    BitVec.getLsbD_setWidth, BitVec.getLsbD_setWidth, BitVec.getLsbD_append]
  by_cases hk : i < k
  · simp [hi, hk]
  · simp [hi, hk, show i - k < 64 by omega, BitVec.getLsbD_of_ge y i (by omega)]

theorem shiftLeft_setWidth {m k : Nat} (h : m + k ≤ 64) (x : BitVec m) :
    x.setWidth 64 <<< k = (x ++ (0 : BitVec k)).setWidth 64 := by
  rw [← shiftLeft_or_setWidth h]
  simp

theorem exists_shiftType (bits : BitVec 2) : ∃ t : Arm.ShiftType, t.toBits = bits := by
  have h : bits = 0 ∨ bits = 1 ∨ bits = 2 ∨ bits = 3 := by revert bits; decide
  obtain rfl | rfl | rfl | rfl := h
  exacts [⟨.lsl, rfl⟩, ⟨.lsr, rfl⟩, ⟨.asr, rfl⟩, ⟨.ror, rfl⟩]

theorem exists_extendType (bits : BitVec 3) : ∃ t : Arm.ExtendType, t.toBits = bits := by
  have h : bits = 0 ∨ bits = 1 ∨ bits = 2 ∨ bits = 3 ∨ bits = 4 ∨ bits = 5 ∨ bits = 6 ∨
      bits = 7 := by revert bits; decide
  obtain rfl | rfl | rfl | rfl | rfl | rfl | rfl | rfl := h
  exacts [⟨.uxtb, rfl⟩, ⟨.uxth, rfl⟩, ⟨.uxtw, rfl⟩, ⟨.uxtx, rfl⟩, ⟨.sxtb, rfl⟩, ⟨.sxth, rfl⟩,
    ⟨.sxtw, rfl⟩, ⟨.sxtx, rfl⟩]

theorem exists_logicalOp (bits : BitVec 2) : ∃ op : LogicalOp, op.toBits = bits := by
  have h : bits = 0 ∨ bits = 1 ∨ bits = 2 ∨ bits = 3 := by revert bits; decide
  obtain rfl | rfl | rfl | rfl := h
  exacts [⟨.and, rfl⟩, ⟨.orr, rfl⟩, ⟨.eor, rfl⟩, ⟨.ands, rfl⟩]

theorem exists_moveWideOp {bits : BitVec 2} (hne : bits ≠ 1) :
    ∃ op : MoveWideOp, op.toBits = bits := by
  have h : bits = 0 ∨ bits = 2 ∨ bits = 3 := by revert bits; decide
  obtain rfl | rfl | rfl := h
  exacts [⟨.movn, rfl⟩, ⟨.movz, rfl⟩, ⟨.movk, rfl⟩]

theorem exists_bitfieldOp {bits : BitVec 2} (hne : bits ≠ 3) :
    ∃ op : BitfieldOp, op.toBits = bits := by
  have h : bits = 0 ∨ bits = 1 ∨ bits = 2 := by revert bits; decide
  obtain rfl | rfl | rfl := h
  exacts [⟨.sbfm, rfl⟩, ⟨.bfm, rfl⟩, ⟨.ubfm, rfl⟩]

theorem exists_oneSourceOp {bits : BitVec 6}
    (h : bits = 0 ∨ bits = 1 ∨ bits = 2 ∨ bits = 3 ∨ bits = 4 ∨ bits = 5) :
    ∃ op : OneSourceOp, op.toBits = bits ∧ (op = .rev64 → bits = 3) := by
  obtain rfl | rfl | rfl | rfl | rfl | rfl := h
  exacts [⟨.rbit, rfl, nofun⟩, ⟨.rev16, rfl, nofun⟩, ⟨.rev32, rfl, nofun⟩,
    ⟨.rev64, rfl, fun _ => rfl⟩, ⟨.clz, rfl, nofun⟩, ⟨.cls, rfl, nofun⟩]

theorem exists_twoSourceOp {bits : BitVec 6}
    (h : bits = 2 ∨ bits = 3 ∨ bits = 8 ∨ bits = 9 ∨ bits = 10 ∨ bits = 11) :
    ∃ op : TwoSourceOp, op.toBits = bits := by
  obtain rfl | rfl | rfl | rfl | rfl | rfl := h
  exacts [⟨.udiv, rfl⟩, ⟨.sdiv, rfl⟩, ⟨.lslv, rfl⟩, ⟨.lsrv, rfl⟩, ⟨.asrv, rfl⟩, ⟨.rorv, rfl⟩]

theorem exists_indexMode (bits : BitVec 2) : ∃ mode : IndexMode, mode.toBits = bits := by
  have h : bits = 0 ∨ bits = 1 ∨ bits = 2 ∨ bits = 3 := by revert bits; decide
  obtain rfl | rfl | rfl | rfl := h
  exacts [⟨.unscaled, rfl⟩, ⟨.postIndex, rfl⟩, ⟨.unprivileged, rfl⟩, ⟨.preIndex, rfl⟩]

theorem exists_pairMode (bits : BitVec 2) : ∃ mode : PairMode, mode.toBits = bits := by
  have h : bits = 0 ∨ bits = 1 ∨ bits = 2 ∨ bits = 3 := by revert bits; decide
  obtain rfl | rfl | rfl | rfl := h
  exacts [⟨.noAllocate, rfl⟩, ⟨.postIndex, rfl⟩, ⟨.offset, rfl⟩, ⟨.preIndex, rfl⟩]

theorem field_eq_iff (start : Nat) {len : Nat} (mask : U32) (value : BitVec len)
    (hm : mask.toNat = 2 ^ len - 1) (h : len ≤ 32) :
    (w >>> start) &&& mask = value.setWidth 32 ↔ w.extractLsb' start len = value := by
  rw [shiftRight_and_mask w mask start len hm]
  constructor
  · intro heq
    have := congrArg (BitVec.setWidth len) heq
    rwa [BitVec.setWidth_setWidth_of_le _ h, BitVec.setWidth_setWidth_of_le _ h,
      BitVec.setWidth_eq, BitVec.setWidth_eq] at this
  · rintro rfl
    rfl

end Pinecone
