import Pinecone.BitfieldSemantics

/-! The one-source and two-source instructions of `execute_decoded_instruction`. -/

namespace Pinecone

theorem foldlM_or (step : U64 → Nat → Option U64) (value : Nat → U64) (count : Nat)
    (hstep : ∀ result index, index < count → step result index = some (result ||| value index)) :
    ∃ result, (List.range count).foldlM step 0 = some result ∧
      ∀ i, result.getLsbD i = true ↔ ∃ index, index < count ∧ (value index).getLsbD i = true := by
  induction count with
  | zero => exact ⟨0, rfl, fun i => by simp⟩
  | succ count ih =>
    obtain ⟨result, hfold, hbits⟩ := ih fun r index h => hstep r index (by omega)
    refine ⟨result ||| value count, ?_, fun i => ?_⟩
    · rw [List.range_succ, List.foldlM_append, hfold]
      show (step result count).bind _ = _
      rw [hstep result count (by omega)]
      rfl
    · rw [BitVec.getLsbD_or, Bool.or_eq_true, hbits]
      constructor
      · rintro (⟨index, hlt, hbit⟩ | hbit)
        · exact ⟨index, by omega, hbit⟩
        · exact ⟨count, by omega, hbit⟩
      · rintro ⟨index, hlt, hbit⟩
        by_cases hlast : index = count
        · exact Or.inr (hlast ▸ hbit)
        · exact Or.inl ⟨index, by omega, hbit⟩

theorem and_one_eq {bits : Nat} (h : bits ≤ 64) (x : BitVec bits) (i : Nat) :
    (x.setWidth 64 >>> i) &&& 1 = if x.getLsbD i then 1 else 0 := by
  have hone : (1 : U64) = BitVec.twoPow 64 0 := by decide
  have hbit : (x.setWidth 64 >>> i).getLsbD 0 = x.getLsbD i := by
    rw [BitVec.getLsbD_ushiftRight, BitVec.getLsbD_setWidth, Nat.add_zero]
    by_cases hi : i < 64
    · simp [hi]
    · simp [BitVec.getLsbD_of_ge x i (by omega)]
  rw [hone, BitVec.and_twoPow, hbit]
  rfl

theorem and_one_ne_zero {bits : Nat} (h : bits ≤ 64) (x : BitVec bits) (i : Nat) :
    (x.setWidth 64 >>> i) &&& 1 ≠ 0 ↔ x.getLsbD i = true := by
  rw [and_one_eq h]
  cases x.getLsbD i <;> decide

theorem reverseBitsWidth_eq {bits : Nat} (h0 : 0 < bits) (h : bits ≤ 64) (x : BitVec bits) :
    reverseBitsWidth (x.setWidth 64) bits = some (x.reverse.setWidth 64) := by
  obtain ⟨result, hfold, hbits⟩ := foldlM_or (fun result bit => do
      let low ← shiftRight (x.setWidth 64) bit
      if low &&& 1 ≠ 0 then
        let reversed ← shiftLeft 1 (bits - 1 - bit)
        some (result ||| reversed)
      else some result)
    (fun bit => if x.getLsbD bit then BitVec.twoPow 64 (bits - 1 - bit) else 0) bits (by
    intro result bit hbit
    simp only [shiftRight_of_lt _ (show bit < 64 by omega),
      shiftLeft_of_lt _ (show bits - 1 - bit < 64 by omega), Option.bind_eq_bind, Option.bind_some,
      and_one_ne_zero h]
    cases x.getLsbD bit with
    | true => rfl
    | false => simp)
  have hreverse : result = x.reverse.setWidth 64 := by
    apply BitVec.eq_of_getLsbD_eq
    intro i hi
    rw [Bool.eq_iff_iff, hbits, BitVec.getLsbD_setWidth, BitVec.getLsbD_reverse,
      BitVec.getMsbD_eq_getLsbD]
    constructor
    · rintro ⟨bit, hbit, hset⟩
      by_cases hx : x.getLsbD bit = true
      · rw [if_pos hx, BitVec.getLsbD_twoPow] at hset
        have hi' : bits - 1 - bit = i := by simpa [show bits - 1 - bit < 64 by omega] using hset
        simp [← hi', show bits - 1 - bit < 64 by omega, show bits - 1 - bit < bits by omega,
          show bits - 1 - (bits - 1 - bit) = bit by omega, hx]
      · rw [if_neg hx] at hset
        simp at hset
    · intro hset
      simp only [hi, decide_true, Bool.true_and, Bool.and_eq_true, decide_eq_true_eq] at hset
      refine ⟨bits - 1 - i, by omega, ?_⟩
      rw [if_pos hset.2, BitVec.getLsbD_twoPow]
      simp
      omega
  unfold reverseBitsWidth
  simp only [if_neg (show ¬ 64 < bits by omega), setWidth_and_maskForBits x h]
  refine (congrArg (Option.bind · _) hfold).trans ?_
  rw [Option.bind_some, hreverse, setWidth_and_maskForBits _ h]

/-- Where a byte goes, within the register. -/
def reversedByte (groupBytes byteIndex : Nat) : Nat :=
  byteIndex / groupBytes * groupBytes + (groupBytes - 1 - byteIndex % groupBytes)

theorem reversedByte_spec {bits groupBytes byteIndex : Nat} (h : bits = 32 ∨ bits = 64)
    (hgroup : groupBytes ∈ [2, 4, 8]) (hdvd : groupBytes * 8 ≤ bits)
    (hindex : byteIndex < bits / 8) :
    reversedByte groupBytes byteIndex < bits / 8 ∧
      reversedByte groupBytes (reversedByte groupBytes byteIndex) = byteIndex := by
  simp only [List.mem_cons, List.not_mem_nil, or_false] at hgroup
  unfold reversedByte
  rcases h with rfl | rfl <;> rcases hgroup with rfl | rfl | rfl <;> omega

theorem reverseBytesGroup_eq {bits groupBytes : Nat} (h : bits = 32 ∨ bits = 64)
    (hgroup : groupBytes ∈ [2, 4, 8]) (hdvd : groupBytes * 8 ≤ bits) (x : BitVec bits) :
    reverseBytesGroup (x.setWidth 64) groupBytes bits =
      some ((Arm.reverseBytes x groupBytes).setWidth 64) := by
  have h64 : bits ≤ 64 := by omega
  have hspec := fun index => @reversedByte_spec bits groupBytes index h hgroup hdvd
  have hbyte : ∀ i, (0xff#64).getLsbD i = decide (i < 8) := by
    intro i
    by_cases hi : i < 64
    · revert i
      decide
    · rw [BitVec.getLsbD_of_ge _ i (by omega)]
      simp
      omega
  have hguard : ¬ (groupBytes = 0 ∨ bits / 8 = 0 ∨ bits / 8 < groupBytes ∨
      bits / 8 % groupBytes ≠ 0) := by
    simp only [List.mem_cons, List.not_mem_nil, or_false] at hgroup
    rcases h with rfl | rfl <;> rcases hgroup with rfl | rfl | rfl <;> omega
  have hreversed : ∀ index, index < bits / 8 →
      index / groupBytes * groupBytes + groupBytes - 1 -
        (index - index / groupBytes * groupBytes) = reversedByte groupBytes index := by
    intro index _
    have hdiv := Nat.div_add_mod' index groupBytes
    have hmod := Nat.mod_lt index (show 0 < groupBytes by omega)
    unfold reversedByte
    omega
  obtain ⟨result, hfold, hbits⟩ := foldlM_or (fun result byteIndex => do
      let groupStart := byteIndex / groupBytes * groupBytes
      let offsetInGroup := byteIndex - groupStart
      let reversedIndex := groupStart + groupBytes - 1 - offsetInGroup
      let low ← shiftRight (x.setWidth 64) (byteIndex * 8)
      let reversed ← shiftLeft (low &&& 0xff) (reversedIndex * 8)
      some (result ||| reversed))
    (fun index => ((x.setWidth 64 >>> (index * 8)) &&& 0xff#64) <<<
      (reversedByte groupBytes index * 8)) (bits / 8) (by
    intro result index hindex
    have hlt := (hspec index hindex).1
    simp only [hreversed index hindex, shiftRight_of_lt _ (show index * 8 < 64 by omega),
      shiftLeft_of_lt _ (show reversedByte groupBytes index * 8 < 64 by omega),
      Option.bind_eq_bind, Option.bind_some]
    rfl)
  have hresult : result = (Arm.reverseBytes x groupBytes).setWidth 64 := by
    apply BitVec.eq_of_getLsbD_eq
    intro i hi
    rw [Bool.eq_iff_iff, hbits, BitVec.getLsbD_setWidth, Arm.reverseBytes, Arm.getLsbD_ofBits]
    simp only [BitVec.getLsbD_shiftLeft, BitVec.getLsbD_and, BitVec.getLsbD_ushiftRight,
      BitVec.getLsbD_setWidth, hbyte, Bool.and_eq_true, Bool.not_eq_true', decide_eq_true_eq,
      decide_eq_false_iff_not, hi, true_and]
    constructor
    · rintro ⟨index, hindex, ⟨hge, ⟨_, hx⟩, hlt⟩⟩
      obtain ⟨hrev, hinv⟩ := hspec index hindex
      have hdiv : i / 8 = reversedByte groupBytes index := by omega
      refine ⟨by omega, ?_⟩
      show x.getLsbD (reversedByte groupBytes (i / 8) * 8 + i % 8) = true
      rw [hdiv, hinv]
      rw [show index * 8 + i % 8 = index * 8 + (i - reversedByte groupBytes index * 8) by omega]
      exact hx
    · rintro ⟨hib, hx⟩
      change x.getLsbD (reversedByte groupBytes (i / 8) * 8 + i % 8) = true at hx
      obtain ⟨hrev, hinv⟩ := hspec (i / 8) (by omega)
      refine ⟨reversedByte groupBytes (i / 8), hrev, ?_⟩
      rw [hinv]
      refine ⟨by omega, ⟨by omega, ?_⟩, by omega⟩
      rw [show i - i / 8 * 8 = i % 8 by omega]
      exact hx
  unfold reverseBytesGroup
  simp only [if_neg (show ¬ 64 < bits by omega), if_neg hguard, setWidth_and_maskForBits x h64]
  refine (congrArg (Option.bind · _) hfold).trans ?_
  rw [Option.bind_some, hresult, setWidth_and_maskForBits _ h64]

theorem countLeadingBits_zero {bits : Nat} (h : bits ≤ 64) (x : BitVec bits) {count : Nat}
    (hcount : count ≤ bits) : ∃ zeros : Nat, countLeadingBits (x.setWidth 64) 0 count = some zeros ∧
      (zeros : Int) = count - (Arm.highestSetBitBelow x count + 1) := by
  induction count with
  | zero => exact ⟨0, rfl, rfl⟩
  | succ count ih =>
    obtain ⟨zeros, hzeros, hint⟩ := ih (by omega)
    have hbit := and_one_ne_zero h x count
    simp only [countLeadingBits, shiftRight_of_lt _ (show count < 64 by omega),
      Option.bind_eq_bind, Option.bind_some, hbit, Arm.highestSetBitBelow, hzeros]
    cases x.getLsbD count with
    | true => exact ⟨0, rfl, by simp⟩
    | false =>
      refine ⟨zeros + 1, rfl, ?_⟩
      simp only [Bool.false_eq_true, if_false]
      omega

theorem countLeadingZerosWidth_eq {bits : Nat} (h : bits ≤ 64) (x : BitVec bits) :
    countLeadingZerosWidth (x.setWidth 64) bits = some (Arm.countLeadingZeroBits x) := by
  obtain ⟨zeros, hzeros, hint⟩ := countLeadingBits_zero h x (Nat.le_refl bits)
  simp only [countLeadingZerosWidth, if_neg (show ¬ 64 < bits by omega),
    setWidth_and_maskForBits x h, hzeros, Arm.countLeadingZeroBits, Arm.highestSetBit]
  congr 1
  omega

theorem countLeadingBits_sign {bits : Nat} (h : bits ≤ 64) (x : BitVec bits) (sign : Bool)
    {count : Nat} (hcount : count + 1 ≤ bits) (htop : x.getLsbD count = sign) :
    ∃ signs : Nat, countLeadingBits (x.setWidth 64) (if sign then 1 else 0) count = some signs ∧
      (signs : Int) = count - (Arm.highestSetBitBelow
        (x.extractLsb' 1 (bits - 1) ^^^ x.extractLsb' 0 (bits - 1)) count + 1) := by
  induction count with
  | zero => exact ⟨0, rfl, rfl⟩
  | succ count ih =>
    have hlow : (x.setWidth 64 >>> count &&& 1 ≠ if sign then 1 else 0) ↔
        x.getLsbD count ≠ sign := by
      rw [and_one_eq h]
      cases x.getLsbD count <;> cases sign <;> decide
    have hdiffer : (x.extractLsb' 1 (bits - 1) ^^^ x.extractLsb' 0 (bits - 1)).getLsbD count =
        (sign != x.getLsbD count) := by
      rw [BitVec.getLsbD_xor, BitVec.getLsbD_extractLsb', BitVec.getLsbD_extractLsb',
        Nat.add_comm 1 count, htop, Nat.zero_add]
      simp [show count < bits - 1 by omega]
    simp only [countLeadingBits, shiftRight_of_lt _ (show count < 64 by omega),
      Option.bind_eq_bind, Option.bind_some, hlow, Arm.highestSetBitBelow, hdiffer]
    by_cases hsame : x.getLsbD count = sign
    · obtain ⟨signs, hsigns, hint⟩ := ih (by omega) hsame
      rw [if_neg (by simpa using hsame), hsigns, hsame]
      refine ⟨signs + 1, rfl, ?_⟩
      simp only [bne_self_eq_false, Bool.false_eq_true, if_false]
      omega
    · rw [if_pos hsame, if_pos (bne_iff_ne.mpr (Ne.symm hsame))]
      exact ⟨0, rfl, by omega⟩

theorem countLeadingSignBitsWidth_eq {bits : Nat} (h0 : 0 < bits) (h : bits ≤ 64)
    (x : BitVec bits) :
    countLeadingSignBitsWidth (x.setWidth 64) bits = some (Arm.countLeadingSignBits x) := by
  obtain ⟨signs, hsigns, hint⟩ := countLeadingBits_sign h x (x.getLsbD (bits - 1))
    (show bits - 1 + 1 ≤ bits by omega) rfl
  simp only [countLeadingSignBitsWidth, if_neg (show ¬ 64 < bits by omega),
    if_neg (show bits ≠ 0 by omega), setWidth_and_maskForBits x h,
    shiftRight_of_lt _ (show bits - 1 < 64 by omega), Option.bind_eq_bind, Option.bind_some,
    and_one_eq h, hsigns, Arm.countLeadingSignBits, Arm.countLeadingZeroBits, Arm.highestSetBit]
  congr 1
  omega

theorem rotateRightWidth_mask (value : U64) (amount width : Nat) :
    rotateRightWidth (value &&& maskForBits width) amount width =
      rotateRightWidth value amount width := by
  simp only [rotateRightWidth, BitVec.and_assoc, BitVec.and_self]

namespace DataProcessing

variable (cpu : NativeCpu) (raw : U32)

theorem write_congr {cpu : NativeCpu} {index : Nat} {value value' : U64} (h : value = value') :
    some (cpu.writeRegister index value).advance =
      some (cpu.writeRegister index value').advance := by
  rw [h]

theorem count_setWidth {bits count : Nat} (h : count ≤ bits) (h64 : bits ≤ 64) :
    BitVec.ofNat 64 count = (BitVec.ofNat bits count).setWidth 64 := by
  apply BitVec.eq_of_toNat_eq
  have hlt : count < 2 ^ bits := h.trans_lt Nat.lt_two_pow_self
  have hpow : 2 ^ bits ≤ 2 ^ 64 := Nat.pow_le_pow_right (by decide) h64
  rw [toNat_setWidth64 _ h64, BitVec.toNat_ofNat, BitVec.toNat_ofNat, Nat.mod_eq_of_lt (by omega),
    Nat.mod_eq_of_lt hlt]

theorem countLeadingZeroBits_le {bits : Nat} (x : BitVec bits) :
    Arm.countLeadingZeroBits x ≤ bits := by
  have hbounds := Arm.highestSetBitBelow_bounds x bits
  unfold Arm.countLeadingZeroBits Arm.highestSetBit
  omega

theorem execute_oneSource (sf : Bool) (op : OneSourceOp) (rn rd : BitVec 5)
    (h : (oneSource sf op rn rd).Allocated) :
    ((oneSource sf op rn rd).decoded raw).executeDataProcessingOneSource cpu =
      some ((oneSource sf op rn rd).execute cpu) := by
  have hsf : op = .rev64 → sf = true := h
  have h64 := datasize_le sf
  have h0 := datasize_pos sf
  have hbits := datasize_cases sf
  have hread := maskedOperand_readRegister cpu sf rn
  cases op with
  | rbit =>
    show (reverseBitsWidth (maskedOperand (cpu.readRegister rn.toNat) (datasize sf)) (datasize sf)).bind _ = _
    rw [hread, reverseBitsWidth_eq h0 h64]
    rfl
  | rev16 =>
    show (reverseBytesGroup (maskedOperand (cpu.readRegister rn.toNat) (datasize sf)) 2 (datasize sf)).bind _ = _
    rw [hread, reverseBytesGroup_eq hbits (by decide) (by omega)]
    rfl
  | rev32 =>
    show (reverseBytesGroup (maskedOperand (cpu.readRegister rn.toNat) (datasize sf)) 4 (datasize sf)).bind _ = _
    rw [hread, reverseBytesGroup_eq hbits (by decide) (by omega)]
    rfl
  | rev64 =>
    obtain rfl := hsf rfl
    have hopcode : (OneSourceOp.rev64.toBits.setWidth 8).toNat = 3 := rfl
    simp only [NativeInstruction.executeDataProcessingOneSource, decoded, hread, hopcode,
      reverseBytesGroup_eq hbits (show 8 ∈ [2, 4, 8] by decide) (by decide)]
    rfl
  | clz =>
    show (countLeadingZerosWidth (maskedOperand (cpu.readRegister rn.toNat) (datasize sf)) (datasize sf)).bind _ = _
    rw [hread, countLeadingZerosWidth_eq h64]
    exact write_congr (count_setWidth (countLeadingZeroBits_le _) h64)
  | cls =>
    show (countLeadingSignBitsWidth (maskedOperand (cpu.readRegister rn.toNat) (datasize sf)) (datasize sf)).bind _ = _
    rw [hread, countLeadingSignBitsWidth_eq h0 h64]
    exact write_congr (count_setWidth ((countLeadingZeroBits_le _).trans (Nat.sub_le _ _)) h64)

theorem maskedOperand_setWidth (sf : Bool) (x : BitVec (datasize sf)) :
    maskedOperand (x.setWidth 64) (datasize sf) = x.setWidth 64 := by
  rw [maskedOperand_eq (datasize_cases sf), BitVec.setWidth_setWidth_of_le _ (datasize_le sf),
    BitVec.setWidth_eq]

theorem unsignedDivide_eq {bits : Nat} (h : bits ≤ 64) (x y : BitVec bits) :
    (if y.setWidth 64 = 0 then 0 else x.setWidth 64 / y.setWidth 64) =
      (TwoSourceOp.udiv.apply x y).setWidth 64 := by
  apply BitVec.eq_of_toNat_eq
  have hy : y.setWidth 64 = 0 ↔ y.toNat = 0 := by
    rw [← BitVec.toNat_inj, toNat_setWidth64 y h]
    rfl
  simp only [TwoSourceOp.apply, hy]
  by_cases hzero : y.toNat = 0
  · rw [if_pos hzero, if_pos hzero]
    simp
  · rw [if_neg hzero, if_neg hzero, BitVec.toNat_udiv, toNat_setWidth64 _ h, toNat_setWidth64 _ h,
      toNat_setWidth64 _ h, BitVec.toNat_ofNat,
      Nat.mod_eq_of_lt ((Nat.div_le_self _ _).trans_lt x.isLt)]

theorem guardedDivide_eq {bits : Nat} (x y : BitVec bits) :
    (if y = 0 then 0 else if x = BitVec.intMin bits ∧ y = -1 then BitVec.intMin bits
      else BitVec.ofInt bits (x.toInt.tdiv y.toInt)) = TwoSourceOp.sdiv.apply x y := by
  have hzero : y.toInt = 0 ↔ y = 0 := by
    rw [← BitVec.toInt_inj]
    simp
  simp only [TwoSourceOp.apply, hzero]
  by_cases hy : y = 0
  · rw [if_pos hy, if_pos hy]
  · rw [if_neg hy, if_neg hy]
    split
    · next hmin =>
      obtain ⟨rfl, rfl⟩ := hmin
      have hbits : 0 < bits := by
        by_contra h0
        obtain rfl : bits = 0 := by omega
        exact hy (Subsingleton.elim _ _)
      have hone : (-1 : BitVec bits).toInt = -1 := by
        rw [show (-1 : BitVec bits) = BitVec.allOnes bits from BitVec.neg_one_eq_allOnes,
          BitVec.toInt_allOnes, if_pos hbits]
      rw [hone, Int.tdiv_neg, Int.tdiv_one, BitVec.ofInt_neg, BitVec.ofInt_toInt,
        BitVec.neg_intMin]
    · rfl

theorem signedDivideWidth_eq (sf : Bool) (x y : U64) :
    signedDivideWidth x y (datasize sf) =
      (TwoSourceOp.sdiv.apply (x.setWidth (datasize sf)) (y.setWidth (datasize sf))).setWidth 64 := by
  cases sf with
  | true =>
    have h := guardedDivide_eq x y
    show signedDivideWidth x y 64 = (TwoSourceOp.sdiv.apply (x.setWidth 64) (y.setWidth 64)).setWidth 64
    rw [BitVec.setWidth_eq, BitVec.setWidth_eq, BitVec.setWidth_eq, ← h]
    rfl
  | false =>
    have h := guardedDivide_eq (x.setWidth 32) (y.setWidth 32)
    show signedDivideWidth x y 32 = (TwoSourceOp.sdiv.apply (x.setWidth 32) (y.setWidth 32)).setWidth 64
    rw [← h, apply_ite (BitVec.setWidth 64), apply_ite (BitVec.setWidth 64)]
    rfl

theorem execute_twoSource (sf : Bool) (rm : BitVec 5) (op : TwoSourceOp) (rn rd : BitVec 5) :
    ((twoSource sf rm op rn rd).decoded raw).executeDataProcessingTwoSource cpu =
      some ((twoSource sf rm op rn rd).execute cpu) := by
  have hbits := datasize_cases sf
  have h64 := datasize_le sf
  have h0 := datasize_pos sf
  have hamount : (cpu.readRegister rm.toNat &&& BitVec.ofNat 64 (datasize sf - 1)).toNat =
      (cpu.readX (datasize sf) rm).toNat % datasize sf := by
    have hand : ∀ k ≤ 6, (cpu.readRegister rm.toNat &&& BitVec.ofNat 64 (2 ^ k - 1)).toNat =
        (cpu.readRegister rm.toNat).toNat % 2 ^ k := by
      intro k hk
      have hpow : 2 ^ k ≤ 2 ^ 6 := Nat.pow_le_pow_right (by decide) hk
      rw [BitVec.toNat_and, BitVec.toNat_ofNat, Nat.mod_eq_of_lt (by omega),
        Nat.and_two_pow_sub_one_eq_mod]
    cases sf with
    | true =>
      refine (hand 6 (by decide)).trans ?_
      show _ % 64 = ((cpu.readRegister rm.toNat).setWidth 64).toNat % 64
      rw [BitVec.setWidth_eq]
    | false =>
      refine (hand 5 (by decide)).trans ?_
      show _ % 32 = ((cpu.readRegister rm.toNat).setWidth 32).toNat % 32
      rw [BitVec.toNat_setWidth]
      omega
  have hlt : (cpu.readX (datasize sf) rm).toNat % datasize sf < datasize sf := Nat.mod_lt _ h0
  have hshift := fun shiftType =>
    shiftedRegisterValue_eq hbits (cpu.readRegister rn.toNat) shiftType hlt
  have hwrite : ∀ result : BitVec (datasize sf), some (cpu.writeRegister rd.toNat
      (maskedOperand (result.setWidth 64) (datasize sf))).advance =
      some (cpu.setX rd result).nextInstruction := fun result =>
    write_congr (maskedOperand_setWidth sf result)
  cases op with
  | udiv =>
    refine write_congr ?_
    show maskedOperand (if maskedOperand (cpu.readRegister rm.toNat) (datasize sf) = 0 then 0
      else maskedOperand (cpu.readRegister rn.toNat) (datasize sf) /
        maskedOperand (cpu.readRegister rm.toNat) (datasize sf)) (datasize sf) = _
    rw [maskedOperand_readRegister, maskedOperand_readRegister, unsignedDivide_eq h64]
    exact maskedOperand_setWidth sf _
  | sdiv =>
    refine write_congr ?_
    show maskedOperand (signedDivideWidth (cpu.readRegister rn.toNat) (cpu.readRegister rm.toNat)
      (datasize sf)) (datasize sf) = _
    rw [signedDivideWidth_eq]
    exact maskedOperand_setWidth sf _
  | lslv =>
    show (shiftedRegisterValue _ 0 (cpu.readRegister rm.toNat &&& BitVec.ofNat 64
      (datasize sf - 1)).toNat (datasize sf)).bind _ = _
    rw [hamount]
    exact (congrArg (Option.bind · _) (hshift .lsl)).trans (hwrite _)
  | lsrv =>
    show (shiftedRegisterValue _ 1 (cpu.readRegister rm.toNat &&& BitVec.ofNat 64
      (datasize sf - 1)).toNat (datasize sf)).bind _ = _
    rw [hamount]
    exact (congrArg (Option.bind · _) (hshift .lsr)).trans (hwrite _)
  | asrv =>
    show (shiftedRegisterValue _ 2 (cpu.readRegister rm.toNat &&& BitVec.ofNat 64
      (datasize sf - 1)).toNat (datasize sf)).bind _ = _
    rw [hamount]
    exact (congrArg (Option.bind · _) (hshift .asr)).trans (hwrite _)
  | rorv =>
    show (rotateRightWidth (cpu.readRegister rn.toNat) (cpu.readRegister rm.toNat &&&
      BitVec.ofNat 64 (datasize sf - 1)).toNat (datasize sf)).bind _ = _
    have hrotate : rotateRightWidth (cpu.readRegister rn.toNat)
        ((cpu.readX (datasize sf) rm).toNat % datasize sf) (datasize sf) =
        some ((Arm.shiftReg (cpu.readX (datasize sf) rn) .ror
          ((cpu.readX (datasize sf) rm).toNat % datasize sf)).setWidth 64) := by
      rw [← rotateRightWidth_mask]
      exact hshift .ror
    rw [hamount]
    exact (congrArg (Option.bind · _) hrotate).trans (hwrite _)

end DataProcessing

end Pinecone
