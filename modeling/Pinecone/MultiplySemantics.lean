import Pinecone.RegisterSemantics

/-! The multiplies and ADR, and the integer data-processing cases of
`execute_decoded_instruction` as a whole. -/

namespace Pinecone

namespace DataProcessing

variable (cpu : NativeCpu) (raw : U32)

theorem ofInt_toNat {bits : Nat} (x : BitVec bits) : BitVec.ofInt bits x.toNat = x := by
  rw [BitVec.ofInt_natCast, BitVec.ofNat_toNat, BitVec.setWidth_eq]

theorem subtract_flags (subtract : Bool) :
    ((if subtract then 1 else 0 : BitVec 8) &&& 1 != 0) = subtract := by
  cases subtract <;> decide

theorem accumulate_eq {bits : Nat} (subtract : Bool) (addend product : Int) :
    BitVec.ofInt bits (if subtract then addend - product else addend + product) =
      if subtract then BitVec.ofInt bits addend - BitVec.ofInt bits product
      else BitVec.ofInt bits addend + BitVec.ofInt bits product := by
  cases subtract with
  | true =>
    rw [if_pos rfl, if_pos rfl, Int.sub_eq_add_neg, BitVec.ofInt_add, BitVec.ofInt_neg,
      BitVec.sub_eq_add_neg]
  | false => exact BitVec.ofInt_add addend product

theorem execute_multiplyAdd (sf : Bool) (rm : BitVec 5) (subtract : Bool) (ra rn rd : BitVec 5) :
    ((multiplyAdd sf rm subtract ra rn rd).decoded raw).executeMultiplyAddSubtract cpu =
      some ((multiplyAdd sf rm subtract ra rn rd).execute cpu) := by
  have h64 := datasize_le sf
  simp only [NativeInstruction.executeMultiplyAddSubtract, decoded, NativeInstruction.subtract,
    subtract_flags, maskedOperand_readRegister, execute]
  refine write_congr ?_
  generalize cpu.readX (datasize sf) rn = x
  generalize cpu.readX (datasize sf) rm = y
  generalize cpu.readX (datasize sf) ra = a
  have hproduct : (x.setWidth 64 * y.setWidth 64) &&& maskForBits (datasize sf) =
      (x * y).setWidth 64 := by
    rw [and_maskForBits, BitVec.setWidth_mul _ _ h64, BitVec.setWidth_setWidth_of_le _ h64,
      BitVec.setWidth_setWidth_of_le _ h64, BitVec.setWidth_eq, BitVec.setWidth_eq]
  rw [hproduct, maskedOperand_eq (datasize_cases sf), accumulate_eq, BitVec.ofInt_mul, ofInt_toNat,
    ofInt_toNat, ofInt_toNat]
  congr 1
  cases subtract with
  | true =>
    show (a.setWidth 64 - (x * y).setWidth 64).setWidth _ = a - x * y
    rw [BitVec.sub_eq_add_neg, BitVec.setWidth_add _ _ h64, BitVec.setWidth_neg_of_le h64,
      BitVec.setWidth_setWidth_of_le _ h64, BitVec.setWidth_setWidth_of_le _ h64,
      BitVec.setWidth_eq, BitVec.setWidth_eq, BitVec.sub_eq_add_neg]
  | false =>
    show (a.setWidth 64 + (x * y).setWidth 64).setWidth _ = a + x * y
    rw [BitVec.setWidth_add _ _ h64, BitVec.setWidth_setWidth_of_le _ h64,
      BitVec.setWidth_setWidth_of_le _ h64, BitVec.setWidth_eq, BitVec.setWidth_eq]

theorem execute_multiplyAddLong (isUnsigned : Bool) (rm : BitVec 5) (subtract : Bool)
    (ra rn rd : BitVec 5) :
    ((multiplyAddLong isUnsigned rm subtract ra rn rd).decoded raw).executeDataProcessing cpu =
      some ((multiplyAddLong isUnsigned rm subtract ra rn rd).execute cpu) := by
  have hread : cpu.readX 64 ra = cpu.readRegister ra.toNat := BitVec.setWidth_eq _
  have hmask : ∀ r : BitVec 5, cpu.readRegister r.toNat &&& 0xffffffff =
      (cpu.readX 32 r).setWidth 64 := fun r => and_maskForBits _ 32
  have hunsigned : ∀ x : BitVec 32, BitVec.ofInt 64 x.toNat = x.setWidth 64 := by
    intro x
    rw [BitVec.ofInt_natCast, BitVec.ofNat_toNat]
  cases isUnsigned with
  | true =>
    simp only [NativeInstruction.executeDataProcessing, NativeInstruction.executeUnsignedMultiplyLong,
      decoded, NativeInstruction.subtract, subtract_flags, if_true, hmask, execute]
    refine write_congr ?_
    rw [accumulate_eq, ofInt_toNat, BitVec.ofInt_mul, hunsigned, hunsigned, hread,
      BitVec.setWidth_eq]
  | false =>
    simp only [NativeInstruction.executeDataProcessing, NativeInstruction.executeSignedMultiplyLong,
      decoded, NativeInstruction.subtract, subtract_flags, Bool.false_eq_true, if_false, execute]
    refine write_congr ?_
    rw [accumulate_eq, BitVec.ofInt_toInt, BitVec.ofInt_mul, hread, BitVec.setWidth_eq]
    rfl

theorem unsignedMultiplyHigh_eq (x y : U64) :
    ((x.setWidth 128 * y.setWidth 128) >>> 64).setWidth 64 =
      BitVec.ofInt 64 ((x.toNat * y.toNat : Int) / 2 ^ 64) := by
  have hx := x.isLt
  have hy := y.isLt
  have hproduct : x.toNat * y.toNat < 2 ^ 128 := by
    calc x.toNat * y.toNat < 2 ^ 64 * 2 ^ 64 := Nat.mul_lt_mul'' hx hy
      _ = 2 ^ 128 := by decide
  have hint : (x.toNat * y.toNat : Int) / 2 ^ 64 = ((x.toNat * y.toNat / 2 ^ 64 : Nat) : Int) := by
    push_cast
    rfl
  apply BitVec.eq_of_toNat_eq
  rw [hint, BitVec.ofInt_natCast, BitVec.toNat_setWidth, BitVec.toNat_ushiftRight, BitVec.toNat_mul,
    BitVec.toNat_setWidth, BitVec.toNat_setWidth, BitVec.toNat_ofNat,
    Nat.mod_eq_of_lt (show x.toNat < 2 ^ 128 by omega),
    Nat.mod_eq_of_lt (show y.toNat < 2 ^ 128 by omega), Nat.mod_eq_of_lt hproduct,
    Nat.shiftRight_eq_div_pow]

theorem signedMultiplyHigh_eq (x y : U64) :
    ((x.signExtend 128 * y.signExtend 128).sshiftRight 64).setWidth 64 =
      BitVec.ofInt 64 ((x.toInt * y.toInt) / 2 ^ 64) := by
  have hle : x.toInt * y.toInt ≤ 2 ^ 126 := BitVec.toInt_mul_toInt_le
  have hge : - 2 ^ 126 ≤ x.toInt * y.toInt := BitVec.le_toInt_mul_toInt
  have hproduct : (x.signExtend 128 * y.signExtend 128).toInt = x.toInt * y.toInt := by
    rw [BitVec.toInt_mul, BitVec.toInt_signExtend_of_le (by decide),
      BitVec.toInt_signExtend_of_le (by decide)]
    exact Int.bmod_eq_of_le (by omega) (by omega)
  have hshifted : ((x.signExtend 128 * y.signExtend 128).sshiftRight 64).toInt =
      (x.toInt * y.toInt) / 2 ^ 64 := by
    rw [BitVec.toInt_sshiftRight, hproduct, Int.shiftRight_eq_div_pow]
    rfl
  rw [← BitVec.signExtend_eq_setWidth_of_le _ (by decide), ← hshifted]
  rfl

theorem execute_multiplyHigh (isUnsigned : Bool) (rm rn rd : BitVec 5) :
    ((multiplyHigh isUnsigned rm rn rd).decoded raw).executeDataProcessing cpu =
      some ((multiplyHigh isUnsigned rm rn rd).execute cpu) := by
  have hread : ∀ r : BitVec 5, cpu.readX 64 r = cpu.readRegister r.toNat :=
    fun _ => BitVec.setWidth_eq _
  cases isUnsigned with
  | true =>
    refine write_congr ?_
    rw [hread, hread, BitVec.setWidth_eq]
    exact unsignedMultiplyHigh_eq _ _
  | false =>
    refine write_congr ?_
    rw [hread, hread, BitVec.setWidth_eq]
    exact signedMultiplyHigh_eq _ _

theorem execute_adr (page : Bool) (immediate : BitVec 21) (rd : BitVec 5) :
    ((adr page immediate rd).decoded raw).executeAdr cpu =
      some ((adr page immediate rd).execute cpu) := by
  have hpage : ∀ pc : U64, pc &&& ~~~0xfff#64 = pc.extractLsb' 12 52 ++ 0#12 := by
    intro pc
    have hbits : ∀ i < 64, (0xfff#64).getLsbD i = decide (i < 12) := by decide
    apply BitVec.eq_of_getLsbD_eq
    intro i hi
    rw [BitVec.getLsbD_and, BitVec.getLsbD_not, hbits i hi, BitVec.getLsbD_append,
      BitVec.getLsbD_extractLsb']
    by_cases hlow : i < 12
    · simp [hlow]
    · simp [hlow, hi, show i - 12 < 52 by omega, show 12 + (i - 12) = i by omega]
  have hflag : (if page then 1 else 0 : BitVec 8) &&& 1 ≠ 0 ↔ page = true := by
    cases page <;> decide
  simp only [NativeInstruction.executeAdr, decoded, hflag, hpage, addSignedOffset, execute]
  refine write_congr ?_
  rw [BitVec.setWidth_eq]

theorem executeDataProcessing_decoded (a : DataProcessing) (h : a.Allocated) :
    (a.decoded raw).executeDataProcessing cpu = some (a.execute cpu) := by
  cases a with
  | adr page immediate rd => exact execute_adr cpu raw page immediate rd
  | addSubImmediate sf subtract setFlags shift12 imm12 rn rd =>
    exact execute_addSubImmediate cpu raw sf subtract setFlags shift12 imm12 rn rd
  | addSubShifted sf subtract setFlags shiftType rm imm6 rn rd =>
    exact execute_addSubShifted cpu raw sf subtract setFlags shiftType rm imm6 rn rd h
  | addSubExtended sf subtract setFlags rm extendType imm3 rn rd =>
    exact execute_addSubExtended cpu raw sf subtract setFlags rm extendType imm3 rn rd h
  | addSubCarry sf subtract setFlags rm rn rd =>
    exact execute_addSubCarry cpu raw sf subtract setFlags rm rn rd
  | conditionalCompareRegister sf subtract rm condition rn nzcv =>
    exact execute_conditionalCompareRegister cpu raw sf subtract rm condition rn nzcv
  | conditionalCompareImmediate sf subtract imm5 condition rn nzcv =>
    exact execute_conditionalCompareImmediate cpu raw sf subtract imm5 condition rn nzcv
  | conditionalSelect sf invert increment rm condition rn rd =>
    exact execute_conditionalSelect cpu raw sf invert increment rm condition rn rd
  | logicalImmediate sf op n immr imms rn rd =>
    exact execute_logicalImmediate cpu raw sf op n immr imms rn rd h
  | logicalShifted sf op shiftType invert rm imm6 rn rd =>
    exact execute_logicalShifted cpu raw sf op shiftType invert rm imm6 rn rd h
  | moveWide sf op hw imm16 rd => exact execute_moveWide cpu raw sf op hw imm16 rd h
  | bitfield sf op n immr imms rn rd => exact execute_bitfield cpu raw sf op n immr imms rn rd h
  | extract sf n rm imms rn rd => exact execute_extract cpu raw sf n rm imms rn rd h
  | oneSource sf op rn rd => exact execute_oneSource cpu raw sf op rn rd h
  | twoSource sf rm op rn rd => exact execute_twoSource cpu raw sf rm op rn rd
  | multiplyAdd sf rm subtract ra rn rd =>
    exact execute_multiplyAdd cpu raw sf rm subtract ra rn rd
  | multiplyAddLong isUnsigned rm subtract ra rn rd =>
    exact execute_multiplyAddLong cpu raw isUnsigned rm subtract ra rn rd
  | multiplyHigh isUnsigned rm rn rd => exact execute_multiplyHigh cpu raw isUnsigned rm rn rd

end DataProcessing

end Pinecone
