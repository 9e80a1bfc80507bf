import Pinecone.NativeArithmetic
import Pinecone.ArmDataProcessing

/-! ADD and SUB, the conditional compares and selects and the logical instructions of
`execute_decoded_instruction` compute what the reference pseudocode does. -/

namespace Pinecone

theorem datasize_cases (sf : Bool) : datasize sf = 32 ∨ datasize sf = 64 := by
  cases sf
  · exact Or.inl rfl
  · exact Or.inr rfl

theorem datasize_pos (sf : Bool) : 0 < datasize sf := by
  cases sf <;> decide

theorem datasize_le (sf : Bool) : datasize sf ≤ 64 := by
  cases sf <;> decide

theorem maskedOperand_readRegister (cpu : NativeCpu) (sf : Bool) (r : BitVec 5) :
    maskedOperand (cpu.readRegister r.toNat) (datasize sf) =
      (cpu.readX (datasize sf) r).setWidth 64 :=
  maskedOperand_eq (datasize_cases sf) _

theorem maskedOperand_readBaseRegister (cpu : NativeCpu) (sf : Bool) (r : BitVec 5) :
    maskedOperand (cpu.readBaseRegister r.toNat) (datasize sf) =
      (cpu.readXSp (datasize sf) r).setWidth 64 :=
  maskedOperand_eq (datasize_cases sf) _

theorem subtractedOperand_eq {bits : Nat} (h : bits ≤ 64) (subtract : Bool) (y : BitVec bits) :
    (if subtract then ~~~(y.setWidth 64) &&& maskForBits bits else y.setWidth 64) =
      (if subtract then ~~~y else y).setWidth 64 := by
  cases subtract with
  | true => exact not_and_maskForBits y h
  | false => rfl

theorem addSub_eq (sf subtract : Bool) (x y : BitVec (datasize sf)) (carryIn : Bool) :
    addWithCarryNzcv (x.setWidth 64) ((if subtract then ~~~y else y).setWidth 64) carryIn
      (datasize sf) =
      (flagsWord (addSub subtract x y carryIn).2, (addSub subtract x y carryIn).1.setWidth 64) :=
  addWithCarryNzcv_eq (datasize_pos sf) (datasize_le sf) _ _ _

theorem subtract_addSubFlags (subtract setFlags : Bool) :
    (DataProcessing.addSubFlags subtract setFlags &&& 1 != 0) = subtract ∧
      (DataProcessing.addSubFlags subtract setFlags &&& 2 != 0) = setFlags := by
  cases subtract <;> cases setFlags <;> decide

namespace DataProcessing

variable (cpu : NativeCpu) (raw : U32)

theorem execute_addSubImmediate (sf subtract setFlags shift12 : Bool) (imm12 : BitVec 12)
    (rn rd : BitVec 5) :
    ((addSubImmediate sf subtract setFlags shift12 imm12 rn rd).decoded raw).executeAddSubImmediate
      cpu = some ((addSubImmediate sf subtract setFlags shift12 imm12 rn rd).execute cpu) := by
  have himm : maskedOperand (if shift12 then (imm12 ++ 0#12).setWidth 64 else imm12.setWidth 64)
      (datasize sf) = (if shift12 then (imm12 ++ 0#12).setWidth (datasize sf)
        else imm12.setWidth (datasize sf)).setWidth 64 := by
    rw [maskedOperand_eq (datasize_cases sf)]
    cases shift12 <;> simp [datasize_le]
  obtain ⟨hsubtract, hset⟩ := subtract_addSubFlags subtract setFlags
  simp only [NativeInstruction.executeAddSubImmediate, decoded, NativeInstruction.subtract,
    NativeInstruction.setsFlags, hsubtract, hset, maskedOperand_readBaseRegister, himm,
    subtractedOperand_eq (datasize_le sf), addSub_eq, setFlags_flagsWord]
  cases setFlags <;> rfl

theorem execute_addSubShifted (sf subtract setFlags : Bool) (shiftType : Arm.ShiftType)
    (rm : BitVec 5) (imm6 : BitVec 6) (rn rd : BitVec 5)
    (h : (addSubShifted sf subtract setFlags shiftType rm imm6 rn rd).Allocated) :
    ((addSubShifted sf subtract setFlags shiftType rm imm6 rn rd).decoded
      raw).executeAddSubShiftedRegister cpu =
      some ((addSubShifted sf subtract setFlags shiftType rm imm6 rn rd).execute cpu) := by
  obtain ⟨hror, hamount⟩ := h
  have h64 := datasize_le sf
  have hoperand : ((addSubShifted sf subtract setFlags shiftType rm imm6 rn rd).decoded
      raw).addSubShiftedOperand ((cpu.readX (datasize sf) rm).setWidth 64) =
      some ((Arm.shiftReg (cpu.readX (datasize sf) rm) shiftType imm6.toNat).setWidth 64) := by
    cases shiftType with
    | lsl =>
      show (shiftLeft _ imm6.toNat).bind _ = _
      rw [shiftLeft_of_lt _ (by omega)]
      exact congrArg some (shiftLeft_and_maskForBits _ _)
    | lsr =>
      show shiftRight _ imm6.toNat = _
      rw [shiftRight_of_lt _ (by omega)]
      exact congrArg some (BitVec.setWidth_ushiftRight h64).symm
    | asr =>
      show (if 0 < imm6.toNat then _ else _) = _
      by_cases hzero : 0 < imm6.toNat
      · rw [if_pos hzero]
        exact arithmeticShiftRight_eq (datasize_cases sf) _ hamount
      · rw [if_neg hzero, show imm6.toNat = 0 by omega]
        simp [Arm.shiftReg, decoded, setWidth_and_maskForBits _ h64]
    | ror => exact absurd rfl hror
  obtain ⟨hsubtract, hset⟩ := subtract_addSubFlags subtract setFlags
  generalize hi : (addSubShifted sf subtract setFlags shiftType rm imm6 rn rd).decoded raw = i
    at hoperand
  have hbits : i.bits = datasize sf := by rw [← hi]; rfl
  have hrm : i.rm = rm.toNat := by rw [← hi]; rfl
  have hrn : i.rn = rn.toNat := by rw [← hi]; rfl
  have hrd : i.rd = rd.toNat := by rw [← hi]; rfl
  have hflags : i.flags = addSubFlags subtract setFlags := by rw [← hi]; rfl
  simp only [NativeInstruction.executeAddSubShiftedRegister, NativeInstruction.subtract,
    NativeInstruction.setsFlags, hbits, hrm, hrn, hrd, hflags, hsubtract, hset, hoperand,
    maskedOperand_readRegister, subtractedOperand_eq h64, addSub_eq, setFlags_flagsWord,
    Option.bind_eq_bind, Option.bind_some]
  cases setFlags <;> rfl

theorem carry_eq (pstate : U64) : (pstate &&& 0x20000000 != 0) = (Arm.flagsOf pstate).c := by
  have htwo : (0x20000000 : U64) = BitVec.twoPow 64 29 := by decide
  have hbit : (Arm.flagsOf pstate).c = pstate.getLsbD 29 := by
    simp [Arm.flagsOf, Arm.ConditionFlags.ofBits]
  rw [hbit, htwo, Bool.eq_iff_iff, bne_iff_ne]
  exact and_twoPow_ne_zero pstate (by decide)

theorem execute_addSubCarry (sf subtract setFlags : Bool) (rm rn rd : BitVec 5) :
    ((addSubCarry sf subtract setFlags rm rn rd).decoded raw).executeAddSubCarry cpu =
      some ((addSubCarry sf subtract setFlags rm rn rd).execute cpu) := by
  obtain ⟨hsubtract, hset⟩ := subtract_addSubFlags subtract setFlags
  simp only [NativeInstruction.executeAddSubCarry, decoded, NativeInstruction.subtract,
    NativeInstruction.setsFlags, hsubtract, hset, maskedOperand_readRegister,
    subtractedOperand_eq (datasize_le sf), addSub_eq, setFlags_flagsWord, carry_eq]
  cases setFlags <;> rfl

theorem execute_addSubExtended (sf subtract setFlags : Bool) (rm : BitVec 5)
    (extendType : Arm.ExtendType) (imm3 : BitVec 3) (rn rd : BitVec 5)
    (h : (addSubExtended sf subtract setFlags rm extendType imm3 rn rd).Allocated) :
    ((addSubExtended sf subtract setFlags rm extendType imm3 rn rd).decoded
      raw).executeAddSubExtendedRegister cpu =
      some ((addSubExtended sf subtract setFlags rm extendType imm3 rn rd).execute cpu) := by
  have hshift : imm3.toNat ≤ 4 := h
  have hoperand : maskedOperand
      (extendedRegisterValue (cpu.readRegister rm.toNat) (extendType.toBits.setWidth 8) <<<
        imm3.toNat) (datasize sf) =
      (Arm.extendReg (datasize sf) (cpu.readX 64 rm) extendType imm3.toNat).setWidth 64 := by
    rw [maskedOperand_eq (datasize_cases sf), extendReg_eq (datasize_cases sf) _ _ hshift]
    simp [NativeCpu.readX]
  obtain ⟨hsubtract, hset⟩ := subtract_addSubFlags subtract setFlags
  simp only [NativeInstruction.executeAddSubExtendedRegister, decoded, NativeInstruction.subtract,
    NativeInstruction.setsFlags, hsubtract, hset, maskedOperand_readBaseRegister,
    shiftLeft_of_lt _ (show imm3.toNat < 64 by omega), Option.bind_eq_bind, Option.bind_some,
    hoperand, subtractedOperand_eq (datasize_le sf), addSub_eq, setFlags_flagsWord]
  cases setFlags <;> rfl

theorem flagsWord_ofBits (nzcv : BitVec 4) :
    nzcv.setWidth 64 <<< 28 = flagsWord (Arm.ConditionFlags.ofBits nzcv) := by
  revert nzcv
  decide

theorem execute_conditionalCompareRegister (sf subtract : Bool) (rm : BitVec 5)
    (condition : BitVec 4) (rn : BitVec 5) (nzcv : BitVec 4) :
    ((conditionalCompareRegister sf subtract rm condition rn nzcv).decoded
      raw).executeConditionalCompareRegister cpu =
      some ((conditionalCompareRegister sf subtract rm condition rn nzcv).execute cpu) := by
  have hsubtract : ((if subtract then 1 else 0 : BitVec 8) &&& 1 != 0) = subtract := by
    cases subtract <;> decide
  simp only [NativeInstruction.executeConditionalCompareRegister, decoded,
    NativeInstruction.subtract, hsubtract, conditionHolds_eq, maskedOperand_readRegister,
    subtractedOperand_eq (datasize_le sf), addSub_eq, flagsWord_ofBits, ← apply_ite flagsWord,
    setFlags_flagsWord]
  rfl

theorem execute_conditionalCompareImmediate (sf subtract : Bool) (imm5 : BitVec 5)
    (condition : BitVec 4) (rn : BitVec 5) (nzcv : BitVec 4) :
    ((conditionalCompareImmediate sf subtract imm5 condition rn nzcv).decoded
      raw).executeConditionalCompareImmediate cpu =
      some ((conditionalCompareImmediate sf subtract imm5 condition rn nzcv).execute cpu) := by
  have hsubtract : ((if subtract then 1 else 0 : BitVec 8) &&& 1 != 0) = subtract := by
    cases subtract <;> decide
  have himm : maskedOperand (imm5.setWidth 64) (datasize sf) =
      (imm5.setWidth (datasize sf)).setWidth 64 := by
    rw [maskedOperand_eq (datasize_cases sf), BitVec.setWidth_setWidth_of_le _ (datasize_le sf)]
  simp only [NativeInstruction.executeConditionalCompareImmediate, decoded,
    NativeInstruction.subtract, hsubtract, conditionHolds_eq, maskedOperand_readRegister, himm,
    subtractedOperand_eq (datasize_le sf), addSub_eq, flagsWord_ofBits, ← apply_ite flagsWord,
    setFlags_flagsWord]
  rfl

theorem execute_conditionalSelect (sf invert increment : Bool) (rm : BitVec 5)
    (condition : BitVec 4) (rn rd : BitVec 5) :
    ((conditionalSelect sf invert increment rm condition rn rd).decoded
      raw).executeConditionalSelect cpu =
      some ((conditionalSelect sf invert increment rm condition rn rd).execute cpu) := by
  have h64 := datasize_le sf
  have hnot : maskedOperand (~~~(cpu.readRegister rm.toNat)) (datasize sf) =
      (~~~(cpu.readX (datasize sf) rm)).setWidth 64 := by
    rw [maskedOperand_eq (datasize_cases sf), BitVec.setWidth_not h64]
    rfl
  have hadd : ∀ x : U64, maskedOperand (x + 1) (datasize sf) =
      (x.setWidth (datasize sf) + 1).setWidth 64 := by
    intro x
    rw [maskedOperand_eq (datasize_cases sf), BitVec.setWidth_add _ _ h64]
    cases sf <;> rfl
  have hneg : maskedOperand (0 - cpu.readRegister rm.toNat) (datasize sf) =
      (~~~(cpu.readX (datasize sf) rm) + 1).setWidth 64 := by
    have hsub : 0 - cpu.readRegister rm.toNat = ~~~(cpu.readRegister rm.toNat) + 1 :=
      (BitVec.zero_sub _).trans (BitVec.neg_eq_not_add _)
    rw [hsub, hadd, BitVec.setWidth_not h64]
    rfl
  have hholds : conditionHolds (condition.setWidth 8) cpu.pstate = cpu.conditionHolds condition :=
    conditionHolds_eq condition cpu.pstate
  have hoperation : (((if increment then 1 else 0) ||| (if invert then 4 else 0 : BitVec 8)) &&&
      3).toNat = (if increment then 1 else 0) := by
    cases increment <;> cases invert <;> decide
  have hinvert : (((if increment then 1 else 0) ||| (if invert then 4 else 0 : BitVec 8)) &&&
      4 != 0) = invert := by
    cases increment <;> cases invert <;> decide
  simp only [NativeInstruction.executeConditionalSelect, decoded, hholds, hoperation, hinvert,
    maskedOperand_readRegister, execute]
  cases cpu.conditionHolds condition with
  | true => rfl
  | false =>
    have hwrite : ∀ {value value' : U64}, value = value' →
        some (cpu.writeRegister rd.toNat value).advance =
          some (cpu.writeRegister rd.toNat value').advance := by
      rintro _ _ rfl
      rfl
    cases invert with
    | false =>
      cases increment with
      | false => exact hwrite (maskedOperand_readRegister cpu sf rm)
      | true => exact hwrite (hadd _)
    | true =>
      cases increment with
      | false => exact hwrite hnot
      | true => exact hwrite hneg

theorem execute_logicalImmediate (sf : Bool) (op : LogicalOp) (n : Bool) (immr imms : BitVec 6)
    (rn rd : BitVec 5) (h : (logicalImmediate sf op n immr imms rn rd).Allocated) :
    ((logicalImmediate sf op n immr imms rn rd).decoded raw).executeLogicalImmediate cpu =
      some ((logicalImmediate sf op n immr imms rn rd).execute cpu) := by
  obtain ⟨_, hsome⟩ := h
  obtain ⟨masks, hmasks⟩ := Option.isSome_iff_exists.mp hsome
  have h64 := datasize_le sf
  simp only [NativeInstruction.executeLogicalImmediate, decoded, execute, hmasks,
    maskedOperand_readRegister, setWidth_and_maskForBits _ h64, ← BitVec.setWidth_and,
    ← BitVec.setWidth_or, ← BitVec.setWidth_xor, setLogicalFlags_eq (datasize_pos sf) h64]
  cases op <;> rfl

theorem execute_logicalShifted (sf : Bool) (op : LogicalOp) (shiftType : Arm.ShiftType)
    (invert : Bool) (rm : BitVec 5) (imm6 : BitVec 6) (rn rd : BitVec 5)
    (h : (logicalShifted sf op shiftType invert rm imm6 rn rd).Allocated) :
    ((logicalShifted sf op shiftType invert rm imm6 rn rd).decoded
      raw).executeLogicalShiftedRegister cpu =
      some ((logicalShifted sf op shiftType invert rm imm6 rn rd).execute cpu) := by
  have hamount : imm6.toNat < datasize sf := h
  have h64 := datasize_le sf
  have hop : ((op.toBits.setWidth 8 ||| (if invert then 4 else 0)) &&& 3).toNat = op.toBits.toNat ∧
      ((op.toBits.setWidth 8 ||| (if invert then 4 else 0 : BitVec 8)) &&& 4 ≠ 0 ↔
        invert = true) := by
    cases op <;> cases invert <;> decide
  have hinvert : ∀ y : BitVec (datasize sf),
      (if invert then ~~~(y.setWidth 64) &&& maskForBits (datasize sf) else y.setWidth 64) =
        (if invert then ~~~y else y).setWidth 64 := subtractedOperand_eq h64 invert
  simp only [NativeInstruction.executeLogicalShiftedRegister, decoded, execute, hop,
    maskedOperand_readRegister, shiftedRegisterValue_eq (datasize_cases sf) _ _ hamount,
    Option.bind_eq_bind, Option.bind_some, hinvert, setWidth_and_maskForBits _ h64,
    ← BitVec.setWidth_and, ← BitVec.setWidth_or, ← BitVec.setWidth_xor,
    setLogicalFlags_eq (datasize_pos sf) h64]
  cases op <;> rfl

end DataProcessing

end Pinecone
