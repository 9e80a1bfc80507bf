import Pinecone.NativeExecutor

/-! PSTATE outside NZCV, which only the system cases of the interpreter change. -/

namespace Pinecone

namespace NativeCpu

variable (cpu : NativeCpu)

/-- PSTATE without its condition flags. -/
def mode : U64 := cpu.pstate &&& ~~~0xf0000000#64

theorem and_or_and_not (value flags mask : U64) :
    ((value &&& ~~~mask) ||| (flags &&& mask)) &&& ~~~mask = value &&& ~~~mask := by
  apply BitVec.eq_of_getLsbD_eq
  intro i hi
  simp only [BitVec.getLsbD_and, BitVec.getLsbD_or, BitVec.getLsbD_not, hi, decide_true,
    Bool.true_and]
  cases value.getLsbD i <;> cases mask.getLsbD i <;> cases flags.getLsbD i <;> rfl

@[simp] theorem mode_advance : cpu.advance.mode = cpu.mode := rfl

@[simp] theorem mode_writeRegister (index : Nat) (value : U64) :
    (cpu.writeRegister index value).mode = cpu.mode := rfl

@[simp] theorem mode_writeBaseRegister (index : Nat) (value : U64) :
    (cpu.writeBaseRegister index value).mode = cpu.mode := by
  unfold writeBaseRegister
  split
  · rfl
  · rfl

@[simp] theorem mode_clearExclusiveReservation :
    cpu.clearExclusiveReservation.mode = cpu.mode := rfl

@[simp] theorem mode_setVector (index : Nat) (value : NativeVectorRegister) :
    (cpu.setVector index value).mode = cpu.mode := rfl

@[simp] theorem mode_setFlags (flags : U64) : (cpu.setFlags flags).mode = cpu.mode :=
  and_or_and_not _ _ _

@[simp] theorem mode_setLogicalFlags (result : U64) (bits : Nat) :
    (cpu.setLogicalFlags result bits).mode = cpu.mode := by
  have hflags : ∀ flags : U64, flags &&& 0xf0000000#64 = flags →
      ((cpu.pstate &&& ~~~0xf0000000#64) ||| flags) &&& ~~~0xf0000000#64 = cpu.mode := by
    intro flags hmask
    rw [← hmask]
    exact and_or_and_not _ _ _
  simp only [setLogicalFlags, mode]
  split
  · split
    · rw [BitVec.or_assoc]
      exact hflags _ (by decide)
    · exact hflags _ (by decide)
  · split
    · exact hflags _ (by decide)
    · rw [BitVec.and_assoc, BitVec.and_self]

end NativeCpu

/-- The execution, when it succeeds, leaves the mode alone. -/
def KeepsMode (cpu : NativeCpu) (result : Option NativeCpu) : Prop :=
  ∀ cpu' ∈ result, cpu'.mode = cpu.mode

namespace KeepsMode

variable {cpu : NativeCpu} {α : Type}

theorem none : KeepsMode cpu none :=
  fun _ h => nomatch h

theorem some {cpu' : NativeCpu} (h : cpu'.mode = cpu.mode) : KeepsMode cpu (some cpu') := by
  rintro _ ⟨⟩
  exact h

theorem bind {value : Option α} {f : α → Option NativeCpu} (h : ∀ a, KeepsMode cpu (f a)) :
    KeepsMode cpu (value >>= f) := by
  cases value with
  | none => exact none
  | some a => exact h a

end KeepsMode

namespace NativeInstruction

variable (instruction : NativeInstruction) (cpu : NativeCpu)

theorem executeAddSubImmediate_keepsMode :
    KeepsMode cpu (instruction.executeAddSubImmediate cpu) := by
  unfold executeAddSubImmediate
  dsimp only
  split
  · exact KeepsMode.some (by simp)
  · exact KeepsMode.some (by simp)

theorem executeMoveWide_keepsMode : KeepsMode cpu (instruction.executeMoveWide cpu) := by
  unfold executeMoveWide
  dsimp only
  split
  · exact KeepsMode.some rfl
  · exact KeepsMode.some rfl
  · exact KeepsMode.bind fun _ => KeepsMode.some rfl
  · exact KeepsMode.none

theorem mode_ite_setFlags (flags : U64) :
    (if instruction.setsFlags then cpu.setFlags flags else cpu).mode = cpu.mode := by
  split
  · exact cpu.mode_setFlags flags
  · rfl

theorem executeAddSubShiftedRegister_keepsMode :
    KeepsMode cpu (instruction.executeAddSubShiftedRegister cpu) :=
  KeepsMode.bind fun _ => KeepsMode.some (mode_ite_setFlags _ _ _)

theorem executeAddSubCarry_keepsMode : KeepsMode cpu (instruction.executeAddSubCarry cpu) :=
  KeepsMode.some (mode_ite_setFlags _ _ _)

theorem executeAddSubExtendedRegister_keepsMode :
    KeepsMode cpu (instruction.executeAddSubExtendedRegister cpu) := by
  refine KeepsMode.bind fun _ => ?_
  dsimp only
  split
  · exact KeepsMode.some (by simp)
  · exact KeepsMode.some (by simp)

theorem executeLogicalShiftedRegister_keepsMode :
    KeepsMode cpu (instruction.executeLogicalShiftedRegister cpu) := by
  refine KeepsMode.bind fun _ => ?_
  dsimp only
  split
  · exact KeepsMode.some rfl
  · exact KeepsMode.some rfl
  · exact KeepsMode.some rfl
  · exact KeepsMode.some (by simp)
  · exact KeepsMode.none

theorem executeExtractRegister_keepsMode :
    KeepsMode cpu (instruction.executeExtractRegister cpu) := by
  unfold executeExtractRegister
  dsimp only
  split
  · exact KeepsMode.some rfl
  · exact KeepsMode.bind fun _ => KeepsMode.bind fun _ => KeepsMode.some rfl

theorem executeLogicalImmediate_keepsMode :
    KeepsMode cpu (instruction.executeLogicalImmediate cpu) := by
  unfold executeLogicalImmediate
  dsimp only
  split
  · exact KeepsMode.some (by simp)
  · exact KeepsMode.some (by simp)
  · exact KeepsMode.some (by simp)
  · exact KeepsMode.some (by simp)
  · exact KeepsMode.none

theorem executeConditionalSelect_keepsMode :
    KeepsMode cpu (instruction.executeConditionalSelect cpu) := by
  unfold executeConditionalSelect
  dsimp only
  split
  · exact KeepsMode.some rfl
  · split
    · exact KeepsMode.some rfl
    · exact KeepsMode.some rfl
    · exact KeepsMode.none

theorem executeBitfieldMove_keepsMode : KeepsMode cpu (instruction.executeBitfieldMove cpu) := by
  refine KeepsMode.bind fun _ => ?_
  dsimp only
  split
  · exact KeepsMode.bind fun _ => KeepsMode.some rfl
  · exact KeepsMode.bind fun _ => KeepsMode.some rfl
  · exact KeepsMode.some rfl
  · exact KeepsMode.none

theorem executeDataProcessingOneSource_keepsMode :
    KeepsMode cpu (instruction.executeDataProcessingOneSource cpu) := by
  unfold executeDataProcessingOneSource
  dsimp only
  split
  case h_4 =>
    split
    · exact KeepsMode.none
    · exact KeepsMode.bind fun _ => KeepsMode.some rfl
  case h_7 => exact KeepsMode.none
  all_goals exact KeepsMode.bind fun _ => KeepsMode.some rfl

theorem executeDataProcessingTwoSource_keepsMode :
    KeepsMode cpu (instruction.executeDataProcessingTwoSource cpu) := by
  unfold executeDataProcessingTwoSource
  dsimp only
  split
  case h_1 | h_2 => exact KeepsMode.some rfl
  case h_7 => exact KeepsMode.none
  all_goals exact KeepsMode.bind fun _ => KeepsMode.some rfl

theorem executeDataProcessing_keepsMode :
    KeepsMode cpu (instruction.executeDataProcessing cpu) := by
  unfold executeDataProcessing
  split
  case h_1 | h_16 | h_17 | h_18 | h_19 | h_20 => exact KeepsMode.some rfl
  case h_2 | h_3 => exact KeepsMode.some (cpu.mode_setFlags _)
  case h_4 => exact executeAddSubImmediate_keepsMode _ _
  case h_5 => exact executeMoveWide_keepsMode _ _
  case h_6 => exact executeAddSubShiftedRegister_keepsMode _ _
  case h_7 => exact executeAddSubCarry_keepsMode _ _
  case h_8 => exact executeAddSubExtendedRegister_keepsMode _ _
  case h_9 => exact executeLogicalShiftedRegister_keepsMode _ _
  case h_10 => exact executeExtractRegister_keepsMode _ _
  case h_11 => exact executeLogicalImmediate_keepsMode _ _
  case h_12 => exact executeConditionalSelect_keepsMode _ _
  case h_13 => exact executeBitfieldMove_keepsMode _ _
  case h_14 => exact executeDataProcessingOneSource_keepsMode _ _
  case h_15 => exact executeDataProcessingTwoSource_keepsMode _ _
  case h_21 => exact KeepsMode.none

theorem executeVectorArithmetic_keepsMode (values : VectorValues) :
    KeepsMode cpu (instruction.executeVectorArithmetic values cpu) := by
  refine KeepsMode.bind fun target => ?_
  cases target with
  | vector =>
    refine KeepsMode.some ?_
    split
    · rfl
    · rfl
  | general => exact KeepsMode.some rfl
  | flags => exact KeepsMode.some (cpu.mode_setFlags _)

theorem executeTbz_keepsMode : KeepsMode cpu (instruction.executeTbz cpu) :=
  KeepsMode.bind fun _ => KeepsMode.some rfl

theorem mode_link : (instruction.link cpu).mode = cpu.mode := by
  unfold link
  split
  · rfl
  · rfl

theorem mode_executeBranch : (instruction.executeBranch cpu).mode = cpu.mode :=
  mode_link instruction cpu

theorem mode_executeRegisterBranch : (instruction.executeRegisterBranch cpu).mode = cpu.mode :=
  mode_link instruction cpu

end NativeInstruction

end Pinecone
