import Pinecone.DecoderSoundness
import Pinecone.MultiplySemantics

/-! What the interpreter does with a decoded data-processing instruction. -/

namespace Pinecone

/-- The kinds of the data-processing class. -/
def NativeOpKind.isDataProcessing : NativeOpKind → Bool
  | .adr | .addSubImmediate | .moveWide | .addSubShiftedRegister | .logicalShiftedRegister
  | .logicalImmediate | .conditionalSelect | .bitfieldMove | .dataProcessingOneSource
  | .dataProcessingTwoSource | .conditionalCompareRegister | .conditionalCompareImmediate
  | .addSubExtendedRegister | .multiplyAddSubtract | .signedMultiplyLongAddSubtract
  | .unsignedMultiplyLongAddSubtract | .addSubCarry | .extractRegister | .signedMultiplyHigh
  | .unsignedMultiplyHigh => true
  | _ => false

namespace DataProcessing

/-- The register that the instruction writes. -/
def destination : DataProcessing → Option (BitVec 5)
  | .adr _ _ rd | .addSubImmediate _ _ _ _ _ _ rd | .addSubShifted _ _ _ _ _ _ _ rd
  | .addSubExtended _ _ _ _ _ _ _ rd | .addSubCarry _ _ _ _ _ rd
  | .conditionalSelect _ _ _ _ _ _ rd | .logicalImmediate _ _ _ _ _ _ rd
  | .logicalShifted _ _ _ _ _ _ _ rd | .moveWide _ _ _ _ rd | .bitfield _ _ _ _ _ _ rd
  | .extract _ _ _ _ _ rd | .oneSource _ _ _ rd | .twoSource _ _ _ _ rd
  | .multiplyAdd _ _ _ _ _ rd | .multiplyAddLong _ _ _ _ _ rd | .multiplyHigh _ _ _ rd => some rd
  | .conditionalCompareRegister .. | .conditionalCompareImmediate .. => none

/-- Whether register 31 of the destination is SP. -/
def writesSp : DataProcessing → Bool
  | .addSubImmediate _ _ setFlags _ _ _ _ | .addSubExtended _ _ setFlags _ _ _ _ _ => !setFlags
  | .logicalImmediate _ op _ _ _ _ _ => op != .ands
  | _ => false

end DataProcessing

/-- `cpu'` differs from `cpu` in the register `destination`, in NZCV and in the address of the
instruction, which is the next one. -/
structure NativeCpu.ChangesOnly (cpu cpu' : NativeCpu) (destination : Option (BitVec 5))
    (writesSp : Bool) : Prop where
  x : ∀ n : Fin 31, (∀ d ∈ destination, n.val ≠ d.toNat) → cpu'.x n = cpu.x n
  sp : ¬(writesSp = true ∧ destination = some 31) → cpu'.sp = cpu.sp
  pc : cpu'.pc = cpu.pc + 4
  pstate : cpu'.pstate &&& ~~~0xf0000000#64 = cpu.pstate &&& ~~~0xf0000000#64
  v : cpu'.v = cpu.v
  fpcr : cpu'.fpcr = cpu.fpcr
  fpsr : cpu'.fpsr = cpu.fpsr
  exclusive : cpu'.exclusiveAddress = cpu.exclusiveAddress ∧
    cpu'.exclusiveGeneration = cpu.exclusiveGeneration ∧
    cpu'.exclusiveSize = cpu.exclusiveSize ∧ cpu'.exclusiveValid = cpu.exclusiveValid
  halted : cpu'.halted = cpu.halted

theorem withFlags_other (pstate : U64) (flags : Arm.ConditionFlags) :
    Arm.withFlags pstate flags &&& ~~~0xf0000000#64 = pstate &&& ~~~0xf0000000#64 := by
  have hmask : ~~~0xf0000000#64 = BitVec.allOnes 32 ++ (0 : BitVec 4) ++ BitVec.allOnes 28 := by
    decide
  have hwith : BitFields.Fixes (Arm.withFlags pstate flags)
      (BitVec.allOnes 32 ++ (0 : BitVec 4) ++ BitVec.allOnes 28)
      (pstate.extractLsb' 32 32 ++ (0 : BitVec 4) ++ pstate.extractLsb' 0 28) :=
    ((BitFields.Fixes.fixed _).append (BitFields.Fixes.free _)).append (BitFields.Fixes.fixed _)
  have hsplit : pstate.extractLsb' 32 32 ++ pstate.extractLsb' 28 4 ++ pstate.extractLsb' 0 28 =
      pstate := by
    rw [BitFields.extractLsb'_append pstate (show 32 = 28 + 4 from rfl),
      BitFields.extractLsb'_append pstate (show 28 = 0 + 28 from rfl)]
    exact BitVec.extractLsb'_eq_self
  have hplain : BitFields.Fixes
      (pstate.extractLsb' 32 32 ++ pstate.extractLsb' 28 4 ++ pstate.extractLsb' 0 28)
      (BitVec.allOnes 32 ++ (0 : BitVec 4) ++ BitVec.allOnes 28)
      (pstate.extractLsb' 32 32 ++ (0 : BitVec 4) ++ pstate.extractLsb' 0 28) :=
    ((BitFields.Fixes.fixed _).append (BitFields.Fixes.free _)).append (BitFields.Fixes.fixed _)
  rw [hmask]
  refine hwith.trans ?_
  rw [← hplain, hsplit]

namespace NativeCpu

variable (cpu : NativeCpu)

theorem changesOnly_nextInstruction : cpu.ChangesOnly cpu.nextInstruction none false :=
  ⟨fun _ _ => rfl, fun _ => rfl, rfl, rfl, rfl, rfl, rfl, ⟨rfl, rfl, rfl, rfl⟩, rfl⟩

theorem changesOnly_setX {width : Nat} (d : BitVec 5) (value : BitVec width) (writesSp : Bool) :
    cpu.ChangesOnly (cpu.setX d value).nextInstruction (some d) writesSp := by
  refine ⟨fun n hn => ?_, fun _ => rfl, rfl, rfl, rfl, rfl, rfl, ⟨rfl, rfl, rfl, rfl⟩, rfl⟩
  exact if_neg (hn d rfl)

theorem changesOnly_setXSp {width : Nat} (d : BitVec 5) (value : BitVec width) :
    cpu.ChangesOnly (cpu.setXSp d value).nextInstruction (some d) true := by
  by_cases hd : d.toNat < 31
  · have hset : cpu.setXSp d value = cpu.setX d value := if_pos hd
    rw [hset]
    exact cpu.changesOnly_setX d value true
  · have hset : cpu.setXSp d value = { cpu with sp := value.setWidth 64 } := if_neg hd
    have h31 : d = 31 := by
      apply BitVec.eq_of_toNat_eq
      have := d.isLt
      show d.toNat = 31
      omega
    rw [hset, h31]
    exact ⟨fun _ _ => rfl, fun h => absurd ⟨rfl, rfl⟩ h, rfl, rfl, rfl, rfl, rfl,
      ⟨rfl, rfl, rfl, rfl⟩, rfl⟩

theorem ChangesOnly.of_setNzcv {cpu cpu' : NativeCpu} {flags : Arm.ConditionFlags}
    {destination : Option (BitVec 5)} {writesSp : Bool}
    (h : (cpu.setNzcv flags).ChangesOnly cpu' destination writesSp) :
    cpu.ChangesOnly cpu' destination writesSp :=
  ⟨h.x, h.sp, h.pc, h.pstate.trans (withFlags_other _ _), h.v, h.fpcr, h.fpsr, h.exclusive,
    h.halted⟩

theorem changesOnly_setX_of_flags {width : Nat} (p : Prop) [Decidable p]
    (flags : Arm.ConditionFlags) (d : BitVec 5) (value : BitVec width) (writesSp : Bool) :
    cpu.ChangesOnly ((if p then cpu.setNzcv flags else cpu).setX d value).nextInstruction
      (some d) writesSp := by
  by_cases hp : p
  · rw [if_pos hp]
    exact ((cpu.setNzcv flags).changesOnly_setX d value writesSp).of_setNzcv
  · rw [if_neg hp]
    exact cpu.changesOnly_setX d value writesSp

theorem changesOnly_writeAddSub {width : Nat} (setFlags : Bool) (d : BitVec 5)
    (sum : BitVec width × Arm.ConditionFlags) :
    cpu.ChangesOnly (writeAddSub cpu setFlags d sum).nextInstruction (some d) (!setFlags) := by
  cases setFlags with
  | true => exact ((cpu.setNzcv sum.2).changesOnly_setX d sum.1 false).of_setNzcv
  | false => exact cpu.changesOnly_setXSp d sum.1

end NativeCpu

namespace DataProcessing

variable (cpu : NativeCpu)

theorem changesOnly_execute (a : DataProcessing) (h : a.Allocated) :
    cpu.ChangesOnly (a.execute cpu) a.destination a.writesSp := by
  cases a with
  | adr page immediate rd => exact cpu.changesOnly_setX rd _ _
  | addSubImmediate sf subtract setFlags shift12 imm12 rn rd =>
    exact cpu.changesOnly_writeAddSub setFlags rd _
  | addSubShifted sf subtract setFlags shiftType rm imm6 rn rd =>
    exact cpu.changesOnly_setX_of_flags _ _ rd _ _
  | addSubExtended sf subtract setFlags rm extendType imm3 rn rd =>
    exact cpu.changesOnly_writeAddSub setFlags rd _
  | addSubCarry sf subtract setFlags rm rn rd =>
    exact cpu.changesOnly_setX_of_flags _ _ rd _ _
  | conditionalCompareRegister sf subtract rm condition rn nzcv =>
    exact (NativeCpu.changesOnly_nextInstruction _).of_setNzcv
  | conditionalCompareImmediate sf subtract imm5 condition rn nzcv =>
    exact (NativeCpu.changesOnly_nextInstruction _).of_setNzcv
  | conditionalSelect sf invert increment rm condition rn rd => exact cpu.changesOnly_setX rd _ _
  | logicalImmediate sf op n immr imms rn rd =>
    obtain ⟨-, hsome⟩ := h
    obtain ⟨masks, hmasks⟩ := Option.isSome_iff_exists.mp hsome
    simp only [execute, hmasks]
    by_cases hop : op = .ands
    · rw [if_pos hop]
      exact (NativeCpu.changesOnly_setX _ rd _ _).of_setNzcv
    · rw [if_neg hop]
      have hsp : (logicalImmediate sf op n immr imms rn rd).writesSp = true := by
        simp [writesSp, hop]
      rw [hsp]
      exact cpu.changesOnly_setXSp rd _
  | logicalShifted sf op shiftType invert rm imm6 rn rd =>
    exact cpu.changesOnly_setX_of_flags _ _ rd _ _
  | moveWide sf op hw imm16 rd => exact cpu.changesOnly_setX rd _ _
  | bitfield sf op n immr imms rn rd =>
    obtain ⟨rfl, himmr, himms⟩ := h
    simp only [execute, decodeBitMasks_bitfield n immr imms himmr himms]
    exact cpu.changesOnly_setX rd _ _
  | extract sf n rm imms rn rd => exact cpu.changesOnly_setX rd _ _
  | oneSource sf op rn rd => exact cpu.changesOnly_setX rd _ _
  | twoSource sf rm op rn rd => exact cpu.changesOnly_setX rd _ _
  | multiplyAdd sf rm subtract ra rn rd => exact cpu.changesOnly_setX rd _ _
  | multiplyAddLong isUnsigned rm subtract ra rn rd => exact cpu.changesOnly_setX rd _ _
  | multiplyHigh isUnsigned rm rn rd => exact cpu.changesOnly_setX rd _ _

end DataProcessing

variable {vector : VectorDecoder} {w : U32} {i : NativeInstruction}

theorem exists_dataProcessing (h : decodeInstruction vector w = some i)
    (hkind : i.kind.isDataProcessing = true) :
    ∃ a : DataProcessing, Decodes w i (.dataProcessing a) := by
  have hinteger : i.kind.isInteger = true := by
    revert hkind
    cases i.kind <;> decide
  obtain ⟨a, ha⟩ := exists_decodes h hinteger
  rw [ha.record] at hkind
  cases a with
  | dataProcessing a => exact ⟨a, ha⟩
  | branch a => cases a <;> exact Bool.noConfusion hkind
  | loadStore a => cases a <;> exact Bool.noConfusion hkind

/-- A decoded data-processing instruction does what the reference pseudocode of the instruction
with its operands does, and no shift of it is undefined. -/
theorem executeDataProcessing_of_decode (h : decodeInstruction vector w = some i)
    (hkind : i.kind.isDataProcessing = true) (hfields : ¬WideBitfield w) :
    ∃ a : DataProcessing, a.Allocated ∧ i = a.decoded w ∧ (¬Misdecoded w → a.encode = w) ∧
      ∀ cpu : NativeCpu, i.executeDataProcessing cpu = some (a.execute cpu) ∧
        cpu.ChangesOnly (a.execute cpu) a.destination a.writesSp := by
  obtain ⟨a, ha⟩ := exists_dataProcessing h hkind
  have halloc : a.Allocated := ha.allocated hfields
  refine ⟨a, halloc, ha.record, ha.encode, fun cpu => ⟨?_, a.changesOnly_execute cpu halloc⟩⟩
  rw [ha.record]
  exact a.executeDataProcessing_decoded cpu w halloc

/-- `sbfm x0, x1, #4, #11`. -/
theorem executeDataProcessing_of_decode_sbfm :
    ∃ i, decodeInstruction .refusing 0x93442c20 = some i ∧
      ∃ a : DataProcessing, a.Allocated ∧ i = a.decoded 0x93442c20 ∧
        (¬Misdecoded 0x93442c20 → a.encode = 0x93442c20) ∧
        ∀ cpu : NativeCpu, i.executeDataProcessing cpu = some (a.execute cpu) ∧
          cpu.ChangesOnly (a.execute cpu) a.destination a.writesSp :=
  ⟨_, rfl, @executeDataProcessing_of_decode .refusing _ _ rfl rfl (by decide)⟩

end Pinecone
