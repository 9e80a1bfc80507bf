import Pinecone.ArmArithmetic
import Pinecone.NativeInstruction

/-! The integer data-processing instructions of A64 with the fields of their encodings, what
the reference pseudocode does for each of them, and the record they decode to. -/

namespace Pinecone

open Arm (ShiftType ExtendType)

inductive LogicalOp
  | and
  | orr
  | eor
  | ands
  deriving DecidableEq, Repr

inductive MoveWideOp
  | movn
  | movz
  | movk
  deriving DecidableEq, Repr

inductive BitfieldOp
  | sbfm
  | bfm
  | ubfm
  deriving DecidableEq, Repr

inductive OneSourceOp
  | rbit
  | rev16
  | rev32
  | rev64
  | clz
  | cls
  deriving DecidableEq, Repr

inductive TwoSourceOp
  | udiv
  | sdiv
  | lslv
  | lsrv
  | asrv
  | rorv
  deriving DecidableEq, Repr

def LogicalOp.toBits : LogicalOp → BitVec 2
  | .and => 0
  | .orr => 1
  | .eor => 2
  | .ands => 3

def MoveWideOp.toBits : MoveWideOp → BitVec 2
  | .movn => 0
  | .movz => 2
  | .movk => 3

def BitfieldOp.toBits : BitfieldOp → BitVec 2
  | .sbfm => 0
  | .bfm => 1
  | .ubfm => 2

def OneSourceOp.toBits : OneSourceOp → BitVec 6
  | .rbit => 0
  | .rev16 => 1
  | .rev32 => 2
  | .rev64 => 3
  | .clz => 4
  | .cls => 5

def TwoSourceOp.toBits : TwoSourceOp → BitVec 6
  | .udiv => 2
  | .sdiv => 3
  | .lslv => 8
  | .lsrv => 9
  | .asrv => 10
  | .rorv => 11

/-- A data-processing instruction. `sf` selects 64-bit operands. -/
inductive DataProcessing
  | adr (page : Bool) (immediate : BitVec 21) (rd : BitVec 5)
  | addSubImmediate (sf subtract setFlags shift12 : Bool) (imm12 : BitVec 12) (rn rd : BitVec 5)
  | addSubShifted (sf subtract setFlags : Bool) (shiftType : ShiftType) (rm : BitVec 5)
      (imm6 : BitVec 6) (rn rd : BitVec 5)
  | addSubExtended (sf subtract setFlags : Bool) (rm : BitVec 5) (extendType : ExtendType)
      (imm3 : BitVec 3) (rn rd : BitVec 5)
  | addSubCarry (sf subtract setFlags : Bool) (rm rn rd : BitVec 5)
  | conditionalCompareRegister (sf subtract : Bool) (rm : BitVec 5) (condition : BitVec 4)
      (rn : BitVec 5) (nzcv : BitVec 4)
  | conditionalCompareImmediate (sf subtract : Bool) (imm5 : BitVec 5) (condition : BitVec 4)
      (rn : BitVec 5) (nzcv : BitVec 4)
  | conditionalSelect (sf invert increment : Bool) (rm : BitVec 5) (condition : BitVec 4)
      (rn rd : BitVec 5)
  | logicalImmediate (sf : Bool) (op : LogicalOp) (n : Bool) (immr imms : BitVec 6)
      (rn rd : BitVec 5)
  | logicalShifted (sf : Bool) (op : LogicalOp) (shiftType : ShiftType) (invert : Bool)
      (rm : BitVec 5) (imm6 : BitVec 6) (rn rd : BitVec 5)
  | moveWide (sf : Bool) (op : MoveWideOp) (hw : BitVec 2) (imm16 : BitVec 16) (rd : BitVec 5)
  | bitfield (sf : Bool) (op : BitfieldOp) (n : Bool) (immr imms : BitVec 6) (rn rd : BitVec 5)
  | extract (sf n : Bool) (rm : BitVec 5) (imms : BitVec 6) (rn rd : BitVec 5)
  | oneSource (sf : Bool) (op : OneSourceOp) (rn rd : BitVec 5)
  | twoSource (sf : Bool) (rm : BitVec 5) (op : TwoSourceOp) (rn rd : BitVec 5)
  | multiplyAdd (sf : Bool) (rm : BitVec 5) (subtract : Bool) (ra rn rd : BitVec 5)
  | multiplyAddLong (isUnsigned : Bool) (rm : BitVec 5) (subtract : Bool) (ra rn rd : BitVec 5)
  | multiplyHigh (isUnsigned : Bool) (rm rn rd : BitVec 5)

/-- `datasize`. -/
def datasize (sf : Bool) : Nat :=
  if sf then 64 else 32

namespace DataProcessing

/-- The encodings that are allocated. -/
def Allocated : DataProcessing → Prop
  | .addSubShifted sf _ _ shiftType _ imm6 _ _ => shiftType ≠ .ror ∧ imm6.toNat < datasize sf
  | .addSubExtended _ _ _ _ _ imm3 _ _ => imm3.toNat ≤ 4
  | .logicalImmediate sf _ n immr imms _ _ =>
    (sf = false → n = false) ∧ (Arm.decodeBitMasks n imms immr true).isSome
  | .logicalShifted sf _ _ _ _ imm6 _ _ => imm6.toNat < datasize sf
  | .moveWide sf _ hw _ _ => hw.toNat * 16 < datasize sf
  | .bitfield sf _ n immr imms _ _ =>
    n = sf ∧ immr.toNat < datasize sf ∧ imms.toNat < datasize sf
  | .extract sf n _ imms _ _ => n = sf ∧ imms.toNat < datasize sf
  | .oneSource sf op _ _ => op = .rev64 → sf = true
  | _ => True

end DataProcessing

namespace NativeCpu

/-- `X[n, width]`, and `SP[]` for register 31 in the second. -/
def readX (cpu : NativeCpu) (width : Nat) (n : BitVec 5) : BitVec width :=
  (cpu.readRegister n.toNat).setWidth width

def readXSp (cpu : NativeCpu) (width : Nat) (n : BitVec 5) : BitVec width :=
  (cpu.readBaseRegister n.toNat).setWidth width

def setX {width : Nat} (cpu : NativeCpu) (d : BitVec 5) (value : BitVec width) : NativeCpu :=
  cpu.writeRegister d.toNat (value.setWidth 64)

def setXSp {width : Nat} (cpu : NativeCpu) (d : BitVec 5) (value : BitVec width) : NativeCpu :=
  cpu.writeBaseRegister d.toNat (value.setWidth 64)

def setNzcv (cpu : NativeCpu) (flags : Arm.ConditionFlags) : NativeCpu :=
  { cpu with pstate := Arm.withFlags cpu.pstate flags }

def conditionHolds (cpu : NativeCpu) (condition : BitVec 4) : Bool :=
  Arm.conditionHolds condition (Arm.flagsOf cpu.pstate)

def nextInstruction (cpu : NativeCpu) : NativeCpu :=
  { cpu with pc := cpu.pc + 4 }

end NativeCpu

/-- The sum of an ADD, or of a SUB with the second operand inverted. -/
def addSub {width : Nat} (subtract : Bool) (operand1 operand2 : BitVec width) (carryIn : Bool) :
    BitVec width × Arm.ConditionFlags :=
  Arm.addWithCarry operand1 (if subtract then ~~~operand2 else operand2) carryIn

def LogicalOp.apply {width : Nat} (op : LogicalOp) (operand1 operand2 : BitVec width) :
    BitVec width :=
  match op with
  | .and | .ands => operand1 &&& operand2
  | .orr => operand1 ||| operand2
  | .eor => operand1 ^^^ operand2

def logicalFlags {width : Nat} (result : BitVec width) : Arm.ConditionFlags :=
  ⟨result.msb, result == 0, false, false⟩

def OneSourceOp.apply {width : Nat} (op : OneSourceOp) (operand : BitVec width) : BitVec width :=
  match op with
  | .rbit => operand.reverse
  | .rev16 => Arm.reverseBytes operand 2
  | .rev32 => Arm.reverseBytes operand 4
  | .rev64 => Arm.reverseBytes operand 8
  | .clz => BitVec.ofNat width (Arm.countLeadingZeroBits operand)
  | .cls => BitVec.ofNat width (Arm.countLeadingSignBits operand)

def TwoSourceOp.apply {width : Nat} (op : TwoSourceOp) (operand1 operand2 : BitVec width) :
    BitVec width :=
  match op with
  | .udiv =>
    if operand2.toNat = 0 then 0 else BitVec.ofNat width (operand1.toNat / operand2.toNat)
  | .sdiv =>
    if operand2.toInt = 0 then 0 else BitVec.ofInt width (operand1.toInt.tdiv operand2.toInt)
  | .lslv => Arm.shiftReg operand1 .lsl (operand2.toNat % width)
  | .lsrv => Arm.shiftReg operand1 .lsr (operand2.toNat % width)
  | .asrv => Arm.shiftReg operand1 .asr (operand2.toNat % width)
  | .rorv => Arm.shiftReg operand1 .ror (operand2.toNat % width)

/-- The result of SBFM, BFM or UBFM with the masks of their encoding. -/
def BitfieldOp.apply {width : Nat} (op : BitfieldOp) (masks : Arm.BitMasks)
    (dst src : BitVec width) (immr imms : BitVec 6) : BitVec width :=
  let wmask := masks.wmask width
  let tmask := masks.tmask width
  let dst := if op = .bfm then dst else 0
  let bottom := (dst &&& ~~~wmask) ||| (src.rotateRight immr.toNat &&& wmask)
  let top :=
    if op = .sbfm then
      if src.getLsbD imms.toNat then BitVec.allOnes width else 0
    else dst
  (top &&& ~~~tmask) ||| (bottom &&& tmask)

/-- `X[d] = result` after the flags of ADDS and SUBS, `SP` for register 31 of the others. -/
def writeAddSub {width : Nat} (cpu : NativeCpu) (setFlags : Bool) (rd : BitVec 5)
    (sum : BitVec width × Arm.ConditionFlags) : NativeCpu :=
  if setFlags then (cpu.setNzcv sum.2).setX rd sum.1 else cpu.setXSp rd sum.1

namespace DataProcessing

/-- The operation of the reference pseudocode. -/
def execute (cpu : NativeCpu) : DataProcessing → NativeCpu
  | .adr page immediate rd =>
    let base := if page then cpu.pc.extractLsb' 12 52 ++ 0#12 else cpu.pc
    let offset := if page then (immediate ++ 0#12).signExtend 64 else immediate.signExtend 64
    (cpu.setX rd (base + offset)).nextInstruction
  | .addSubImmediate sf subtract setFlags shift12 imm12 rn rd =>
    let operand2 : BitVec (datasize sf) :=
      if shift12 then (imm12 ++ 0#12).setWidth (datasize sf) else imm12.setWidth (datasize sf)
    let sum := addSub subtract (cpu.readXSp (datasize sf) rn) operand2 subtract
    (writeAddSub cpu setFlags rd sum).nextInstruction
  | .addSubShifted sf subtract setFlags shiftType rm imm6 rn rd =>
    let operand2 := Arm.shiftReg (cpu.readX (datasize sf) rm) shiftType imm6.toNat
    let sum := addSub subtract (cpu.readX (datasize sf) rn) operand2 subtract
    let cpu := if setFlags then cpu.setNzcv sum.2 else cpu
    (cpu.setX rd sum.1).nextInstruction
  | .addSubExtended sf subtract setFlags rm extendType imm3 rn rd =>
    let operand2 := Arm.extendReg (datasize sf) (cpu.readX 64 rm) extendType imm3.toNat
    let sum := addSub subtract (cpu.readXSp (datasize sf) rn) operand2 subtract
    (writeAddSub cpu setFlags rd sum).nextInstruction
  | .addSubCarry sf subtract setFlags rm rn rd =>
    let sum := addSub subtract (cpu.readX (datasize sf) rn) (cpu.readX (datasize sf) rm)
      (Arm.flagsOf cpu.pstate).c
    let cpu := if setFlags then cpu.setNzcv sum.2 else cpu
    (cpu.setX rd sum.1).nextInstruction
  | .conditionalCompareRegister sf subtract rm condition rn nzcv =>
    let flags :=
      if cpu.conditionHolds condition then
        (addSub subtract (cpu.readX (datasize sf) rn) (cpu.readX (datasize sf) rm) subtract).2
      else Arm.ConditionFlags.ofBits nzcv
    (cpu.setNzcv flags).nextInstruction
  | .conditionalCompareImmediate sf subtract imm5 condition rn nzcv =>
    let flags :=
      if cpu.conditionHolds condition then
        (addSub subtract (cpu.readX (datasize sf) rn) (imm5.setWidth (datasize sf)) subtract).2
      else Arm.ConditionFlags.ofBits nzcv
    (cpu.setNzcv flags).nextInstruction
  | .conditionalSelect sf invert increment rm condition rn rd =>
    let operand2 := cpu.readX (datasize sf) rm
    let operand2 := if invert then ~~~operand2 else operand2
    let operand2 := if increment then operand2 + 1 else operand2
    let result := if cpu.conditionHolds condition then cpu.readX (datasize sf) rn else operand2
    (cpu.setX rd result).nextInstruction
  | .logicalImmediate sf op n immr imms rn rd =>
    match Arm.decodeBitMasks n imms immr true with
    | none => cpu
    | some masks =>
      let result := op.apply (cpu.readX (datasize sf) rn) (masks.wmask (datasize sf))
      if op = .ands then ((cpu.setNzcv (logicalFlags result)).setX rd result).nextInstruction
      else (cpu.setXSp rd result).nextInstruction
  | .logicalShifted sf op shiftType invert rm imm6 rn rd =>
    let operand2 := Arm.shiftReg (cpu.readX (datasize sf) rm) shiftType imm6.toNat
    let operand2 := if invert then ~~~operand2 else operand2
    let result := op.apply (cpu.readX (datasize sf) rn) operand2
    let cpu := if op = .ands then cpu.setNzcv (logicalFlags result) else cpu
    (cpu.setX rd result).nextInstruction
  | .moveWide sf op hw imm16 rd =>
    let result := if op = .movk then cpu.readX (datasize sf) rd else 0
    let result := Arm.insertSlice result (hw.toNat * 16) imm16
    let result := if op = .movn then ~~~result else result
    (cpu.setX rd result).nextInstruction
  | .bitfield sf op n immr imms rn rd =>
    match Arm.decodeBitMasks n imms immr false with
    | none => cpu
    | some masks =>
      let result := op.apply masks (cpu.readX (datasize sf) rd) (cpu.readX (datasize sf) rn) immr imms
      (cpu.setX rd result).nextInstruction
  | .extract sf _ rm imms rn rd =>
    let concat := cpu.readX (datasize sf) rn ++ cpu.readX (datasize sf) rm
    (cpu.setX rd (concat.extractLsb' imms.toNat (datasize sf))).nextInstruction
  | .oneSource sf op rn rd =>
    (cpu.setX rd (op.apply (cpu.readX (datasize sf) rn))).nextInstruction
  | .twoSource sf rm op rn rd =>
    let result := op.apply (cpu.readX (datasize sf) rn) (cpu.readX (datasize sf) rm)
    (cpu.setX rd result).nextInstruction
  | .multiplyAdd sf rm subtract ra rn rd =>
    let product : Int := (cpu.readX (datasize sf) rn).toNat * (cpu.readX (datasize sf) rm).toNat
    let addend : Int := (cpu.readX (datasize sf) ra).toNat
    let result := if subtract then addend - product else addend + product
    (cpu.setX rd (BitVec.ofInt (datasize sf) result)).nextInstruction
  | .multiplyAddLong isUnsigned rm subtract ra rn rd =>
    let product : Int :=
      if isUnsigned then (cpu.readX 32 rn).toNat * (cpu.readX 32 rm).toNat
      else (cpu.readX 32 rn).toInt * (cpu.readX 32 rm).toInt
    let addend : Int := if isUnsigned then (cpu.readX 64 ra).toNat else (cpu.readX 64 ra).toInt
    let result := if subtract then addend - product else addend + product
    (cpu.setX rd (BitVec.ofInt 64 result)).nextInstruction
  | .multiplyHigh isUnsigned rm rn rd =>
    let product : Int :=
      if isUnsigned then (cpu.readX 64 rn).toNat * (cpu.readX 64 rm).toNat
      else (cpu.readX 64 rn).toInt * (cpu.readX 64 rm).toInt
    (cpu.setX rd (BitVec.ofInt 64 (product / 2 ^ 64))).nextInstruction

/-- ADD/SUB flags of the record, and those of the two orders of bits below. -/
def addSubFlags (subtract setFlags : Bool) : BitVec 8 :=
  (if subtract then 1 else 0) ||| (if setFlags then 2 else 0)

/-- The record of the instruction, whose word is `raw`. -/
def decoded (raw : U32) : DataProcessing → NativeInstruction
  | .adr page immediate rd =>
    { raw := raw
      kind := .adr
      rd := rd.toNat
      flags := if page then 1 else 0
      immediate := if page then (immediate ++ 0#12).signExtend 64 else immediate.signExtend 64 }
  | .addSubImmediate sf subtract setFlags shift12 imm12 rn rd =>
    { raw := raw
      kind := .addSubImmediate
      rd := rd.toNat
      rn := rn.toNat
      bits := datasize sf
      flags := addSubFlags subtract setFlags
      immediate := if shift12 then (imm12 ++ 0#12).setWidth 64 else imm12.setWidth 64 }
  | .addSubShifted sf subtract setFlags shiftType rm imm6 rn rd =>
    { raw := raw
      kind := .addSubShiftedRegister
      rd := rd.toNat
      rn := rn.toNat
      rm := rm.toNat
      bits := datasize sf
      shiftType := shiftType.toBits.toNat
      shiftAmount := imm6.toNat
      flags := addSubFlags subtract setFlags }
  | .addSubExtended sf subtract setFlags rm extendType imm3 rn rd =>
    { raw := raw
      kind := .addSubExtendedRegister
      rd := rd.toNat
      rn := rn.toNat
      rm := rm.toNat
      bits := datasize sf
      condition := extendType.toBits.setWidth 8
      shiftAmount := imm3.toNat
      flags := addSubFlags subtract setFlags }
  | .addSubCarry sf subtract setFlags rm rn rd =>
    { raw := raw
      kind := .addSubCarry
      rd := rd.toNat
      rn := rn.toNat
      rm := rm.toNat
      bits := datasize sf
      flags := addSubFlags subtract setFlags }
  | .conditionalCompareRegister sf subtract rm condition rn nzcv =>
    { raw := raw
      kind := .conditionalCompareRegister
      rn := rn.toNat
      rm := rm.toNat
      bits := datasize sf
      condition := condition.setWidth 8
      flags := if subtract then 1 else 0
      immediate := nzcv.setWidth 64 <<< 28 }
  | .conditionalCompareImmediate sf subtract imm5 condition rn nzcv =>
    { raw := raw
      kind := .conditionalCompareImmediate
      rn := rn.toNat
      bits := datasize sf
      condition := condition.setWidth 8
      flags := if subtract then 1 else 0
      immediate := imm5.setWidth 64
      immediate2 := nzcv.setWidth 64 <<< 28 }
  | .conditionalSelect sf invert increment rm condition rn rd =>
    { raw := raw
      kind := .conditionalSelect
      rd := rd.toNat
      rn := rn.toNat
      rm := rm.toNat
      bits := datasize sf
      condition := condition.setWidth 8
      flags := (if increment then 1 else 0) ||| (if invert then 4 else 0) }
  | .logicalImmediate sf op n immr imms rn rd =>
    { raw := raw
      kind := .logicalImmediate
      rd := rd.toNat
      rn := rn.toNat
      bits := datasize sf
      flags := op.toBits.setWidth 8
      immediate :=
        match Arm.decodeBitMasks n imms immr true with
        | none => 0
        | some masks => (masks.wmask (datasize sf)).setWidth 64 }
  | .logicalShifted sf op shiftType invert rm imm6 rn rd =>
    { raw := raw
      kind := .logicalShiftedRegister
      rd := rd.toNat
      rn := rn.toNat
      rm := rm.toNat
      bits := datasize sf
      shiftType := shiftType.toBits.toNat
      shiftAmount := imm6.toNat
      flags := op.toBits.setWidth 8 ||| (if invert then 4 else 0) }
  | .moveWide sf op hw imm16 rd =>
    { raw := raw
      kind := .moveWide
      rd := rd.toNat
      bits := datasize sf
      flags := op.toBits.setWidth 8
      shiftAmount := hw.toNat * 16
      immediate := imm16.setWidth 64 <<< (hw.toNat * 16) }
  | .bitfield sf op n immr imms rn rd =>
    { raw := raw
      kind := .bitfieldMove
      rd := rd.toNat
      rn := rn.toNat
      bits := datasize sf
      flags := op.toBits.setWidth 8
      shiftAmount := immr.toNat
      condition := imms.setWidth 8
      immediate :=
        match Arm.decodeBitMasks n imms immr false with
        | none => 0
        | some masks => (masks.wmask (datasize sf)).setWidth 64
      immediate2 :=
        match Arm.decodeBitMasks n imms immr false with
        | none => 0
        | some masks => (masks.tmask (datasize sf)).setWidth 64 }
  | .extract sf _ rm imms rn rd =>
    { raw := raw
      kind := .extractRegister
      rd := rd.toNat
      rn := rn.toNat
      rm := rm.toNat
      bits := datasize sf
      shiftAmount := imms.toNat }
  | .oneSource sf op rn rd =>
    { raw := raw
      kind := .dataProcessingOneSource
      rd := rd.toNat
      rn := rn.toNat
      bits := datasize sf
      flags := op.toBits.setWidth 8 }
  | .twoSource sf rm op rn rd =>
    { raw := raw
      kind := .dataProcessingTwoSource
      rd := rd.toNat
      rn := rn.toNat
      rm := rm.toNat
      bits := datasize sf
      flags := op.toBits.setWidth 8 }
  | .multiplyAdd sf rm subtract ra rn rd =>
    { raw := raw
      kind := .multiplyAddSubtract
      rd := rd.toNat
      rn := rn.toNat
      rm := rm.toNat
      rt := ra.toNat
      bits := datasize sf
      flags := if subtract then 1 else 0 }
  | .multiplyAddLong isUnsigned rm subtract ra rn rd =>
    { raw := raw
      kind := if isUnsigned then .unsignedMultiplyLongAddSubtract
        else .signedMultiplyLongAddSubtract
      rd := rd.toNat
      rn := rn.toNat
      rm := rm.toNat
      rt := ra.toNat
      flags := if subtract then 1 else 0 }
  | .multiplyHigh isUnsigned rm rn rd =>
    { raw := raw
      kind := if isUnsigned then .unsignedMultiplyHigh else .signedMultiplyHigh
      rd := rd.toNat
      rn := rn.toNat
      rm := rm.toNat }

end DataProcessing

end Pinecone
