import Pinecone.NativeInstruction

/-! The integer data-processing cases of `execute_decoded_instruction`. An execution is
`none` where the function returns 0 or a shift is undefined. -/

namespace Pinecone

namespace NativeCpu

/-- `cpu->pc = pc + 4`. -/
def advance (cpu : NativeCpu) : NativeCpu :=
  { cpu with pc := cpu.pc + 4 }

/-- The flags into PSTATE.NZCV. -/
def setFlags (cpu : NativeCpu) (flags : U64) : NativeCpu :=
  { cpu with
    pstate := (cpu.pstate &&& ~~~0xf0000000#64) ||| (flags &&& 0xf0000000#64) }

/-- The flags of a logical operation, set bit by bit in PSTATE. -/
def setLogicalFlags (cpu : NativeCpu) (result : U64) (bits : Nat) : NativeCpu :=
  let pstate := cpu.pstate &&& ~~~0xf0000000#64
  let pstate := if result &&& signBitForBits bits ≠ 0 then pstate ||| 0x80000000 else pstate
  let pstate := if result = 0 then pstate ||| 0x40000000 else pstate
  { cpu with pstate := pstate }

end NativeCpu

namespace NativeInstruction

variable (instruction : NativeInstruction) (cpu : NativeCpu)

/-- `(flags & 1) != 0`, and `(flags & 2) != 0` below. -/
def subtract : Bool := instruction.flags &&& 1 != 0

def setsFlags : Bool := instruction.flags &&& 2 != 0

def executeAdr : Option NativeCpu :=
  let base := if instruction.flags &&& 1 ≠ 0 then cpu.pc &&& ~~~0xfff#64 else cpu.pc
  some (cpu.writeRegister instruction.rd (addSignedOffset base instruction.immediate)).advance

def executeConditionalCompareRegister : Option NativeCpu :=
  let bits := instruction.bits
  let flags :=
    if conditionHolds instruction.condition cpu.pstate then
      let lhs := maskedOperand (cpu.readRegister instruction.rn) bits
      let rhs := maskedOperand (cpu.readRegister instruction.rm) bits
      let rhs := if instruction.subtract then ~~~rhs &&& maskForBits bits else rhs
      (addWithCarryNzcv lhs rhs instruction.subtract bits).1
    else instruction.immediate
  some (cpu.setFlags flags).advance

def executeConditionalCompareImmediate : Option NativeCpu :=
  let bits := instruction.bits
  let flags :=
    if conditionHolds instruction.condition cpu.pstate then
      let lhs := maskedOperand (cpu.readRegister instruction.rn) bits
      let rhs := maskedOperand instruction.immediate bits
      let rhs := if instruction.subtract then ~~~rhs &&& maskForBits bits else rhs
      (addWithCarryNzcv lhs rhs instruction.subtract bits).1
    else instruction.immediate2
  some (cpu.setFlags flags).advance

def executeAddSubImmediate : Option NativeCpu :=
  let bits := instruction.bits
  let lhs := maskedOperand (cpu.readBaseRegister instruction.rn) bits
  let rhs := maskedOperand instruction.immediate bits
  let rhs := if instruction.subtract then ~~~rhs &&& maskForBits bits else rhs
  let (flags, result) := addWithCarryNzcv lhs rhs instruction.subtract bits
  if instruction.setsFlags then
    some ((cpu.setFlags flags).writeRegister instruction.rd result).advance
  else some (cpu.writeBaseRegister instruction.rd result).advance

def executeMoveWide : Option NativeCpu :=
  let mask := maskForBits instruction.bits
  let imm := instruction.immediate
  match instruction.flags.toNat with
  | 0 => some (cpu.writeRegister instruction.rd (~~~imm &&& mask)).advance
  | 2 => some (cpu.writeRegister instruction.rd (imm &&& mask)).advance
  | 3 => do
    let field ← shiftLeft 0xffff instruction.shiftAmount
    let fieldMask := field &&& mask
    let value := (cpu.readRegister instruction.rd &&& ~~~fieldMask) ||| (imm &&& fieldMask)
    some (cpu.writeRegister instruction.rd (value &&& mask)).advance
  | _ => none

/-- The shifted second operand of ADD/SUB (shifted register). -/
def addSubShiftedOperand (rhs : U64) : Option U64 :=
  let mask := maskForBits instruction.bits
  match instruction.shiftType with
  | 0 => do
    let shifted ← shiftLeft rhs instruction.shiftAmount
    some (shifted &&& mask)
  | 1 => shiftRight rhs instruction.shiftAmount
  | 2 =>
    if 0 < instruction.shiftAmount then
      if instruction.bits = 64 then do
        let shifted ← arithmeticShiftRight64 rhs instruction.shiftAmount
        some (shifted &&& mask)
      else do
        let shifted ← arithmeticShiftRight32 rhs instruction.shiftAmount
        some (shifted &&& mask)
    else some (rhs &&& mask)
  | _ => none

def executeAddSubShiftedRegister : Option NativeCpu := do
  let bits := instruction.bits
  let lhs := maskedOperand (cpu.readRegister instruction.rn) bits
  let rhs ← instruction.addSubShiftedOperand
    (maskedOperand (cpu.readRegister instruction.rm) bits)
  let rhs := if instruction.subtract then ~~~rhs &&& maskForBits bits else rhs
  let (flags, result) := addWithCarryNzcv lhs rhs instruction.subtract bits
  let cpu := if instruction.setsFlags then cpu.setFlags flags else cpu
  some (cpu.writeRegister instruction.rd result).advance

def executeAddSubCarry : Option NativeCpu :=
  let bits := instruction.bits
  let lhs := maskedOperand (cpu.readRegister instruction.rn) bits
  let rhs := maskedOperand (cpu.readRegister instruction.rm) bits
  let carryIn := cpu.pstate &&& 0x20000000 != 0
  let rhs := if instruction.subtract then ~~~rhs &&& maskForBits bits else rhs
  let (flags, result) := addWithCarryNzcv lhs rhs carryIn bits
  let cpu := if instruction.setsFlags then cpu.setFlags flags else cpu
  some (cpu.writeRegister instruction.rd result).advance

def executeAddSubExtendedRegister : Option NativeCpu := do
  let bits := instruction.bits
  let lhs := maskedOperand (cpu.readBaseRegister instruction.rn) bits
  let extended ← shiftLeft
    (extendedRegisterValue (cpu.readRegister instruction.rm) instruction.condition)
    instruction.shiftAmount
  let rhs := maskedOperand extended bits
  let rhs := if instruction.subtract then ~~~rhs &&& maskForBits bits else rhs
  let (flags, result) := addWithCarryNzcv lhs rhs instruction.subtract bits
  if instruction.setsFlags then
    some ((cpu.setFlags flags).writeRegister instruction.rd result).advance
  else some (cpu.writeBaseRegister instruction.rd result).advance

def executeLogicalShiftedRegister : Option NativeCpu := do
  let bits := instruction.bits
  let mask := maskForBits bits
  let lhs := maskedOperand (cpu.readRegister instruction.rn) bits
  let rhs ← shiftedRegisterValue (cpu.readRegister instruction.rm) instruction.shiftType
    instruction.shiftAmount bits
  let rhs := if instruction.flags &&& 4 ≠ 0 then ~~~rhs &&& mask else rhs
  match (instruction.flags &&& 3).toNat with
  | 0 => some (cpu.writeRegister instruction.rd ((lhs &&& rhs) &&& mask)).advance
  | 1 => some (cpu.writeRegister instruction.rd ((lhs ||| rhs) &&& mask)).advance
  | 2 => some (cpu.writeRegister instruction.rd ((lhs ^^^ rhs) &&& mask)).advance
  | 3 =>
    let result := lhs &&& rhs
    some ((cpu.setLogicalFlags result bits).writeRegister instruction.rd (result &&& mask)).advance
  | _ => none

def executeExtractRegister : Option NativeCpu :=
  let bits := instruction.bits
  let lsb := instruction.shiftAmount
  let low := maskedOperand (cpu.readRegister instruction.rm) bits
  let high := maskedOperand (cpu.readRegister instruction.rn) bits
  if lsb = 0 then some (cpu.writeRegister instruction.rd low).advance
  else do
    let top ← shiftLeft high (unsignedSub bits lsb)
    let bottom ← shiftRight low lsb
    some (cpu.writeRegister instruction.rd ((top ||| bottom) &&& maskForBits bits)).advance

def executeLogicalImmediate : Option NativeCpu :=
  let bits := instruction.bits
  let mask := maskForBits bits
  let lhs := maskedOperand (cpu.readRegister instruction.rn) bits
  let immediate := instruction.immediate &&& mask
  match (instruction.flags &&& 3).toNat with
  | 0 => some (cpu.writeBaseRegister instruction.rd ((lhs &&& immediate) &&& mask)).advance
  | 1 => some (cpu.writeBaseRegister instruction.rd ((lhs ||| immediate) &&& mask)).advance
  | 2 => some (cpu.writeBaseRegister instruction.rd ((lhs ^^^ immediate) &&& mask)).advance
  | 3 =>
    let result := lhs &&& immediate
    some ((cpu.setLogicalFlags result bits).writeRegister instruction.rd (result &&& mask)).advance
  | _ => none

def executeConditionalSelect : Option NativeCpu :=
  let bits := instruction.bits
  let operation := (instruction.flags &&& 3).toNat
  let invertOrNegate := instruction.flags &&& 4 != 0
  if conditionHolds instruction.condition cpu.pstate then
    some (cpu.writeRegister instruction.rd
      (maskedOperand (cpu.readRegister instruction.rn) bits)).advance
  else
    let fallback := cpu.readRegister instruction.rm
    match operation with
    | 0 => some (cpu.writeRegister instruction.rd
        (maskedOperand (if invertOrNegate then ~~~fallback else fallback) bits)).advance
    | 1 => some (cpu.writeRegister instruction.rd
        (maskedOperand (if invertOrNegate then 0 - fallback else fallback + 1) bits)).advance
    | _ => none

def executeBitfieldMove : Option NativeCpu := do
  let bits := instruction.bits
  let mask := maskForBits bits
  let immr := instruction.shiftAmount
  let imms := instruction.condition.toNat
  let source := maskedOperand (cpu.readRegister instruction.rn) bits
  let rotated ← rotateRightWidth source immr bits
  let writeMask := instruction.immediate &&& mask
  let topMask := instruction.immediate2 &&& mask
  match (instruction.flags &&& 3).toNat with
  | 0 =>
    let partialResult := (rotated &&& writeMask) &&& topMask
    let shifted ← shiftRight source (imms &&& (bits - 1))
    let signFill := if shifted &&& 1 ≠ 0 then mask else 0
    let result := (signFill &&& ~~~topMask) ||| partialResult
    some (cpu.writeRegister instruction.rd (result &&& mask)).advance
  | 1 =>
    let (insertValue, insertMask) ← bitfieldInsert source immr imms bits
    let result := (cpu.readRegister instruction.rd &&& ~~~insertMask &&& mask) |||
      (insertValue &&& insertMask)
    some (cpu.writeRegister instruction.rd (result &&& mask)).advance
  | 2 =>
    let result := (rotated &&& writeMask) &&& topMask
    some (cpu.writeRegister instruction.rd (result &&& mask)).advance
  | _ => none

def executeDataProcessingOneSource : Option NativeCpu := do
  let bits := instruction.bits
  let source := maskedOperand (cpu.readRegister instruction.rn) bits
  match instruction.flags.toNat with
  | 0 =>
    let result ← reverseBitsWidth source bits
    some (cpu.writeRegister instruction.rd result).advance
  | 1 =>
    let result ← reverseBytesGroup source 2 bits
    some (cpu.writeRegister instruction.rd result).advance
  | 2 =>
    let result ← reverseBytesGroup source 4 bits
    some (cpu.writeRegister instruction.rd result).advance
  | 3 =>
    if bits ≠ 64 then none
    else
      let result ← reverseBytesGroup source 8 bits
      some (cpu.writeRegister instruction.rd result).advance
  | 4 =>
    let result ← countLeadingZerosWidth source bits
    some (cpu.writeRegister instruction.rd (BitVec.ofNat 64 result)).advance
  | 5 =>
    let result ← countLeadingSignBitsWidth source bits
    some (cpu.writeRegister instruction.rd (BitVec.ofNat 64 result)).advance
  | _ => none

def executeDataProcessingTwoSource : Option NativeCpu := do
  let bits := instruction.bits
  let source := cpu.readRegister instruction.rn
  let rhs := cpu.readRegister instruction.rm
  let amount := (rhs &&& BitVec.ofNat 64 (bits - 1)).toNat
  match instruction.flags.toNat with
  | 2 =>
    let source := maskedOperand source bits
    let rhs := maskedOperand rhs bits
    let result := if rhs = 0 then 0 else source / rhs
    some (cpu.writeRegister instruction.rd (maskedOperand result bits)).advance
  | 3 =>
    let result := signedDivideWidth source rhs bits
    some (cpu.writeRegister instruction.rd (maskedOperand result bits)).advance
  | 8 =>
    let result ← shiftedRegisterValue source 0 amount bits
    some (cpu.writeRegister instruction.rd (maskedOperand result bits)).advance
  | 9 =>
    let result ← shiftedRegisterValue source 1 amount bits
    some (cpu.writeRegister instruction.rd (maskedOperand result bits)).advance
  | 10 =>
    let result ← shiftedRegisterValue source 2 amount bits
    some (cpu.writeRegister instruction.rd (maskedOperand result bits)).advance
  | 11 =>
    let result ← rotateRightWidth source amount bits
    some (cpu.writeRegister instruction.rd (maskedOperand result bits)).advance
  | _ => none

def executeMultiplyAddSubtract : Option NativeCpu :=
  let bits := instruction.bits
  let lhs := maskedOperand (cpu.readRegister instruction.rn) bits
  let rhs := maskedOperand (cpu.readRegister instruction.rm) bits
  let addend := maskedOperand (cpu.readRegister instruction.rt) bits
  let product := (lhs * rhs) &&& maskForBits bits
  let result := if instruction.subtract then addend - product else addend + product
  some (cpu.writeRegister instruction.rd (maskedOperand result bits)).advance

def executeSignedMultiplyLong : Option NativeCpu :=
  let lhs := ((cpu.readRegister instruction.rn).setWidth 32).signExtend 64
  let rhs := ((cpu.readRegister instruction.rm).setWidth 32).signExtend 64
  let addend := cpu.readRegister instruction.rt
  let product := lhs * rhs
  let result := if instruction.subtract then addend - product else addend + product
  some (cpu.writeRegister instruction.rd result).advance

def executeUnsignedMultiplyLong : Option NativeCpu :=
  let lhs := cpu.readRegister instruction.rn &&& 0xffffffff
  let rhs := cpu.readRegister instruction.rm &&& 0xffffffff
  let addend := cpu.readRegister instruction.rt
  let product := lhs * rhs
  let result := if instruction.subtract then addend - product else addend + product
  some (cpu.writeRegister instruction.rd result).advance

def executeSignedMultiplyHigh : Option NativeCpu :=
  let lhs := (cpu.readRegister instruction.rn).signExtend 128
  let rhs := (cpu.readRegister instruction.rm).signExtend 128
  let product := lhs * rhs
  some (cpu.writeRegister instruction.rd ((product.sshiftRight 64).setWidth 64)).advance

def executeUnsignedMultiplyHigh : Option NativeCpu :=
  let lhs := (cpu.readRegister instruction.rn).setWidth 128
  let rhs := (cpu.readRegister instruction.rm).setWidth 128
  let product := lhs * rhs
  some (cpu.writeRegister instruction.rd ((product >>> 64).setWidth 64)).advance

/-- The integer data-processing cases of `execute_decoded_instruction`. -/
def executeDataProcessing : Option NativeCpu :=
  match instruction.kind with
  | .adr => instruction.executeAdr cpu
  | .conditionalCompareRegister => instruction.executeConditionalCompareRegister cpu
  | .conditionalCompareImmediate => instruction.executeConditionalCompareImmediate cpu
  | .addSubImmediate => instruction.executeAddSubImmediate cpu
  | .moveWide => instruction.executeMoveWide cpu
  | .addSubShiftedRegister => instruction.executeAddSubShiftedRegister cpu
  | .addSubCarry => instruction.executeAddSubCarry cpu
  | .addSubExtendedRegister => instruction.executeAddSubExtendedRegister cpu
  | .logicalShiftedRegister => instruction.executeLogicalShiftedRegister cpu
  | .extractRegister => instruction.executeExtractRegister cpu
  | .logicalImmediate => instruction.executeLogicalImmediate cpu
  | .conditionalSelect => instruction.executeConditionalSelect cpu
  | .bitfieldMove => instruction.executeBitfieldMove cpu
  | .dataProcessingOneSource => instruction.executeDataProcessingOneSource cpu
  | .dataProcessingTwoSource => instruction.executeDataProcessingTwoSource cpu
  | .multiplyAddSubtract => instruction.executeMultiplyAddSubtract cpu
  | .signedMultiplyLongAddSubtract => instruction.executeSignedMultiplyLong cpu
  | .unsignedMultiplyLongAddSubtract => instruction.executeUnsignedMultiplyLong cpu
  | .signedMultiplyHigh => instruction.executeSignedMultiplyHigh cpu
  | .unsignedMultiplyHigh => instruction.executeUnsignedMultiplyHigh cpu
  | _ => none

end NativeInstruction

end Pinecone
