import Pinecone.NativeCpu

/-! The decoded instruction record of ARM64VizNative.h and the arithmetic helpers of
ARM64VizNative.c. A shift whose amount reaches the width of its operand's type is undefined
in C, and gives `none` here. -/

namespace Pinecone

abbrev U32 := BitVec 32

/-- `AVZ_NATIVE_OP_*`. -/
inductive NativeOpKind
  | nop
  | halt
  | adr
  | cbz
  | tbz
  | bcond
  | addSubImmediate
  | moveWide
  | addSubShiftedRegister
  | branch
  | loadStoreUnsignedImmediate
  | loadStoreSignedImmediate
  | loadStoreRegisterOffset
  | loadStorePair
  | logicalShiftedRegister
  | logicalImmediate
  | registerBranch
  | conditionalSelect
  | bitfieldMove
  | dataProcessingOneSource
  | dataProcessingTwoSource
  | loadLiteral
  | conditionalCompareRegister
  | conditionalCompareImmediate
  | addSubExtendedRegister
  | multiplyAddSubtract
  | signedMultiplyLongAddSubtract
  | unsignedMultiplyLongAddSubtract
  | loadAcquireStoreRelease
  | addSubCarry
  | extractRegister
  | signedMultiplyHigh
  | unsignedMultiplyHigh
  | simdMoveVectorElementToGeneral
  | fpScalarGeneralMove
  | fpScalarRegisterMove
  | simdScalarSignedIntegerToFp
  | simdInsertGeneralToElement
  | simdSignedShiftLongSToD
  | simdAddVector
  | simdDuplicateGeneral
  | simdMoviZero
  | simdMoviByte
  | simdMvniImmediate
  | simdMoviDImmediate
  | simdTableLookup
  | simdPermuteTwoVector
  | loadStoreExclusive
  | loadStoreExclusivePair
  | simdFpLoadStoreImmediate
  | simdFpLoadStorePair
  | fpIntegerToScalarFp
  | fpScalarArithmetic
  | fpScalarConditionalSelect
  | fpScalarCompare
  | fpScalarConvertToInteger
  | simdCompareEqualVector
  | simdCountSetBits
  | simdOrrVector
  | fpScalarImmediateMove
  | simdUnsignedMaxPairwise
  | simdMoviWordImmediate
  | simdFpLoadStoreRegisterOffset
  | fpScalarConvertPrecision
  | simdLoadStoreSingleStructureLane
  | systemRegisterRead
  | systemRegisterWrite
  | barrier
  | systemInstruction
  | exceptionReturn
  | pstateImmediate
  | synchronousException
  | wait
  | simdLoadStoreMultipleStructure
  | simdDuplicateVectorElement
  | simdScalarShiftLeftImmediate
  | simdAddAcrossVector
  | fpScalarFusedMultiplyAdd
  | fpScalarUnary
  | simdScalarFpAbsoluteDifference
  | simdFpImmediateMove
  | fpScalarNegatedMultiply
  | simdPairwiseAddLong
  | fpScalarConditionalCompare
  | fpScalarRoundIntegral
  | simdIntegerNegate
  | simdShiftLeftImmediate
  | simdMultiplyLong
  | simdNarrowHigh
  | simdBitwiseNot
  | simdSaturatingAddSubtract
  | simdShiftRightImmediate
  | simdInsertVectorElement
  | simdUnsignedShiftRegister
  | fpScalarMinmax
  | simdIntegerMinmax
  | simdReverseElements
  | simdExtractVector
  | simdFpConvertNarrowWiden
  | simdFpCompareVector
  | simdPairwiseAdd
  | fpReciprocalEstimate
  | fpReciprocalStep
  | simdFpConvertToInteger
  | simdCountLeadingZeros
  deriving DecidableEq, Repr

/-- `AVZNativeInstruction`. The decoder clears every field it does not set. -/
structure NativeInstruction where
  raw : U32
  kind : NativeOpKind
  rd : Nat := 0
  rn : Nat := 0
  rm : Nat := 0
  rt : Nat := 0
  width : Nat := 0
  bits : Nat := 0
  flags : BitVec 8 := 0
  condition : BitVec 8 := 0
  shiftType : Nat := 0
  shiftAmount : Nat := 0
  immediate : U64 := 0
  immediate2 : U64 := 0
  deriving DecidableEq, Repr

/-- `<<` on `uint64_t`. -/
def shiftLeft (value : U64) (amount : Nat) : Option U64 :=
  if amount < 64 then some (value <<< amount) else none

/-- `>>` on `uint64_t`. -/
def shiftRight (value : U64) (amount : Nat) : Option U64 :=
  if amount < 64 then some (value >>> amount) else none

/-- `(uint64_t)((int64_t)value >> amount)`. -/
def arithmeticShiftRight64 (value : U64) (amount : Nat) : Option U64 :=
  if amount < 64 then some (value.sshiftRight amount) else none

/-- `(uint64_t)((int32_t)(uint32_t)value >> amount)`. -/
def arithmeticShiftRight32 (value : U64) (amount : Nat) : Option U64 :=
  if amount < 32 then some (((value.setWidth 32).sshiftRight amount).signExtend 64) else none

/-- `a - b` on `unsigned`. -/
def unsignedSub (a b : Nat) : Nat :=
  (BitVec.ofNat 32 a - BitVec.ofNat 32 b).toNat

def maskForBits (bits : Nat) : U64 :=
  if bits = 0 then 0 else if 64 ≤ bits then 0xffffffffffffffff else (1#64 <<< bits) - 1

def signBitForBits (bits : Nat) : U64 :=
  if bits = 0 then 0 else 1#64 <<< ((if 64 ≤ bits then 64 else bits) - 1)

def signExtendU64 (value : U64) (bits : Nat) : U64 :=
  if bits = 0 then 0
  else if 64 ≤ bits then value
  else ((value &&& maskForBits bits) ^^^ signBitForBits bits) - signBitForBits bits

def decodeScaledSignedImmediate (encoded : U64) (bits : Nat) (scale : U64) : U64 :=
  signExtendU64 encoded bits * scale

def addSignedOffset (base offset : U64) : U64 :=
  base + offset

def maskedOperand (value : U64) (bits : Nat) : U64 :=
  if bits = 64 then value else value &&& 0xffffffff

def rotateRightWidth (value : U64) (amount width : Nat) : Option U64 :=
  let mask := maskForBits width
  let value := value &&& mask
  let amount := amount % width
  if amount = 0 then some value
  else do
    let low ← shiftRight value amount
    let high ← shiftLeft value (width - amount)
    some ((low ||| high) &&& mask)

def shiftedRegisterValue (value : U64) (shiftType amount bits : Nat) : Option U64 :=
  let mask := maskForBits bits
  let value := value &&& mask
  match shiftType with
  | 0 => do
    let shifted ← shiftLeft value amount
    some (shifted &&& mask)
  | 1 => if amount = 0 then some value else shiftRight value amount
  | 2 =>
    if amount = 0 then some value
    else if bits = 64 then do
      let shifted ← arithmeticShiftRight64 value amount
      some (shifted &&& mask)
    else do
      let shifted ← arithmeticShiftRight32 value amount
      some (shifted &&& mask)
  | 3 => rotateRightWidth value amount bits
  | _ => some value

def reverseBitsWidth (value : U64) (bits : Nat) : Option U64 := do
  let bits := if 64 < bits then 64 else bits
  let value := value &&& maskForBits bits
  let result ← (List.range bits).foldlM (fun result bit => do
    let low ← shiftRight value bit
    if low &&& 1 ≠ 0 then
      let reversed ← shiftLeft 1 (bits - 1 - bit)
      some (result ||| reversed)
    else some result) 0
  some (result &&& maskForBits bits)

def reverseBytesGroup (value : U64) (groupBytes bits : Nat) : Option U64 :=
  let bits := if 64 < bits then 64 else bits
  let byteCount := bits / 8
  if groupBytes = 0 ∨ byteCount = 0 ∨ byteCount < groupBytes ∨ byteCount % groupBytes ≠ 0 then
    some (value &&& maskForBits bits)
  else do
    let value := value &&& maskForBits bits
    let result ← (List.range byteCount).foldlM (fun result byteIndex => do
      let groupStart := byteIndex / groupBytes * groupBytes
      let offsetInGroup := byteIndex - groupStart
      let reversedIndex := groupStart + groupBytes - 1 - offsetInGroup
      let low ← shiftRight value (byteIndex * 8)
      let reversed ← shiftLeft (low &&& 0xff) (reversedIndex * 8)
      some (result ||| reversed)) 0
    some (result &&& maskForBits bits)

/-- The loops of the two functions below: how many of the bits under `bit` are `sign`,
from the top one on. -/
def countLeadingBits (value sign : U64) : Nat → Option Nat
  | 0 => some 0
  | bit + 1 => do
    let low ← shiftRight value bit
    if low &&& 1 ≠ sign then some 0
    else
      let count ← countLeadingBits value sign bit
      some (count + 1)

def countLeadingZerosWidth (value : U64) (bits : Nat) : Option Nat :=
  let bits := if 64 < bits then 64 else bits
  countLeadingBits (value &&& maskForBits bits) 0 bits

def countLeadingSignBitsWidth (value : U64) (bits : Nat) : Option Nat :=
  let bits := if 64 < bits then 64 else bits
  if bits = 0 then some 0
  else do
    let value := value &&& maskForBits bits
    let top ← shiftRight value (bits - 1)
    countLeadingBits value (top &&& 1) (bits - 1)

/-- The loop of `highest_set_bit`, over the bits under `bit`. -/
def highestSetBitFrom (value : U32) : Nat → Int
  | 0 => -1
  | bit + 1 => if value &&& (1#32 <<< bit) ≠ 0 then bit else highestSetBitFrom value bit

def highestSetBit (value : U32) : Int :=
  highestSetBitFrom value 32

/-- `for (shift = 0; shift < bits; shift += size) result |= element << shift`. -/
def replicateElement (element : U64) (size bits : Nat) : Option U64 :=
  (List.range ((bits + size - 1) / size)).foldlM (fun result index => do
    let shifted ← shiftLeft element (index * size)
    some (result ||| shifted)) 0

def decodeLogicalImmediate (n immr imms : U32) (bits : Nat) : Option U64 :=
  if bits = 32 ∧ n ≠ 0 then none
  else
    let encodedLength := (n <<< 6) ||| (~~~imms &&& 0x3f)
    let length := highestSetBit encodedLength
    if length < 1 then none
    else
      let levels : U32 := (1#32 <<< length.toNat) - 1
      if imms &&& levels = levels then none
      else
        let size : U32 := 1#32 <<< length.toNat
        if bits < size.toNat then none
        else do
          let setBits := (imms &&& levels) + 1
          let rotate := immr &&& levels
          let element ← rotateRightWidth (maskForBits setBits.toNat) rotate.toNat size.toNat
          let result ← replicateElement element size.toNat bits
          some (result &&& maskForBits bits)

/-- The write mask and the top mask. -/
def decodeBitfieldMasks (n immr imms : U32) (bits : Nat) : Option (U64 × U64) :=
  if bits = 32 ∧ n ≠ 0 ∨ bits = 64 ∧ n ≠ 1 then none
  else
    let encodedLength := (n <<< 6) ||| (~~~imms &&& 0x3f)
    let length := highestSetBit encodedLength
    if length < 1 then none
    else
      let levels : U32 := (1#32 <<< length.toNat) - 1
      let size : U32 := 1#32 <<< length.toNat
      if bits < size.toNat then none
      else do
        let setBits := imms &&& levels
        let rotate := immr &&& levels
        let diff := (setBits - rotate) &&& levels
        let writeElement ←
          rotateRightWidth (maskForBits (setBits + 1).toNat) rotate.toNat size.toNat
        let topElement := maskForBits (diff + 1).toNat
        let writeMask ← replicateElement writeElement size.toNat bits
        let topMask ← replicateElement topElement size.toNat bits
        let registerMask := maskForBits bits
        some (writeMask &&& registerMask, topMask &&& registerMask)

/-- The value to insert and the mask of the bits it goes to. -/
def bitfieldInsert (source : U64) (immr imms bits : Nat) : Option (U64 × U64) :=
  let registerMask := maskForBits bits
  if immr ≤ imms then do
    let width := imms - immr + 1
    let fieldMask := maskForBits width
    let shifted ← shiftRight source immr
    some (shifted &&& fieldMask, fieldMask)
  else do
    let width := imms + 1
    let lsb := unsignedSub bits immr
    let shiftedMask ← shiftLeft (maskForBits width) lsb
    let shifted ← shiftLeft (source &&& maskForBits width) lsb
    some (shifted &&& registerMask, shiftedMask &&& registerMask)

def signedDivideWidth (dividend divisor : U64) (bits : Nat) : U64 :=
  if bits = 32 then
    let lhs := dividend.setWidth 32
    let rhs := divisor.setWidth 32
    if rhs = 0 then 0
    else if lhs = BitVec.intMin 32 ∧ rhs = -1 then (BitVec.intMin 32).setWidth 64
    else (BitVec.ofInt 32 (lhs.toInt.tdiv rhs.toInt)).setWidth 64
  else
    if divisor = 0 then 0
    else if dividend = BitVec.intMin 64 ∧ divisor = -1 then BitVec.intMin 64
    else BitVec.ofInt 64 (dividend.toInt.tdiv divisor.toInt)

def signExtendLoaded (value : U64) (bits : Nat) : U64 :=
  if 64 ≤ bits ∨ value &&& signBitForBits bits = 0 then value
  else value ||| ~~~maskForBits bits

def extendedRegisterValue (value : U64) (option : BitVec 8) : U64 :=
  match option.toNat with
  | 0 => value &&& 0xff
  | 1 => value &&& 0xffff
  | 2 => value &&& 0xffffffff
  | 3 => value
  | 4 => signExtendLoaded (value &&& 0xff) 8
  | 5 => signExtendLoaded (value &&& 0xffff) 16
  | 6 => signExtendLoaded (value &&& 0xffffffff) 32
  | _ => value

/-- The flags, at the bits they have in PSTATE, and the result. The carry is that of a
128-bit sum. -/
def addWithCarryNzcv (lhs rhs : U64) (carryIn : Bool) (bits : Nat) : U64 × U64 :=
  let mask := maskForBits bits
  let result := (lhs + rhs + (if carryIn then 1 else 0)) &&& mask
  let unsignedSum : BitVec 128 :=
    lhs.setWidth 128 + rhs.setWidth 128 + (if carryIn then 1 else 0)
  let sign := signBitForBits bits
  let lhsNegative := lhs &&& sign != 0
  let rhsNegative := rhs &&& sign != 0
  let resultNegative := result &&& sign != 0
  let flags : U64 := if resultNegative then 0x80000000 else 0
  let flags := if result = 0 then flags ||| 0x40000000 else flags
  let flags := if unsignedSum >>> bits ≠ 0 then flags ||| 0x20000000 else flags
  let flags :=
    if lhsNegative = rhsNegative ∧ lhsNegative ≠ resultNegative then flags ||| 0x10000000
    else flags
  (flags, result)

def conditionHolds (condition : BitVec 8) (pstate : U64) : Bool :=
  let n := pstate &&& 0x80000000 != 0
  let z := pstate &&& 0x40000000 != 0
  let c := pstate &&& 0x20000000 != 0
  let v := pstate &&& 0x10000000 != 0
  let result :=
    match (condition >>> 1).toNat with
    | 0 => z
    | 1 => c
    | 2 => n
    | 3 => v
    | 4 => c && !z
    | 5 => n == v
    | 6 => !z && n == v
    | 7 => true
    | _ => false
  if condition &&& 1 ≠ 0 ∧ condition ≠ 0xf then !result else result

end Pinecone
