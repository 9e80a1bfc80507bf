import Mathlib.Data.List.Basic
import Pinecone.IntegerExecutor

/-! The vector registers by their elements, and what the vector and floating-point cases of
`execute_decoded_instruction` check and write. The values that those cases compute are a
parameter. -/

namespace Pinecone

namespace NativeCpu

/-- `cpu->v[index & 31]`. -/
def vector (cpu : NativeCpu) (index : Nat) : NativeVectorRegister :=
  cpu.v (Fin.ofNat 32 index)

def setVector (cpu : NativeCpu) (index : Nat) (value : NativeVectorRegister) : NativeCpu :=
  { cpu with v := Function.update cpu.v (Fin.ofNat 32 index) value }

end NativeCpu

namespace NativeVectorRegister

def zero : NativeVectorRegister := ⟨0, 0⟩

/-- `read_vector_element`. -/
def element (vector : NativeVectorRegister) (lane elementBits : Nat) : U64 :=
  let bitOffset := lane * elementBits
  if bitOffset < 64 then (vector.low >>> bitOffset) &&& maskForBits elementBits
  else (vector.high >>> (bitOffset - 64)) &&& maskForBits elementBits

/-- `write_vector_element`. -/
def setElement (vector : NativeVectorRegister) (lane elementBits : Nat) (value : U64) :
    NativeVectorRegister :=
  let bitOffset := lane * elementBits
  let laneMask := maskForBits elementBits
  let maskedValue := value &&& laneMask
  if bitOffset < 64 then
    { vector with
      low := (vector.low &&& ~~~(laneMask <<< bitOffset)) ||| (maskedValue <<< bitOffset) }
  else
    let highOffset := bitOffset - 64
    { vector with
      high := (vector.high &&& ~~~(laneMask <<< highOffset)) ||| (maskedValue <<< highOffset) }

/-- Byte `index` of the sixteen in memory order. -/
def byteAt (vector : NativeVectorRegister) (index : Nat) : BitVec 8 :=
  (vector.element index 8).setWidth 8

end NativeVectorRegister

/-- `duplicate_simd_element`, of an element of 8, 16, 32 or 64 bits. -/
def duplicateSimdElement (element : U64) (elementBits : Nat) (writesFullVector : Bool) :
    NativeVectorRegister :=
  let low : U64 :=
    if elementBits = 8 then (element &&& 0xff) * 0x0101010101010101
    else if elementBits = 16 then (element &&& 0xffff) * 0x0001000100010001
    else if elementBits = 32 then (element &&& 0xffffffff) * 0x0000000100000001
    else if elementBits = 64 then element
    else 0
  ⟨low, if writesFullVector then low else 0⟩

def transfersElements (registerCount laneCount elementBytes : Nat) : Bool :=
  registerCount != 0 && registerCount ≤ 4 && laneCount != 0 &&
    (elementBytes == 1 || elementBytes == 2 || elementBytes == 4 || elementBytes == 8)

/-- `pack_interleaved_vectors`: lane by lane, an element of each vector. -/
def packInterleavedVectors (vectors : List NativeVectorRegister) (laneCount elementBytes : Nat) :
    Option (List (BitVec 8)) :=
  if transfersElements vectors.length laneCount elementBytes then
    some ((List.range laneCount).flatMap fun lane =>
      vectors.flatMap fun vector =>
        (List.range elementBytes).map fun byte => vector.byteAt (lane * elementBytes + byte))
  else none

/-- `unpack_interleaved_vectors`, into vectors that were zero. -/
def unpackInterleavedVectors (source : List (BitVec 8))
    (registerCount laneCount elementBytes : Nat) : Option (List NativeVectorRegister) :=
  if transfersElements registerCount laneCount elementBytes then
    some ((List.range registerCount).map fun component =>
      (List.range (laneCount * elementBytes)).foldl (fun vector index =>
        let lane := index / elementBytes
        let byte := index % elementBytes
        let input := (lane * registerCount + component) * elementBytes + byte
        vector.setElement index 8 ((source.getD input 0).setWidth 64)) .zero)
  else none

/-- What a vector or floating-point case writes besides the PC. -/
inductive VectorTarget
  | vector
  | general
  | flags
  deriving DecidableEq, Repr

/-- The values of the vector and floating-point cases. -/
structure VectorValues where
  vector : NativeInstruction → NativeCpu → NativeVectorRegister
  general : NativeInstruction → NativeCpu → U64
  flags : NativeInstruction → NativeCpu → U64
  saturates : NativeInstruction → NativeCpu → Bool

def VectorValues.zero : VectorValues where
  vector := fun _ _ => .zero
  general := fun _ _ => 0
  flags := fun _ _ => 0
  saturates := fun _ _ => false

def NativeCpu.zero : NativeCpu where
  x := fun _ => 0
  v := fun _ => .zero
  sp := 0
  pc := 0
  pstate := 0
  fpcr := 0
  fpsr := 0
  exclusiveAddress := 0
  exclusiveGeneration := 0
  exclusiveSize := 0
  exclusiveValid := false
  halted := false

namespace NativeInstruction

variable (instruction : NativeInstruction)

/-- Bit `index` of `flags`. -/
def flag (index : Nat) : Bool :=
  instruction.flags.getLsbD index

/-- `execute_simd_shift_left_immediate_portable`. -/
def shiftLeftImmediateAccepts : Bool :=
  (instruction.bits == 8 || instruction.bits == 16 || instruction.bits == 32 ||
    instruction.bits == 64) && instruction.shiftAmount < instruction.bits

/-- `execute_simd_shift_right_immediate_portable`. -/
def shiftRightImmediateAccepts : Bool :=
  instruction.bits != 0 && instruction.shiftAmount != 0 &&
    instruction.shiftAmount ≤ instruction.bits

def signedShiftLongAccepts : Bool :=
  let sourceBits := if instruction.bits ≠ 0 then instruction.bits else 32
  (sourceBits == 8 || sourceBits == 16 || sourceBits == 32) &&
    instruction.shiftAmount ≤ sourceBits

def permuteAccepts : Bool :=
  let vectorBits := if instruction.condition ≠ 0 then 128 else 64
  2 ≤ vectorBits / instruction.bits && instruction.flags &&& 3 != 0

/-- A comparison of a vector with lanes is one of those that the loop knows. -/
def compareAccepts (last : Nat) : Bool :=
  let vectorBits := if instruction.flag 0 then 128 else 64
  vectorBits / instruction.bits == 0 || (instruction.flags >>> 1).toNat ≤ last

/-- Where a vector or floating-point case writes its value: `none` when it returns 0, or when
the kind is another. -/
def vectorTarget : Option VectorTarget :=
  match instruction.kind with
  | .simdMoveVectorElementToGeneral => some .general
  | .fpScalarGeneralMove =>
    if 5 < instruction.flags.toNat then none
    else if instruction.flag 0 then some .general
    else some .vector
  | .fpScalarConditionalCompare | .fpScalarCompare => some .flags
  | .fpScalarConvertToInteger => some (if instruction.flag 3 then .vector else .general)
  | .fpScalarUnary =>
    if !instruction.flag 3 && instruction.flags &&& 3 == 3 then none else some .vector
  | .simdSignedShiftLongSToD => if instruction.signedShiftLongAccepts then some .vector else none
  | .simdPermuteTwoVector => if instruction.permuteAccepts then some .vector else none
  | .simdShiftLeftImmediate =>
    if instruction.shiftLeftImmediateAccepts then some .vector else none
  | .simdShiftRightImmediate =>
    if instruction.shiftRightImmediateAccepts then some .vector else none
  | .simdCompareEqualVector => if instruction.compareAccepts 10 then some .vector else none
  | .simdFpCompareVector => if instruction.compareAccepts 9 then some .vector else none
  | .simdOrrVector => if (instruction.flags >>> 1).toNat ≤ 7 then some .vector else none
  | .fpScalarRegisterMove | .simdScalarSignedIntegerToFp | .simdInsertGeneralToElement
  | .simdAddVector | .simdDuplicateGeneral | .simdMoviZero | .simdMoviByte | .simdMvniImmediate
  | .simdMoviDImmediate | .simdTableLookup | .fpIntegerToScalarFp | .fpScalarArithmetic
  | .fpScalarConditionalSelect | .simdCountSetBits | .fpScalarImmediateMove
  | .simdUnsignedMaxPairwise | .simdMoviWordImmediate | .fpScalarConvertPrecision
  | .simdDuplicateVectorElement | .simdScalarShiftLeftImmediate | .simdAddAcrossVector
  | .fpScalarFusedMultiplyAdd | .simdScalarFpAbsoluteDifference | .simdFpImmediateMove
  | .fpScalarNegatedMultiply | .simdPairwiseAddLong | .fpScalarRoundIntegral
  | .simdIntegerNegate | .simdMultiplyLong | .simdNarrowHigh | .simdBitwiseNot
  | .simdSaturatingAddSubtract | .simdInsertVectorElement | .simdUnsignedShiftRegister
  | .fpScalarMinmax | .simdIntegerMinmax | .simdReverseElements | .simdExtractVector
  | .simdFpConvertNarrowWiden | .simdPairwiseAdd | .fpReciprocalEstimate | .fpReciprocalStep
  | .simdFpConvertToInteger | .simdCountLeadingZeros => some .vector
  | _ => none

/-- The cases that set the saturation flag of FPSR. -/
def maySaturate : Bool :=
  instruction.kind = .simdSaturatingAddSubtract ∨
    instruction.kind = .simdNarrowHigh ∧ instruction.flag 6

/-- The vector and floating-point cases of `execute_decoded_instruction`. -/
def executeVectorArithmetic (values : VectorValues) (cpu : NativeCpu) : Option NativeCpu := do
  let target ← instruction.vectorTarget
  match target with
  | .vector =>
    let cpu' :=
      if instruction.maySaturate ∧ values.saturates instruction cpu then
        { cpu with fpsr := cpu.fpsr ||| 0x08000000 }
      else cpu
    some (cpu'.setVector instruction.rd (values.vector instruction cpu)).advance
  | .general => some (cpu.writeRegister instruction.rd (values.general instruction cpu)).advance
  | .flags => some (cpu.setFlags (values.flags instruction cpu)).advance

end NativeInstruction

end Pinecone
