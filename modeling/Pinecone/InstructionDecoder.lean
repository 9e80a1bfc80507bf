import Pinecone.NativeInstruction

/-! `avz_native_decode_instruction`: the tests of a word against masks, in the order in which
the function makes them. The words that reach the scalar floating-point and vector cases are
those of its tests; what these cases decode them to is a parameter. -/

namespace Pinecone

/-- A case of the decoder: `none` when the word goes on to the next one, `some none` when the
function returns 0. -/
abbrev DecodeRule := U32 → Option (Option NativeInstruction)

section

variable (w : U32)

/-- `(instruction >> lsb) & 1`. -/
def bitAt (lsb : Nat) : Bool :=
  (w >>> lsb) &&& 1 != 0

/-- The register fields at bits 0, 5, 10 and 16. -/
def rdField : Nat := (w &&& 0x1f).toNat

def rnField : Nat := ((w >>> 5) &&& 0x1f).toNat

def raField : Nat := ((w >>> 10) &&& 0x1f).toNat

def rmField : Nat := ((w >>> 16) &&& 0x1f).toNat

/-- `((instruction >> 31) & 1) ? 64 : 32`. -/
def bitsField : Nat := if bitAt w 31 then 64 else 32

/-- Bits 30 and 29 of ADD and SUB. -/
def addSubField : BitVec 8 := (if bitAt w 30 then 1 else 0) ||| (if bitAt w 29 then 2 else 0)

def decodeWait : Option (Option NativeInstruction) :=
  if w = 0xd503205f ∨ w = 0xd503207f then
    some (some { raw := w, kind := .wait, flags := if w = 0xd503207f then 1 else 0 })
  else none

def decodeNop : Option (Option NativeInstruction) :=
  if w = 0xd503201f ∨ w = 0xd503209f ∨ w = 0xd50320bf ∨ w &&& 0xfffff01f = 0xd503201f then
    some (some { raw := w, kind := .nop })
  else none

def decodeBarrier : Option (Option NativeInstruction) :=
  if w &&& 0xfffff0ff = 0xd503309f ∨ w &&& 0xfffff0ff = 0xd50330bf ∨
      w &&& 0xfffff0ff = 0xd50330df then
    some (some { raw := w, kind := .barrier, flags := ((w >>> 5) &&& 0x7).setWidth 8 })
  else none

def decodePstateImmediate : Option (Option NativeInstruction) :=
  if w &&& 0xfffff01f = 0xd503401f then
    let operation := (w >>> 5) &&& 0x7
    if operation ≠ 0x6 ∧ operation ≠ 0x7 then some none
    else
      some (some
        { raw := w
          kind := .pstateImmediate
          flags := operation.setWidth 8
          immediate := (((w >>> 8) &&& 0xf) <<< 6).setWidth 64 })
  else none

def decodeHalt : Option (Option NativeInstruction) :=
  if w &&& 0xffe0001f = 0xd4400000 then some (some { raw := w, kind := .halt }) else none

def decodeExceptionReturn : Option (Option NativeInstruction) :=
  if w = 0xd69f03e0 then some (some { raw := w, kind := .exceptionReturn }) else none

def decodeSynchronousException : Option (Option NativeInstruction) :=
  if w &&& 0xffe0001f = 0xd4000001 ∨ w &&& 0xffe0001f = 0xd4000002 ∨
      w &&& 0xffe0001f = 0xd4000003 ∨ w &&& 0xffe0001f = 0xd4200000 then
    some (some { raw := w, kind := .synchronousException })
  else none

def decodeSystemRegisterRead : Option (Option NativeInstruction) :=
  if w &&& 0xfff00000 = 0xd5300000 then
    some (some { raw := w, kind := .systemRegisterRead, rt := rdField w })
  else none

def decodeSystemRegisterWrite : Option (Option NativeInstruction) :=
  if w &&& 0xfff00000 = 0xd5100000 then
    some (some { raw := w, kind := .systemRegisterWrite, rt := rdField w })
  else none

def decodeSystemInstruction : Option (Option NativeInstruction) :=
  if w &&& 0xfff80000 = 0xd5080000 then
    some (some { raw := w, kind := .systemInstruction, rt := rdField w })
  else none

def decodeAdr : Option (Option NativeInstruction) :=
  if w &&& 0x9f000000 = 0x10000000 ∨ w &&& 0x9f000000 = 0x90000000 then
    let page := w &&& 0x9f000000 = 0x90000000
    let immlo : U64 := ((w >>> 29) &&& 3).setWidth 64
    let immhi : U64 := ((w >>> 5) &&& 0x7ffff).setWidth 64
    let offset := signExtendU64 ((immhi <<< 2) ||| immlo) 21
    some (some
      { raw := w
        kind := .adr
        rd := rdField w
        flags := if page then 1 else 0
        immediate := if page then offset * 4096 else offset })
  else none

def decodeCbz : Option (Option NativeInstruction) :=
  if w &&& 0x7e000000 = 0x34000000 then
    some (some
      { raw := w
        kind := .cbz
        rt := rdField w
        bits := bitsField w
        flags := if bitAt w 24 then 1 else 0
        immediate := decodeScaledSignedImmediate (((w >>> 5) &&& 0x7ffff).setWidth 64) 19 4 })
  else none

def decodeTbz : Option (Option NativeInstruction) :=
  if w &&& 0x7e000000 = 0x36000000 then
    some (some
      { raw := w
        kind := .tbz
        rt := rdField w
        shiftAmount := ((((w >>> 31) &&& 1) <<< 5) ||| ((w >>> 19) &&& 0x1f)).toNat
        flags := if bitAt w 24 then 1 else 0
        immediate := decodeScaledSignedImmediate (((w >>> 5) &&& 0x3fff).setWidth 64) 14 4 })
  else none

def decodeBcond : Option (Option NativeInstruction) :=
  if w &&& 0xff000010 = 0x54000000 then
    some (some
      { raw := w
        kind := .bcond
        condition := (w &&& 0xf).setWidth 8
        immediate := decodeScaledSignedImmediate (((w >>> 5) &&& 0x7ffff).setWidth 64) 19 4 })
  else none

def decodeConditionalCompareRegister : Option (Option NativeInstruction) :=
  if w &&& 0x3fe00c10 = 0x3a400000 then
    some (some
      { raw := w
        kind := .conditionalCompareRegister
        rn := rnField w
        rm := rmField w
        bits := bitsField w
        condition := ((w >>> 12) &&& 0xf).setWidth 8
        flags := ((w >>> 30) &&& 1).setWidth 8
        immediate := ((w &&& 0xf) <<< 28).setWidth 64 })
  else none

def decodeConditionalCompareImmediate : Option (Option NativeInstruction) :=
  if w &&& 0x3fe00c10 = 0x3a400800 then
    some (some
      { raw := w
        kind := .conditionalCompareImmediate
        rn := rnField w
        bits := bitsField w
        condition := ((w >>> 12) &&& 0xf).setWidth 8
        flags := ((w >>> 30) &&& 1).setWidth 8
        immediate := ((w >>> 16) &&& 0x1f).setWidth 64
        immediate2 := ((w &&& 0xf) <<< 28).setWidth 64 })
  else none

def decodeConditionalSelect : Option (Option NativeInstruction) :=
  if w &&& 0x1fe00800 = 0x1a800000 then
    let operation : BitVec 8 := ((w >>> 10) &&& 3).setWidth 8
    if 1 < operation.toNat then some none
    else
      some (some
        { raw := w
          kind := .conditionalSelect
          rd := rdField w
          rn := rnField w
          rm := rmField w
          bits := bitsField w
          condition := ((w >>> 12) &&& 0xf).setWidth 8
          flags := operation ||| (if bitAt w 30 then 4 else 0) })
  else none

def decodeAddSubShiftedRegister : Option (Option NativeInstruction) :=
  if w &&& 0x1f200000 = 0x0b000000 then
    let shiftAmount := ((w >>> 10) &&& 0x3f).toNat
    let shiftType := ((w >>> 22) &&& 3).toNat
    if ¬bitAt w 31 ∧ 32 ≤ shiftAmount then some none
    else if shiftType ≤ 2 then
      some (some
        { raw := w
          kind := .addSubShiftedRegister
          rd := rdField w
          rn := rnField w
          rm := rmField w
          bits := bitsField w
          shiftType := shiftType
          shiftAmount := shiftAmount
          flags := addSubField w })
    else some none
  else none

def decodeAddSubCarry : Option (Option NativeInstruction) :=
  if w &&& 0x1fe0fc00 = 0x1a000000 then
    some (some
      { raw := w
        kind := .addSubCarry
        rd := rdField w
        rn := rnField w
        rm := rmField w
        bits := bitsField w
        flags := addSubField w })
  else none

def decodeLogicalShiftedRegister : Option (Option NativeInstruction) :=
  if w &&& 0x1f000000 = 0x0a000000 then
    let shiftAmount := ((w >>> 10) &&& 0x3f).toNat
    if ¬bitAt w 31 ∧ 32 ≤ shiftAmount then some none
    else
      some (some
        { raw := w
          kind := .logicalShiftedRegister
          rd := rdField w
          rn := rnField w
          rm := rmField w
          bits := bitsField w
          shiftType := ((w >>> 22) &&& 3).toNat
          shiftAmount := shiftAmount
          flags := ((w >>> 29) &&& 3).setWidth 8 ||| (if bitAt w 21 then 4 else 0) })
  else none

def decodeExtractRegister : Option (Option NativeInstruction) :=
  if w &&& 0x7fa00000 = 0x13800000 then
    let lsb := ((w >>> 10) &&& 0x3f).toNat
    if bitAt w 22 ≠ bitAt w 31 ∨ bitsField w ≤ lsb then some none
    else
      some (some
        { raw := w
          kind := .extractRegister
          rd := rdField w
          rn := rnField w
          rm := rmField w
          bits := bitsField w
          shiftAmount := lsb })
  else none

def decodeLogicalImmediateRule : Option (Option NativeInstruction) :=
  if w &&& 0x1f800000 = 0x12000000 then
    match decodeLogicalImmediate ((w >>> 22) &&& 1) ((w >>> 16) &&& 0x3f) ((w >>> 10) &&& 0x3f)
      (bitsField w) with
    | none => some none
    | some immediate =>
      some (some
        { raw := w
          kind := .logicalImmediate
          rd := rdField w
          rn := rnField w
          bits := bitsField w
          flags := ((w >>> 29) &&& 3).setWidth 8
          immediate := immediate })
  else none

def decodeRegisterBranch : Option (Option NativeInstruction) :=
  if w &&& 0xfffffc1f = 0xd65f0000 ∨ w &&& 0xfffffc1f = 0xd61f0000 ∨
      w &&& 0xfffffc1f = 0xd63f0000 then
    some (some
      { raw := w
        kind := .registerBranch
        rn := rnField w
        flags := if w &&& 0xfffffc1f = 0xd63f0000 then 1 else 0 })
  else none

def decodeBitfieldMove : Option (Option NativeInstruction) :=
  if w &&& 0x1f800000 = 0x13000000 then
    let opcode := (w >>> 29) &&& 3
    let immr := (w >>> 16) &&& 0x3f
    let imms := (w >>> 10) &&& 0x3f
    if opcode = 3 then some none
    else
      match decodeBitfieldMasks ((w >>> 22) &&& 1) immr imms (bitsField w) with
      | none => some none
      | some (writeMask, topMask) =>
        some (some
          { raw := w
            kind := .bitfieldMove
            rd := rdField w
            rn := rnField w
            bits := bitsField w
            flags := opcode.setWidth 8
            shiftAmount := immr.toNat
            condition := imms.setWidth 8
            immediate := writeMask
            immediate2 := topMask })
  else none

def decodeDataProcessingOneSource : Option (Option NativeInstruction) :=
  if w &&& 0x5fe00000 = 0x5ac00000 then
    let opcode := (w >>> 10) &&& 0x3f
    if ¬(opcode = 0x00 ∨ opcode = 0x01 ∨ opcode = 0x02 ∨ (opcode = 0x03 ∧ bitAt w 31) ∨
        opcode = 0x04 ∨ opcode = 0x05) then some none
    else
      some (some
        { raw := w
          kind := .dataProcessingOneSource
          rd := rdField w
          rn := rnField w
          bits := bitsField w
          flags := opcode.setWidth 8 })
  else none

def decodeDataProcessingTwoSource : Option (Option NativeInstruction) :=
  if w &&& 0x7fe0c000 = 0x1ac00000 then
    let opcode := (w >>> 10) &&& 0x3f
    if ¬(opcode = 0x02 ∨ opcode = 0x03 ∨ opcode = 0x08 ∨ opcode = 0x09 ∨ opcode = 0x0a ∨
        opcode = 0x0b) then some none
    else
      some (some
        { raw := w
          kind := .dataProcessingTwoSource
          rd := rdField w
          rn := rnField w
          rm := rmField w
          bits := bitsField w
          flags := opcode.setWidth 8 })
  else none

def decodeMultiplyAddSubtract : Option (Option NativeInstruction) :=
  if w &&& 0x7fe00000 = 0x1b000000 then
    some (some
      { raw := w
        kind := .multiplyAddSubtract
        rd := rdField w
        rn := rnField w
        rm := rmField w
        rt := raField w
        bits := bitsField w
        flags := if bitAt w 15 then 1 else 0 })
  else none

/-- The cases of SMADDL, UMADDL and their subtractions. -/
def decodeMultiplyLong (value : U32) (kind : NativeOpKind) : Option (Option NativeInstruction) :=
  if w &&& 0x7fe00000 = value then
    some (some
      { raw := w
        kind := kind
        rd := rdField w
        rn := rnField w
        rm := rmField w
        rt := raField w
        flags := if bitAt w 15 then 1 else 0 })
  else none

def decodeSignedMultiplyLong : Option (Option NativeInstruction) :=
  decodeMultiplyLong w 0x1b200000 .signedMultiplyLongAddSubtract

def decodeUnsignedMultiplyLong : Option (Option NativeInstruction) :=
  decodeMultiplyLong w 0x1ba00000 .unsignedMultiplyLongAddSubtract

/-- The cases of SMULH and UMULH. -/
def decodeMultiplyHigh (value : U32) (kind : NativeOpKind) : Option (Option NativeInstruction) :=
  if w &&& 0xffe0fc00 = value then
    some (some { raw := w, kind := kind, rd := rdField w, rn := rnField w, rm := rmField w })
  else none

def decodeSignedMultiplyHigh : Option (Option NativeInstruction) :=
  decodeMultiplyHigh w 0x9b407c00 .signedMultiplyHigh

def decodeUnsignedMultiplyHigh : Option (Option NativeInstruction) :=
  decodeMultiplyHigh w 0x9bc07c00 .unsignedMultiplyHigh

def decodeAddSubExtendedRegister : Option (Option NativeInstruction) :=
  if w &&& 0x1f200000 = 0x0b200000 then
    let shift := ((w >>> 10) &&& 7).toNat
    if 4 < shift then some none
    else
      some (some
        { raw := w
          kind := .addSubExtendedRegister
          rd := rdField w
          rn := rnField w
          rm := rmField w
          bits := bitsField w
          condition := ((w >>> 13) &&& 7).setWidth 8
          shiftAmount := shift
          flags := addSubField w })
  else none

def decodeLoadLiteral : Option (Option NativeInstruction) :=
  if w &&& 0x3b000000 = 0x18000000 then
    let opcode := (w >>> 30) &&& 3
    let width := if opcode = 1 then 8 else 4
    some (some
      { raw := w
        kind := .loadLiteral
        rt := rdField w
        flags := opcode.setWidth 8
        immediate := decodeScaledSignedImmediate (((w >>> 5) &&& 0x7ffff).setWidth 64) 19 4
        width := width
        bits := width * 8 })
  else none

def decodeMoveWide : Option (Option NativeInstruction) :=
  if w &&& 0x1f800000 = 0x12800000 then
    let opcode := (w >>> 29) &&& 3
    let hw := ((w >>> 21) &&& 3).toNat
    if ¬bitAt w 31 ∧ 1 < hw ∨ opcode = 1 then some none
    else
      some (some
        { raw := w
          kind := .moveWide
          rd := rdField w
          bits := bitsField w
          flags := opcode.setWidth 8
          shiftAmount := hw * 16
          immediate := ((w >>> 5) &&& 0xffff).setWidth 64 <<< (hw * 16) })
  else none

def decodeAddSubImmediate : Option (Option NativeInstruction) :=
  if w &&& 0x1f000000 = 0x11000000 then
    let imm : U64 := ((w >>> 10) &&& 0xfff).setWidth 64
    let shift := if (w >>> 22) &&& 3 = 1 then 12 else 0
    some (some
      { raw := w
        kind := .addSubImmediate
        rd := rdField w
        rn := rnField w
        bits := bitsField w
        flags := addSubField w
        immediate := imm <<< shift })
  else none

/-- The logarithm of the size of an access. -/
def sizeField : Nat := ((w >>> 30) &&& 3).toNat

def decodeLoadStoreUnsignedImmediate : Option (Option NativeInstruction) :=
  let masked := w &&& 0xffc00000
  if masked ∈ [0x39000000, 0x39400000, 0x39800000, 0x39c00000, 0x79000000, 0x79400000,
      0x79800000, 0x79c00000, 0xb9000000, 0xb9400000, 0xb9800000, 0xf9000000, 0xf9400000,
      0xf9800000] then
    if masked = 0xf9800000 then some (some { raw := w, kind := .nop })
    else
      let width := 2 ^ sizeField w
      let extends32 := masked ∈ [(0x39c00000 : U32), 0x79c00000]
      let extends64 := masked ∈ [(0x39800000 : U32), 0x79800000, 0xb9800000]
      let isLoad := bitAt w 22 ∨ extends32 ∨ extends64
      some (some
        { raw := w
          kind := .loadStoreUnsignedImmediate
          rt := rdField w
          rn := rnField w
          width := width
          bits := width * 8
          flags := (if isLoad then 1 else 0) ||| (if extends32 ∨ extends64 then 2 else 0) |||
            (if extends32 then 4 else 0)
          immediate := ((w >>> 10) &&& 0xfff).setWidth 64 * BitVec.ofNat 64 width })
  else none

/-- The address offset and the offset written back, for the mode in bits 11:10. -/
def indexOffsets (mode : U32) (imm9 : U64) : U64 × U64 :=
  if mode = 1 then (0, imm9) else if mode = 3 then (imm9, imm9) else (imm9, 0)

def decodeSimdFpLoadStoreImmediate : Option (Option NativeInstruction) :=
  if w &&& 0x3b000000 = 0x38000000 then
    let opcode := (w >>> 22) &&& 3
    let mode := (w >>> 10) &&& 3
    let scale := (((w >>> 30) &&& (3 : U32)) ||| ((opcode &&& 2) <<< 1)).toNat
    if bitAt w 26 ∧ scale ≤ 4 ∧ mode ≠ 2 then
      let imm9 := signExtendU64 (((w >>> 12) &&& 0x1ff).setWidth 64) 9
      some (some
        { raw := w
          kind := .simdFpLoadStoreImmediate
          rt := rdField w
          rn := rnField w
          width := 2 ^ scale
          bits := 2 ^ scale * 8
          flags := (if opcode &&& 1 ≠ 0 then 1 else 0) ||| (if mode = 1 ∨ mode = 3 then 8 else 0)
          immediate := (indexOffsets mode imm9).1
          immediate2 := (indexOffsets mode imm9).2 })
    else none
  else none

def decodeLoadStoreSignedImmediate : Option (Option NativeInstruction) :=
  if ¬bitAt w 26 ∧ w &&& 0x3b000000 = 0x38000000 ∧ w &&& 0x3b200c00 ≠ 0x38200800 then
    let opcode := ((w >>> 22) &&& 3).toNat
    let size := sizeField w
    let mode := (w >>> 10) &&& 3
    let imm9 := signExtendU64 (((w >>> 12) &&& 0x1ff).setWidth 64) 9
    if opcode = 2 ∧ size = 3 ∧ mode = 0 then some (some { raw := w, kind := .nop })
    else if opcode = 2 ∧ 2 < size then some none
    else if opcode = 3 ∧ 1 < size then some none
    else
      some (some
        { raw := w
          kind := .loadStoreSignedImmediate
          rt := rdField w
          rn := rnField w
          width := 2 ^ size
          bits := 2 ^ size * 8
          flags := (if opcode ≠ 0 then 1 else 0) ||| (if 2 ≤ opcode then 2 else 0) |||
            (if opcode = 3 then 4 else 0) ||| (if mode = 1 ∨ mode = 3 then 8 else 0)
          immediate := (indexOffsets mode imm9).1
          immediate2 := (indexOffsets mode imm9).2 })
  else none

/-- The extensions of an offset register that a load or a store accepts. -/
def offsetOption (option : U32) : Prop :=
  option = 2 ∨ option = 3 ∨ option = 6 ∨ option = 7

instance (option : U32) : Decidable (offsetOption option) :=
  inferInstanceAs (Decidable (_ ∨ _))

def decodeSimdFpLoadStoreRegisterOffset : Option (Option NativeInstruction) :=
  if w &&& 0x3f200c00 = 0x3c200800 then
    let opcode := (w >>> 22) &&& 3
    let option := (w >>> 13) &&& 7
    let scale := (((w >>> 30) &&& (3 : U32)) ||| ((opcode &&& 2) <<< 1)).toNat
    if ¬offsetOption option ∨ 4 < scale then some none
    else
      some (some
        { raw := w
          kind := .simdFpLoadStoreRegisterOffset
          rt := rdField w
          rn := rnField w
          rm := rmField w
          width := 2 ^ scale
          bits := 2 ^ scale * 8
          condition := option.setWidth 8
          shiftAmount := if bitAt w 12 then scale else 0
          flags := (opcode &&& 1).setWidth 8 })
  else none

def decodeLoadStoreRegisterOffset : Option (Option NativeInstruction) :=
  if w &&& 0x3b200c00 = 0x38200800 then
    let opcode := ((w >>> 22) &&& 3).toNat
    let size := sizeField w
    let option := (w >>> 13) &&& 7
    if ¬offsetOption option then some none
    else if opcode = 2 ∧ size = 3 then some (some { raw := w, kind := .nop })
    else if opcode = 2 ∧ 2 < size then some none
    else if opcode = 3 ∧ 1 < size then some none
    else
      some (some
        { raw := w
          kind := .loadStoreRegisterOffset
          rt := rdField w
          rn := rnField w
          rm := rmField w
          width := 2 ^ size
          bits := 2 ^ size * 8
          condition := option.setWidth 8
          shiftAmount := if bitAt w 12 then size else 0
          flags := (if opcode ≠ 0 then 1 else 0) ||| (if 2 ≤ opcode then 2 else 0) |||
            (if opcode = 3 then 4 else 0) })
  else none

/-- The integer test leaves out bit 26, and follows the one of the vector registers. -/
def decodeRegisterOffset : Option (Option NativeInstruction) :=
  (decodeSimdFpLoadStoreRegisterOffset w).or (decodeLoadStoreRegisterOffset w)

def decodeLoadAcquireStoreRelease : Option (Option NativeInstruction) :=
  if w &&& 0x3fa0fc00 = 0x0880fc00 then
    if rmField w ≠ 31 then some none
    else
      some (some
        { raw := w
          kind := .loadAcquireStoreRelease
          rt := rdField w
          rn := rnField w
          width := 2 ^ sizeField w
          bits := 2 ^ sizeField w * 8
          flags := if bitAt w 22 then 1 else 0 })
  else none

def decodeLoadStoreExclusive : Option (Option NativeInstruction) :=
  if w &&& 0x3fa07c00 = 0x08007c00 then
    if bitAt w 22 ∧ rmField w ≠ 31 then some none
    else
      some (some
        { raw := w
          kind := .loadStoreExclusive
          rt := rdField w
          rn := rnField w
          rd := rmField w
          width := 2 ^ sizeField w
          bits := 2 ^ sizeField w * 8
          flags := (if bitAt w 22 then 1 else 0) ||| (if bitAt w 15 then 2 else 0) })
  else none

def decodeLoadStoreExclusivePair : Option (Option NativeInstruction) :=
  if w &&& 0x3fa00000 = 0x08200000 then
    let width := if sizeField w = 2 then 4 else 8
    if sizeField w < 2 ∨ (bitAt w 22 ∧ rmField w ≠ 31) then some none
    else
      some (some
        { raw := w
          kind := .loadStoreExclusivePair
          rt := rdField w
          rd := raField w
          rn := rnField w
          rm := rmField w
          width := width
          bits := width * 8
          flags := (if bitAt w 22 then 1 else 0) ||| (if bitAt w 15 then 2 else 0) })
  else none

def decodeLoadStorePair : Option (Option NativeInstruction) :=
  let masked := w &&& 0xffc00000
  if masked ∈ [0x28000000, 0x28400000, 0x28800000, 0x28c00000, 0x29000000, 0x29400000,
      0x29800000, 0x29c00000, 0x68c00000, 0x69400000, 0x69c00000, 0xa8000000, 0xa8400000,
      0xa8800000, 0xa8c00000, 0xa9000000, 0xa9400000, 0xa9800000, 0xa9c00000] then
    let width := if masked &&& 0x80000000 ≠ 0 then 8 else 4
    let signExtendWords := masked ∈ [(0x68c00000 : U32), 0x69400000, 0x69c00000]
    let writeback := masked ∈ [(0x28800000 : U32), 0x28c00000, 0x29800000, 0x29c00000,
      0x68c00000, 0x69c00000, 0xa8800000, 0xa8c00000, 0xa9800000, 0xa9c00000]
    let postIndex := masked ∈ [(0x28800000 : U32), 0x28c00000, 0x68c00000, 0xa8800000, 0xa8c00000]
    let imm7 := signExtendU64 (((w >>> 15) &&& 0x7f).setWidth 64) 7
    let offset := imm7 * BitVec.ofNat 64 width
    some (some
      { raw := w
        kind := .loadStorePair
        rt := rdField w
        rd := raField w
        rn := rnField w
        width := width
        bits := width * 8
        flags := (if masked &&& 0x00400000 ≠ 0 then 1 else 0) |||
          (if signExtendWords then 2 else 0) ||| (if writeback then 8 else 0)
        immediate := if postIndex then 0 else offset
        immediate2 := offset })
  else none

def decodeSimdPairwiseAdd : Option (Option NativeInstruction) :=
  if w &&& 0xfffffc00 = 0x5ef1b800 then
    some (some
      { raw := w, kind := .simdPairwiseAdd, rd := rdField w, rn := rnField w, bits := 64
        flags := 2 })
  else if w &&& 0xbf20fc00 = 0x0e20bc00 then
    let size := ((w >>> 22) &&& 3).toNat
    if size = 3 ∧ ¬bitAt w 30 then some none
    else
      some (some
        { raw := w
          kind := .simdPairwiseAdd
          rd := rdField w
          rn := rnField w
          rm := rmField w
          bits := 8 * 2 ^ size
          flags := ((w >>> 30) &&& 1).setWidth 8 })
  else none

def decodeBranch : Option (Option NativeInstruction) :=
  if w &&& 0xfc000000 = 0x14000000 ∨ w &&& 0xfc000000 = 0x94000000 then
    some (some
      { raw := w
        kind := .branch
        flags := if w &&& 0xfc000000 = 0x94000000 then 1 else 0
        immediate := decodeScaledSignedImmediate ((w &&& 0x03ffffff).setWidth 64) 26 4 })
  else none

end

/-- The masks of the scalar floating-point and vector cases, and the values tested for. -/
def vectorTests : List (U32 × List U32) :=
  [(0xffc00000, [0x3d000000, 0x3d400000, 0x7d000000, 0x7d400000, 0xbd000000, 0xbd400000,
       0xfd000000, 0xfd400000, 0x3d800000, 0x3dc00000]),
   (0xbfe0fc00, [0x0e003c00, 0x0e002c00]), (0xffe0fc00, [0x5e000400]), (0xbf20fc00, [0x0e000400]),
   (0xff80fc00, [0x5f005400]), (0xbf80fc00, [0x0f005400, 0x2f005400]), (0xbf80f400, [0x0f008400]),
   (0xdf80fc00, [0x5f000400, 0x5f001400, 0x5f002400, 0x5f003400]),
   (0x9f80fc00, [0x0f000400, 0x0f001400, 0x0f002400, 0x0f003400, 0x0f004400]),
   (0x9f3efc00, [0x0e30a800]), (0xbf3ffc00, [0x0e31b800]), (0x9f3ffc00, [0x0e303800]),
   (0x9f3fbc00, [0x0e202800]), (0xbf000000, [0x0d000000]), (0xbf200000, [0x0c000000]),
   (0xfffffc00, [0x1e270000, 0x1e260000, 0x9e670000, 0x9e660000, 0x9eaf0000, 0x9eae0000,
       0x1e204000, 0x1e604000, 0x1e624000, 0x1e22c000, 0x1e20c000, 0x1e60c000, 0x1e214000,
       0x1e614000, 0x1e21c000, 0x1e61c000, 0x1e244000, 0x1e644000, 0x1e24c000, 0x1e64c000,
       0x1e254000, 0x1e654000, 0x1e25c000, 0x1e65c000, 0x1e264000, 0x1e664000, 0x1e274000,
       0x1e674000, 0x1e27c000, 0x1e67c000, 0x5e21d800, 0x5e61d800, 0x7e21d800, 0x7e61d800]),
   (0xbffffc00, [0x0e616800, 0x0e617800, 0x0e21d800, 0x0e61d800, 0x2e21d800, 0x2e61d800]),
   (0xffe01fe0, [0x1e201000, 0x1e601000]), (0x7f3f0000, [0x1e020000, 0x1e030000]),
   (0x7fbffc00, [0x1e220000, 0x1e230000]), (0xff800000, [0x1f000000]), (0xbfa0fc00, [0x2ea0d400]),
   (0xffe0fc00, [0x7ea0d400, 0x7ee0d400]), (0x9f20f400, [0x0e206400]), (0xffbffc00, [0x7e30d800]),
   (0xbfa0fc00, [0x0e20c400, 0x0ea0c400, 0x0e20f400, 0x0ea0f400]),
   (0xbfbffc00, [0x0ea1d800, 0x2ea1d800]), (0xffbffc00, [0x5ea1d800, 0x7ea1d800]),
   (0xbfa0fc00, [0x0e20fc00, 0x0ea0fc00]), (0xffa0fc00, [0x5e20fc00, 0x5ea0fc00]),
   (0xbfa0fc00, [0x0e20cc00, 0x0ea0cc00]), (0xbfbffc00, [0x0ea0f800, 0x2ea0f800, 0x2ea1f800]),
   (0xbf00b400, [0x0f001000]), (0xbf80f400, [0x0f809000]), (0xff80f400, [0x5f809000]),
   (0xbfa0fc00, [0x0e20d400, 0x0ea0d400, 0x2e20dc00, 0x2e20fc00]),
   (0xffe0fc00, [0x1e202800, 0x1e602800, 0x1e203800, 0x1e603800, 0x1e200800, 0x1e600800,
       0x1e201800, 0x1e601800, 0x1e206800, 0x1e606800, 0x1e207800, 0x1e607800, 0x1e204800,
       0x1e604800, 0x1e205800, 0x1e605800, 0x1e208800, 0x1e608800]),
   (0xffe00c00, [0x1e200c00, 0x1e600c00]), (0xff200c00, [0x1e200400]),
   (0xffe0fc1f, [0x1e202008, 0x1e202018, 0x1e602008, 0x1e602018, 0x1e202000, 0x1e202010,
       0x1e602000, 0x1e602010]),
   (0x7f3f0000, [0x1e180000, 0x1e190000]),
   (0x7f3ffc00, [0x1e200000, 0x1e210000, 0x1e280000, 0x1e290000, 0x1e300000, 0x1e310000,
       0x1e240000, 0x1e250000, 0x1e380000, 0x1e390000]),
   (0xfffffc00, [0x5ea1b800, 0x5ee1b800, 0x7ea1b800, 0x7ee1b800, 0x1e390000, 0x1e790000,
       0x9e390000, 0x9e790000, 0x1e380000, 0x1e780000, 0x9e380000, 0x9e780000]),
   (0x9fbffc00, [0x0e21a800, 0x0ea1a800, 0x0e21b800, 0x0ea1b800, 0x0e21c800]),
   (0xffe0fc00, [0x4e001c00]), (0xff208400, [0x6e000400]), (0x9f80fc00, [0x0f00a400]),
   (0xbf20fc00, [0x2e203800]), (0xbfe08400, [0x2e000000]), (0xbfe08c00, [0x0e000000]),
   (0xbf200c00, [0x0e000800]), (0x9f20cc00, [0x0e200000]), (0x9f20f400, [0x0e207400]),
   (0xdf20fc00, [0x5e208400]), (0x9f20fc00, [0x0e208400]), (0xdf20fc00, [0x5e204400]),
   (0x9f20fc00, [0x0e204400]),
   (0xbfbffc00, [0x0e218800, 0x0ea18800, 0x0e219800, 0x0ea19800, 0x2e218800, 0x2e219800,
       0x2ea19800]),
   (0xbf3ffc00, [0x0e201800, 0x2e200800, 0x0e200800]), (0x9f20fc00, [0x0e208c00]),
   (0xbf20fc00, [0x0e209800, 0x0e208800, 0x2e208800, 0x0e20a800, 0x2e209800]),
   (0xfffffc00, [0x5ee09800, 0x5ee08800, 0x7ee08800, 0x5ee0a800, 0x7ee09800]),
   (0x9f20f400, [0x0e203400]),
   (0xbfa0fc00, [0x0e20e400, 0x2ea0e400, 0x2e20e400, 0x2ea0ec00, 0x2e20ec00]),
   (0xbfbffc00, [0x0ea0d800, 0x0ea0c800, 0x2ea0c800, 0x0ea0e800, 0x2ea0d800]),
   (0xbffffc00, [0x0e205800]), (0xbf3ffc00, [0x2e204800]), (0xbffffc00, [0x2e205800]),
   (0xdffffc00, [0x5ee0b800]), (0x9f3ffc00, [0x0e20b800]), (0x9f20dc00, [0x0e208000]),
   (0x9f00f400, [0x0f00a000, 0x0f002000, 0x0f006000]), (0x9f20fc00, [0x0e209400]),
   (0xbf00f400, [0x0f008000]), (0xbf00b400, [0x2f000000]), (0xbf20fc00, [0x0e209c00]),
   (0x9f20fc00, [0x0e20c000]),
   (0xbf80f400, [0x0f009400, 0x2f009400, 0x2f008400, 0x1f009400, 0x3f009400, 0x3f008400]),
   (0xbf3ffc00, [0x2e212800, 0x0e214800, 0x2e214800, 0x3e212800, 0x1e214800, 0x3e214800,
       0x0e212800]),
   (0x9f20dc00, [0x0e204000]), (0xdf20dc00, [0x5e200c00]), (0x9f20dc00, [0x0e200c00]),
   (0xbfe0fc00, [0x0ea01c00, 0x0e201c00, 0x0e601c00, 0x0ee01c00, 0x2e201c00]),
   (0xbf20fc00, [0x2e201c00, 0x2e20a400]), (0xbfe0fc00, [0x0e000c00]), (0x9ff80400, [0x0f000400]),
   (0xffc00000, [0x2c800000, 0x2cc00000, 0x2d000000, 0x2d400000, 0x2d800000, 0x2dc00000,
       0x6c800000, 0x6cc00000, 0x6d000000, 0x6d400000, 0x6d800000, 0x6dc00000, 0xac800000,
       0xacc00000, 0xad000000, 0xad400000, 0xad800000, 0xadc00000])]

/-- The kinds of the data-processing, branch and integer load and store classes. -/
def NativeOpKind.isInteger : NativeOpKind → Bool
  | .adr | .cbz | .tbz | .bcond | .addSubImmediate | .moveWide | .addSubShiftedRegister | .branch
  | .loadStoreUnsignedImmediate | .loadStoreSignedImmediate | .loadStoreRegisterOffset
  | .loadStorePair | .logicalShiftedRegister | .logicalImmediate | .registerBranch
  | .conditionalSelect | .bitfieldMove | .dataProcessingOneSource | .dataProcessingTwoSource
  | .loadLiteral | .conditionalCompareRegister | .conditionalCompareImmediate
  | .addSubExtendedRegister | .multiplyAddSubtract | .signedMultiplyLongAddSubtract
  | .unsignedMultiplyLongAddSubtract | .loadAcquireStoreRelease | .addSubCarry | .extractRegister
  | .signedMultiplyHigh | .unsignedMultiplyHigh | .loadStoreExclusive
  | .loadStoreExclusivePair => true
  | _ => false

/-- The scalar floating-point and vector cases of the decoder. They give none of the kinds of
the other cases. -/
structure VectorDecoder where
  decode : DecodeRule
  not_integer : ∀ {w i}, decode w = some (some i) → i.kind.isInteger = false

/-- The decoder whose vector cases take no word. -/
def VectorDecoder.silent : VectorDecoder := ⟨fun _ => none, nofun⟩

/-- A word goes to these cases when one of their tests takes it. -/
def VectorDecoder.rule (vector : VectorDecoder) : DecodeRule := fun w =>
  if vectorTests.any fun test => test.2.any fun value => w &&& test.1 == value then
    vector.decode w
  else none

def decodeRules (vector : VectorDecoder) : List DecodeRule :=
  [decodeWait, decodeNop, decodeBarrier, decodePstateImmediate, decodeHalt,
    decodeExceptionReturn, decodeSynchronousException, decodeSystemRegisterRead,
    decodeSystemRegisterWrite, decodeSystemInstruction, decodeAdr, decodeCbz, decodeTbz,
    decodeBcond, decodeConditionalCompareRegister, decodeConditionalCompareImmediate,
    decodeConditionalSelect, decodeAddSubShiftedRegister, decodeAddSubCarry,
    decodeLogicalShiftedRegister, decodeExtractRegister, decodeLogicalImmediateRule,
    decodeRegisterBranch, decodeBitfieldMove, decodeDataProcessingOneSource,
    decodeDataProcessingTwoSource, decodeMultiplyAddSubtract, decodeSignedMultiplyLong,
    decodeUnsignedMultiplyLong, decodeSignedMultiplyHigh, decodeUnsignedMultiplyHigh,
    decodeAddSubExtendedRegister, decodeLoadLiteral, decodeMoveWide, decodeAddSubImmediate,
    decodeLoadStoreUnsignedImmediate, decodeSimdFpLoadStoreImmediate,
    decodeLoadStoreSignedImmediate, decodeRegisterOffset, decodeLoadAcquireStoreRelease,
    decodeLoadStoreExclusive, decodeLoadStoreExclusivePair, vector.rule, decodeLoadStorePair,
    decodeSimdPairwiseAdd, decodeBranch]

/-- `avz_native_decode_instruction`, `none` when it returns 0. -/
def decodeInstruction (vector : VectorDecoder) (w : U32) : Option NativeInstruction :=
  ((decodeRules vector).findSome? fun rule => rule w).join

theorem exists_rule_of_decodeInstruction {vector : VectorDecoder} {w : U32}
    {i : NativeInstruction} (h : decodeInstruction vector w = some i) :
    ∃ rule ∈ decodeRules vector, rule w = some (some i) := by
  rw [decodeInstruction, Option.join_eq_some_iff] at h
  exact List.exists_of_findSome?_eq_some h

end Pinecone
