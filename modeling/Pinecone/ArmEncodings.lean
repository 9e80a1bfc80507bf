import Pinecone.ArmDataProcessing

/-! The branches and the integer loads and stores of A64, and the encodings of these and of
the data-processing instructions. -/

namespace Pinecone

inductive BranchRegisterOp
  | br
  | blr
  | ret
  deriving DecidableEq, Repr

def BranchRegisterOp.toBits : BranchRegisterOp → BitVec 4
  | .br => 0
  | .blr => 1
  | .ret => 2

inductive Branch
  | compare (sf nonZero : Bool) (imm19 : BitVec 19) (rt : BitVec 5)
  | test (bit : BitVec 6) (nonZero : Bool) (imm14 : BitVec 14) (rt : BitVec 5)
  | conditional (imm19 : BitVec 19) (condition : BitVec 4)
  | register (op : BranchRegisterOp) (rn : BitVec 5)
  | immediate (link : Bool) (imm26 : BitVec 26)

/-- How a load or a store of a register with a 9-bit offset uses its base. -/
inductive IndexMode
  | unscaled
  | postIndex
  | unprivileged
  | preIndex
  deriving DecidableEq, Repr

def IndexMode.toBits : IndexMode → BitVec 2
  | .unscaled => 0
  | .postIndex => 1
  | .unprivileged => 2
  | .preIndex => 3

/-- How a load or a store of a pair uses its base. -/
inductive PairMode
  | noAllocate
  | postIndex
  | offset
  | preIndex
  deriving DecidableEq, Repr

def PairMode.toBits : PairMode → BitVec 2
  | .noAllocate => 0
  | .postIndex => 1
  | .offset => 2
  | .preIndex => 3

/-- A load or a store of general registers. `size` and `opc` are those of the encoding. -/
inductive LoadStore
  | literal (opc : BitVec 2) (imm19 : BitVec 19) (rt : BitVec 5)
  | unsignedImmediate (size opc : BitVec 2) (imm12 : BitVec 12) (rn rt : BitVec 5)
  | signedImmediate (size opc : BitVec 2) (imm9 : BitVec 9) (mode : IndexMode) (rn rt : BitVec 5)
  | registerOffset (size opc : BitVec 2) (rm : BitVec 5) (option : BitVec 3) (scaled : Bool)
      (rn rt : BitVec 5)
  | acquireRelease (size : BitVec 2) (load : Bool) (rn rt : BitVec 5)
  | exclusive (size : BitVec 2) (load : Bool) (rs : BitVec 5) (ordered : Bool) (rn rt : BitVec 5)
  | exclusivePair (sz load : Bool) (rs : BitVec 5) (ordered : Bool) (rt2 rn rt : BitVec 5)
  | pair (opc : BitVec 2) (mode : PairMode) (load : Bool) (imm7 : BitVec 7) (rt2 rn rt : BitVec 5)

/-- An instruction of the data-processing, branch and integer load and store classes. -/
inductive ArmInstruction
  | dataProcessing (a : DataProcessing)
  | branch (a : Branch)
  | loadStore (a : LoadStore)

namespace DataProcessing

def encode : DataProcessing → BitVec 32
  | .adr page immediate rd =>
    BitVec.ofBool page ++ immediate.extractLsb' 0 2 ++ 0b10000#5 ++ immediate.extractLsb' 2 19 ++ rd
  | .addSubImmediate sf subtract setFlags shift12 imm12 rn rd =>
    BitVec.ofBool sf ++ BitVec.ofBool subtract ++ BitVec.ofBool setFlags ++ 0b100010#6 ++
      BitVec.ofBool shift12 ++ imm12 ++ rn ++ rd
  | .addSubShifted sf subtract setFlags shiftType rm imm6 rn rd =>
    BitVec.ofBool sf ++ BitVec.ofBool subtract ++ BitVec.ofBool setFlags ++ 0b01011#5 ++
      shiftType.toBits ++ 0b0#1 ++ rm ++ imm6 ++ rn ++ rd
  | .addSubExtended sf subtract setFlags rm extendType imm3 rn rd =>
    BitVec.ofBool sf ++ BitVec.ofBool subtract ++ BitVec.ofBool setFlags ++ 0b01011001#8 ++
      rm ++ extendType.toBits ++ imm3 ++ rn ++ rd
  | .addSubCarry sf subtract setFlags rm rn rd =>
    BitVec.ofBool sf ++ BitVec.ofBool subtract ++ BitVec.ofBool setFlags ++ 0b11010000#8 ++
      rm ++ 0b000000#6 ++ rn ++ rd
  | .conditionalCompareRegister sf subtract rm condition rn nzcv =>
    BitVec.ofBool sf ++ BitVec.ofBool subtract ++ 0b111010010#9 ++ rm ++ condition ++ 0b00#2 ++
      rn ++ 0b0#1 ++ nzcv
  | .conditionalCompareImmediate sf subtract imm5 condition rn nzcv =>
    BitVec.ofBool sf ++ BitVec.ofBool subtract ++ 0b111010010#9 ++ imm5 ++ condition ++ 0b10#2 ++
      rn ++ 0b0#1 ++ nzcv
  | .conditionalSelect sf invert increment rm condition rn rd =>
    BitVec.ofBool sf ++ BitVec.ofBool invert ++ 0b011010100#9 ++ rm ++ condition ++ 0b0#1 ++
      BitVec.ofBool increment ++ rn ++ rd
  | .logicalImmediate sf op n immr imms rn rd =>
    BitVec.ofBool sf ++ op.toBits ++ 0b100100#6 ++ BitVec.ofBool n ++ immr ++ imms ++ rn ++ rd
  | .logicalShifted sf op shiftType invert rm imm6 rn rd =>
    BitVec.ofBool sf ++ op.toBits ++ 0b01010#5 ++ shiftType.toBits ++ BitVec.ofBool invert ++
      rm ++ imm6 ++ rn ++ rd
  | .moveWide sf op hw imm16 rd =>
    BitVec.ofBool sf ++ op.toBits ++ 0b100101#6 ++ hw ++ imm16 ++ rd
  | .bitfield sf op n immr imms rn rd =>
    BitVec.ofBool sf ++ op.toBits ++ 0b100110#6 ++ BitVec.ofBool n ++ immr ++ imms ++ rn ++ rd
  | .extract sf n rm imms rn rd =>
    BitVec.ofBool sf ++ 0b00100111#8 ++ BitVec.ofBool n ++ 0b0#1 ++ rm ++ imms ++ rn ++ rd
  | .oneSource sf op rn rd =>
    BitVec.ofBool sf ++ 0b101101011000000#15 ++ op.toBits ++ rn ++ rd
  | .twoSource sf rm op rn rd =>
    BitVec.ofBool sf ++ 0b0011010110#10 ++ rm ++ op.toBits ++ rn ++ rd
  | .multiplyAdd sf rm subtract ra rn rd =>
    BitVec.ofBool sf ++ 0b0011011000#10 ++ rm ++ BitVec.ofBool subtract ++ ra ++ rn ++ rd
  | .multiplyAddLong isUnsigned rm subtract ra rn rd =>
    0b10011011#8 ++ BitVec.ofBool isUnsigned ++ 0b01#2 ++ rm ++ BitVec.ofBool subtract ++ ra ++
      rn ++ rd
  | .multiplyHigh isUnsigned rm rn rd =>
    0b10011011#8 ++ BitVec.ofBool isUnsigned ++ 0b10#2 ++ rm ++ 0b011111#6 ++ rn ++ rd

end DataProcessing

namespace Branch

def encode : Branch → BitVec 32
  | .compare sf nonZero imm19 rt =>
    BitVec.ofBool sf ++ 0b011010#6 ++ BitVec.ofBool nonZero ++ imm19 ++ rt
  | .test bit nonZero imm14 rt =>
    bit.extractLsb' 5 1 ++ 0b011011#6 ++ BitVec.ofBool nonZero ++ bit.extractLsb' 0 5 ++
      imm14 ++ rt
  | .conditional imm19 condition => 0b01010100#8 ++ imm19 ++ 0b0#1 ++ condition
  | .register op rn => 0b1101011#7 ++ op.toBits ++ 0b11111000000#11 ++ rn ++ 0b00000#5
  | .immediate link imm26 => BitVec.ofBool link ++ 0b00101#5 ++ imm26

/-- The record of the instruction, whose word is `raw`. -/
def decoded (raw : U32) : Branch → NativeInstruction
  | .compare sf nonZero imm19 rt =>
    { raw := raw
      kind := .cbz
      rt := rt.toNat
      bits := datasize sf
      flags := if nonZero then 1 else 0
      immediate := (imm19 ++ 0b00#2).signExtend 64 }
  | .test bit nonZero imm14 rt =>
    { raw := raw
      kind := .tbz
      rt := rt.toNat
      shiftAmount := bit.toNat
      flags := if nonZero then 1 else 0
      immediate := (imm14 ++ 0b00#2).signExtend 64 }
  | .conditional imm19 condition =>
    { raw := raw
      kind := .bcond
      condition := condition.setWidth 8
      immediate := (imm19 ++ 0b00#2).signExtend 64 }
  | .register op rn =>
    { raw := raw
      kind := .registerBranch
      rn := rn.toNat
      flags := if op = .blr then 1 else 0 }
  | .immediate link imm26 =>
    { raw := raw
      kind := .branch
      flags := if link then 1 else 0
      immediate := (imm26 ++ 0b00#2).signExtend 64 }

end Branch

namespace LoadStore

/-- The encodings that are allocated to a load or a store, prefetches apart. -/
def Allocated : LoadStore → Prop
  | .literal _ _ _ => True
  | .unsignedImmediate size opc _ _ _ => (opc = 2 → size ≠ 3) ∧ (opc = 3 → size.toNat < 2)
  | .signedImmediate size opc _ _ _ _ => (opc = 2 → size ≠ 3) ∧ (opc = 3 → size.toNat < 2)
  | .registerOffset size opc _ option _ _ _ =>
    (opc = 2 → size ≠ 3) ∧ (opc = 3 → size.toNat < 2) ∧ option.getLsbD 1 = true
  | .acquireRelease _ _ _ _ => True
  | .exclusive _ load rs _ _ _ => load = true → rs = 31
  | .exclusivePair _ load rs _ _ _ _ => load = true → rs = 31
  | .pair opc mode load _ _ _ _ => opc ≠ 3 ∧ (opc = 1 → load = true ∧ mode ≠ .noAllocate)

def encode : LoadStore → BitVec 32
  | .literal opc imm19 rt => opc ++ 0b011000#6 ++ imm19 ++ rt
  | .unsignedImmediate size opc imm12 rn rt => size ++ 0b111001#6 ++ opc ++ imm12 ++ rn ++ rt
  | .signedImmediate size opc imm9 mode rn rt =>
    size ++ 0b111000#6 ++ opc ++ 0b0#1 ++ imm9 ++ mode.toBits ++ rn ++ rt
  | .registerOffset size opc rm option scaled rn rt =>
    size ++ 0b111000#6 ++ opc ++ 0b1#1 ++ rm ++ option ++ BitVec.ofBool scaled ++ 0b10#2 ++
      rn ++ rt
  | .acquireRelease size load rn rt =>
    size ++ 0b0010001#7 ++ BitVec.ofBool load ++ 0b011111111111#12 ++ rn ++ rt
  | .exclusive size load rs ordered rn rt =>
    size ++ 0b0010000#7 ++ BitVec.ofBool load ++ 0b0#1 ++ rs ++ BitVec.ofBool ordered ++
      0b11111#5 ++ rn ++ rt
  | .exclusivePair sz load rs ordered rt2 rn rt =>
    0b1#1 ++ BitVec.ofBool sz ++ 0b0010000#7 ++ BitVec.ofBool load ++ 0b1#1 ++ rs ++
      BitVec.ofBool ordered ++ rt2 ++ rn ++ rt
  | .pair opc mode load imm7 rt2 rn rt =>
    opc ++ 0b10100#5 ++ mode.toBits ++ BitVec.ofBool load ++ imm7 ++ rt2 ++ rn ++ rt

/-- The flags of a load or store of `opc`: whether it loads, extends the sign and clears the
upper half of the register. -/
def opcFlags (opc : BitVec 2) : BitVec 8 :=
  (if opc ≠ 0 then 1 else 0) ||| (if 2 ≤ opc.toNat then 2 else 0) ||| (if opc = 3 then 4 else 0)

def loadFlag (load : Bool) : BitVec 8 :=
  if load then 1 else 0

def decoded (raw : U32) : LoadStore → NativeInstruction
  | .literal opc imm19 rt =>
    { raw := raw
      kind := .loadLiteral
      rt := rt.toNat
      width := if opc = 1 then 8 else 4
      bits := if opc = 1 then 64 else 32
      flags := opc.setWidth 8
      immediate := (imm19 ++ 0b00#2).signExtend 64 }
  | .unsignedImmediate size opc imm12 rn rt =>
    { raw := raw
      kind := .loadStoreUnsignedImmediate
      rt := rt.toNat
      rn := rn.toNat
      width := 2 ^ size.toNat
      bits := 8 * 2 ^ size.toNat
      flags := opcFlags opc
      immediate := imm12.setWidth 64 <<< size.toNat }
  | .signedImmediate size opc imm9 mode rn rt =>
    { raw := raw
      kind := .loadStoreSignedImmediate
      rt := rt.toNat
      rn := rn.toNat
      width := 2 ^ size.toNat
      bits := 8 * 2 ^ size.toNat
      flags := opcFlags opc ||| (if mode = .postIndex ∨ mode = .preIndex then 8 else 0)
      immediate := if mode = .postIndex then 0 else imm9.signExtend 64
      immediate2 := if mode = .postIndex ∨ mode = .preIndex then imm9.signExtend 64 else 0 }
  | .registerOffset size opc rm option scaled rn rt =>
    { raw := raw
      kind := .loadStoreRegisterOffset
      rt := rt.toNat
      rn := rn.toNat
      rm := rm.toNat
      width := 2 ^ size.toNat
      bits := 8 * 2 ^ size.toNat
      condition := option.setWidth 8
      shiftAmount := if scaled then size.toNat else 0
      flags := opcFlags opc }
  | .acquireRelease size load rn rt =>
    { raw := raw
      kind := .loadAcquireStoreRelease
      rt := rt.toNat
      rn := rn.toNat
      width := 2 ^ size.toNat
      bits := 8 * 2 ^ size.toNat
      flags := loadFlag load }
  | .exclusive size load rs ordered rn rt =>
    { raw := raw
      kind := .loadStoreExclusive
      rd := rs.toNat
      rt := rt.toNat
      rn := rn.toNat
      width := 2 ^ size.toNat
      bits := 8 * 2 ^ size.toNat
      flags := loadFlag load ||| (if ordered then 2 else 0) }
  | .exclusivePair sz load rs ordered rt2 rn rt =>
    { raw := raw
      kind := .loadStoreExclusivePair
      rd := rt2.toNat
      rn := rn.toNat
      rm := rs.toNat
      rt := rt.toNat
      width := if sz then 8 else 4
      bits := if sz then 64 else 32
      flags := loadFlag load ||| (if ordered then 2 else 0) }
  | .pair opc mode load imm7 rt2 rn rt =>
    let offset : U64 := imm7.signExtend 64 <<< (if opc = 2 then 3 else 2)
    { raw := raw
      kind := .loadStorePair
      rd := rt2.toNat
      rn := rn.toNat
      rt := rt.toNat
      width := if opc = 2 then 8 else 4
      bits := if opc = 2 then 64 else 32
      flags := loadFlag load ||| (if opc = 1 then 2 else 0) |||
        (if mode = .postIndex ∨ mode = .preIndex then 8 else 0)
      immediate := if mode = .postIndex then 0 else offset
      immediate2 := offset }

end LoadStore

namespace ArmInstruction

def Allocated : ArmInstruction → Prop
  | .dataProcessing a => a.Allocated
  | .branch _ => True
  | .loadStore a => a.Allocated

def encode : ArmInstruction → BitVec 32
  | .dataProcessing a => a.encode
  | .branch a => a.encode
  | .loadStore a => a.encode

def decoded (raw : U32) : ArmInstruction → NativeInstruction
  | .dataProcessing a => a.decoded raw
  | .branch a => a.decoded raw
  | .loadStore a => a.decoded raw

end ArmInstruction

end Pinecone
