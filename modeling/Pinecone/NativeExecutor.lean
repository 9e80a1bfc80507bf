import Pinecone.NativeCallbacks
import Pinecone.InstructionDecoder
import Pinecone.VectorRegisters

/-! `execute_decoded_instruction`: the branches, the system cases, the loads and stores, and
the switch over all kinds. A failure is a return of 0. -/

namespace Pinecone

variable {σ : Type}

open NativeStep Fallible

/-- `decoded_system_register_key`. -/
def decodedSystemRegisterKey (raw : U32) : U32 :=
  (((raw >>> 19) &&& 0x3) <<< 14) ||| (((raw >>> 16) &&& 0x7) <<< 11) |||
    (((raw >>> 12) &&& 0xf) <<< 7) ||| (((raw >>> 8) &&& 0xf) <<< 3) ||| ((raw >>> 5) &&& 0x7)

/-- `(op0 << 14) | (op1 << 11) | (crn << 7) | (crm << 3) | op2`. -/
def systemRegisterKey (op0 op1 crn crm op2 : U32) : U32 :=
  (op0 <<< 14) ||| (op1 <<< 11) ||| (crn <<< 7) ||| (crm <<< 3) ||| op2

def currentElKey : U32 := systemRegisterKey 3 0 4 2 2

def nzcvKey : U32 := systemRegisterKey 3 3 4 2 0

def daifKey : U32 := systemRegisterKey 3 3 4 2 1

def fpcrKey : U32 := systemRegisterKey 3 3 4 4 0

def fpsrKey : U32 := systemRegisterKey 3 3 4 4 1

namespace NativeCpu

/-- The system registers that MRS reads from the CPU itself. -/
def readLocalSystemRegister (cpu : NativeCpu) (key : U32) : Option U64 :=
  if key = currentElKey then some (cpu.pstate &&& 0xc)
  else if key = nzcvKey then some (cpu.pstate &&& 0xf0000000)
  else if key = daifKey then some (cpu.pstate &&& 0x3c0)
  else if key = fpcrKey then some cpu.fpcr
  else if key = fpsrKey then some cpu.fpsr
  else none

def writeLocalSystemRegister (cpu : NativeCpu) (key : U32) (value : U64) : Option NativeCpu :=
  if key = currentElKey then some cpu
  else if key = nzcvKey then
    some { cpu with
      pstate := (cpu.pstate &&& ~~~0xf0000000#64) ||| (value &&& 0xf0000000#64) }
  else if key = daifKey then
    some { cpu with pstate := (cpu.pstate &&& ~~~0x3c0#64) ||| (value &&& 0x3c0#64) }
  else if key = fpcrKey then some { cpu with fpcr := value }
  else if key = fpsrKey then some { cpu with fpsr := value }
  else none

def exceptionRegisters (cpu : NativeCpu) : ExceptionRegisters :=
  ⟨cpu.pstate, cpu.sp, cpu.pc⟩

def setExceptionRegisters (cpu : NativeCpu) (registers : ExceptionRegisters) : NativeCpu :=
  { cpu with pstate := registers.pstate, sp := registers.sp, pc := registers.pc }

end NativeCpu

namespace NativeInstruction

section control

variable (instruction : NativeInstruction) (cpu : NativeCpu)

def executeCbz : NativeCpu :=
  let value := maskedOperand (cpu.readRegister instruction.rt) instruction.bits
  let branchNonZero := instruction.flag 0
  { cpu with
    pc := if (value != 0) = branchNonZero then addSignedOffset cpu.pc instruction.immediate
      else cpu.pc + 4 }

def executeTbz : Option NativeCpu := do
  let shifted ← shiftRight (cpu.readRegister instruction.rt) instruction.shiftAmount
  let bitSet := shifted &&& 1 != 0
  let branchNonZero := instruction.flag 0
  some { cpu with
    pc := if bitSet = branchNonZero then addSignedOffset cpu.pc instruction.immediate
      else cpu.pc + 4 }

def executeBcond : NativeCpu :=
  { cpu with
    pc := if conditionHolds instruction.condition cpu.pstate then
        addSignedOffset cpu.pc instruction.immediate
      else cpu.pc + 4 }

/-- `cpu->x[30] = pc + 4`, of a branch that links. -/
def link : NativeCpu :=
  if instruction.flag 0 then cpu.writeRegister 30 (cpu.pc + 4) else cpu

def executeBranch : NativeCpu :=
  { instruction.link cpu with pc := addSignedOffset cpu.pc instruction.immediate }

def executeRegisterBranch : NativeCpu :=
  { instruction.link cpu with pc := cpu.readRegister instruction.rn }

def executePstateImmediate : NativeCpu :=
  let pstate :=
    if instruction.flags = 6 then cpu.pstate ||| instruction.immediate
    else cpu.pstate &&& ~~~instruction.immediate
  { cpu with pstate := pstate }.advance

end control

variable (callbacks : NativeCallbacks σ) (instruction : NativeInstruction)

/-! ## System instructions -/

def readSystemRegister (cpu : NativeCpu) : NativeStep σ U64 :=
  NativeCallbacks.call callbacks.readSystemRegister fun read =>
    read instruction.raw cpu.pc cpu.pstate cpu.sp

def executeSystemRegisterRead : NativeStep σ Unit := do
  let cpu ← getCpu
  let localValue :=
    if callbacks.readSystemRegister.isLocal then
      cpu.readLocalSystemRegister (decodedSystemRegisterKey instruction.raw)
    else none
  let value ← (ofOption localValue).orElse (instruction.readSystemRegister callbacks cpu)
  modifyCpu fun cpu => (cpu.writeRegister instruction.rt value).advance

def writeSystemRegister (cpu : NativeCpu) : NativeStep σ NativeCpu := do
  let (pstate, sp) ← NativeCallbacks.call callbacks.writeSystemRegister fun write =>
    write instruction.raw cpu.pc (cpu.readRegister instruction.rt) cpu.pstate cpu.sp
  pure { cpu with pstate := pstate, sp := sp }

def executeSystemRegisterWrite : NativeStep σ Unit := do
  let cpu ← getCpu
  let localCpu :=
    if callbacks.writeSystemRegister.isLocal then
      cpu.writeLocalSystemRegister (decodedSystemRegisterKey instruction.raw)
        (cpu.readRegister instruction.rt)
    else none
  let written ← (ofOption localCpu).orElse (instruction.writeSystemRegister callbacks cpu)
  modifyCpu fun _ => written.advance

def executeSystemInstruction : NativeStep σ Unit := do
  let cpu ← getCpu
  NativeCallbacks.call callbacks.executeSystemInstruction fun execute =>
    execute instruction.raw (cpu.readRegister instruction.rt)
  modifyCpu NativeCpu.advance

def executeExceptionReturn : NativeStep σ Unit := do
  let cpu ← getCpu
  let registers ← NativeCallbacks.call callbacks.exceptionReturn fun exceptionReturn =>
    exceptionReturn cpu.exceptionRegisters
  modifyCpu fun cpu => cpu.setExceptionRegisters registers

def executeSynchronousException : NativeStep σ Unit := do
  let cpu ← getCpu
  let (x, registers) ← NativeCallbacks.call callbacks.synchronousException fun exception =>
    exception instruction.raw cpu.x cpu.exceptionRegisters
  modifyCpu fun cpu =>
    ({ cpu with x := x }.setExceptionRegisters registers).clearExclusiveReservation

/-- The callback's two nonzero results are one here. -/
def executeWait : NativeStep σ Unit := do
  let cpu ← getCpu
  let pc ← NativeCallbacks.call callbacks.wait fun wait => wait instruction.raw cpu.pc
  modifyCpu fun cpu => { cpu with pc := pc }

/-! ## Loads and stores of general registers -/

/-- The value that a load writes: `flags` bit 1 sign-extends it and bit 2 keeps its low word. -/
def loadedValue (value : U64) : U64 :=
  if instruction.flag 1 then
    let value := signExtendLoaded value instruction.bits
    if instruction.flag 2 then value &&& 0xffffffff else value
  else value

def transferRegister (address : U64) : NativeStep σ Unit :=
  if instruction.flag 0 then do
    let value ← callbacks.dispatchMemoryRead address instruction.width
    modifyCpu fun cpu => cpu.writeRegister instruction.rt (instruction.loadedValue value)
  else do
    let cpu ← getCpu
    let value := cpu.readRegister instruction.rt &&& maskForBits instruction.bits
    callbacks.dispatchMemoryWrite address instruction.width value
    modifyCpu NativeCpu.clearExclusiveReservation

/-- `flags` bit 3. -/
def writeback (base : U64) : NativeStep σ Unit :=
  modifyCpu fun cpu =>
    (if instruction.flag 3 then
      cpu.writeBaseRegister instruction.rn (addSignedOffset base instruction.immediate2)
    else cpu).advance

def registerOffset (cpu : NativeCpu) : Option U64 :=
  shiftLeft (extendedRegisterValue (cpu.readRegister instruction.rm) instruction.condition)
    instruction.shiftAmount

def executeLoadStoreUnsignedImmediate : NativeStep σ Unit := do
  let cpu ← getCpu
  instruction.transferRegister callbacks
    (cpu.readBaseRegister instruction.rn + instruction.immediate)
  modifyCpu NativeCpu.advance

def executeLoadStoreSignedImmediate : NativeStep σ Unit := do
  let cpu ← getCpu
  let base := cpu.readBaseRegister instruction.rn
  instruction.transferRegister callbacks (addSignedOffset base instruction.immediate)
  instruction.writeback base

def executeLoadStoreRegisterOffset : NativeStep σ Unit := do
  let cpu ← getCpu
  let offset ← ofOption (instruction.registerOffset cpu)
  instruction.transferRegister callbacks (cpu.readBaseRegister instruction.rn + offset)
  modifyCpu NativeCpu.advance

def executeLoadLiteral : NativeStep σ Unit :=
  if instruction.flags = 3 then modifyCpu NativeCpu.advance
  else do
    let cpu ← getCpu
    let value ← callbacks.dispatchMemoryRead (addSignedOffset cpu.pc instruction.immediate)
      instruction.width
    let value := if instruction.flags = 2 then signExtendLoaded value 32 else value
    modifyCpu fun cpu => (cpu.writeRegister instruction.rt value).advance

def executeLoadAcquireStoreRelease : NativeStep σ Unit := do
  let cpu ← getCpu
  let address := cpu.readBaseRegister instruction.rn
  if instruction.flag 0 then do
    let value ← callbacks.dispatchMemoryRead address instruction.width
    modifyCpu fun cpu => (cpu.writeRegister instruction.rt value).advance
  else do
    callbacks.dispatchMemoryWrite address instruction.width
      (cpu.readRegister instruction.rt &&& maskForBits instruction.bits)
    modifyCpu fun cpu => cpu.clearExclusiveReservation.advance

/-- Both halves of a pair, when the fast path does not do it at once. -/
def readPairSlowly (firstAddress secondAddress : U64) : NativeStep σ (U64 × U64) := do
  callbacks.canAccess firstAddress instruction.width false
  callbacks.canAccess secondAddress instruction.width false
  let first ← NativeCallbacks.call callbacks.readMemory fun read =>
    read firstAddress instruction.width
  let second ← NativeCallbacks.call callbacks.readMemory fun read =>
    read secondAddress instruction.width
  pure (first, second)

def writePairSlowly (firstAddress secondAddress first second : U64) : NativeStep σ Unit := do
  callbacks.canAccess firstAddress instruction.width true
  callbacks.canAccess secondAddress instruction.width true
  NativeCallbacks.call callbacks.writeMemory fun write =>
    write firstAddress instruction.width first
  NativeCallbacks.call callbacks.writeMemory fun write =>
    write secondAddress instruction.width second

def transferPair (firstAddress : U64) : NativeStep σ Unit :=
  let width := instruction.width
  let secondAddress := firstAddress + BitVec.ofNat 64 width
  if instruction.flag 0 then do
    let (first, second) ← (callbacks.ifFast (callbacks.fastMemory.readPair firstAddress width)).orElse
      (instruction.readPairSlowly callbacks firstAddress secondAddress)
    let extend := fun value => if instruction.flag 1 then signExtendLoaded value 32 else value
    modifyCpu fun cpu =>
      (cpu.writeRegister instruction.rt (extend first)).writeRegister instruction.rd (extend second)
  else do
    let cpu ← getCpu
    let first := cpu.readRegister instruction.rt &&& maskForBits instruction.bits
    let second := cpu.readRegister instruction.rd &&& maskForBits instruction.bits
    (callbacks.ifFast (callbacks.fastMemory.writePair firstAddress width first second)).orElse
      (instruction.writePairSlowly callbacks firstAddress secondAddress first second)
    modifyCpu NativeCpu.clearExclusiveReservation

def executeLoadStorePair : NativeStep σ Unit := do
  let cpu ← getCpu
  let base := cpu.readBaseRegister instruction.rn
  instruction.transferPair callbacks (addSignedOffset base instruction.immediate)
  instruction.writeback base

/-! ## Exclusives -/

/-- The value and, from the fast path, the generation. -/
def readExclusive (address : U64) : NativeStep σ (U64 × Option U64) :=
  if callbacks.usesFastMemoryContext then do
    let (value, generation) ← onContext
      (callbacks.fastMemory.exclusiveRead address instruction.width)
    pure (value, some generation)
  else do
    let value ← NativeCallbacks.call callbacks.readMemory fun read =>
      read address instruction.width
    pure (value, none)

def readExclusivePair (address : U64) : NativeStep σ (U64 × U64 × Option U64) :=
  if callbacks.usesFastMemoryContext then do
    let (first, second, generation) ← onContext
      (callbacks.fastMemory.exclusiveReadPair address instruction.width)
    pure (first, second, some generation)
  else do
    let first ← NativeCallbacks.call callbacks.readMemory fun read =>
      read address instruction.width
    let second ← NativeCallbacks.call callbacks.readMemory fun read =>
      read (address + BitVec.ofNat 64 instruction.width) instruction.width
    pure (first, second, none)

/-- The reservation that a load-exclusive takes. The generation stays what it was when the
callback gave none. -/
def reserve (cpu : NativeCpu) (address : U64) (size : BitVec 8) (generation : Option U64) :
    NativeCpu :=
  { cpu with
    exclusiveAddress := address
    exclusiveGeneration := generation.getD cpu.exclusiveGeneration
    exclusiveSize := size
    exclusiveValid := true }

def reservationMatches (cpu : NativeCpu) (address : U64) (size : BitVec 8) : Bool :=
  cpu.exclusiveValid && cpu.exclusiveAddress == address && cpu.exclusiveSize == size

/-- The store of a store-exclusive whose reservation matches, and whether it was done. -/
def writeExclusive (cpu : NativeCpu) (address value : U64) : NativeStep σ Bool :=
  if callbacks.usesFastMemoryContext then
    onContext (callbacks.fastMemory.exclusiveWrite address instruction.width value
      cpu.exclusiveGeneration)
  else do
    NativeCallbacks.call callbacks.writeMemory fun write =>
      write address instruction.width value
    pure true

def writeExclusivePair (cpu : NativeCpu) (address first second : U64) : NativeStep σ Bool :=
  if callbacks.usesFastMemoryContext then
    onContext (callbacks.fastMemory.exclusiveWritePair address instruction.width first second
      cpu.exclusiveGeneration)
  else do
    NativeCallbacks.call callbacks.writeMemory fun write =>
      write address instruction.width first
    NativeCallbacks.call callbacks.writeMemory fun write =>
      write (address + BitVec.ofNat 64 instruction.width) instruction.width second
    pure true

/-- Whether the store-exclusive stores. -/
def storeExclusive (cpu : NativeCpu) (address : U64) : NativeStep σ Bool :=
  if reservationMatches cpu address (BitVec.ofNat 8 instruction.width) then
    instruction.writeExclusive callbacks cpu address
      (cpu.readRegister instruction.rt &&& maskForBits instruction.bits)
  else pure false

def storeExclusivePair (cpu : NativeCpu) (address : U64) : NativeStep σ Bool :=
  if reservationMatches cpu address (BitVec.ofNat 8 (instruction.width * 2)) then
    instruction.writeExclusivePair callbacks cpu address
      (cpu.readRegister instruction.rt &&& maskForBits instruction.bits)
      (cpu.readRegister instruction.rd &&& maskForBits instruction.bits)
  else pure false

def finishStoreExclusive (status : Nat) (stored : Bool) : NativeStep σ Unit :=
  modifyCpu fun cpu =>
    (cpu.writeRegister status (if stored then 0 else 1)).clearExclusiveReservation.advance

def executeLoadStoreExclusive : NativeStep σ Unit := do
  let cpu ← getCpu
  let address := cpu.readBaseRegister instruction.rn
  let mask := maskForBits instruction.bits
  let size := BitVec.ofNat 8 instruction.width
  if instruction.flag 0 then do
    let (value, generation) ← instruction.readExclusive callbacks address
    modifyCpu fun cpu =>
      (reserve (cpu.writeRegister instruction.rt (value &&& mask)) address size generation).advance
  else do
    let stored ← instruction.storeExclusive callbacks cpu address
    finishStoreExclusive instruction.rd stored

def executeLoadStoreExclusivePair : NativeStep σ Unit := do
  let cpu ← getCpu
  let address := cpu.readBaseRegister instruction.rn
  let mask := maskForBits instruction.bits
  let size := BitVec.ofNat 8 (instruction.width * 2)
  if instruction.flag 0 then do
    let (first, second, generation) ← instruction.readExclusivePair callbacks address
    modifyCpu fun cpu =>
      (reserve ((cpu.writeRegister instruction.rt (first &&& mask)).writeRegister instruction.rd
        (second &&& mask)) address size generation).advance
  else do
    let stored ← instruction.storeExclusivePair callbacks cpu address
    finishStoreExclusive instruction.rm stored

/-! ## Loads and stores of vector registers -/

/-- `read_simd_fp_register_memory`. -/
def readSimdFpRegisterMemory (address : U64) (byteCount : Nat) :
    NativeStep σ NativeVectorRegister :=
  match byteCount with
  | 1 | 2 | 4 => do
    let low ← callbacks.dispatchMemoryRead address byteCount
    pure ⟨low &&& maskForBits (byteCount * 8), 0⟩
  | 8 => do
    let low ← callbacks.dispatchMemoryRead address 8
    pure ⟨low, 0⟩
  | 16 => do
    let low ← callbacks.dispatchMemoryRead address 8
    let high ← callbacks.dispatchMemoryRead (address + 8) 8
    pure ⟨low, high⟩
  | _ => fail

/-- `write_simd_fp_register_memory`. -/
def writeSimdFpRegisterMemory (address : U64) (byteCount : Nat) (value : NativeVectorRegister) :
    NativeStep σ Unit :=
  match byteCount with
  | 1 | 2 | 4 =>
    callbacks.dispatchMemoryWrite address byteCount (value.low &&& maskForBits (byteCount * 8))
  | 8 => callbacks.dispatchMemoryWrite address 8 value.low
  | 16 => do
    callbacks.dispatchMemoryWrite address 8 value.low
    callbacks.dispatchMemoryWrite (address + 8) 8 value.high
  | _ => fail

def transferSimdFpRegister (address : U64) : NativeStep σ Unit :=
  if instruction.flag 0 then do
    let value ← readSimdFpRegisterMemory callbacks address instruction.width
    modifyCpu fun cpu => cpu.setVector instruction.rt value
  else do
    let cpu ← getCpu
    writeSimdFpRegisterMemory callbacks address instruction.width (cpu.vector instruction.rt)
    modifyCpu NativeCpu.clearExclusiveReservation

def executeSimdFpLoadStoreImmediate : NativeStep σ Unit := do
  let cpu ← getCpu
  let base := cpu.readBaseRegister instruction.rn
  instruction.transferSimdFpRegister callbacks (addSignedOffset base instruction.immediate)
  instruction.writeback base

def executeSimdFpLoadStoreRegisterOffset : NativeStep σ Unit := do
  let cpu ← getCpu
  let offset ← ofOption (instruction.registerOffset cpu)
  instruction.transferSimdFpRegister callbacks (cpu.readBaseRegister instruction.rn + offset)
  modifyCpu NativeCpu.advance

def transferSimdFpPair (firstAddress : U64) : NativeStep σ Unit :=
  let width := instruction.width
  let secondAddress := firstAddress + BitVec.ofNat 64 width
  if instruction.flag 0 then do
    let first ← readSimdFpRegisterMemory callbacks firstAddress width
    let second ← readSimdFpRegisterMemory callbacks secondAddress width
    modifyCpu fun cpu => (cpu.setVector instruction.rt first).setVector instruction.rd second
  else do
    let cpu ← getCpu
    writeSimdFpRegisterMemory callbacks firstAddress width (cpu.vector instruction.rt)
    writeSimdFpRegisterMemory callbacks secondAddress width (cpu.vector instruction.rd)
    modifyCpu NativeCpu.clearExclusiveReservation

def executeSimdFpLoadStorePair : NativeStep σ Unit := do
  let cpu ← getCpu
  let base := cpu.readBaseRegister instruction.rn
  instruction.transferSimdFpPair callbacks (addSignedOffset base instruction.immediate)
  instruction.writeback base

/-- The post-index of a structure access: `flags` bit 3, and bit 4 for an offset register. -/
def structureWriteback (base : U64) (transferred : Nat) : NativeStep σ Unit :=
  modifyCpu fun cpu =>
    (if instruction.flag 3 then
      let increment :=
        if instruction.flag 4 then cpu.readRegister instruction.rm
        else BitVec.ofNat 64 transferred
      cpu.writeBaseRegister instruction.rn (base + increment)
    else cpu).advance

/-- The vectors that a structure access loads, from register `rt` on. -/
def publishVectors (vectors : List NativeVectorRegister) : NativeStep σ Unit :=
  modifyCpu fun cpu =>
    vectors.zipIdx.foldl (fun cpu entry => cpu.setVector (instruction.rt + entry.2) entry.1) cpu

def structureVectors (cpu : NativeCpu) (count : Nat) : List NativeVectorRegister :=
  (List.range count).map fun index => cpu.vector (instruction.rt + index)

/-- Element `index` of a single-structure load. -/
def loadStructureElement (base : U64) (index : Nat) : NativeStep σ NativeVectorRegister := do
  let cpu ← getCpu
  let value ← callbacks.dispatchMemoryRead (base + BitVec.ofNat 64 (index * instruction.width))
    instruction.width
  pure (if instruction.flag 5 then
    duplicateSimdElement value instruction.bits (instruction.flag 6)
  else
    (cpu.vector (instruction.rt + index)).setElement instruction.condition.toNat instruction.bits
      value)

/-- Element `index` of a single-structure store, with the reservation cleared behind it. -/
def storeStructureElement (base : U64) (index : Nat) : NativeStep σ Unit := do
  let cpu ← getCpu
  callbacks.dispatchMemoryWrite (base + BitVec.ofNat 64 (index * instruction.width))
    instruction.width
    ((cpu.vector (instruction.rt + index)).element instruction.condition.toNat instruction.bits)
  modifyCpu NativeCpu.clearExclusiveReservation

/-- `execute_simd_load_store_single_structure_lane`. -/
def executeSingleStructureLane : NativeStep σ Unit := do
  let cpu ← getCpu
  let base := cpu.readBaseRegister instruction.rn
  let count := instruction.rd
  guard (1 ≤ count && count ≤ 4)
  if instruction.flag 0 then do
    let vectors ← (List.range count).mapM' fun index =>
      instruction.loadStructureElement callbacks base index
    instruction.publishVectors vectors
    instruction.structureWriteback base (count * instruction.width)
  else do
    (List.range count).forM fun index => instruction.storeStructureElement callbacks base index
    instruction.structureWriteback base (count * instruction.width)

section multipleStructure

def registerCount : Nat := instruction.condition.toNat

def elementBytes : Nat := instruction.bits / 8

def laneCount : Nat := instruction.width * 8 / instruction.bits

def transferSize : Nat :=
  instruction.laneCount * instruction.registerCount * instruction.elementBytes

def loadInterleaved (base : U64) (read : U64 → Nat → Fallible σ (List (BitVec 8))) :
    NativeStep σ Unit := do
  let transfer ← onContext (read base instruction.transferSize)
  let vectors ← ofOption (unpackInterleavedVectors transfer instruction.registerCount
    instruction.laneCount instruction.elementBytes)
  instruction.publishVectors vectors

def storeInterleaved (base : U64) (write : U64 → List (BitVec 8) → Fallible σ Unit) :
    NativeStep σ Unit := do
  let cpu ← getCpu
  let transfer ← ofOption (packInterleavedVectors
    (instruction.structureVectors cpu instruction.registerCount) instruction.laneCount
    instruction.elementBytes)
  onContext (write base transfer)
  modifyCpu NativeCpu.clearExclusiveReservation

/-- `try_execute_simd_multiple_structure_bulk`, which goes by the callback pointers. -/
def tryMultipleStructureBulk (base : U64) : NativeStep σ Unit := do
  guard (instruction.flag 5)
  if instruction.flag 0 then do
    guard callbacks.readMemory.isFast
    instruction.loadInterleaved base callbacks.fastMemory.readBytes
  else do
    guard callbacks.writeMemory.isFast
    instruction.storeInterleaved base callbacks.fastMemory.writeBytes

/-- The same transfer, by the memory context. -/
def interleavedBulk (base : U64) : NativeStep σ Unit := do
  guard callbacks.usesFastMemoryContext
  if instruction.flag 0 then instruction.loadInterleaved base callbacks.fastMemory.readBytes
  else instruction.storeInterleaved base callbacks.fastMemory.writeBytes

/-- The address of the element of a lane and a structure. -/
def interleavedAddress (base : U64) (lane component : Nat) : U64 :=
  base + BitVec.ofNat 64 ((lane * instruction.registerCount + component) * instruction.elementBytes)

/-- The lanes and structures in the order of the loops. -/
def interleavedOrder : List (Nat × Nat) :=
  (List.range instruction.laneCount).flatMap fun lane =>
    (List.range instruction.registerCount).map fun component => (lane, component)

def loadInterleavedElement (base : U64) (vectors : List NativeVectorRegister)
    (position : Nat × Nat) : NativeStep σ (List NativeVectorRegister) := do
  let value ← callbacks.dispatchMemoryRead
    (instruction.interleavedAddress base position.1 position.2) instruction.elementBytes
  pure (vectors.modify position.2 fun vector =>
    vector.setElement position.1 instruction.bits value)

def loadInterleavedElements (base : U64) : NativeStep σ Unit := do
  let vectors ← instruction.interleavedOrder.foldlM
    (instruction.loadInterleavedElement callbacks base)
    (List.replicate instruction.registerCount NativeVectorRegister.zero)
  instruction.publishVectors vectors

def storeInterleavedElements (base : U64) : NativeStep σ Unit := do
  let cpu ← getCpu
  instruction.interleavedOrder.forM fun position =>
    callbacks.dispatchMemoryWrite (instruction.interleavedAddress base position.1 position.2)
      instruction.elementBytes
      ((cpu.vector (instruction.rt + position.2)).element position.1 instruction.bits)
  modifyCpu NativeCpu.clearExclusiveReservation

def interleavedElements (base : U64) : NativeStep σ Unit :=
  if instruction.flag 0 then instruction.loadInterleavedElements callbacks base
  else instruction.storeInterleavedElements callbacks base

/-- Register `index` of a load that does not interleave, written as soon as it is read. -/
def loadStructureRegister (base : U64) (index : Nat) : NativeStep σ Unit := do
  let value ← readSimdFpRegisterMemory callbacks
    (base + BitVec.ofNat 64 (index * instruction.width)) instruction.width
  modifyCpu fun cpu => cpu.setVector (instruction.rt + index) value

def storeStructureRegister (base : U64) (index : Nat) : NativeStep σ Unit := do
  let cpu ← getCpu
  writeSimdFpRegisterMemory callbacks (base + BitVec.ofNat 64 (index * instruction.width))
    instruction.width (cpu.vector (instruction.rt + index))

def consecutiveRegisters (base : U64) : NativeStep σ Unit :=
  if instruction.flag 0 then
    (List.range instruction.registerCount).forM (instruction.loadStructureRegister callbacks base)
  else do
    (List.range instruction.registerCount).forM (instruction.storeStructureRegister callbacks base)
    modifyCpu NativeCpu.clearExclusiveReservation

def transferStructures (base : U64) : NativeStep σ Unit :=
  if instruction.flag 5 then
    (instruction.tryMultipleStructureBulk callbacks base).orElse
      ((instruction.interleavedBulk callbacks base).orElse
        (instruction.interleavedElements callbacks base))
  else instruction.consecutiveRegisters callbacks base

def executeMultipleStructure : NativeStep σ Unit := do
  let cpu ← getCpu
  let base := cpu.readBaseRegister instruction.rn
  guard (1 ≤ instruction.registerCount && instruction.registerCount ≤ 4 &&
    (instruction.width == 8 || instruction.width == 16))
  instruction.transferStructures callbacks base
  instruction.structureWriteback base (instruction.width * instruction.registerCount)

end multipleStructure

/-! ## The switch -/

/-- A case that changes only the CPU, and only when it succeeds. -/
def pureStep (execute : NativeCpu → Option NativeCpu) : NativeStep σ Unit := do
  let cpu ← getCpu
  let cpu' ← ofOption (execute cpu)
  modifyCpu fun _ => cpu'

def executeDecodedInstruction (values : VectorValues) : NativeStep σ Unit :=
  match instruction.kind with
  | .nop => modifyCpu NativeCpu.advance
  | .halt => modifyCpu fun cpu => { cpu.advance with halted := true }
  | .systemRegisterRead => instruction.executeSystemRegisterRead callbacks
  | .systemRegisterWrite => instruction.executeSystemRegisterWrite callbacks
  | .barrier => modifyCpu NativeCpu.advance
  | .systemInstruction => instruction.executeSystemInstruction callbacks
  | .exceptionReturn => executeExceptionReturn callbacks
  | .pstateImmediate => modifyCpu instruction.executePstateImmediate
  | .synchronousException => instruction.executeSynchronousException callbacks
  | .wait => instruction.executeWait callbacks
  | .cbz => modifyCpu instruction.executeCbz
  | .tbz => pureStep instruction.executeTbz
  | .bcond => modifyCpu instruction.executeBcond
  | .branch => modifyCpu instruction.executeBranch
  | .registerBranch => modifyCpu instruction.executeRegisterBranch
  | .loadLiteral => instruction.executeLoadLiteral callbacks
  | .loadStoreUnsignedImmediate => instruction.executeLoadStoreUnsignedImmediate callbacks
  | .loadStoreSignedImmediate => instruction.executeLoadStoreSignedImmediate callbacks
  | .loadStoreRegisterOffset => instruction.executeLoadStoreRegisterOffset callbacks
  | .loadStorePair => instruction.executeLoadStorePair callbacks
  | .loadAcquireStoreRelease => instruction.executeLoadAcquireStoreRelease callbacks
  | .loadStoreExclusive => instruction.executeLoadStoreExclusive callbacks
  | .loadStoreExclusivePair => instruction.executeLoadStoreExclusivePair callbacks
  | .simdFpLoadStoreImmediate => instruction.executeSimdFpLoadStoreImmediate callbacks
  | .simdFpLoadStoreRegisterOffset => instruction.executeSimdFpLoadStoreRegisterOffset callbacks
  | .simdFpLoadStorePair => instruction.executeSimdFpLoadStorePair callbacks
  | .simdLoadStoreSingleStructureLane => instruction.executeSingleStructureLane callbacks
  | .simdLoadStoreMultipleStructure => instruction.executeMultipleStructure callbacks
  | _ =>
    if instruction.kind.isInteger then pureStep instruction.executeDataProcessing
    else pureStep (instruction.executeVectorArithmetic values)

end NativeInstruction

end Pinecone
