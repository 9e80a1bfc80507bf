import Pinecone.NativeExecutor

/-! ARM64VizThreadedPrototype.c: the words of a block prepared into operations, each with its
handler and the operations that follow it, and the run that goes from handler to handler. -/

namespace Pinecone

variable {σ : Type}

/-- An offset into `AVZNativeCPU` that `tp_register` gives: `UINT16_MAX`, that of `sp`, or that
of a general register. -/
inductive RegisterOffset
  | none
  | sp
  | x (index : Nat)
  deriving DecidableEq, Repr

/-- `tp_register`. -/
def RegisterOffset.ofRegister (register : Nat) (sp : Bool) : RegisterOffset :=
  if register = 31 then if sp then .sp else .none else .x register

namespace NativeCpu

/-- `tp_read`. -/
def readOffset (cpu : NativeCpu) : RegisterOffset → U64
  | .none => 0
  | .sp => cpu.sp
  | .x index => cpu.readRegister index

/-- `tp_write`. -/
def writeOffset (cpu : NativeCpu) (offset : RegisterOffset) (value : U64) : NativeCpu :=
  match offset with
  | .none => cpu
  | .sp => { cpu with sp := value }
  | .x index => cpu.writeRegister index value

end NativeCpu

/-- The right operand of a `TP_REGISTER_SET`. -/
inductive ThreadedOperand
  | shifted
  | extended
  | carry
  deriving DecidableEq, Repr

/-- The operator of a `TP_LOGICAL`. -/
inductive ThreadedLogic
  | and
  | orr
  | eor
  deriving DecidableEq, Repr

/-- The handlers that the macros of the source define, with the arguments of the macros. -/
inductive ThreadedHandler
  | outside
  | unsupported
  | nop
  | alu (bits : Nat) (subtract flags : Bool)
  | register (operand : ThreadedOperand) (bits : Nat) (subtract flags : Bool)
  | logical (bits : Nat) (operation : ThreadedLogic) (flags : Bool)
  | load
  | store
  | move
  | movk
  | branch
  | link
  | bcond
  | test (nonzero : Bool)
  deriving DecidableEq, Repr

/-- `TPOperation`, with indices into the operations of the program for its pointers. -/
structure ThreadedOperation where
  handler : ThreadedHandler
  next : Nat := 0
  taken : Nat := 0
  nextPc : U64 := 0
  targetPc : U64 := 0
  immediate : U64 := 0
  mask : U64 := 0
  raw : U32 := 0
  source : RegisterOffset := .x 0
  destination : RegisterOffset := .x 0
  conditions : BitVec 16 := 0
  source2 : RegisterOffset := .x 0
  rotate : Nat := 0
  width : Nat := 0
  signFill : U64 := 0
  deriving DecidableEq, Repr

/-- `AVZThreadedPrototype`. -/
structure ThreadedPrototype where
  basePc : U64
  count : Nat
  usesMemory : Bool
  operations : List ThreadedOperation

/-- The number of the instruction at an address of the block, or `count`. -/
def threadedIndex (basePc : U64) (count : Nat) (pc : U64) : Nat :=
  let delta := pc - basePc
  if pc < basePc ∨ delta &&& 3 ≠ 0 ∨ count ≤ delta.toNat / 4 then count else delta.toNat / 4

namespace ThreadedPrototype

/-- `tp_lookup`. -/
def lookup (program : ThreadedPrototype) (pc : U64) : Nat :=
  threadedIndex program.basePc program.count pc

/-- The operation at a pointer. The last one is `tp_outside`. -/
def operation (program : ThreadedPrototype) (index : Nat) : ThreadedOperation :=
  program.operations.getD index { handler := .outside }

end ThreadedPrototype

/-! ## Preparation -/

/-- `tp_conditions`: the bit of each value of NZCV. -/
def threadedConditions (condition : BitVec 8) : BitVec 16 :=
  (List.range 16).foldl (fun table flags =>
    let n := flags.testBit 3
    let z := flags.testBit 2
    let c := flags.testBit 1
    let v := flags.testBit 0
    let result := [z, c, n, v, c && !z, n == v, !z && n == v, true].getD (condition >>> 1).toNat
      false
    let holds := if condition &&& 1 ≠ 0 ∧ condition ≠ 15 then !result else result
    table ||| (if holds then 1#16 <<< flags else 0)) 0

namespace NativeInstruction

variable (instruction : NativeInstruction)

/-- `avz_tp_supports_instruction`. -/
def threadedSupports : Bool :=
  match instruction.kind with
  | .nop => instruction.raw == 0xd503201f
  | .addSubImmediate => instruction.raw &&& 0x00800000 == 0
  | .addSubShiftedRegister | .logicalShiftedRegister =>
    (instruction.bits == 32 || instruction.bits == 64) &&
      instruction.shiftAmount < instruction.bits &&
      instruction.shiftType < (if instruction.kind = .addSubShiftedRegister then 3 else 4)
  | .addSubExtendedRegister =>
    instruction.raw &&& 0x00c00000 == 0 && instruction.shiftAmount ≤ 4 &&
      instruction.condition.toNat < 8 &&
      (instruction.bits == 64 || (instruction.bits == 32 && instruction.condition &&& 3 != 3))
  | .addSubCarry => instruction.bits == 32 || instruction.bits == 64
  | .moveWide | .adr | .branch | .bcond | .cbz | .tbz => true
  | _ => false

/-- `avz_tp_supports_instruction_with_memory`. -/
def threadedSupportsWithMemory : Bool :=
  instruction.threadedSupports ||
    (decide (instruction.kind = .loadStoreUnsignedImmediate) && instruction.flags.toNat ≤ 1 &&
      (instruction.width == 1 || instruction.width == 2 || instruction.width == 4 ||
        instruction.width == 8))

/-- `decoded.bits == 64 ? 4 : 0` in the index of a table of handlers. -/
def handlerBits : Nat :=
  if instruction.bits = 64 then 64 else 32

/-- `tp_prepare_shift`. -/
def prepareShift (op : ThreadedOperation) : ThreadedOperation :=
  let bits := instruction.bits
  let shift := instruction.shiftAmount
  let mask : U64 := if bits = 64 then 0xffffffffffffffff else 0xffffffff
  if instruction.shiftType = 0 then
    { op with
      rotate := (bits - shift) &&& (bits - 1)
      mask := (mask <<< shift) &&& mask }
  else if instruction.shiftType ≠ 3 then
    { op with
      rotate := shift
      mask := mask >>> shift
      signFill := if instruction.shiftType = 2 then mask ^^^ (mask >>> shift) else op.signFill }
  else { op with rotate := shift, mask := mask }

def threadedLogic : ThreadedLogic :=
  match (instruction.flags &&& 3).toNat with
  | 1 => .orr
  | 2 => .eor
  | _ => .and

/-- The switch of `avz_tp_create` over the kinds. -/
def prepareKind (pc : U64) (op : ThreadedOperation) : ThreadedOperation :=
  let bits := instruction.handlerBits
  let subtract := instruction.flags.getLsbD 0
  let flags := instruction.flags.getLsbD 1
  match instruction.kind with
  | .nop => if op.raw = 0xd503201f then { op with handler := .nop } else op
  | .addSubImmediate =>
    if op.raw &&& 0x00800000 ≠ 0 then op
    else
      { op with
        handler := .alu bits subtract flags
        source := .ofRegister instruction.rn true
        destination := .ofRegister instruction.rd (!flags) }
  | .moveWide =>
    let mask : U64 := if instruction.bits = 64 then 0xffffffffffffffff else 0xffffffff
    let immediate := if instruction.flags = 0 then ~~~op.immediate else op.immediate
    { op with
      mask := mask &&& ~~~(0xffff#64 <<< instruction.shiftAmount)
      immediate := immediate &&& mask
      handler := if instruction.flags = 3 then .movk else .move }
  | .addSubShiftedRegister =>
    instruction.prepareShift { op with handler := .register .shifted bits subtract flags }
  | .addSubExtendedRegister =>
    let size := 8 <<< (instruction.condition &&& 3).toNat
    { op with
      handler := .register .extended bits subtract flags
      mask := 0xffffffffffffffff#64 >>> (64 - size)
      immediate := if instruction.condition &&& 4 ≠ 0 then 1#64 <<< (size - 1) else 0
      rotate := instruction.shiftAmount
      source := .ofRegister instruction.rn true
      destination := .ofRegister instruction.rd (!flags) }
  | .addSubCarry => { op with handler := .register .carry bits subtract flags }
  | .logicalShiftedRegister =>
    let op := instruction.prepareShift op
    { op with
      immediate := if instruction.flags &&& 4 ≠ 0 then 0xffffffffffffffff else 0
      handler := .logical bits instruction.threadedLogic (instruction.flags &&& 3 == 3) }
  | .loadStoreUnsignedImmediate =>
    { op with
      source := .ofRegister instruction.rn true
      destination := .ofRegister instruction.rt false
      width := instruction.width
      mask := 0xffffffffffffffff#64 >>> (64 - instruction.width * 8)
      handler := if instruction.flags &&& 1 ≠ 0 then .load else .store }
  | .adr =>
    { op with
      immediate := op.immediate + (if instruction.flags &&& 1 ≠ 0 then pc &&& ~~~4095#64 else pc)
      handler := .move }
  | .branch => { op with handler := if instruction.flags &&& 1 ≠ 0 then .link else .branch }
  | .bcond =>
    { op with conditions := threadedConditions instruction.condition, handler := .bcond }
  | .cbz | .tbz =>
    { op with
      source := .ofRegister instruction.rt false
      mask :=
        if instruction.kind = .tbz then 1#64 <<< instruction.shiftAmount
        else if instruction.bits = 64 then 0xffffffffffffffff else 0xffffffff
      handler := .test (instruction.flags &&& 1 != 0) }
  | _ => op

end NativeInstruction

/-- The body of the loop of `avz_tp_create`: the operation of the word at `index`. -/
def prepareThreadedOperation (vector : VectorDecoder) (basePc : U64) (count index : Nat)
    (word : U32) : ThreadedOperation :=
  let pc := basePc + BitVec.ofNat 64 (index * 4)
  let op : ThreadedOperation :=
    { handler := .unsupported, raw := word, next := index + 1, nextPc := pc + 4 }
  match decodeInstruction vector word with
  | none => op
  | some decoded =>
    if decoded.threadedSupportsWithMemory then
      decoded.prepareKind pc
        { op with
          immediate := decoded.immediate
          targetPc := pc + decoded.immediate
          taken := threadedIndex basePc count (pc + decoded.immediate)
          destination := .ofRegister decoded.rd false
          source := .ofRegister decoded.rn false
          source2 := .ofRegister decoded.rm false }
    else op

/-- `AVZ_TP_MAX_INSTRUCTIONS`. -/
def maxThreadedInstructions : Nat := 4096

def usesThreadedMemory (vector : VectorDecoder) (word : U32) : Bool :=
  match decodeInstruction vector word with
  | none => false
  | some decoded =>
    decoded.threadedSupportsWithMemory && decide (decoded.kind = .loadStoreUnsignedImmediate)

/-- `avz_tp_create`, where the allocation succeeds. -/
def createThreadedPrototype (vector : VectorDecoder) (words : List U32) (basePc : U64) :
    Option ThreadedPrototype :=
  if words.length = 0 ∨ maxThreadedInstructions < words.length ∨ basePc &&& 3 ≠ 0 ∨
      (2 ^ 64 - 1 - basePc.toNat) / 4 < words.length - 1 then none
  else
    some
      { basePc := basePc
        count := words.length
        usesMemory := words.any (usesThreadedMemory vector)
        operations := words.mapIdx (prepareThreadedOperation vector basePc words.length) ++
          [{ handler := .outside }] }

/-! ## Handlers -/

inductive ThreadedStatus
  | maxSteps
  | outsideBlock
  | unsupported
  | halted
  | invalidArgument
  | revalidate
  | memoryFault
  deriving DecidableEq, Repr

/-- How a handler ends: `TP_NEXT`, or a return with a status, before its instruction retires or
after it. -/
inductive HandlerOutcome (σ : Type)
  | next (machine : NativeMachine σ) (index : Nat)
  | leave (machine : NativeMachine σ) (status : ThreadedStatus) (word : U32)
  | retire (machine : NativeMachine σ) (status : ThreadedStatus)

/-- `(type)value`, for the types of 32 and 64 bits. -/
def castTo (bits : Nat) (value : U64) : U64 :=
  if bits = 32 then (value.setWidth 32).setWidth 64 else value

/-- The value of a condition in C. -/
def truth (condition : Bool) : U64 :=
  if condition then 1 else 0

namespace NativeCpu

variable (cpu : NativeCpu)

/-- `cpu->pstate` with its upper flags replaced by the four values of a handler. -/
def withNzcv (n z c v : U64) : NativeCpu :=
  { cpu with
    pstate := (cpu.pstate &&& ~~~0xf0000000#64) ||| (n <<< 31) ||| (z <<< 30) ||| (c <<< 29) |||
      (v <<< 28) }

end NativeCpu

namespace ThreadedOperation

variable (op : ThreadedOperation) (cpu : NativeCpu)

/-- `tp_write(cpu, op->destination, value); cpu->pc = op->next_pc`. -/
def finish (value : U64) : NativeCpu :=
  { cpu.writeOffset op.destination value with pc := op.nextPc }

/-- `TP_ALU`. -/
def alu (bits : Nat) (subtract flags : Bool) : NativeCpu :=
  let a := castTo bits (cpu.readOffset op.source)
  let b := op.immediate
  let value := castTo bits (if subtract then a - b else a + b)
  let n := value >>> (bits - 1)
  let z := truth (value == 0)
  let c := truth (if subtract then b ≤ a else value < a)
  let v := ((if subtract then a ^^^ b else ~~~(a ^^^ b)) &&& (a ^^^ value)) >>> (bits - 1)
  op.finish (if flags then cpu.withNzcv n z c (v &&& 1) else cpu) value

/-- `tp_shifted`. -/
def shifted (bits : Nat) : U64 :=
  let value := castTo bits (cpu.readOffset op.source2)
  let sign := 0 - (value >>> (bits - 1))
  (((value >>> op.rotate) ||| (value <<< ((bits - op.rotate) &&& (bits - 1)))) &&& op.mask) |||
    (sign &&& op.signFill)

/-- `tp_extended`. -/
def extended : U64 :=
  let value := cpu.readOffset op.source2 &&& op.mask
  ((value ^^^ op.immediate) - op.immediate) <<< op.rotate

/-- The right operand and the carry in of a `TP_REGISTER_SET`. -/
def operand (kind : ThreadedOperand) (bits : Nat) (subtract : Bool) : U64 × U64 :=
  match kind with
  | .shifted => (op.shifted cpu bits, truth subtract)
  | .extended => (op.extended cpu, truth subtract)
  | .carry => (cpu.readOffset op.source2, (cpu.pstate >>> 29) &&& 1)

/-- `TP_REGISTER_ALU`. -/
def registerAlu (kind : ThreadedOperand) (bits : Nat) (subtract flags : Bool) : NativeCpu :=
  let a := castTo bits (cpu.readOffset op.source)
  let (rhs, carry) := op.operand cpu kind bits subtract
  let b := castTo bits rhs
  let b := if subtract then castTo bits (~~~b) else b
  let partialSum := castTo bits (a + b)
  let value := castTo bits (partialSum + carry)
  let c := truth (partialSum < a || value < partialSum)
  let v := (~~~(a ^^^ b) &&& (a ^^^ value)) >>> (bits - 1)
  op.finish
    (if flags then cpu.withNzcv (value >>> (bits - 1)) (truth (value == 0)) c (v &&& 1) else cpu)
    value

/-- `TP_LOGICAL`. -/
def logical (bits : Nat) (operation : ThreadedLogic) (flags : Bool) : NativeCpu :=
  let a := castTo bits (cpu.readOffset op.source)
  let b := castTo bits (op.shifted cpu bits ^^^ op.immediate)
  let value : U64 :=
    match operation with
    | .and => a &&& b
    | .orr => a ||| b
    | .eor => a ^^^ b
  op.finish
    (if flags then cpu.withNzcv (value >>> (bits - 1)) (truth (value == 0)) 0 0 else cpu) value

/-- The jump of a conditional branch. -/
def branchTo (machine : NativeMachine σ) (taken : Bool) : HandlerOutcome σ :=
  .next { machine with cpu := { machine.cpu with pc := if taken then op.targetPc else op.nextPc } }
    (if taken then op.taken else op.next)

/-- `tp_load`. -/
def load (memory : FastMemoryFunctions σ) (machine : NativeMachine σ) : HandlerOutcome σ :=
  let address := machine.cpu.readOffset op.source + op.immediate
  match memory.tryReadHot address op.width machine.context with
  | (some value, context) => .next ⟨op.finish machine.cpu value, context⟩ op.next
  | (none, context) =>
    match memory.read address op.width context with
    | (some value, context) => .retire ⟨op.finish machine.cpu value, context⟩ .revalidate
    | (none, context) => .leave { machine with context := context } .memoryFault 0

/-- `tp_store`. -/
def store (memory : FastMemoryFunctions σ) (machine : NativeMachine σ) : HandlerOutcome σ :=
  let address := machine.cpu.readOffset op.source + op.immediate
  let value := machine.cpu.readOffset op.destination &&& op.mask
  let cpu := { machine.cpu.clearExclusiveReservation with pc := op.nextPc }
  match memory.tryWriteHot address op.width value machine.context with
  | (some (), context) => .next ⟨cpu, context⟩ op.next
  | (none, context) =>
    match memory.write address op.width value context with
    | (some (), context) => .retire ⟨cpu, context⟩ .revalidate
    | (none, context) => .leave { machine with context := context } .memoryFault 0

/-- The call of a handler, up to `TP_NEXT`. A run with no memory has `none`. -/
def execute (memory : Option (FastMemoryFunctions σ)) (machine : NativeMachine σ) :
    HandlerOutcome σ :=
  let cpu := machine.cpu
  match op.handler with
  | .outside => .leave machine .outsideBlock 0
  | .unsupported => .leave machine .unsupported op.raw
  | .nop => .next { machine with cpu := { cpu with pc := op.nextPc } } op.next
  | .alu bits subtract flags => .next { machine with cpu := op.alu cpu bits subtract flags } op.next
  | .register operand bits subtract flags =>
    .next { machine with cpu := op.registerAlu cpu operand bits subtract flags } op.next
  | .logical bits operation flags =>
    .next { machine with cpu := op.logical cpu bits operation flags } op.next
  | .load =>
    match memory with
    | some memory => op.load memory machine
    | none => .leave machine .unsupported op.raw
  | .store =>
    match memory with
    | some memory => op.store memory machine
    | none => .leave machine .unsupported op.raw
  | .move => .next { machine with cpu := op.finish cpu op.immediate } op.next
  | .movk =>
    .next { machine with
      cpu := op.finish cpu ((cpu.readOffset op.destination &&& op.mask) ||| op.immediate) } op.next
  | .branch => op.branchTo machine true
  | .link => op.branchTo { machine with cpu := cpu.writeRegister 30 op.nextPc } true
  | .bcond => op.branchTo machine (op.conditions.getLsbD ((cpu.pstate >>> 28) &&& 15).toNat)
  | .test nonzero =>
    op.branchTo machine (decide ((cpu.readOffset op.source &&& op.mask ≠ 0) ↔ nonzero = true))

end ThreadedOperation

/-! ## Runs -/

/-- What `tp_is_current` looks at: the owner's drop of the program, and the tokens of the block
cache and of the guest memory, which are null without them. -/
structure ThreadedTokens (σ : Type) where
  retired : σ → Bool
  codeEpoch : Option (σ → U64)
  sharedCodeEpoch : Option (σ → U64)
  translationEpoch : Option (σ → U64)
  observedTranslationEpoch : σ → U64
  memoryCodeEpoch : Option (σ → U64)

/-- The epochs of a `TPExecution`. -/
structure ThreadedEpochs where
  code : U64
  sharedCode : U64
  translation : U64
  memoryCode : U64

/-- `!token || *token == epoch`. -/
def tokenIsCurrent (token : Option (σ → U64)) (epoch : U64) (context : σ) : Bool :=
  match token with
  | none => true
  | some token => token context == epoch

/-- `tp_is_current`. -/
def ThreadedTokens.isCurrent (tokens : ThreadedTokens σ) (epochs : ThreadedEpochs)
    (context : σ) : Bool :=
  !tokens.retired context && tokenIsCurrent tokens.codeEpoch epochs.code context &&
    tokenIsCurrent tokens.sharedCodeEpoch epochs.sharedCode context &&
    tokenIsCurrent tokens.translationEpoch epochs.translation context &&
    tokenIsCurrent tokens.memoryCodeEpoch epochs.memoryCode context

/-- What a run returns and leaves behind. -/
structure ThreadedResult (σ : Type) where
  machine : NativeMachine σ
  steps : Nat
  status : ThreadedStatus
  unsupportedInstruction : U32 := 0

/-- What the other vCPUs do to the shared state while the instruction of a number retires. -/
def NativeMachine.published (machine : NativeMachine σ) (publish : Nat → σ → σ) (steps : Nat) :
    NativeMachine σ :=
  { machine with context := publish steps machine.context }

namespace ThreadedPrototype

variable (program : ThreadedPrototype) (memory : Option (FastMemoryFunctions σ))
  (isCurrent : σ → Bool) (publish : Nat → σ → σ)

/-- The chain of handlers, with `left` instructions of the budget behind the first one. -/
def dispatch (left steps index : Nat) (machine : NativeMachine σ) : ThreadedResult σ :=
  match (program.operation index).execute memory machine with
  | .leave machine status word => ⟨machine, steps, status, word⟩
  | .retire machine status => ⟨machine.published publish steps, steps + 1, status, 0⟩
  | .next machine index =>
    let machine := machine.published publish steps
    if isCurrent machine.context then
      match left with
      | 0 => ⟨machine, steps + 1, .maxSteps, 0⟩
      | left + 1 => dispatch left (steps + 1) index machine
    else ⟨machine, steps + 1, .revalidate, 0⟩

end ThreadedPrototype

/-- `avz_tp_run_guarded`. -/
def runThreadedGuarded (program : Option ThreadedPrototype)
    (memory : Option (FastMemoryFunctions σ)) (tokens : ThreadedTokens σ)
    (publish : Nat → σ → σ) (codeEpoch sharedCodeEpoch : U64) (maxSteps : Nat)
    (machine : NativeMachine σ) : ThreadedResult σ :=
  match program with
  | none => ⟨machine, 0, .invalidArgument, 0⟩
  | some program =>
    match maxSteps with
    | 0 => ⟨machine, 0, .maxSteps, 0⟩
    | left + 1 =>
      let context := machine.context
      let epochs : ThreadedEpochs :=
        { code := codeEpoch
          sharedCode := sharedCodeEpoch
          translation := tokens.observedTranslationEpoch context
          memoryCode := (tokens.memoryCodeEpoch.map fun token => token context).getD 0 }
      if machine.cpu.halted then ⟨machine, 0, .halted, 0⟩
      else if tokens.isCurrent epochs context then
        program.dispatch memory (tokens.isCurrent epochs) publish left 0
          (program.lookup machine.cpu.pc) machine
      else ⟨machine, 0, .revalidate, 0⟩

end Pinecone
