import Mathlib.Data.List.Basic
import Pinecone.NativeExecutor
import Pinecone.Stage1Walk

/-! The system callbacks of the fast path, of ARM64VizGuestMemory.c: the registers it holds for
the guest, exception entry and return. The functions that access memory, the host clock and the
slow callbacks of the virtual machine are parameters. -/

namespace Pinecone

/-- The registers of `AVZNativeArchitecturalState` and `AVZNativeThreadRegisterState`. -/
inductive FastPathRegister
  | spEl0
  | spEl1
  | spsrEl1
  | elrEl1
  | esrEl1
  | farEl1
  | vbarEl1
  | counterTicks
  | cntpCtlEl0
  | cntpCvalEl0
  | cntvCtlEl0
  | cntvCvalEl0
  | tpidrEl0
  | tpidrroEl0
  | tpidrEl1
  | contextidrEl1
  deriving DecidableEq, Repr

/-- `AVZNativeMemoryFastPath`: its registers, its translation caches, and the rest with the
memory and the virtual machine behind it. -/
structure FastPathState (κ ρ : Type) where
  registers : FastPathRegister → U64
  translation : Stage1TranslationState
  caches : κ
  rest : ρ

variable {κ ρ α : Type}

namespace FastPathState

def setRegister (state : FastPathState κ ρ) (register : FastPathRegister) (value : U64) :
    FastPathState κ ρ :=
  { state with registers := Function.update state.registers register value }

/-- `*sp` and the banked stack pointers before an exception entry or return, by SPSel. -/
def saveStackPointer (state : FastPathState κ ρ) (pstate sp : U64) : FastPathState κ ρ :=
  state.setRegister (if pstate &&& 1 = 0 then .spEl0 else .spEl1) sp

end FastPathState

/-- A function that accesses memory by translation: it changes no register of the fast path. -/
abbrev MemoryFunction (κ ρ α : Type) := FastPathState κ ρ → Option α × κ × ρ

def MemoryFunction.run (m : MemoryFunction κ ρ α) : Fallible (FastPathState κ ρ) α := fun state =>
  ((m state).1, { state with caches := (m state).2.1, rest := (m state).2.2 })

/-- What the fast path is used with. -/
structure FastPathEnvironment (κ ρ : Type) where
  tryReadHot : U64 → Nat → MemoryFunction κ ρ U64
  read : U64 → Nat → MemoryFunction κ ρ U64
  tryWriteHot : U64 → Nat → U64 → MemoryFunction κ ρ Unit
  write : U64 → Nat → U64 → MemoryFunction κ ρ Unit
  readPair : U64 → Nat → MemoryFunction κ ρ (U64 × U64)
  writePair : U64 → Nat → U64 → U64 → MemoryFunction κ ρ Unit
  exclusiveRead : U64 → Nat → MemoryFunction κ ρ (U64 × U64)
  exclusiveReadPair : U64 → Nat → MemoryFunction κ ρ (U64 × U64 × U64)
  exclusiveWrite : U64 → Nat → U64 → U64 → MemoryFunction κ ρ Bool
  exclusiveWritePair : U64 → Nat → U64 → U64 → U64 → MemoryFunction κ ρ Bool
  readBytes : U64 → Nat → MemoryFunction κ ρ (List (BitVec 8))
  writeBytes : U64 → List (BitVec 8) → MemoryFunction κ ρ Unit
  canAccess : U64 → Nat → Bool → MemoryFunction κ ρ Unit
  /-- The host clock's ticks, when the counter follows it. -/
  counterClock : ρ → Option U64
  /-- What `avz_native_fast_set_current_el` does to the caches. -/
  switchLevel : Stage1TranslationState → κ → κ
  slowReadSystemRegister : U32 → U64 → U64 → U64 → Fallible (FastPathState κ ρ) U64
  slowWriteSystemRegister : U32 → U64 → U64 → U64 → U64 → Fallible (FastPathState κ ρ) (U64 × U64)
  slowExecuteSystemInstruction : U32 → U64 → Fallible (FastPathState κ ρ) Unit
  slowSynchronousException : U32 → (Fin 31 → U64) → ExceptionRegisters →
    Fallible (FastPathState κ ρ) ((Fin 31 → U64) × ExceptionRegisters)
  /-- The wait changes only the virtual machine. -/
  slowWait : U32 → U64 → FastPathState κ ρ → Option U64 × ρ

/-! ## System registers -/

def spEl0Key : U32 := systemRegisterKey 3 0 4 1 0

def cntpctEl0Key : U32 := systemRegisterKey 3 3 14 0 1

def cntvctEl0Key : U32 := systemRegisterKey 3 3 14 0 2

def cntpTvalEl0Key : U32 := systemRegisterKey 3 3 14 2 0

def cntpCtlEl0Key : U32 := systemRegisterKey 3 3 14 2 1

def cntvTvalEl0Key : U32 := systemRegisterKey 3 3 14 3 0

def cntvCtlEl0Key : U32 := systemRegisterKey 3 3 14 3 1

/-- The registers that MRS and MSR read and write as they are. -/
def directRegister (key : U32) : Option FastPathRegister :=
  if key = systemRegisterKey 3 0 4 0 0 then some .spsrEl1
  else if key = systemRegisterKey 3 0 4 0 1 then some .elrEl1
  else if key = systemRegisterKey 3 0 5 2 0 then some .esrEl1
  else if key = systemRegisterKey 3 0 6 0 0 then some .farEl1
  else if key = systemRegisterKey 3 0 12 0 0 then some .vbarEl1
  else if key = systemRegisterKey 3 0 13 0 1 then some .contextidrEl1
  else if key = systemRegisterKey 3 0 13 0 4 then some .tpidrEl1
  else if key = systemRegisterKey 3 3 13 0 2 then some .tpidrEl0
  else if key = systemRegisterKey 3 3 13 0 3 then some .tpidrroEl0
  else if key = systemRegisterKey 3 3 14 2 2 then some .cntpCvalEl0
  else if key = systemRegisterKey 3 3 14 3 2 then some .cntvCvalEl0
  else none

/-- `avz_native_timer_control`. -/
def timerControl (control compare counter : U64) : U64 :=
  (control &&& 3) ||| (if compare ≤ counter then 4 else 0)

/-- `avz_native_timer_value`. -/
def timerValue (compare counter : U64) : U64 :=
  ((compare - counter).setWidth 32).setWidth 64

/-- `avz_native_timer_compare_from_value`. -/
def timerCompareFromValue (value counter : U64) : U64 :=
  counter + (value.setWidth 32).signExtend 64

namespace FastPathEnvironment

variable (environment : FastPathEnvironment κ ρ)

/-- `avz_native_refresh_shared_counter`. -/
def refreshSharedCounter (state : FastPathState κ ρ) : FastPathState κ ρ :=
  match environment.counterClock state.rest with
  | some ticks => state.setRegister .counterTicks ticks
  | none => state

/-- A timer register computed from the refreshed counter. -/
def readTimer (value : (FastPathRegister → U64) → U64) : Fallible (FastPathState κ ρ) U64 :=
  fun state =>
    let state := environment.refreshSharedCounter state
    (some (value state.registers), state)

/-- A register of the fast path as its state has it. -/
def readFast (value : FastPathState κ ρ → U64) : Fallible (FastPathState κ ρ) U64 :=
  fun state => (some (value state), state)

/-- `avz_native_fast_read_system_register`. -/
def fastReadSystemRegister (instruction : U32) (pc pstate sp : U64) :
    Fallible (FastPathState κ ρ) U64 :=
  let key := decodedSystemRegisterKey instruction
  match directRegister key with
  | some register => readFast fun state => state.registers register
  | none =>
    if key = spEl0Key then
      readFast fun state => if pstate &&& 1 = 0 then sp else state.registers .spEl0
    else if key = cntpctEl0Key ∨ key = cntvctEl0Key then
      environment.readTimer fun registers => registers .counterTicks
    else if key = cntpTvalEl0Key then
      environment.readTimer fun registers =>
        timerValue (registers .cntpCvalEl0) (registers .counterTicks)
    else if key = cntpCtlEl0Key then
      environment.readTimer fun registers =>
        timerControl (registers .cntpCtlEl0) (registers .cntpCvalEl0) (registers .counterTicks)
    else if key = cntvTvalEl0Key then
      environment.readTimer fun registers =>
        timerValue (registers .cntvCvalEl0) (registers .counterTicks)
    else if key = cntvCtlEl0Key then
      environment.readTimer fun registers =>
        timerControl (registers .cntvCtlEl0) (registers .cntvCvalEl0) (registers .counterTicks)
    else environment.slowReadSystemRegister instruction pc pstate sp

/-- A register of the fast path set from its state, PSTATE and SP as they were. -/
def writeFast (pstate sp : U64) (change : FastPathState κ ρ → FastPathState κ ρ) :
    Fallible (FastPathState κ ρ) (U64 × U64) :=
  fun state => (some (pstate, sp), change state)

/-- The compare value of a timer from its TVAL. -/
def writeTimerValue (register : FastPathRegister) (value : U64) (state : FastPathState κ ρ) :
    FastPathState κ ρ :=
  let state := environment.refreshSharedCounter state
  state.setRegister register (timerCompareFromValue value (state.registers .counterTicks))

/-- `avz_native_fast_write_system_register`. -/
def fastWriteSystemRegister (instruction : U32) (pc value pstate sp : U64) :
    Fallible (FastPathState κ ρ) (U64 × U64) :=
  let key := decodedSystemRegisterKey instruction
  match directRegister key with
  | some register => writeFast pstate sp fun state => state.setRegister register value
  | none =>
    if key = spEl0Key then
      if pstate &&& 1 = 0 then writeFast pstate value id
      else writeFast pstate sp fun state => state.setRegister .spEl0 value
    else if key = cntpTvalEl0Key then
      writeFast pstate sp (environment.writeTimerValue .cntpCvalEl0 value)
    else if key = cntpCtlEl0Key then
      writeFast pstate sp fun state => state.setRegister .cntpCtlEl0 (value &&& 3)
    else if key = cntvTvalEl0Key then
      writeFast pstate sp (environment.writeTimerValue .cntvCvalEl0 value)
    else if key = cntvCtlEl0Key then
      writeFast pstate sp fun state => state.setRegister .cntvCtlEl0 (value &&& 3)
    else environment.slowWriteSystemRegister instruction pc value pstate sp

/-- `avz_is_coherent_cache_maintenance`. -/
def isCoherentCacheMaintenance (instruction : U32) : Bool :=
  let crn := (instruction >>> 12) &&& 0xf
  let crm := (instruction >>> 8) &&& 0xf
  crn == 7 && (crm == 5 || crm == 6 || (10 ≤ crm && crm ≤ 14))

/-- `avz_native_fast_execute_system_instruction`. -/
def fastExecuteSystemInstruction (instruction : U32) (operand : U64) :
    Fallible (FastPathState κ ρ) Unit :=
  if isCoherentCacheMaintenance instruction then pure ()
  else environment.slowExecuteSystemInstruction instruction operand

/-! ## Exceptions -/

/-- `avz_native_fast_set_current_el`. -/
def setCurrentEl (state : FastPathState κ ρ) (pstate : U64) : FastPathState κ ρ :=
  let currentEl : BitVec 8 := ((pstate >>> 2) &&& 3).setWidth 8
  if state.translation.currentEl = currentEl then state
  else
    let translation := { state.translation with currentEl := currentEl }
    { state with
      translation := translation
      caches := environment.switchLevel translation state.caches }

/-- `avz_native_fast_exception_return`. -/
def fastExceptionReturn (registers : ExceptionRegisters) :
    Fallible (FastPathState κ ρ) ExceptionRegisters := fun state =>
  let newPstate := state.registers .spsrEl1
  let state := state.saveStackPointer registers.pstate registers.sp
  let sp := state.registers (if newPstate &&& 1 = 0 then .spEl0 else .spEl1)
  (some ⟨newPstate, sp, state.registers .elrEl1⟩, environment.setCurrentEl state newPstate)

def isSupervisorCall (instruction : U32) : Bool :=
  instruction &&& 0xffe0001f == 0xd4000001

/-- The offset of the synchronous vector, by the level the exception comes from. -/
def vectorOffset (pstate : U64) : U64 :=
  if (pstate >>> 2) &&& 3 = 0 then 0x400 else if pstate &&& 1 = 0 then 0 else 0x200

def supervisorCallSyndrome (instruction : U32) : U64 :=
  (0x15#64 <<< 26) ||| ((instruction >>> 5) &&& 0xffff).setWidth 64

/-- The supervisor call, which the fast path takes itself. -/
def enterSupervisorCall (instruction : U32) (x : Fin 31 → U64) (registers : ExceptionRegisters) :
    Fallible (FastPathState κ ρ) ((Fin 31 → U64) × ExceptionRegisters) := fun state =>
  let state := state.saveStackPointer registers.pstate registers.sp
  let state := state.setRegister .spsrEl1 registers.pstate
  let state := state.setRegister .elrEl1 (registers.pc + 4)
  let state := state.setRegister .esrEl1 (supervisorCallSyndrome instruction)
  let entered : ExceptionRegisters :=
    ⟨0x3c5, state.registers .spEl1, state.registers .vbarEl1 + vectorOffset registers.pstate⟩
  (some (x, entered), environment.setCurrentEl state 0x3c5)

/-- `avz_native_fast_synchronous_exception`. -/
def fastSynchronousException (instruction : U32) (x : Fin 31 → U64)
    (registers : ExceptionRegisters) :
    Fallible (FastPathState κ ρ) ((Fin 31 → U64) × ExceptionRegisters) :=
  if isSupervisorCall instruction then environment.enterSupervisorCall instruction x registers
  else environment.slowSynchronousException instruction x registers

/-- `avz_native_fast_wait`. -/
def fastWait (instruction : U32) (pc : U64) : Fallible (FastPathState κ ρ) U64 := fun state =>
  ((environment.slowWait instruction pc state).1,
    { state with rest := (environment.slowWait instruction pc state).2 })

/-- The callbacks with which the virtual machine runs decoded instructions natively. -/
def callbacks : NativeCallbacks (FastPathState κ ρ) where
  usesFastMemoryContext := true
  fastMemory :=
    { tryReadHot := fun address width => (environment.tryReadHot address width).run
      read := fun address width => (environment.read address width).run
      tryWriteHot := fun address width value => (environment.tryWriteHot address width value).run
      write := fun address width value => (environment.write address width value).run
      readPair := fun address width => (environment.readPair address width).run
      writePair := fun address width first second =>
        (environment.writePair address width first second).run
      exclusiveRead := fun address width => (environment.exclusiveRead address width).run
      exclusiveReadPair := fun address width => (environment.exclusiveReadPair address width).run
      exclusiveWrite := fun address width value generation =>
        (environment.exclusiveWrite address width value generation).run
      exclusiveWritePair := fun address width first second generation =>
        (environment.exclusiveWritePair address width first second generation).run
      readBytes := fun address byteCount => (environment.readBytes address byteCount).run
      writeBytes := fun address bytes => (environment.writeBytes address bytes).run }
  readMemory := .fast fun address width => (environment.read address width).run
  writeMemory := .fast fun address width value => (environment.write address width value).run
  canAccessMemory := .fast fun address width isWrite =>
    (environment.canAccess address width isWrite).run
  readSystemRegister := .fast environment.fastReadSystemRegister
  writeSystemRegister := .fast environment.fastWriteSystemRegister
  executeSystemInstruction := .fast environment.fastExecuteSystemInstruction
  exceptionReturn := .fast environment.fastExceptionReturn
  synchronousException := .fast environment.fastSynchronousException
  wait := .fast environment.fastWait

/-- A fast path without memory, clock or virtual machine. -/
def closed : FastPathEnvironment Unit Unit where
  tryReadHot := fun _ _ _ => (none, (), ())
  read := fun _ _ _ => (none, (), ())
  tryWriteHot := fun _ _ _ _ => (none, (), ())
  write := fun _ _ _ _ => (none, (), ())
  readPair := fun _ _ _ => (none, (), ())
  writePair := fun _ _ _ _ _ => (none, (), ())
  exclusiveRead := fun _ _ _ => (none, (), ())
  exclusiveReadPair := fun _ _ _ => (none, (), ())
  exclusiveWrite := fun _ _ _ _ _ => (none, (), ())
  exclusiveWritePair := fun _ _ _ _ _ _ => (none, (), ())
  readBytes := fun _ _ _ => (none, (), ())
  writeBytes := fun _ _ _ => (none, (), ())
  canAccess := fun _ _ _ _ => (none, (), ())
  counterClock := fun _ => none
  switchLevel := fun _ _ => ()
  slowReadSystemRegister := fun _ _ _ _ => Fallible.fail
  slowWriteSystemRegister := fun _ _ _ _ _ => Fallible.fail
  slowExecuteSystemInstruction := fun _ _ => Fallible.fail
  slowSynchronousException := fun _ _ _ => Fallible.fail
  slowWait := fun _ _ _ => (none, ())

end FastPathEnvironment

end Pinecone
