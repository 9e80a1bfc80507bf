import Pinecone.Fallible
import Pinecone.NativeInstruction

/-! The callbacks of `execute_decoded_instruction` over a memory context. A callback that
returns 0 leaves alone what its pointer arguments point to. -/

namespace Pinecone

structure NativeMachine (σ : Type) where
  cpu : NativeCpu
  context : σ

abbrev NativeStep (σ α : Type) := Fallible (NativeMachine σ) α

variable {σ α : Type}

namespace NativeStep

def getCpu : NativeStep σ NativeCpu := fun s => (some s.cpu, s)

def modifyCpu (change : NativeCpu → NativeCpu) : NativeStep σ Unit := fun s =>
  (some (), { s with cpu := change s.cpu })

def onContext (m : Fallible σ α) : NativeStep σ α :=
  Fallible.onPart (fun s => s.context) (fun s context => { s with context := context }) m

end NativeStep

/-- A callback pointer: null, the function of the fast path, or another one. -/
inductive NativeCallback (α : Type)
  | null
  | fast (call : α)
  | other (call : α)

namespace NativeCallback

def function : NativeCallback α → Option α
  | .null => none
  | .fast call => some call
  | .other call => some call

def isFast : NativeCallback α → Bool
  | .fast _ => true
  | _ => false

/-- `callback == 0 || callback == avz_native_fast_…`. -/
def isLocal : NativeCallback α → Bool
  | .other _ => false
  | _ => true

end NativeCallback

/-- The functions of ARM64VizGuestMemory.c that the executor calls by name when
`uses_fast_memory_context`. A pair access gives both values, an exclusive read its generation
last. -/
structure FastMemoryFunctions (σ : Type) where
  tryReadHot : U64 → Nat → Fallible σ U64
  read : U64 → Nat → Fallible σ U64
  tryWriteHot : U64 → Nat → U64 → Fallible σ Unit
  write : U64 → Nat → U64 → Fallible σ Unit
  readPair : U64 → Nat → Fallible σ (U64 × U64)
  writePair : U64 → Nat → U64 → U64 → Fallible σ Unit
  exclusiveRead : U64 → Nat → Fallible σ (U64 × U64)
  exclusiveReadPair : U64 → Nat → Fallible σ (U64 × U64 × U64)
  exclusiveWrite : U64 → Nat → U64 → U64 → Fallible σ Bool
  exclusiveWritePair : U64 → Nat → U64 → U64 → U64 → Fallible σ Bool
  readBytes : U64 → Nat → Fallible σ (List (BitVec 8))
  writeBytes : U64 → List (BitVec 8) → Fallible σ Unit

/-- What an exception return leaves in `*pstate`, `*sp` and `*pc`. -/
structure ExceptionRegisters where
  pstate : U64
  sp : U64
  pc : U64

/-- The callback arguments of `execute_decoded_instruction`. -/
structure NativeCallbacks (σ : Type) where
  usesFastMemoryContext : Bool
  fastMemory : FastMemoryFunctions σ
  readMemory : NativeCallback (U64 → Nat → Fallible σ U64)
  writeMemory : NativeCallback (U64 → Nat → U64 → Fallible σ Unit)
  canAccessMemory : NativeCallback (U64 → Nat → Bool → Fallible σ Unit)
  /-- The instruction, PC, PSTATE and SP to the value. -/
  readSystemRegister : NativeCallback (U32 → U64 → U64 → U64 → Fallible σ U64)
  /-- The instruction, PC, value, PSTATE and SP to the new PSTATE and SP. -/
  writeSystemRegister : NativeCallback (U32 → U64 → U64 → U64 → U64 → Fallible σ (U64 × U64))
  executeSystemInstruction : NativeCallback (U32 → U64 → Fallible σ Unit)
  exceptionReturn : NativeCallback (ExceptionRegisters → Fallible σ ExceptionRegisters)
  synchronousException : NativeCallback (U32 → (Fin 31 → U64) → ExceptionRegisters →
    Fallible σ ((Fin 31 → U64) × ExceptionRegisters))
  /-- The instruction and PC to the new PC. -/
  wait : NativeCallback (U32 → U64 → Fallible σ U64)

namespace NativeCallbacks

variable (callbacks : NativeCallbacks σ)

/-- A call through a pointer that is checked against null. -/
def call {β : Type} (callback : NativeCallback β) (apply : β → Fallible σ α) : NativeStep σ α :=
  match callback.function with
  | some function => NativeStep.onContext (apply function)
  | none => Fallible.fail

/-- `avz_native_dispatch_memory_read`. -/
def dispatchMemoryRead (address : U64) (width : Nat) : NativeStep σ U64 :=
  if callbacks.usesFastMemoryContext then
    NativeStep.onContext ((callbacks.fastMemory.tryReadHot address width).orElse
      (callbacks.fastMemory.read address width))
  else call callbacks.readMemory fun read => read address width

/-- `avz_native_dispatch_memory_write`. -/
def dispatchMemoryWrite (address : U64) (width : Nat) (value : U64) : NativeStep σ Unit :=
  if callbacks.usesFastMemoryContext then
    NativeStep.onContext ((callbacks.fastMemory.tryWriteHot address width value).orElse
      (callbacks.fastMemory.write address width value))
  else call callbacks.writeMemory fun write => write address width value

def canAccess (address : U64) (width : Nat) (isWrite : Bool) : NativeStep σ Unit :=
  call callbacks.canAccessMemory fun canAccess => canAccess address width isWrite

/-- A function of the fast path, where the context is one of it. -/
def ifFast (m : Fallible σ α) : NativeStep σ α :=
  if callbacks.usesFastMemoryContext then NativeStep.onContext m else Fallible.fail

end NativeCallbacks

end Pinecone
