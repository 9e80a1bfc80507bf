import Pinecone.NativeCpu

/-! Exception entry and return with the banked stack pointers: the native fast callbacks of
ARM64VizGuestMemory.c and the Swift callbacks of EmulatorBackend.swift. -/

namespace Pinecone

inductive StackPointerBank
  | spEl0
  | spEl1
  deriving DecidableEq, Repr

/-- `CPUState.stackPointerBank(for:)`. -/
def stackPointerBank (pstate : U64) : StackPointerBank :=
  let exceptionLevel := (pstate >>> 2) &&& 0x3#64
  if exceptionLevel = 0#64 then .spEl0
  else if exceptionLevel = 1#64 ∧ pstate &&& 0x1#64 = 0#64 then .spEl0
  else .spEl1

/-- The registers that both `AVZNativeArchitecturalState` and the virtual machine hold. On
the Swift side `spEl1` is `CPUState.spEL1`, the others are stored system registers. -/
inductive ExceptionRegister
  | spEl0
  | spEl1
  | spsrEl1
  | elrEl1
  | esrEl1
  | farEl1
  | vbarEl1
  deriving DecidableEq, Repr

/-- The registers an MSR or MRS names here. SPSel is a plain stored register of the virtual
machine, to which both sides come through the slow callback. -/
inductive ExceptionSystemRegister
  | spEl0
  | spsrEl1
  | elrEl1
  | esrEl1
  | farEl1
  | vbarEl1
  | spSel
  deriving DecidableEq, Repr

/-- What the virtual machine stores. -/
structure StoredExceptionState where
  registers : ExceptionRegister → U64
  spSel : U64

/-- The sequence of instructions, each with the fields it decodes to. The new SP of an
instruction that writes it may be computed from all of the register state. -/
inductive ExceptionInstruction
  | svc (immediate : BitVec 16)
  | eret
  | msr (register : ExceptionSystemRegister) (rt : BitVec 5)
  | mrs (register : ExceptionSystemRegister) (rt : BitVec 5)
  | writeSp (compute : NativeCpu → U64)

/-- `synchronousVectorOffset`, and `vector_offset` of the fast callback. -/
def synchronousVectorOffset (pstate : U64) : U64 :=
  if (pstate >>> 2) &&& 0x3#64 = 0#64 then 0x400
  else if pstate &&& 0x1#64 = 0#64 then 0 else 0x200

def el1hMasked : U64 := 0x3c5

/-- The native side: the resident CPU, `architectural_state` with its dirty mask, and the
virtual machine it was loaded from. -/
structure NativeExceptionState where
  cpu : NativeCpu
  architecturalState : ExceptionRegister → U64
  dirtyMask : ExceptionRegister → Bool
  vm : StoredExceptionState

/-- The Swift side: the resident CPU and the virtual machine its callbacks change. -/
structure SwiftExceptionState where
  cpu : NativeCpu
  vm : StoredExceptionState

namespace NativeExceptionState

def setRegister (s : NativeExceptionState) (register : ExceptionRegister) (value : U64) :
    NativeExceptionState :=
  { s with
    architecturalState := Function.update s.architecturalState register value
    dirtyMask := Function.update s.dirtyMask register true }

/-- The bank switch that both fast callbacks begin with, on SPSel alone. -/
def saveStackPointer (s : NativeExceptionState) : NativeExceptionState :=
  s.setRegister (if s.cpu.pstate &&& 1#64 = 0#64 then .spEl0 else .spEl1) s.cpu.sp

/-- `avz_native_fast_synchronous_exception` of an SVC, and the reservation its case clears. -/
def synchronousException (s : NativeExceptionState) (immediate : BitVec 16) :
    NativeExceptionState :=
  let previousPstate := s.cpu.pstate
  let s := s.saveStackPointer
  let s := s.setRegister .spsrEl1 previousPstate
  let s := s.setRegister .elrEl1 (s.cpu.pc + 4)
  let s := s.setRegister .esrEl1 ((0x15#64 <<< 26) ||| immediate.setWidth 64)
  { s with cpu := { s.cpu with
      sp := s.architecturalState .spEl1
      pstate := el1hMasked
      pc := s.architecturalState .vbarEl1 + synchronousVectorOffset previousPstate
    }.clearExclusiveReservation }

/-- `avz_native_fast_exception_return`. -/
def exceptionReturn (s : NativeExceptionState) : NativeExceptionState :=
  let newPstate := s.architecturalState .spsrEl1
  let s := s.saveStackPointer
  { s with cpu := { s.cpu with
      sp := s.architecturalState (if newPstate &&& 1#64 = 0#64 then .spEl0 else .spEl1)
      pstate := newPstate
      pc := s.architecturalState .elrEl1 } }

/-- `avz_native_fast_write_system_register`. -/
def writeSystemRegister (s : NativeExceptionState) (register : ExceptionSystemRegister)
    (value : U64) : NativeExceptionState :=
  match register with
  | .spEl0 =>
    if s.cpu.pstate &&& 1#64 = 0#64 then
      { s with
        cpu := { s.cpu with sp := value }
        dirtyMask := Function.update s.dirtyMask .spEl0 true }
    else s.setRegister .spEl0 value
  | .spsrEl1 => s.setRegister .spsrEl1 value
  | .elrEl1 => s.setRegister .elrEl1 value
  | .esrEl1 => s.setRegister .esrEl1 value
  | .farEl1 => s.setRegister .farEl1 value
  | .vbarEl1 => s.setRegister .vbarEl1 value
  | .spSel => { s with vm := { s.vm with spSel := value } }

/-- `avz_native_fast_read_system_register`. -/
def readSystemRegister (s : NativeExceptionState) (register : ExceptionSystemRegister) : U64 :=
  match register with
  | .spEl0 => if s.cpu.pstate &&& 1#64 = 0#64 then s.cpu.sp else s.architecturalState .spEl0
  | .spsrEl1 => s.architecturalState .spsrEl1
  | .elrEl1 => s.architecturalState .elrEl1
  | .esrEl1 => s.architecturalState .esrEl1
  | .farEl1 => s.architecturalState .farEl1
  | .vbarEl1 => s.architecturalState .vbarEl1
  | .spSel => s.vm.spSel

def execute (s : NativeExceptionState) : ExceptionInstruction → NativeExceptionState
  | .svc immediate => s.synchronousException immediate
  | .eret => s.exceptionReturn
  | .msr register rt =>
    let s' := s.writeSystemRegister register (s.cpu.readRegister rt.toNat)
    { s' with cpu := { s'.cpu with pc := s.cpu.pc + 4 } }
  | .mrs register rt =>
    { s with cpu := { s.cpu.writeRegister rt.toNat (s.readSystemRegister register) with
        pc := s.cpu.pc + 4 } }
  | .writeSp compute => { s with cpu := { s.cpu with sp := compute s.cpu, pc := s.cpu.pc + 4 } }

/-- The dirty registers written back to the virtual machine when a burst ends. -/
def writeBack (s : NativeExceptionState) : SwiftExceptionState where
  cpu := s.cpu
  vm := { s.vm with
    registers := fun register =>
      if s.dirtyMask register then s.architecturalState register else s.vm.registers register }

end NativeExceptionState

namespace SwiftExceptionState

/-- The start of a burst: `executeNativeBasicBlockBurst` loads the architectural state. -/
def load (s : SwiftExceptionState) : NativeExceptionState where
  cpu := s.cpu
  architecturalState := fun register =>
    match register with
    | .spEl0 => if stackPointerBank s.cpu.pstate = .spEl0 then s.cpu.sp else s.vm.registers .spEl0
    | .spEl1 => if stackPointerBank s.cpu.pstate = .spEl0 then s.vm.registers .spEl1 else s.cpu.sp
    | other => s.vm.registers other
  dirtyMask := fun _ => false
  vm := s.vm

def setRegister (s : SwiftExceptionState) (register : ExceptionRegister) (value : U64) :
    SwiftExceptionState :=
  { s with vm := { s.vm with registers := Function.update s.vm.registers register value } }

/-- `switchActiveStackPointer(from:to:)`. -/
def switchActiveStackPointer (s : SwiftExceptionState) (oldPstate newPstate : U64) :
    SwiftExceptionState :=
  let s := match stackPointerBank oldPstate with
    | .spEl0 => s.setRegister .spEl0 s.cpu.sp
    | .spEl1 => s.setRegister .spEl1 s.cpu.sp
  let sp := match stackPointerBank newPstate with
    | .spEl0 => s.vm.registers .spEl0
    | .spEl1 => s.vm.registers .spEl1
  { s with cpu := { s.cpu with sp := sp } }

/-- `routeSupervisorCall`, by `nativeSynchronousException`. The two additions trap the
process when they overflow: `none`. -/
def routeSupervisorCall (s : SwiftExceptionState) (immediate : BitVec 16) :
    Option SwiftExceptionState :=
  let previousPstate := s.cpu.pstate
  let vectorBase := s.vm.registers .vbarEl1
  let vectorOffset := synchronousVectorOffset previousPstate
  if 2 ^ 64 ≤ s.cpu.pc.toNat + 4 ∨ 2 ^ 64 ≤ vectorBase.toNat + vectorOffset.toNat then none
  else
    let iss := immediate.setWidth 64
    let syndrome := (0x15#64 <<< 26) ||| (1#64 <<< 25) ||| (iss &&& 0x01ffffff#64)
    let s := s.setRegister .spsrEl1 previousPstate
    let s := s.setRegister .elrEl1 (s.cpu.pc + 4)
    let s := s.setRegister .esrEl1 syndrome
    let s := s.switchActiveStackPointer previousPstate el1hMasked
    some { s with cpu := { s.cpu with
        pstate := el1hMasked
        pc := vectorBase + vectorOffset }.clearExclusiveReservation }

/-- `nativeExceptionReturn`. -/
def exceptionReturn (s : SwiftExceptionState) : SwiftExceptionState :=
  let newPstate := s.vm.registers .spsrEl1
  let s := s.switchActiveStackPointer s.cpu.pstate newPstate
  { s with cpu := { s.cpu with
      pstate := newPstate
      pc := s.vm.registers .elrEl1 } }

/-- `ARM64SystemRegisterBank.write`. -/
def writeSystemRegister (s : SwiftExceptionState) (register : ExceptionSystemRegister)
    (value : U64) : SwiftExceptionState :=
  match register with
  | .spEl0 =>
    if stackPointerBank s.cpu.pstate = .spEl0 then { s with cpu := { s.cpu with sp := value } }
    else s.setRegister .spEl0 value
  | .spsrEl1 => s.setRegister .spsrEl1 value
  | .elrEl1 => s.setRegister .elrEl1 value
  | .esrEl1 => s.setRegister .esrEl1 value
  | .farEl1 => s.setRegister .farEl1 value
  | .vbarEl1 => s.setRegister .vbarEl1 value
  | .spSel => { s with vm := { s.vm with spSel := value } }

/-- `ARM64SystemRegisterBank.read`. -/
def readSystemRegister (s : SwiftExceptionState) (register : ExceptionSystemRegister) : U64 :=
  match register with
  | .spEl0 => if stackPointerBank s.cpu.pstate = .spEl0 then s.cpu.sp else s.vm.registers .spEl0
  | .spsrEl1 => s.vm.registers .spsrEl1
  | .elrEl1 => s.vm.registers .elrEl1
  | .esrEl1 => s.vm.registers .esrEl1
  | .farEl1 => s.vm.registers .farEl1
  | .vbarEl1 => s.vm.registers .vbarEl1
  | .spSel => s.vm.spSel

def execute (s : SwiftExceptionState) : ExceptionInstruction → Option SwiftExceptionState
  | .svc immediate => s.routeSupervisorCall immediate
  | .eret => some s.exceptionReturn
  | .msr register rt =>
    let s' := s.writeSystemRegister register (s.cpu.readRegister rt.toNat)
    some { s' with cpu := { s'.cpu with pc := s.cpu.pc + 4 } }
  | .mrs register rt =>
    some { s with cpu := { s.cpu.writeRegister rt.toNat (s.readSystemRegister register) with
        pc := s.cpu.pc + 4 } }
  | .writeSp compute =>
    some { s with cpu := { s.cpu with sp := compute s.cpu, pc := s.cpu.pc + 4 } }

/-- SP_EL0 and SP_EL1 as the architecture defines them: SP is the one in use. -/
def bankedStackPointer (s : SwiftExceptionState) : StackPointerBank → U64
  | .spEl0 => if stackPointerBank s.cpu.pstate = .spEl0 then s.cpu.sp else s.vm.registers .spEl0
  | .spEl1 => if stackPointerBank s.cpu.pstate = .spEl1 then s.cpu.sp else s.vm.registers .spEl1

end SwiftExceptionState

end Pinecone
