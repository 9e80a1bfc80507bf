import Pinecone.TranslationCache
import Pinecone.SwiftWalk

/-! The translation cache of VirtualMachine.swift and the swapping of it between
cooperatively scheduled virtual CPUs. -/

namespace Pinecone

/-- The system registers that translation reads. -/
structure TranslationRegisters where
  sctlrEl1 : U64
  tcrEl1 : U64
  ttbr0El1 : U64
  ttbr1El1 : U64
  deriving DecidableEq, Repr

/-- The registers whose writes `didWriteSystemRegister` reacts to for translation. -/
inductive TranslationRegisterKey
  | sctlrEl1
  | tcrEl1
  | mairEl1
  | ttbr0El1
  | ttbr1El1
  deriving DecidableEq, Repr

namespace TranslationRegisters

def reset : TranslationRegisters := ⟨0, 0, 0, 0⟩

/-- `ARM64SystemRegisterBank.write` of these registers; no walk reads MAIR. -/
def write (registers : TranslationRegisters) (key : TranslationRegisterKey) (value : U64) :
    TranslationRegisters :=
  match key with
  | .sctlrEl1 => { registers with sctlrEl1 := value }
  | .tcrEl1 => { registers with tcrEl1 := value }
  | .mairEl1 => registers
  | .ttbr0El1 => { registers with ttbr0El1 := value }
  | .ttbr1El1 => { registers with ttbr1El1 := value }

def ttbr (registers : TranslationRegisters) (virtualAddress : U64) : U64 :=
  if virtualAddress >>> 63 = 1#64 then registers.ttbr1El1 else registers.ttbr0El1

end TranslationRegisters

def MemoryAccess.translationCacheDiscriminator : MemoryAccess → U64
  | .instruction => 0
  | .read => 1
  | .write => 2

/-- `ARM64TranslationCacheKey`. -/
structure TranslationCacheKey where
  virtualPage : U64
  access : U64
  exceptionLevel : U64
  sctlr : U64
  tcr : U64
  ttbr : U64
  deriving DecidableEq, Repr

/-- `VirtualCPURuntime`, which holds the same fields as the machine's live ones. -/
structure VirtualCpuRuntime where
  pstate : U64
  systemRegisters : TranslationRegisters
  translationCache : TranslationCacheKey → Option U64
  cachedRegisters : TranslationRegisters

namespace VirtualCpuRuntime

/-- `VirtualCPURuntime(architecture:)`: the other fields take their defaults. -/
def ofArchitecture (pstate : U64) (systemRegisters : TranslationRegisters) : VirtualCpuRuntime :=
  ⟨pstate, systemRegisters, fun _ => none, .reset⟩

/-- `refreshCachedTranslationRegisters`. -/
def refreshCachedRegisters (cpu : VirtualCpuRuntime) : VirtualCpuRuntime :=
  { cpu with cachedRegisters := cpu.systemRegisters }

def removeAll (cpu : VirtualCpuRuntime) : VirtualCpuRuntime :=
  { cpu with translationCache := fun _ => none }

def key (cpu : VirtualCpuRuntime) (virtualAddress : U64) (access : MemoryAccess) :
    TranslationCacheKey where
  virtualPage := virtualAddress &&& ~~~0xfff#64
  access := access.translationCacheDiscriminator
  exceptionLevel := (cpu.pstate >>> 2) &&& 0x3#64
  sctlr := cpu.cachedRegisters.sctlrEl1
  tcr := cpu.cachedRegisters.tcrEl1
  ttbr := cpu.cachedRegisters.ttbr virtualAddress

/-- `didWriteSystemRegister` after the write itself. -/
def writeSystemRegister (cpu : VirtualCpuRuntime) (key : TranslationRegisterKey) (value : U64) :
    VirtualCpuRuntime :=
  let cpu := { cpu with systemRegisters := cpu.systemRegisters.write key value }
  match key with
  | .sctlrEl1 | .tcrEl1 | .mairEl1 => cpu.refreshCachedRegisters.removeAll
  | .ttbr0El1 | .ttbr1El1 => cpu.refreshCachedRegisters

end VirtualCpuRuntime

/-- `avz_native_decode_tlbi`; the flag says whether the instruction is broadcast. -/
def decodeTlbi (instruction : BitVec 32) (operand tcrEl1 : U64) : Tlbi × Bool :=
  let crm := (instruction >>> 8) &&& 15#32
  let op2 := (instruction >>> 5) &&& 7#32
  if instruction &&& 0xfff8f000#32 ≠ 0xd5088000#32 ∨ (instruction >>> 16) &&& 7#32 ≠ 0#32 ∨
      (crm ≠ 7#32 ∧ crm ≠ 3#32 ∧ crm ≠ 1#32) ∨ op2 = 4#32 ∨ op2 = 6#32 then
    (⟨0, 0, tlbiAll⟩, true)
  else
    let asid := (operand >>> 48).setWidth 16
    let asid := if tcrEl1 &&& (1#64 <<< 36) = 0#64 then asid &&& 0xff#16 else asid
    let virtualAddress := (operand &&& 0x00000fffffffffff#64) <<< 12
    let kind := if op2 = 1#32 ∨ op2 = 5#32 then tlbiVaAsid
      else if op2 = 2#32 then tlbiAsid
      else if op2 = 3#32 ∨ op2 = 7#32 then tlbiVaAllAsids
      else tlbiAll
    (⟨virtualAddress, asid, kind⟩, crm ≠ 7#32)

/-- A walk that filled a cache, with the machine it was made in. -/
structure SwiftFill where
  vm : VirtualMachine
  virtualAddress : U64
  access : MemoryAccess
  physicalAddress : U64

/-- What a step did, as far as the caches are concerned. -/
inductive CooperativeEntry
  | filled (vcpu : Nat) (fill : SwiftFill)
  | invalidated (vcpu : Nat) (tlbi : Tlbi) (broadcast : Bool)
  | observed

/-- `VirtualMachine` with its scheduler. `live` are the fields of the machine itself,
which belong to the active virtual CPU. -/
structure CooperativeMachine where
  memory : GuestRam
  mmio : U64 → Option U64
  virtualCpus : Nat → VirtualCpuRuntime
  activeVcpuId : Nat
  live : VirtualCpuRuntime
  translationEpoch : U64
  observedSharedTranslationEpoch : U64

namespace CooperativeMachine

/-- What the translator reads, for the active virtual CPU. -/
def vm (m : CooperativeMachine) : VirtualMachine where
  memory := m.memory
  mmio := m.mmio
  sctlrEl1 := m.live.systemRegisters.sctlrEl1
  tcrEl1 := m.live.systemRegisters.tcrEl1
  ttbr0El1 := m.live.systemRegisters.ttbr0El1
  ttbr1El1 := m.live.systemRegisters.ttbr1El1
  pstate := m.live.pstate

def saveActiveVirtualCpu (m : CooperativeMachine) : CooperativeMachine :=
  { m with virtualCpus := Function.update m.virtualCpus m.activeVcpuId m.live }

def activateVirtualCpu (m : CooperativeMachine) (id : Nat) : CooperativeMachine :=
  if id = m.activeVcpuId then m
  else
    let m := m.saveActiveVirtualCpu
    { m with activeVcpuId := id, live := m.virtualCpus id }

/-- The head of `translateAddress`, which picks up the shared epoch. -/
def synchronizeTranslations (m : CooperativeMachine) : CooperativeMachine :=
  if m.translationEpoch = m.observedSharedTranslationEpoch then m
  else { m with live := m.live.removeAll, observedSharedTranslationEpoch := m.translationEpoch }

/-- `translateAddress` answers from the cache. -/
def answersFromCache (m : CooperativeMachine) (virtualAddress : U64) (access : MemoryAccess) :
    Option U64 :=
  let cpu := m.synchronizeTranslations.live
  if cpu.cachedRegisters.sctlrEl1 &&& 0x1#64 = 0#64 then none
  else (cpu.translationCache (cpu.key virtualAddress access)).map
    fun physicalPage => physicalPage ||| (virtualAddress &&& 0xfff#64)

def translateAddress (m : CooperativeMachine) (virtualAddress : U64) (access : MemoryAccess) :
    Except Arm64TranslationFault U64 × CooperativeMachine × List CooperativeEntry :=
  match m.answersFromCache virtualAddress access with
  | some physicalAddress => (.ok physicalAddress, m.synchronizeTranslations, [.observed])
  | none =>
    let m := m.synchronizeTranslations
    if m.live.cachedRegisters.sctlrEl1 &&& 0x1#64 = 0#64 then
      (.ok virtualAddress, m, [.observed])
    else
      match swiftTranslate m.vm virtualAddress access with
      | .error fault => (.error fault, m, [.observed])
      | .ok physicalAddress =>
        (.ok physicalAddress,
          { m with live := { m.live with
              translationCache := Function.update m.live.translationCache
                (m.live.key virtualAddress access) (some (physicalAddress &&& ~~~0xfff#64)) } },
          [.filled m.activeVcpuId ⟨m.vm, virtualAddress, access, physicalAddress⟩, .observed])

/-- The epoch part of `avz_guest_memory_publish_tlbi`. -/
def publishTranslationInvalidation (m : CooperativeMachine) : CooperativeMachine :=
  { m with translationEpoch := if m.translationEpoch + 1 = 0#64 then 1 else m.translationEpoch + 1 }

def executeSystemMaintenanceInstruction (m : CooperativeMachine) (instruction : BitVec 32)
    (operand : U64) : CooperativeMachine × List CooperativeEntry :=
  if (instruction >>> 12) &&& 0xf#32 ≠ 8#32 then (m, [])
  else
    let (invalidation, broadcast) := decodeTlbi instruction operand m.live.cachedRegisters.tcrEl1
    let m := if broadcast then m.publishTranslationInvalidation else m
    ({ m with live := m.live.removeAll }, [.invalidated m.activeVcpuId invalidation broadcast])

/-- `restoreVirtualCPUStates`; a state is PSTATE with the system registers. -/
def restoreVirtualCpuStates (m : CooperativeMachine) (states : Nat → U64 × TranslationRegisters)
    (activeVcpuId : Nat) : CooperativeMachine :=
  let virtualCpus := fun id => VirtualCpuRuntime.ofArchitecture (states id).1 (states id).2
  { m with
    virtualCpus := virtualCpus
    activeVcpuId := activeVcpuId
    live := { m.live with
        pstate := (states activeVcpuId).1
        systemRegisters := (states activeVcpuId).2 }.removeAll.refreshCachedRegisters
  }.saveActiveVirtualCpu

/-- `resetVirtualCPUs`. -/
def resetVirtualCpus (m : CooperativeMachine) : CooperativeMachine :=
  { m with
    activeVcpuId := 0
    virtualCpus := fun _ => .ofArchitecture 0 .reset
    live := (VirtualCpuRuntime.ofArchitecture 0 .reset).refreshCachedRegisters
  }.saveActiveVirtualCpu

/-- `startVirtualCPU`; its other guards only refuse more calls. -/
def startVirtualCpu (m : CooperativeMachine) (id : Nat) : CooperativeMachine :=
  if id = m.activeVcpuId then m
  else { m with virtualCpus := Function.update m.virtualCpus id (.ofArchitecture 0x3c5 .reset) }

end CooperativeMachine

inductive CooperativeEvent
  | activate (id : Nat)
  | translate (virtualAddress : U64) (access : MemoryAccess)
  | storeMemory (memory : GuestRam)
  | changeDevices (mmio : U64 → Option U64)
  | maintenance (instruction : BitVec 32) (operand : U64)
  | writeSystemRegister (key : TranslationRegisterKey) (value : U64)
  | setPstate (pstate : U64)
  | restore (states : Nat → U64 × TranslationRegisters) (activeVcpuId : Nat)
  | start (id : Nat)
  | reset

namespace CooperativeMachine

def run (m : CooperativeMachine) : CooperativeEvent → CooperativeMachine × List CooperativeEntry
  | .activate id => (m.activateVirtualCpu id, [])
  | .translate virtualAddress access => (m.translateAddress virtualAddress access).2
  | .storeMemory memory => ({ m with memory := memory }, [])
  | .changeDevices mmio => ({ m with mmio := mmio }, [])
  | .maintenance instruction operand => m.executeSystemMaintenanceInstruction instruction operand
  | .writeSystemRegister key value => ({ m with live := m.live.writeSystemRegister key value }, [])
  | .setPstate pstate => ({ m with live := { m.live with pstate := pstate } }, [])
  | .restore states activeVcpuId => (m.restoreVirtualCpuStates states activeVcpuId, [])
  | .start id => (m.startVirtualCpu id, [])
  | .reset => (m.resetVirtualCpus, [])

/-- `VirtualMachine.init`: every cache is empty and the epoch is observed. -/
def Initial (m : CooperativeMachine) : Prop :=
  (∀ id, m.virtualCpus id = .ofArchitecture 0 .reset) ∧ m.live = .ofArchitecture 0 .reset ∧
    m.observedSharedTranslationEpoch = m.translationEpoch

def system : LoggedSystem CooperativeMachine CooperativeEvent CooperativeEntry where
  initial := Initial
  step m event m' new := m.run event = (m', new)

/-- The state that belongs to a virtual CPU: the live fields while it is active. -/
def runtime (m : CooperativeMachine) (id : Nat) : VirtualCpuRuntime :=
  if id = m.activeVcpuId then m.live else m.virtualCpus id

@[simp] theorem runtime_active (m : CooperativeMachine) : m.runtime m.activeVcpuId = m.live :=
  if_pos rfl

theorem runtime_of_ne {m : CooperativeMachine} {id : Nat} (h : id ≠ m.activeVcpuId) :
    m.runtime id = m.virtualCpus id :=
  if_neg h

theorem runtime_saveActiveVirtualCpu (m : CooperativeMachine) (id : Nat) :
    m.saveActiveVirtualCpu.runtime id = m.runtime id := by
  by_cases h : id = m.activeVcpuId
  · simp [runtime, saveActiveVirtualCpu, h]
  · simp [runtime, saveActiveVirtualCpu, h]

theorem runtime_activateVirtualCpu (m : CooperativeMachine) (next id : Nat) :
    (m.activateVirtualCpu next).runtime id = m.runtime id := by
  unfold activateVirtualCpu
  by_cases hnext : next = m.activeVcpuId
  · rw [if_pos hnext]
  · rw [if_neg hnext, ← runtime_saveActiveVirtualCpu m id]
    by_cases h : id = next
    · have hsaved : (m.saveActiveVirtualCpu).activeVcpuId = m.activeVcpuId := rfl
      rw [runtime_of_ne (show id ≠ m.saveActiveVirtualCpu.activeVcpuId from h ▸ hnext), h]
      exact if_pos rfl
    · rw [runtime_of_ne (show id ≠ next from h)]
      by_cases hactive : id = m.activeVcpuId
      · simp [runtime, saveActiveVirtualCpu, hactive]
      · rw [runtime_of_ne (show id ≠ m.saveActiveVirtualCpu.activeVcpuId from hactive)]

theorem runtime_live_of_ne {m : CooperativeMachine} {id : Nat} (h : id ≠ m.activeVcpuId)
    (live : VirtualCpuRuntime) : ({ m with live := live }).runtime id = m.runtime id := by
  simp [runtime, h]

end CooperativeMachine

end Pinecone
