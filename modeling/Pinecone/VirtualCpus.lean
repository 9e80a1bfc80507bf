import Pinecone.CooperativeCpus
import Pinecone.GenericTimers

/-! The virtual CPUs of VirtualMachine.swift: the records they are kept in while another one runs,
and the fields of the machine that hold the active one. -/

namespace Pinecone

/-- `CPUState`. -/
structure CpuState where
  x : Fin 31 → U64
  v : Fin 32 → U64 × U64
  sp : U64
  spEl1 : U64
  pc : U64
  pstate : U64
  halted : Bool
  exclusiveReservationAddress : Option U64
  exclusiveReservationSize : Option ℕ
  exclusiveReservationGeneration : Option U64

/-- `VirtualCPULifecycle`. -/
inductive VirtualCpuLifecycle
  | offline
  | runnable
  | waitingForInterrupt
  | halted
  deriving DecidableEq

/-- `VirtualCPUArchitecturalState`, whose `id` is its index. -/
structure VirtualCpu where
  cpu : CpuState
  systemRegisters : SystemRegisterBank
  lifecycle : VirtualCpuLifecycle

/-- `synchronizeCounterTicks` of the virtual CPU's registers. -/
def VirtualCpu.synchronizeCounterTicks (cpu : VirtualCpu) (counterTicks : U64) : VirtualCpu :=
  { cpu with systemRegisters := cpu.systemRegisters.synchronizeCounterTicks counterTicks }

/-- What the machine holds of the active virtual CPU, and `VirtualCPURuntime` of every one. -/
structure VirtualCpuFields where
  cpu : CpuState
  systemRegisters : SystemRegisterBank
  translationCache : TranslationCacheKey → Option U64
  cachedRegisters : TranslationRegisters
  nextGenericTimerRefreshTick : U64

/-- `VirtualCPURuntime`. -/
structure VirtualCpuRecord where
  fields : VirtualCpuFields
  lifecycle : VirtualCpuLifecycle

namespace VirtualCpuRecord

variable (record : VirtualCpuRecord)

/-- The `architecture` of the record. -/
def architecture : VirtualCpu :=
  ⟨record.fields.cpu, record.fields.systemRegisters, record.lifecycle⟩

/-- `VirtualCPURuntime(architecture:)`: the other fields take their defaults. -/
def ofArchitecture (cpu : VirtualCpu) : VirtualCpuRecord where
  fields :=
    { cpu := cpu.cpu
      systemRegisters := cpu.systemRegisters
      translationCache := fun _ => none
      cachedRegisters := .reset
      nextGenericTimerRefreshTick := 0 }
  lifecycle := cpu.lifecycle

/-- `architecture.systemRegisters.synchronizeCounterTicks`. -/
def synchronizeCounterTicks (counterTicks : U64) : VirtualCpuRecord :=
  { record with fields := { record.fields with
      systemRegisters := record.fields.systemRegisters.synchronizeCounterTicks counterTicks } }

end VirtualCpuRecord

/-- `refreshCachedTranslationRegisters`. -/
def VirtualCpuFields.refreshCachedRegisters (fields : VirtualCpuFields) : VirtualCpuFields :=
  { fields with cachedRegisters :=
      { sctlrEl1 := fields.systemRegisters.storage SystemRegisterKey.sctlrEl1
        tcrEl1 := fields.systemRegisters.storage SystemRegisterKey.tcrEl1
        ttbr0El1 := fields.systemRegisters.storage SystemRegisterKey.ttbr0El1
        ttbr1El1 := fields.systemRegisters.storage SystemRegisterKey.ttbr1El1 } }

/-- The virtual CPUs of a machine: their records, and the live fields of the active one. -/
structure VirtualCpus (n : ℕ) where
  records : Fin n → VirtualCpuRecord
  activeVcpuId : Fin n
  live : VirtualCpuFields
  nextScheduledVcpuId : Fin n

namespace VirtualCpus

variable {n : ℕ} (cpus : VirtualCpus n)

/-- `saveActiveVirtualCPU`. -/
def saveActive : VirtualCpus n :=
  let saved : VirtualCpuRecord := { cpus.records cpus.activeVcpuId with fields := cpus.live }
  { cpus with records := Function.update cpus.records cpus.activeVcpuId saved }

/-- `virtualCPUStates` of a cooperative machine. -/
def states (id : Fin n) : VirtualCpu :=
  (cpus.saveActive.records id).architecture.synchronizeCounterTicks
    cpus.live.systemRegisters.counterTicks

end VirtualCpus

end Pinecone
