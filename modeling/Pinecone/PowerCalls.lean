import Pinecone.VirtualCpus

/-! The PSCI calls of VirtualMachine.swift, which start virtual CPUs and tell which ones are on. -/

namespace Pinecone

/-- `AddressRange`. -/
structure AddressRange where
  start : U64
  length : U64

/-- `contains(_:width:)`. -/
def AddressRange.contains (range : AddressRange) (address : U64) (width : ℕ) : Bool :=
  0 < width && range.start.toNat ≤ address.toNat && address.toNat ≤ 2 ^ 64 - 1 - width &&
    address.toNat + width ≤ range.start.toNat + range.length.toNat

/-- `CPUState()`. -/
def CpuState.initial : CpuState := ⟨fun _ => 0, fun _ => (0, 0), 0, 0, 0, 0, false, none, none, none⟩

namespace SystemRegisterKey

def midrEl1 : SystemRegisterKey := systemRegisterRawKey 3 0 0 0 0
def ctrEl0 : SystemRegisterKey := systemRegisterRawKey 3 3 0 0 1
def dczidEl0 : SystemRegisterKey := systemRegisterRawKey 3 3 0 0 7
def mpidrEl1 : SystemRegisterKey := systemRegisterRawKey 3 0 0 0 5
def idAa64Pfr0El1 : SystemRegisterKey := systemRegisterRawKey 3 0 0 4 0
def cntfrqEl0 : SystemRegisterKey := systemRegisterRawKey 3 3 14 0 0

end SystemRegisterKey

namespace SystemRegisterBank

open SystemRegisterKey

/-- `defaultValues`; the registers that are not here are 0. -/
def defaultValues (key : SystemRegisterKey) : U64 :=
  if key = midrEl1 then 0x410fd034
  else if key = ctrEl0 then 0x8444c004
  else if key = dczidEl0 then 0x4
  else if key = mpidrEl1 then 0x80000000
  else if key = idAa64Pfr0El1 then 0x11
  else if key = cntfrqEl0 then 24000000
  else 0

/-- `reset(mpidr:counterTicks:)`. -/
def reset (mpidr counterTicks : U64) : SystemRegisterBank :=
  (SystemRegisterBank.mk defaultValues counterTicks).setStoredValue mpidrEl1 mpidr

end SystemRegisterBank

/-- `isPoweredOn`. -/
def VirtualCpuLifecycle.isPoweredOn (lifecycle : VirtualCpuLifecycle) : Bool :=
  lifecycle = .runnable || lifecycle = .waitingForInterrupt

/-- A virtual CPU that starts at the entry point, with the context in X0. -/
def VirtualCpu.started (mpidr counterTicks entryPoint context : U64) : VirtualCpu where
  cpu := { CpuState.initial with
    pc := entryPoint
    pstate := 0x3c5
    x := Function.update CpuState.initial.x 0 context }
  systemRegisters := SystemRegisterBank.reset mpidr counterTicks
  lifecycle := .runnable

/-- A virtual CPU that has been reset. -/
def VirtualCpu.reset (mpidr counterTicks entryPoint : U64) (lifecycle : VirtualCpuLifecycle) : VirtualCpu where
  cpu := { CpuState.initial with pc := entryPoint }
  systemRegisters := SystemRegisterBank.reset mpidr counterTicks
  lifecycle := lifecycle

namespace VirtualCpus

variable {n : ℕ} (cpus : VirtualCpus n)

/-- `mpidr(forVCPUID:)`. -/
def mpidr (id : ℕ) : U64 := 0x80000000 ||| BitVec.ofNat 64 (id % 256)

def setRecord (id : Fin n) (record : VirtualCpuRecord) : VirtualCpus n :=
  { cpus with records := Function.update cpus.records id record }

def lifecycle (id : Fin n) : VirtualCpuLifecycle := (cpus.records id).lifecycle

def setLifecycle (id : Fin n) (lifecycle : VirtualCpuLifecycle) : VirtualCpus n :=
  cpus.setRecord id { cpus.records id with lifecycle := lifecycle }

/-- `installExternalVirtualCPUState`. -/
def install (id : Fin n) (architecture : VirtualCpu) : VirtualCpus n :=
  { cpus with
    activeVcpuId := id
    records := Function.update cpus.records id (.ofArchitecture architecture)
    live := (VirtualCpuRecord.ofArchitecture architecture).fields.refreshCachedRegisters }

/-- `externalVirtualCPUStateSnapshot`. -/
def snapshot : VirtualCpu :=
  ⟨cpus.live.cpu, cpus.live.systemRegisters, cpus.lifecycle cpus.activeVcpuId⟩

/-- `resetVirtualCPUs`. -/
def reset {n : ℕ} (cpus : VirtualCpus (n + 1)) (entryPoint : U64) : VirtualCpus (n + 1) :=
  let records (id : Fin (n + 1)) : VirtualCpuRecord := .ofArchitecture
    (VirtualCpu.reset (mpidr id) 0 (if id = 0 then entryPoint else 0) (if id = 0 then .runnable else .offline))
  { cpus with
    records := records
    activeVcpuId := 0
    live := (records 0).fields.refreshCachedRegisters
    nextScheduledVcpuId := 0 }

/-! ## Starts -/

/-- `externalCPUStartHandler`, with what it changes. -/
abbrev StartHandler (n : ℕ) (σ : Type) := Fin n → U64 → U64 → σ → Bool × σ

variable {σ : Type}

/-- What `startVirtualCPU` asks before it starts anything. -/
def canStart (memory : AddressRange) (id : Fin n) (entryPoint : U64) : Bool :=
  id ≠ cpus.activeVcpuId && entryPoint &&& 0x3 = 0 && memory.contains entryPoint 4 &&
    !(cpus.lifecycle id).isPoweredOn

/-- The record of a virtual CPU that starts. -/
def markStarted (id : Fin n) (entryPoint context : U64) : VirtualCpus n :=
  cpus.setRecord id (.ofArchitecture
    (VirtualCpu.started (mpidr id) cpus.live.systemRegisters.counterTicks entryPoint context))

/-- `startVirtualCPU`. -/
def startVirtualCpu (memory : AddressRange) (handler : Option (StartHandler n σ)) (id : Fin n)
    (entryPoint context : U64) (s : σ) : Bool × VirtualCpus n × σ :=
  if cpus.canStart memory id entryPoint then
    let started := cpus.markStarted id entryPoint context
    match handler with
    | none => (true, started, s)
    | some handler =>
      let outcome := handler id entryPoint context s
      if outcome.1 then (true, started, outcome.2) else (false, started.setLifecycle id .offline, outcome.2)
  else (false, cpus, s)

/-! ## Firmware calls -/

def psciSuccess : U64 := 0
def psciNotSupported : U64 := -1
def psciInvalidParameters : U64 := -2
def psciAlreadyOn : U64 := -4

/-- The virtual CPU that a PSCI call names. -/
def psciTarget (n : ℕ) (target : U64) : Option (Fin n) :=
  let id := (target &&& 0xff).toNat
  if h : id < n then if target &&& 0x00ffffffffffff00 = 0 then some ⟨id, h⟩ else none else none

/-- `psciCPUOn`. -/
def psciCpuOn (memory : AddressRange) (handler : Option (StartHandler n σ)) (target entryPoint context : U64)
    (s : σ) : U64 × VirtualCpus n × σ :=
  match psciTarget n target with
  | none => (psciInvalidParameters, cpus, s)
  | some id =>
    if cpus.lifecycle id = .runnable then (psciAlreadyOn, cpus, s)
    else
      let outcome := cpus.startVirtualCpu memory handler id entryPoint context s
      (if outcome.1 then psciSuccess else psciInvalidParameters, outcome.2)

/-- `psciAffinityInfo`. -/
def psciAffinityInfo (target : U64) : U64 :=
  match psciTarget n target with
  | none => psciInvalidParameters
  | some id => if (cpus.lifecycle id).isPoweredOn then 0 else 1

local instance lawfulWord : LawfulBEq (BitVec 32) := inferInstance

def supportedPsciFunctions : List (BitVec 32) :=
  [0x84000000, 0x84000001, 0xc4000001, 0x84000003, 0xc4000003, 0x84000004, 0xc4000004, 0x84000006, 0x8400000a]

/-- The calls that `handleFirmwareCall` tells apart. -/
inductive FirmwareFunction
  | smcccVersion
  | psciVersion
  | cpuSuspend
  | cpuOn
  | affinityInfo
  | migrateInfoType
  | features
  | notSupported
  deriving DecidableEq

def FirmwareFunction.ofNumber (number : BitVec 32) : FirmwareFunction :=
  if number = 0x80000000 then .smcccVersion
  else if number = 0x84000000 then .psciVersion
  else if number = 0x84000001 ∨ number = 0xc4000001 then .cpuSuspend
  else if number = 0x84000003 ∨ number = 0xc4000003 then .cpuOn
  else if number = 0x84000004 ∨ number = 0xc4000004 then .affinityInfo
  else if number = 0x84000006 then .migrateInfoType
  else if number = 0x8400000a then .features
  else .notSupported

/-- The call that the active virtual CPU makes. -/
def firmwareFunction : FirmwareFunction := .ofNumber ((cpus.live.cpu.x 0).setWidth 32)

/-- The result in X0, and the next instruction. -/
def returnFromFirmware (result : U64) : VirtualCpus n :=
  let cpu := cpus.live.cpu
  { cpus with live := { cpus.live with cpu := { cpu with x := Function.update cpu.x 0 result, pc := cpu.pc + 4 } } }

/-- `handleFirmwareCall`, if the instruction is one. -/
def handleFirmwareCall (memory : AddressRange) (handler : Option (StartHandler n σ)) (instruction : BitVec 32)
    (s : σ) : Option (VirtualCpus n × σ) :=
  let encoding := instruction &&& 0xffe0001f
  if encoding = 0xd4000002 ∨ encoding = 0xd4000003 then
    let x := cpus.live.cpu.x
    match cpus.firmwareFunction with
    | .smcccVersion => some (cpus.returnFromFirmware 0x00010001, s)
    | .psciVersion => some (cpus.returnFromFirmware 0x00010001, s)
    | .cpuSuspend => some (cpus.returnFromFirmware psciSuccess, s)
    | .cpuOn =>
      let outcome := cpus.psciCpuOn memory handler (x 1) (x 2) (x 3) s
      some (outcome.2.1.returnFromFirmware outcome.1, outcome.2.2)
    | .affinityInfo => some (cpus.returnFromFirmware (cpus.psciAffinityInfo (x 1)), s)
    | .migrateInfoType => some (cpus.returnFromFirmware 2, s)
    | .features =>
      some (cpus.returnFromFirmware
        (if (x 1).setWidth 32 ∈ supportedPsciFunctions then psciSuccess else psciNotSupported), s)
    | .notSupported => some (cpus.returnFromFirmware psciNotSupported, s)
  else none

/-! ## What the calls do -/

variable {cpus} {memory : AddressRange} {handler : Option (StartHandler n σ)} {id : Fin n}
  {target entryPoint context : U64} {s : σ} {instruction : BitVec 32}

@[simp] theorem setRecord_activeVcpuId {record : VirtualCpuRecord} :
    (cpus.setRecord id record).activeVcpuId = cpus.activeVcpuId := rfl

@[simp] theorem setLifecycle_activeVcpuId {lifecycle : VirtualCpuLifecycle} :
    (cpus.setLifecycle id lifecycle).activeVcpuId = cpus.activeVcpuId := rfl

@[simp] theorem returnFromFirmware_activeVcpuId {result : U64} :
    (cpus.returnFromFirmware result).activeVcpuId = cpus.activeVcpuId := rfl

@[simp] theorem returnFromFirmware_lifecycle {result : U64} :
    (cpus.returnFromFirmware result).lifecycle id = cpus.lifecycle id := rfl

@[simp] theorem returnFromFirmware_result {result : U64} :
    (cpus.returnFromFirmware result).live.cpu.x 0 = result := by
  unfold returnFromFirmware
  simp

theorem setRecord_lifecycle {record : VirtualCpuRecord} (other : Fin n) :
    (cpus.setRecord id record).lifecycle other = if other = id then record.lifecycle else cpus.lifecycle other := by
  unfold setRecord lifecycle
  by_cases h : other = id
  · rw [if_pos h, h]
    exact congrArg VirtualCpuRecord.lifecycle (Function.update_self ..)
  · rw [if_neg h]
    exact congrArg VirtualCpuRecord.lifecycle (Function.update_of_ne h ..)

theorem setLifecycle_lifecycle {lifecycle : VirtualCpuLifecycle} (other : Fin n) :
    (cpus.setLifecycle id lifecycle).lifecycle other = if other = id then lifecycle else cpus.lifecycle other :=
  setRecord_lifecycle other

theorem markStarted_lifecycle (other : Fin n) : (cpus.markStarted id entryPoint context).lifecycle other =
    if other = id then .runnable else cpus.lifecycle other := setRecord_lifecycle other

theorem startVirtualCpu_frame {outcome : Bool × VirtualCpus n × σ}
    (h : cpus.startVirtualCpu memory handler id entryPoint context s = outcome) :
    outcome.2.1.activeVcpuId = cpus.activeVcpuId ∧ outcome.2.1.live = cpus.live ∧
      (outcome.2.2 = s ∨ ∃ start, handler = some start ∧ outcome.2.2 = (start id entryPoint context s).2) := by
  subst h
  unfold startVirtualCpu
  split
  · cases handler with
    | none => exact ⟨rfl, rfl, .inl rfl⟩
    | some start =>
      dsimp only
      split <;> exact ⟨rfl, rfl, .inr ⟨start, rfl, rfl⟩⟩
  · exact ⟨rfl, rfl, .inl rfl⟩

theorem psciCpuOn_frame {outcome : U64 × VirtualCpus n × σ}
    (h : cpus.psciCpuOn memory handler target entryPoint context s = outcome) :
    outcome.2.1.activeVcpuId = cpus.activeVcpuId ∧ outcome.2.1.live = cpus.live ∧
      (outcome.2.2 = s ∨ ∃ start id, handler = some start ∧ outcome.2.2 = (start id entryPoint context s).2) := by
  subst h
  unfold psciCpuOn
  cases psciTarget n target with
  | none => exact ⟨rfl, rfl, .inl rfl⟩
  | some id =>
    dsimp only
    split
    · exact ⟨rfl, rfl, .inl rfl⟩
    · obtain ⟨hactive, hlive, hs⟩ := @startVirtualCpu_frame n cpus σ memory handler id entryPoint context s _ rfl
      exact ⟨hactive, hlive, hs.imp_right fun ⟨start, hstart⟩ => ⟨start, id, hstart⟩⟩

theorem handleFirmwareCall_cases {outcome : VirtualCpus n × σ}
    (h : cpus.handleFirmwareCall memory handler instruction s = some outcome) :
    (cpus.firmwareFunction ≠ .cpuOn ∧ ∃ result, outcome = (cpus.returnFromFirmware result, s) ∧
      (cpus.firmwareFunction = .affinityInfo → result = cpus.psciAffinityInfo (cpus.live.cpu.x 1))) ∨
    (cpus.firmwareFunction = .cpuOn ∧ ∃ called, called = cpus.psciCpuOn memory handler (cpus.live.cpu.x 1)
        (cpus.live.cpu.x 2) (cpus.live.cpu.x 3) s ∧
      outcome = (called.2.1.returnFromFirmware called.1, called.2.2)) := by
  unfold handleFirmwareCall at h
  dsimp only at h
  split at h
  · cases hfunction : cpus.firmwareFunction with
    | cpuOn =>
      rw [hfunction] at h
      exact .inr ⟨rfl, _, rfl, (Option.some.inj h).symm⟩
    | affinityInfo =>
      rw [hfunction] at h
      exact .inl ⟨nofun, _, (Option.some.inj h).symm, fun _ => rfl⟩
    | _ =>
      rw [hfunction] at h
      exact .inl ⟨nofun, _, (Option.some.inj h).symm, nofun⟩
  · cases h

theorem handleFirmwareCall_frame {outcome : VirtualCpus n × σ}
    (h : cpus.handleFirmwareCall memory handler instruction s = some outcome) :
    outcome.1.activeVcpuId = cpus.activeVcpuId ∧
      (outcome.2 = s ∨ ∃ start id entryPoint context, handler = some start ∧
        outcome.2 = (start id entryPoint context s).2) := by
  rcases handleFirmwareCall_cases h with ⟨_, result, rfl, _⟩ | ⟨_, called, hcalled, rfl⟩
  · exact ⟨rfl, .inl rfl⟩
  · obtain ⟨hactive, _, hs⟩ := psciCpuOn_frame hcalled.symm
    exact ⟨hactive, hs.imp_right fun ⟨start, id, hstart⟩ => ⟨start, id, _, _, hstart⟩⟩

end VirtualCpus

end Pinecone
