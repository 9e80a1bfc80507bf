import Pinecone.VcpuCluster

/-! The scheduler of VirtualMachine.swift, which runs the virtual CPUs in turn on the machine's thread. -/

namespace Pinecone

namespace VirtualCpus

section Wake

variable {n : ℕ}

/-- What `wakeVirtualCPUsForPendingInterrupts` does for one virtual CPU. -/
def wakeWaiting (counterTicks : U64) (machine : VirtualCpus n × SimpleInterruptController) (id : Fin n) :
    VirtualCpus n × SimpleInterruptController :=
  let (cpus, controller) := machine
  if cpus.lifecycle id = .waitingForInterrupt then
    let record := (cpus.records id).synchronizeCounterTicks counterTicks
    let registers := record.fields.systemRegisters
    let controller :=
      if registers.physicalTimerInterruptAsserted then controller.advance (.raiseFor physicalTimerIrq id)
      else controller
    let controller :=
      if registers.virtualTimerInterruptAsserted then controller.advance (.raiseFor virtualTimerIrq id)
      else controller
    (cpus.setRecord id { record with
      lifecycle := if (controller.peekPending id).isSome then .runnable else record.lifecycle }, controller)
  else machine

/-- `wakeVirtualCPUsForPendingInterrupts`. -/
def wakeForPendingInterrupts (cpus : VirtualCpus n) (controller : SimpleInterruptController) :
    VirtualCpus n × SimpleInterruptController :=
  (List.finRange n).foldl (wakeWaiting cpus.live.systemRegisters.counterTicks) (cpus.saveActive, controller)

/-- `activateVirtualCPU`. -/
def activate (cpus : VirtualCpus n) (id : Fin n) : VirtualCpus n :=
  if id = cpus.activeVcpuId then cpus
  else
    let saved := cpus.saveActive
    let runtime := (saved.records id).synchronizeCounterTicks cpus.live.systemRegisters.counterTicks
    { saved with
      records := Function.update saved.records id runtime
      activeVcpuId := id
      live := runtime.fields }

/-- The counters of the virtual CPUs in the list are set to the tick. -/
def synchronizeRecords (cpus : VirtualCpus n) (ids : List (Fin n)) (counterTicks : U64) : VirtualCpus n :=
  { cpus with records := fun id =>
      if id ∈ ids then (cpus.records id).synchronizeCounterTicks counterTicks else cpus.records id }

/-- `fastForwardWaitingVirtualCPUsToNextTimerDeadline`. -/
def fastForward (cpus : VirtualCpus n) (controller : SimpleInterruptController) :
    VirtualCpus n × SimpleInterruptController :=
  let saved := cpus.saveActive
  let waiting := (List.finRange n).filter fun id => saved.lifecycle id = .waitingForInterrupt
  if waiting = [] ∨ ∃ id, saved.lifecycle id = .runnable then (saved, controller)
  else
    let counterTicks := saved.live.systemRegisters.counterTicks
    let synchronized := saved.synchronizeRecords waiting counterTicks
    let deadlines := waiting.filterMap fun id =>
      (synchronized.records id).fields.systemRegisters.nextUnmaskedTimerDeadline
    match deadlines with
    | [] => synchronized.wakeForPendingInterrupts controller
    | first :: rest =>
      let deadline := rest.foldl (fun least deadline => if deadline < least then deadline else least) first
      if counterTicks < deadline then
        ((synchronized.synchronize deadline).synchronizeRecords (List.finRange n) deadline).wakeForPendingInterrupts
          controller
      else synchronized.wakeForPendingInterrupts controller

end Wake

variable {n : ℕ} (cpus : VirtualCpus (n + 1))

/-- The offset at which `nextRunnableVirtualCPU` finds a virtual CPU. -/
def runnableOffset : Option (Fin (n + 1)) :=
  (List.finRange (n + 1)).find? fun offset => cpus.lifecycle (cpus.nextScheduledVcpuId + offset) = .runnable

/-- `nextRunnableVirtualCPU`, and `activateVirtualCPU` of what it finds. -/
def schedule (controller : SimpleInterruptController) :
    Option (Fin (n + 1)) × VirtualCpus (n + 1) × SimpleInterruptController :=
  let (woken, controller) := cpus.wakeForPendingInterrupts controller
  match woken.runnableOffset with
  | none => (none, woken, controller)
  | some offset =>
    let id := woken.nextScheduledVcpuId + offset
    (some id, { woken with nextScheduledVcpuId := id + 1 }.activate id, controller)

end VirtualCpus

/-- A machine with at least two virtual CPUs and no cluster. The last field is not in the source: what the
virtual CPUs were started with that have not run since. -/
structure ScheduledMachine (n : ℕ) where
  memory : AddressRange
  cpus : VirtualCpus (n + 2)
  controller : SimpleInterruptController
  launch : Fin (n + 2) → Option (U64 × U64)

/-- A firmware call, a call of the controller, a turn of the scheduler, a part of a slice, or a reset. -/
inductive ScheduledEvent
  | firmwareCall (instruction : BitVec 32)
  | interrupt (operation : InterruptOperation)
  | schedule
  | fastForward
  | execute (live : VirtualCpuFields)
  | suspend
  | halt
  | save
  | reset (entryPoint : U64)

namespace ScheduledMachine

variable {n : ℕ} (machine : ScheduledMachine n)

/-- The machine as it is made. -/
def initial (n : ℕ) (memory : AddressRange) : ScheduledMachine n where
  memory := memory
  cpus := .created 0
  controller := .initial
  launch := fun _ => none

/-- The active virtual CPU runs. -/
def executes : Bool := machine.cpus.lifecycle machine.cpus.activeVcpuId = .runnable

/-- What a call that returns the result has started. -/
def launched (result : U64) : Fin (n + 2) → Option (U64 × U64) :=
  match VirtualCpus.psciTarget (n + 2) (machine.cpus.live.cpu.x 1) with
  | none => machine.launch
  | some target =>
    if machine.cpus.firmwareFunction = .cpuOn ∧ result = VirtualCpus.psciSuccess then
      Function.update machine.launch target (some (machine.cpus.live.cpu.x 2, machine.cpus.live.cpu.x 3))
    else machine.launch

/-- The next state, if the event can happen. -/
def step : ScheduledEvent → Option (ScheduledMachine n)
  | .firmwareCall instruction =>
    if machine.executes then
      (machine.cpus.handleFirmwareCall machine.memory none instruction ()).map fun outcome =>
        { machine with cpus := outcome.1, launch := machine.launched (outcome.1.live.cpu.x 0) }
    else none
  | .interrupt operation => some { machine with controller := machine.controller.advance operation }
  | .schedule =>
    let (id, cpus, controller) := machine.cpus.schedule machine.controller
    some { machine with
      cpus := cpus
      controller := controller
      launch := match id with
        | none => machine.launch
        | some id => Function.update machine.launch id none }
  | .fastForward =>
    let (cpus, controller) := machine.cpus.fastForward machine.controller
    some { machine with cpus := cpus, controller := controller }
  | .execute live => if machine.executes then some { machine with cpus := machine.cpus.execute live } else none
  | .suspend =>
    if machine.executes then some { machine with cpus := machine.cpus.suspend machine.controller } else none
  | .halt =>
    if machine.executes then
      some { machine with cpus := (machine.cpus.setLifecycle machine.cpus.activeVcpuId .halted).saveActive }
    else none
  | .save => some { machine with cpus := machine.cpus.saveActive }
  | .reset entryPoint =>
    some { machine with cpus := machine.cpus.reset entryPoint, controller := .initial, launch := fun _ => none }

def run (events : List ScheduledEvent) : Option (ScheduledMachine n) := events.foldlM step machine

end ScheduledMachine

end Pinecone
