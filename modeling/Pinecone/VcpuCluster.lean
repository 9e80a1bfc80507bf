import Mathlib.Data.List.FinRange
import Pinecone.WorkerLoop

/-! The threads of ParallelVCPUCluster.swift: the primary machine, the workers of the other virtual CPUs, and
the calls of the interrupt controller, which notify the workers once they have released its lock. -/

namespace Pinecone

namespace VirtualCpus

/-- A machine as `init` and `configureExternalParallelExecution` make it, for one virtual CPU. -/
def created {n : ℕ} (id : Fin (n + 1)) : VirtualCpus (n + 1) :=
  let records (other : Fin (n + 1)) : VirtualCpuRecord := .ofArchitecture
    (VirtualCpu.reset (mpidr other) 0 0 (if other = 0 then .runnable else .offline))
  ⟨records, id, (records id).fields.refreshCachedRegisters, 0⟩

end VirtualCpus

/-- `ParallelVCPUCluster` with its machines. `notifying` counts the calls that are about to signal, and
`resetting` has the workers that a reset still has to go to. -/
structure VcpuCluster (n : ℕ) where
  memory : AddressRange
  primary : VirtualCpus (n + 1)
  workers : Fin n → SecondaryWorker (n + 1)
  controller : SimpleInterruptController
  wakeHandler : Bool
  notifying : ℕ
  counterTicks : U64
  resetting : List (Fin n)

/-- A firmware call, a call of the controller, a signal, a section of a worker, a part of a slice, a reset or
a stop. -/
inductive ClusterEvent (n : ℕ)
  | firmwareCall (caller : Fin (n + 1)) (instruction : BitVec 32)
  | interrupt (operation : InterruptOperation)
  | notify
  | hostSignal
  | tick (counterTicks : U64)
  | enter (i : Fin n)
  | wake (i : Fin n)
  | resume (i : Fin n)
  | beginSlice (i : Fin n)
  | execute (i : Fin n) (live : VirtualCpuFields)
  | suspend (i : Fin n)
  | finishSlice (i : Fin n) (halted : Bool)
  | throwSlice (i : Fin n)
  | publish (i : Fin n) (delay : U64)
  | fail (i : Fin n)
  | beginPrimary
  | executePrimary (live : VirtualCpuFields)
  | suspendPrimary
  | haltPrimary
  | reset (entryPoint : U64)
  | resetWorker
  | clearWakeHandler
  | stop (i : Fin n)
  | setPacing (enabled : Bool)

namespace VcpuCluster

variable {n : ℕ} (cluster : VcpuCluster n)

/-- The cluster as it is made. -/
def initial (n : ℕ) (memory : AddressRange) : VcpuCluster n where
  memory := memory
  primary := .created 0
  workers := fun i => .initial (.created i.succ)
  controller := .initial
  wakeHandler := true
  notifying := 0
  counterTicks := 0
  resetting := []

def updateWorker (i : Fin n) (worker : SecondaryWorker (n + 1)) : VcpuCluster n :=
  { cluster with workers := Function.update cluster.workers i worker }

/-- `condition.broadcast()`. -/
def broadcast : VcpuCluster n := { cluster with workers := fun i => (cluster.workers i).wake }

/-- A call of the controller, up to the signal. -/
def call (operation : InterruptOperation) : VcpuCluster n :=
  let outcome := cluster.controller.perform operation
  { cluster with
    controller := outcome.controller
    notifying := cluster.notifying + if outcome.wakes && cluster.wakeHandler then 1 else 0 }

/-- `hasPendingInterruptForAnyVirtualCPU`. -/
def hasPendingInterrupt : Bool :=
  (List.finRange (n + 1)).any fun id => (cluster.controller.peekPending id).isSome

/-- `startVirtualCPU` of the cluster. -/
def startWorker : VirtualCpus.StartHandler (n + 1) (VcpuCluster n) := fun id entryPoint context cluster =>
  Fin.cases (false, cluster) (fun i =>
    let activated := (cluster.workers i).activate entryPoint context cluster.counterTicks
    (activated.1, if activated.1 then (cluster.updateWorker i activated.2).broadcast else cluster)) id

/-- A firmware call of the primary, on its own thread. -/
def primaryFirmwareCall (instruction : BitVec 32) : Option (VcpuCluster n) :=
  if cluster.resetting = [] ∧ cluster.primary.lifecycle cluster.primary.activeVcpuId = .runnable then
    (cluster.primary.handleFirmwareCall cluster.memory (some startWorker) instruction cluster).map fun outcome =>
      { outcome.2 with primary := outcome.1 }
  else none

/-- A firmware call of a worker's machine, which no handler was set for. -/
def workerFirmwareCall (i : Fin n) (instruction : BitVec 32) : Option (VcpuCluster n) :=
  let worker := cluster.workers i
  match worker.phase with
  | .running =>
    if worker.vm.lifecycle worker.id = .runnable then
      (worker.vm.handleFirmwareCall cluster.memory none instruction ()).map fun outcome =>
        cluster.updateWorker i { worker with vm := outcome.1 }
    else none
  | _ => none

/-- The start of a slice, with the calls that it makes for the timers. -/
def beginSlice (i : Fin n) : VcpuCluster n :=
  let worker := cluster.workers i
  let synchronized : SecondaryWorker (n + 1) := { worker with vm := worker.vm.synchronize cluster.counterTicks }
  let called :=
    if worker.vm.lifecycle worker.id = .waitingForInterrupt then
      synchronized.vm.timerOperations.foldl call cluster
    else cluster
  called.updateWorker i (synchronized.beginSlice called.controller)

/-- The start of a slice of the primary. -/
def beginPrimary : VcpuCluster n :=
  let synchronized := cluster.primary.synchronize cluster.counterTicks
  if cluster.primary.lifecycle cluster.primary.activeVcpuId = .waitingForInterrupt then
    let called := synchronized.timerOperations.foldl call cluster
    let primary := synchronized.updateGenericTimers
    { called with
      primary :=
        if (called.controller.peekPending primary.activeVcpuId).isSome then
          primary.setLifecycle primary.activeVcpuId .runnable
        else primary }
  else { cluster with primary := synchronized }

/-- The next state, if the event can happen. -/
def step : ClusterEvent n → Option (VcpuCluster n)
  | .firmwareCall caller instruction =>
    Fin.cases (cluster.primaryFirmwareCall instruction) (fun i => cluster.workerFirmwareCall i instruction) caller
  | .interrupt operation => some (cluster.call operation)
  | .notify =>
    if 0 < cluster.notifying then some { cluster.broadcast with notifying := cluster.notifying - 1 } else none
  | .hostSignal => some cluster.broadcast
  | .tick counterTicks => some { cluster with counterTicks := counterTicks }
  | .enter i =>
    match (cluster.workers i).phase with
    | .entering => some (cluster.updateWorker i ((cluster.workers i).enter cluster.controller cluster.counterTicks))
    | _ => none
  | .wake i => some (cluster.updateWorker i (cluster.workers i).wake)
  | .resume i =>
    match (cluster.workers i).phase with
    | .woken => some (cluster.updateWorker i (cluster.workers i).resume)
    | _ => none
  | .beginSlice i =>
    match (cluster.workers i).phase with
    | .launching => some (cluster.beginSlice i)
    | _ => none
  | .execute i live =>
    match (cluster.workers i).phase with
    | .running =>
      some (cluster.updateWorker i { cluster.workers i with vm := (cluster.workers i).vm.execute live })
    | _ => none
  | .suspend i =>
    match (cluster.workers i).phase with
    | .running =>
      some (cluster.updateWorker i
        { cluster.workers i with vm := (cluster.workers i).vm.suspend cluster.controller })
    | _ => none
  | .finishSlice i halted =>
    match (cluster.workers i).phase with
    | .running => some (cluster.updateWorker i ((cluster.workers i).finishSlice cluster.counterTicks halted))
    | _ => none
  | .throwSlice i =>
    match (cluster.workers i).phase with
    | .running => some (cluster.updateWorker i { cluster.workers i with phase := .failing })
    | _ => none
  | .publish i delay =>
    match (cluster.workers i).phase with
    | .publishing currentState halted =>
      some (cluster.updateWorker i
        ((cluster.workers i).publish currentState halted cluster.hasPendingInterrupt delay))
    | _ => none
  | .fail i =>
    match (cluster.workers i).phase with
    | .failing =>
      some { cluster.updateWorker i (cluster.workers i).fail with notifying := cluster.notifying + 1 }
    | _ => none
  | .beginPrimary => if cluster.resetting = [] then some cluster.beginPrimary else none
  | .executePrimary live =>
    if cluster.resetting = [] then some { cluster with primary := cluster.primary.execute live } else none
  | .suspendPrimary =>
    if cluster.resetting = [] then some { cluster with primary := cluster.primary.suspend cluster.controller } else none
  | .haltPrimary =>
    if cluster.resetting = [] then
      some { cluster with primary := cluster.primary.finishRun cluster.counterTicks true }
    else none
  | .reset entryPoint =>
    if cluster.resetting = [] then
      some { cluster with
        primary := cluster.primary.reset entryPoint
        controller := .initial
        counterTicks := 0
        resetting := List.finRange n }
    else none
  | .resetWorker =>
    match cluster.resetting with
    | [] => none
    | i :: rest =>
      some { (cluster.updateWorker i ((cluster.workers i).reset 0)).broadcast with resetting := rest }
  | .clearWakeHandler => some { cluster with wakeHandler := false }
  | .stop i => some (cluster.updateWorker i (cluster.workers i).stop).broadcast
  | .setPacing enabled =>
    some { cluster with
      workers := fun i => { cluster.workers i with continuousExecutionPacing := enabled } }.broadcast

def run (events : List (ClusterEvent n)) : Option (VcpuCluster n) := events.foldlM step cluster

end VcpuCluster

end Pinecone
