import Pinecone.InterruptController
import Pinecone.PowerCalls

/-! The run slices of VirtualMachine.swift and the loop of a secondary worker of ParallelVCPUCluster.swift:
what its thread does in each section under the condition lock. -/

namespace Pinecone

/-! ## Waits for a timer -/

def counterFrequency : ℕ := 24000000

/-- The whole seconds of the ticks and the rest of them in nanoseconds, rounded up. -/
def tickNanoseconds (delta : ℕ) : ℕ :=
  let fractionalNumerator := delta % counterFrequency * 1000000000
  delta / counterFrequency * 1000000000 +
    (fractionalNumerator / counterFrequency + if fractionalNumerator % counterFrequency = 0 then 0 else 1)

/-- `nanosecondsUntil(deadlineTicks:)` at a tick of the clock. -/
def nanosecondsUntil (current deadline : U64) : U64 :=
  if current < deadline then
    let delta := (deadline - current).toNat
    if (2 ^ 64 - 1) / 1000000000 < delta / counterFrequency then BitVec.allOnes 64
    else if 2 ^ 64 ≤ tickNanoseconds delta then BitVec.allOnes 64
    else BitVec.ofNat 64 (tickNanoseconds delta)
  else 0

namespace VirtualCpus

variable {n : ℕ} (cpus : VirtualCpus n)

/-- `hostTimerWaitNanoseconds` with an external clock. -/
def hostTimerWaitNanoseconds (controller : SimpleInterruptController) (counterTicks : U64) : Option U64 :=
  if (controller.peekPending cpus.activeVcpuId).isSome then some 0
  else cpus.live.systemRegisters.nextUnmaskedTimerDeadline.map (nanosecondsUntil counterTicks)

/-! ## Slices -/

def physicalTimerIrq : InterruptLine := 30
def virtualTimerIrq : InterruptLine := 27

/-- `updateTimerInterrupt`. -/
def timerOperation (line : InterruptLine) (asserted : Bool) : InterruptOperation :=
  if asserted then .raiseFor line cpus.activeVcpuId else .clearFor line cpus.activeVcpuId

/-- What `updateGenericTimerInterruptsIfNeeded(force: true)` calls. -/
def timerOperations : List InterruptOperation :=
  let registers := cpus.live.systemRegisters
  [cpus.timerOperation physicalTimerIrq registers.physicalTimerInterruptAsserted,
    cpus.timerOperation virtualTimerIrq registers.virtualTimerInterruptAsserted]

/-- The counter is set to the clock. -/
def synchronize (counterTicks : U64) : VirtualCpus n :=
  { cpus with live := { cpus.live with
      systemRegisters := cpus.live.systemRegisters.synchronizeCounterTicks counterTicks } }

/-- `updateGenericTimerInterruptsIfNeeded(force: true)`, but for the calls. -/
def updateGenericTimers : VirtualCpus n :=
  { cpus with live := { cpus.live with
      nextGenericTimerRefreshTick :=
        cpus.live.systemRegisters.nextUnmaskedTimerDeadline.getD (BitVec.allOnes 64) } }

/-- The guest runs. -/
def execute (live : VirtualCpuFields) : VirtualCpus n := { cpus with live := live }

/-- `suspendActiveVirtualCPUForWaitForInterrupt`. -/
def suspend (controller : SimpleInterruptController) : VirtualCpus n :=
  if (controller.peekPending cpus.activeVcpuId).isSome then cpus
  else cpus.setLifecycle cpus.activeVcpuId .waitingForInterrupt

/-- The end of `runExternallyManagedVirtualCPU`. -/
def finishRun (counterTicks : U64) (halted : Bool) : VirtualCpus n :=
  let synchronized := cpus.synchronize counterTicks
  let record := synchronized.records cpus.activeVcpuId
  synchronized.setRecord cpus.activeVcpuId
    { record with
      fields := { record.fields with cpu := synchronized.live.cpu, systemRegisters := synchronized.live.systemRegisters }
      lifecycle := if halted then .halted else record.lifecycle }

end VirtualCpus

/-! ## Workers -/

/-- Where the thread of a worker is. In between two sections it holds no lock. -/
inductive WorkerPhase
  /-- At the head of the loop. -/
  | entering
  /-- In the wait for a start. -/
  | idle
  /-- In the wait for an interrupt without a timer. -/
  | sleeping
  /-- In the wait for an interrupt or the timer, at most for the nanoseconds from the tick on. -/
  | dozing (nanoseconds since : U64)
  /-- After a wait for an interrupt. -/
  | woken
  /-- Before the slice. -/
  | launching
  | running
  /-- After the slice, with its state and whether it has halted. -/
  | publishing (currentState : VirtualCpu) (halted : Bool)
  /-- After a slice that has thrown. -/
  | failing
  /-- In the wait between two slices that paces them. -/
  | pacing (nanoseconds : U64)
  | finished

/-- Where a thread that waits goes on. -/
def WorkerPhase.afterWait : WorkerPhase → WorkerPhase
  | .idle => .entering
  | .sleeping => .woken
  | .dozing _ _ => .woken
  | .pacing _ => .entering
  | phase => phase

/-- `SecondaryWorker` and its machine. The last field is not in the source: the entry point and the context
of a start that no slice has begun with. -/
structure SecondaryWorker (n : ℕ) where
  vm : VirtualCpus n
  state : VirtualCpu
  shouldStop : Bool
  continuousExecutionPacing : Bool
  phase : WorkerPhase
  launch : Option (U64 × U64)

namespace SecondaryWorker

variable {n : ℕ} (worker : SecondaryWorker n)

def id : Fin n := worker.vm.activeVcpuId

/-- The worker as `init` makes it, of a machine that is configured for its virtual CPU. -/
def initial (vm : VirtualCpus n) : SecondaryWorker n := ⟨vm, vm.snapshot, false, false, .entering, none⟩

def isOn : Bool := worker.state.lifecycle.isPoweredOn

/-- The section at the head of the loop, up to a wait. -/
def enter (controller : SimpleInterruptController) (counterTicks : U64) : SecondaryWorker n :=
  if worker.shouldStop then { worker with phase := .finished }
  else if !worker.isOn then { worker with phase := .idle }
  else if worker.state.lifecycle = .waitingForInterrupt then
    match worker.vm.hostTimerWaitNanoseconds controller counterTicks with
    | some nanoseconds =>
      { worker with phase := if 0 < nanoseconds then .dozing nanoseconds counterTicks else .launching }
    | none => { worker with phase := .sleeping }
  else { worker with phase := .launching }

/-- The end of a wait, however it ends. -/
def wake : SecondaryWorker n := { worker with phase := worker.phase.afterWait }

/-- The rest of the section after a wait for an interrupt. -/
def resume : SecondaryWorker n :=
  { worker with phase := if worker.shouldStop then .finished else .launching }

/-- `activate`, but for the broadcast. -/
def activate (entryPoint context counterTicks : U64) : Bool × SecondaryWorker n :=
  if worker.shouldStop || worker.isOn then (false, worker)
  else
    let architecture := VirtualCpu.started (0x80000000 ||| BitVec.ofNat 64 worker.id) counterTicks entryPoint context
    (true, { worker with
      vm := worker.vm.install worker.id architecture
      state := architecture
      launch := some (entryPoint, context) })

/-- `reset`, but for the broadcast. -/
def reset (counterTicks : U64) : SecondaryWorker n :=
  let architecture := VirtualCpu.reset (0x80000000 ||| BitVec.ofNat 64 worker.id) counterTicks 0 .offline
  { worker with
    vm := worker.vm.install worker.id architecture
    state := architecture
    launch := none }

/-- `stop`, but for the broadcast. -/
def stop : SecondaryWorker n := { worker with shouldStop := true }

/-- The slice begins, unless the virtual CPU waits and nothing is pending for it. The timers have been
raised and cleared in the controller. -/
def beginSlice (controller : SimpleInterruptController) : SecondaryWorker n :=
  if worker.vm.lifecycle worker.id = .waitingForInterrupt then
    let vm := worker.vm.updateGenericTimers
    if (controller.peekPending worker.id).isSome then
      { worker with vm := vm.setLifecycle worker.id .runnable, phase := .running, launch := none }
    else { worker with vm := vm, phase := .publishing vm.snapshot false }
  else { worker with phase := .running, launch := none }

/-- The slice ends. -/
def finishSlice (counterTicks : U64) (halted : Bool) : SecondaryWorker n :=
  let vm := worker.vm.finishRun counterTicks halted
  { worker with vm := vm, phase := .publishing vm.snapshot halted }

/-- The section after a slice, up to a wait that paces the slices. -/
def publish (currentState : VirtualCpu) (halted interruptPending : Bool) (delay : U64) : SecondaryWorker n :=
  let state := if halted then { currentState with lifecycle := .halted } else currentState
  { worker with
    state := state
    phase :=
      if worker.continuousExecutionPacing && state.lifecycle = .runnable && !worker.shouldStop && !interruptPending &&
          0 < delay then .pacing delay
      else .entering }

/-- The section after a slice that has thrown. -/
def fail : SecondaryWorker n :=
  { worker with state := { worker.vm.snapshot with lifecycle := .halted }, phase := .entering }

end SecondaryWorker

end Pinecone
