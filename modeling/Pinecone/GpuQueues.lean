import Pinecone.GpuResourceAccess
import Pinecone.VirtioDevices

/-! The control queue and the cursor queue of the GPU device of VirtIO.swift. A step is what one thread
does under the device lock. -/

namespace Pinecone

variable {σ α : Type}

/-- `GPUQueuedCommand`. The commands are numbered in the order of their staging from 1 on, and a token
has the low bits of the number. -/
structure GpuQueuedCommand where
  number : ℕ
  queue : BitVec 32
  descriptorIndex : U16
  responseDescriptors : List VirtioDescriptor
  queueState : VirtioQueueState
  request : List U8
  started : Bool
  response : Option (List U8)

def commandToken (number : ℕ) : U64 := BitVec.ofNat 64 number

namespace GpuQueuedCommand

variable (command : GpuQueuedCommand)

def token : U64 := commandToken command.number

def access : GpuResourceAccess := GpuResourceAccess.parse command.request

/-- Whether the command is started and not answered. -/
def isActive : Bool := command.started && command.response.isNone

def conflicts (other : GpuQueuedCommand) : Bool := command.access.conflicts other.access

end GpuQueuedCommand

/-- A `DeferredCompletion` that is armed, with what its handler has captured. -/
structure GpuDelivery where
  number : ℕ
  request : List U8
  submissionEpoch : U64
  resolved : Bool

/-- What happens to the commands. `published` has the bytes that are copied to the response
descriptors. -/
inductive GpuQueueEvent
  | staged (command : GpuQueuedCommand)
  | started (number : ℕ)
  | answered (number : ℕ) (response : List U8)
  | published (number : ℕ) (head : U16) (usedLength : BitVec 32) (written : List U8)
  | reset

/-- What the accelerator and the native rasteriser make of a submission: it is answered, or the
accelerator takes it, and may resolve it before it returns. -/
inductive GpuSubmission
  | completed (response : List U8)
  | deferred (resolved : Option Bool)

/-- `VirtIOGPUDevice` and its accelerator, over the state `σ` of all that is outside. `finish` is what
the handler of a delivery does in the epoch of its submission. -/
structure VirtioGpu (σ : Type) where
  process : List U8 → σ → List U8 × σ
  submit : List U8 → σ → GpuSubmission × σ
  finish : List U8 → Bool → σ → List U8 × σ
  reset : σ → σ

/-- The device, the rest, and the history of the commands, oldest first. `staged` is the number of the
last command, and `completions` is what waits on `gpuCompletionDispatchQueue`. -/
structure GpuWorld (σ : Type) where
  queues : BitVec 32 → Option VirtioQueueState
  gpuCommands : List GpuQueuedCommand
  staged : ℕ
  interruptStatus : BitVec 32
  resetEpoch : U64
  deliveries : List GpuDelivery
  completions : List (ℕ × List U8)
  outside : σ
  history : List GpuQueueEvent

abbrev GpuStep (σ α : Type) := Fallible (GpuWorld σ) α

namespace GpuStep

def getWorld : GpuStep σ (GpuWorld σ) := fun w => (some w, w)

def modifyWorld (change : GpuWorld σ → GpuWorld σ) : GpuStep σ Unit := fun w => (some (), change w)

def onOutside (m : Fallible σ α) : GpuStep σ α :=
  Fallible.onPart GpuWorld.outside (fun w outside => { w with outside := outside }) m

/-- What is outside runs, and does not fail. -/
def runOutside (m : σ → α × σ) : GpuStep σ α :=
  onOutside fun outside => (some (m outside).1, (m outside).2)

end GpuStep

open GpuStep

namespace GpuWorld

variable (w : GpuWorld σ)

def record (event : GpuQueueEvent) : GpuWorld σ := { w with history := w.history ++ [event] }

/-- The command with a number is changed where it is. -/
def updateCommand (number : ℕ) (change : GpuQueuedCommand → GpuQueuedCommand) : GpuWorld σ :=
  { w with gpuCommands := w.gpuCommands.map fun command =>
      if command.number = number then change command else command }

/-- A command is appended, and its entry is passed. -/
def stage (command : GpuQueuedCommand) : GpuWorld σ :=
  ({ w with
    staged := w.staged + 1
    gpuCommands := w.gpuCommands ++ [command]
    queues := Function.update w.queues command.queue (some { command.queueState with
      lastAvailableIndex := command.queueState.lastAvailableIndex + 1 }) } :
    GpuWorld σ).record (.staged command)

/-- `command.started = true`. -/
def start (number : ℕ) : GpuWorld σ :=
  (w.updateCommand number fun command => { command with started := true }).record (.started number)

/-- `command.response = response`, for the command to which the response belongs. -/
def answer (number : ℕ) (response : List U8) : GpuWorld σ :=
  (w.updateCommand number fun command => { command with response := some response }).record
    (.answered number response)

/-- The command at `index` has its used element, and is removed. -/
def publish (index : ℕ) (command : GpuQueuedCommand) (copied : BitVec 32 × List U8) : GpuWorld σ :=
  ({ w with gpuCommands := w.gpuCommands.eraseIdx index } : GpuWorld σ).record
    (.published command.number command.descriptorIndex copied.1 copied.2)

/-- `interruptStatus |= usedBufferInterrupt`. -/
def raiseUsedBuffer : GpuWorld σ := { w with interruptStatus := w.interruptStatus ||| 1#32 }

end GpuWorld

def controlQueue : BitVec 32 := 0
def cursorQueue : BitVec 32 := 1
def maximumInFlightGpuCommands : ℕ := 3
def maximumPendingGpuCommands : ℕ := 32
def maximumPendingGpuRequestBytes : ℕ := 1048576

def retainedBytes (commands : List GpuQueuedCommand) : ℕ :=
  (commands.map fun command => command.request.length).sum

/-! ## Scheduling -/

/-- The loop of `nextRunnableGPUCommand`, behind the commands that it has passed. -/
def nextRunnableFrom (active earlier : List GpuQueuedCommand) :
    List GpuQueuedCommand → Option GpuQueuedCommand
  | [] => none
  | command :: later =>
    if command.started = false ∧ active.any command.conflicts = false ∧
        (earlier.any fun other => !other.started && command.conflicts other) = false then
      some command
    else nextRunnableFrom active (earlier ++ [command]) later

/-- `nextRunnableGPUCommand`. -/
def nextRunnableGpuCommand (commands : List GpuQueuedCommand) : Option GpuQueuedCommand :=
  let active := commands.filter GpuQueuedCommand.isActive
  if active.length < maximumInFlightGpuCommands then nextRunnableFrom active [] commands else none

namespace VirtioHost

variable (host : VirtioHost σ)

/-! ## Staging -/

/-- `stageGPUCommands`, over the entries that are left. A chain's readable bytes are summed up at once,
since no part of the sum is larger than the sum. -/
def stageGpuCommands (queue : BitVec 32) (availableIndex : U16) : ℕ → GpuStep σ Unit
  | 0 => pure ()
  | entries + 1 => do
    let w ← getWorld
    match w.queues queue with
    | none => pure ()
    | some state =>
      if state.lastAvailableIndex = availableIndex ∨
          maximumPendingGpuCommands ≤ w.gpuCommands.length then pure ()
      else do
        let descriptorIndex ← onOutside
          (host.readMemory16 (state.driverAddress + ringOffset state state.lastAvailableIndex 2))
        let descriptors ← onOutside (host.descriptorChain state descriptorIndex)
        let requestDescriptors := descriptors.filter fun descriptor => !descriptor.isDeviceWritable
        let responseDescriptors := descriptors.filter VirtioDescriptor.isDeviceWritable
        let requestLength := (requestDescriptors.map VirtioDescriptor.count).sum
        if requestDescriptors.isEmpty then Fallible.fail
        else if queue = controlQueue ∧ responseDescriptors.isEmpty then Fallible.fail
        else if maximumPendingGpuRequestBytes < requestLength then Fallible.fail
        else if maximumPendingGpuRequestBytes < retainedBytes w.gpuCommands + requestLength then
          pure ()
        else do
          let request ← onOutside (host.readableBytes descriptors)
          let command : GpuQueuedCommand :=
            { number := w.staged + 1
              queue := queue
              descriptorIndex := descriptorIndex
              responseDescriptors := responseDescriptors
              queueState := state
              request := request
              started := false
              response := none }
          modifyWorld fun w => w.stage command
          stageGpuCommands queue availableIndex entries

/-! ## Retirement -/

/-- The loop that copies a response to its descriptors, as far as they go. -/
def copyResponseBytes : List VirtioDescriptor → List U8 → Fallible σ (List U8)
  | [], _ => pure []
  | descriptor :: rest, response =>
    if response = [] then pure []
    else do
      let part := response.take descriptor.count
      host.copyToGuest part descriptor.address
      pure (part ++ (← copyResponseBytes rest (response.drop descriptor.count)))

/-- The response of a command is copied to its descriptors, if they have room for it. -/
def copyGpuResponse (command : GpuQueuedCommand) (response : List U8) :
    Fallible σ (BitVec 32 × List U8) :=
  if command.queue = controlQueue then
    if (command.responseDescriptors.map VirtioDescriptor.count).sum < response.length then
      Fallible.fail
    else do
      let written ← host.copyResponseBytes command.responseDescriptors response
      pure (BitVec.ofNat 32 response.length, written)
  else pure (0, [])

/-- What `publishUsedElement` does to the memory. -/
def writeUsedElement (head : U16) (usedLength : BitVec 32) (state : VirtioQueueState) :
    Fallible σ Unit := do
  let usedIndex ← host.readMemory16 (state.deviceAddress + 2)
  let slot := state.deviceAddress + ringOffset state usedIndex 8
  host.writeMemory32 (head.setWidth 32) slot
  host.writeMemory32 usedLength (slot + 4)
  host.writeMemory16Release (usedIndex + 1) (state.deviceAddress + 2)

theorem publishUsedElement_memory (queue : BitVec 32) (head : U16) (usedLength : BitVec 32)
    (state : VirtioQueueState) :
    host.publishUsedElement queue head usedLength state = (do
      VirtioStep.onOutside (host.writeUsedElement head usedLength state)
      VirtioStep.record queue (.published head usedLength)) := rfl

/-- The response and the used element of a command. -/
def deliverGpuResponse (command : GpuQueuedCommand) (response : List U8) :
    Fallible σ (BitVec 32 × List U8) := do
  let copied ← host.copyGpuResponse command response
  host.writeUsedElement command.descriptorIndex copied.1 command.queueState
  pure copied

/-- The loop of `retireGPUCommands` over the commands from `index` on. -/
def retireFrom : ℕ → List (BitVec 32) → List GpuQueuedCommand → GpuStep σ ℕ
  | _, _, [] => pure 0
  | index, blockedQueues, command :: later =>
    match command.response with
    | none => retireFrom (index + 1) (command.queue :: blockedQueues) later
    | some response =>
      if command.queue ∈ blockedQueues then
        retireFrom (index + 1) (command.queue :: blockedQueues) later
      else do
        let copied ← onOutside (host.deliverGpuResponse command response)
        modifyWorld fun w => (w.publish index command copied).raiseUsedBuffer
        let completed ← retireFrom index blockedQueues later
        pure (completed + 1)

/-- `retireGPUCommands`. -/
def retireGpuCommands : GpuStep σ ℕ := do
  let w ← getWorld
  host.retireFrom 0 [] w.gpuCommands

/-! ## Completion -/

/-- What follows a response: the commands are retired, and both queues are processed. -/
def goOn (processGpuQueue : BitVec 32 → GpuStep σ ℕ) : GpuStep σ Unit := do
  let _ ← host.retireGpuCommands
  let _ ← processGpuQueue controlQueue
  let _ ← processGpuQueue cursorQueue

/-- `completeDeferredGPUCommandLocked`, for the command with the number. -/
def completeLocked (processGpuQueue : BitVec 32 → GpuStep σ ℕ) (number : ℕ) (response : List U8) :
    GpuStep σ Unit := do
  let w ← getWorld
  match w.gpuCommands.find? fun command => command.token = commandToken number with
  | none => pure ()
  | some command =>
    if command.started = false ∨ command.response.isSome then pure ()
    else do
      modifyWorld fun w =>
        (w.updateCommand command.number fun command =>
          { command with response := some response }).record (.answered number response)
      match ← (host.goOn processGpuQueue).attempt with
      | some _ => pure ()
      | none => modifyWorld GpuWorld.raiseUsedBuffer

variable (gpu : VirtioGpu σ)

/-- The handler of a delivery, which gives the response. -/
def handleDelivery (delivery : GpuDelivery) (succeeded : Bool) : GpuStep σ (List U8) := do
  let w ← getWorld
  if w.resetEpoch = delivery.submissionEpoch then
    runOutside (gpu.finish delivery.request succeeded)
  else pure []

/-! ## Dispatch -/

/-- `arm`, while the commands are processed. A delivery that is resolved is completed, and its completion
finds `processingGPUCommands`, so no queue is processed for it. -/
def arm (delivery : GpuDelivery) : Option Bool → GpuStep σ Unit
  | none => pure ()
  | some succeeded => do
    let response ← handleDelivery gpu delivery succeeded
    host.completeLocked (fun _ => pure 0) delivery.number response

/-- `processDeferred`: nothing if the request is unhandled, and else its response or that it is
deferred. -/
def processDeferred (command : GpuQueuedCommand) : GpuStep σ (Option (Option (List U8))) := do
  if GpuResourceAccess.command command.request ≠ some .submit3D then pure none
  else
    match ← runOutside (gpu.submit command.request) with
    | .completed response => pure (some (some response))
    | .deferred resolved => do
      let delivery : GpuDelivery :=
        { number := command.number
          request := command.request
          submissionEpoch := (← getWorld).resetEpoch
          resolved := resolved.isSome }
      modifyWorld fun w => { w with deliveries := w.deliveries ++ [delivery] }
      host.arm gpu delivery resolved
      pure (some none)

/-- Only the commands of the control queue may be deferred. -/
def submitGpuCommand (command : GpuQueuedCommand) : GpuStep σ (Option (Option (List U8))) :=
  if command.queue = controlQueue then host.processDeferred gpu command else pure none

/-- A command is started, and answered unless it is deferred. -/
def dispatchGpuCommand (command : GpuQueuedCommand) : GpuStep σ Unit := do
  modifyWorld fun w => w.start command.number
  match ← host.submitGpuCommand gpu command with
  | some none => pure ()
  | some (some response) => modifyWorld fun w => w.answer command.number response
  | none => do
    let response ← runOutside (gpu.process command.request)
    modifyWorld fun w => w.answer command.number response

/-- The loop that starts the commands, of which at most `commands` are left, and says whether one was
started. -/
def dispatchRunnable : ℕ → GpuStep σ Bool
  | 0 => pure false
  | commands + 1 => do
    let w ← getWorld
    match nextRunnableGpuCommand w.gpuCommands with
    | none => pure false
    | some command => do
      host.dispatchGpuCommand gpu command
      let _ ← dispatchRunnable commands
      pure true

/-- The loop of `processGPUQueue`. Every round but the last one starts a command, so there are at most
`rounds` of them. -/
def processRounds (queue : BitVec 32) (availableIndex : U16) : ℕ → ℕ → GpuStep σ ℕ
  | 0, completed => pure completed
  | rounds + 1, completed => do
    let staged ← (host.stageGpuCommands queue availableIndex 65536).attempt
    let dispatched ← host.dispatchRunnable gpu (← getWorld).gpuCommands.length
    let retired ← host.retireGpuCommands
    if staged.isNone then Fallible.fail
    else
      let w ← getWorld
      if dispatched = true ∧ w.gpuCommands.length < maximumPendingGpuCommands ∧
          (w.queues queue).map VirtioQueueState.lastAvailableIndex ≠ some availableIndex then
        processRounds queue availableIndex rounds (completed + retired)
      else pure (completed + retired)

/-- `processGPUQueue`, when no commands are processed yet. -/
def processGpuQueue (queue : BitVec 32) : GpuStep σ ℕ := do
  let w ← getWorld
  match w.queues queue with
  | none => pure 0
  | some state =>
    if state.ready = false ∨ state.size = 0 then pure 0
    else do
      let availableIndex ← onOutside (host.readMemory16Acquire (state.driverAddress + 2))
      host.processRounds gpu queue availableIndex
        (w.gpuCommands.length + entriesLeft state availableIndex + 1) 0

/-- `completeDeferredGPUCommandLocked`, for a thread that does not hold the lock yet. -/
def completeDeferredGpuCommandLocked (number : ℕ) (response : List U8) : GpuStep σ Unit :=
  host.completeLocked (host.processGpuQueue gpu) number response

end VirtioHost

/-! ## Steps -/

/-- What may happen to the device. The driver notifies it, sets up a queue or resets it, the
accelerator resolves a delivery while the lock is free or not, and a completion that had to wait is
run. The guest's memory and the GPU change at any time. -/
inductive GpuEvent (σ : Type)
  | notify (queue : BitVec 32)
  | resolve (number : ℕ) (succeeded contended : Bool)
  | complete
  | configure (queue size : BitVec 32) (ready : Bool)
    (descriptorAddress driverAddress deviceAddress : U64)
  | acknowledge (value : BitVec 32)
  | reset
  | outside (change : σ → σ)

namespace VirtioHost

variable (host : VirtioHost σ) (gpu : VirtioGpu σ)

/-- `notify(queue:)`. -/
def notifyGpu (queue : BitVec 32) : GpuStep σ Unit := do
  let w ← getWorld
  if ((w.queues queue).map VirtioQueueState.ready).getD false = false then pure ()
  else if queue = controlQueue ∨ queue = cursorQueue then do
    let completed ← (host.processGpuQueue gpu queue).attempt
    if 0 < completed.getD 0 then modifyWorld GpuWorld.raiseUsedBuffer else pure ()
  else pure ()

/-- `resolve` of a delivery. The first one runs the handler, and its completion is run at once or waits
for the lock. -/
def resolveDelivery (number : ℕ) (succeeded contended : Bool) : GpuStep σ Unit := do
  let w ← getWorld
  match w.deliveries.find? fun delivery => delivery.number = number && !delivery.resolved with
  | none => pure ()
  | some delivery => do
    modifyWorld fun w => { w with
      deliveries := w.deliveries.map fun delivery =>
        if delivery.number = number then { delivery with resolved := true } else delivery }
    let response ← handleDelivery gpu delivery succeeded
    if contended then
      modifyWorld fun w => { w with completions := w.completions ++ [(number, response)] }
    else host.completeDeferredGpuCommandLocked gpu number response

/-- The completion that waits first is run, and is gone. -/
def runCompletion : GpuStep σ Unit := do
  let w ← getWorld
  match w.completions with
  | [] => pure ()
  | (number, response) :: _ => do
    host.completeDeferredGpuCommandLocked gpu number response
    modifyWorld fun w => { w with completions := w.completions.tail }

/-- `resetNegotiationState`. The numbers go on. -/
def resetGpu : GpuStep σ Unit :=
  modifyWorld fun w =>
    ({ w with
      queues := fun _ => none
      interruptStatus := 0
      gpuCommands := []
      outside := gpu.reset w.outside
      resetEpoch := w.resetEpoch + 1 } : GpuWorld σ).record .reset

def handleGpu : GpuEvent σ → GpuStep σ Unit
  | .notify queue => host.notifyGpu gpu queue
  | .resolve number succeeded contended => host.resolveDelivery gpu number succeeded contended
  | .complete => host.runCompletion gpu
  | .configure queue size ready descriptorAddress driverAddress deviceAddress =>
    modifyWorld fun w => { w with
      queues := Function.update w.queues queue (some
        ⟨size, ready, descriptorAddress, driverAddress, deviceAddress,
          ((w.queues queue).map VirtioQueueState.lastAvailableIndex).getD 0⟩) }
  | .acknowledge value => modifyWorld fun w =>
      { w with interruptStatus := w.interruptStatus &&& ~~~(value &&& 3#32) }
  | .reset => resetGpu gpu
  | .outside change => onOutside fun outside => (some (), change outside)

def stepGpu (w : GpuWorld σ) (event : GpuEvent σ) : GpuWorld σ := (host.handleGpu gpu event w).2

def runGpu (w : GpuWorld σ) (events : List (GpuEvent σ)) : GpuWorld σ :=
  events.foldl (host.stepGpu gpu) w

end VirtioHost

/-- A device that has just been made. -/
def GpuWorld.initial (outside : σ) : GpuWorld σ where
  queues := fun _ => none
  gpuCommands := []
  staged := 0
  interruptStatus := 0
  resetEpoch := 0
  deliveries := []
  completions := []
  outside := outside
  history := []

end Pinecone
