import Pinecone.Fallible
import Pinecone.GuestRam

/-! The virtqueues of VirtIO.swift, over a guest memory, a storage and a network whose operations may
throw at any time. A thrown error is caught by the notification without being read, so it has no
text here. -/

namespace Pinecone

abbrev U8 := BitVec 8
abbrev U16 := BitVec 16

/-- `VirtIOQueueState`. -/
structure VirtioQueueState where
  size : BitVec 32
  ready : Bool
  descriptorAddress : U64
  driverAddress : U64
  deviceAddress : U64
  lastAvailableIndex : U16
  deriving DecidableEq

/-- `VirtIODescriptor`. -/
structure VirtioDescriptor where
  address : U64
  length : BitVec 32
  flags : U16
  next : U16

namespace VirtioDescriptor

variable (descriptor : VirtioDescriptor)

def hasNext : Bool := descriptor.flags &&& 1#16 ≠ 0#16
def isDeviceWritable : Bool := descriptor.flags &&& 2#16 ≠ 0#16
def isIndirect : Bool := descriptor.flags &&& 4#16 ≠ 0#16

/-- `Int(length)`. -/
def count : ℕ := descriptor.length.toNat

end VirtioDescriptor

/-- `VirtIOInputEvent`. -/
structure VirtioInputEvent where
  type : U16
  code : U16
  value : BitVec 32

/-- `VirtIODeviceKind`, of the devices whose queues are served to the end by each notification. -/
inductive VirtioDeviceKind
  | block
  | network
  | input
  deriving DecidableEq

/-- `VirtIOInputRole`. -/
inductive VirtioInputRole
  | keyboard
  | touchscreen
  deriving DecidableEq

/-- `TimestampedTouchEvent`, as far as its frame of input events depends on it. -/
structure TouchSample where
  x : BitVec 32
  y : BitVec 32
  isDown : Bool
  timestampNanoseconds : Option U64

/-- `VirtualVirtIODevice`. -/
structure VirtioDevice where
  kind : VirtioDeviceKind
  inputRole : VirtioInputRole
  inputMaximumX : BitVec 32
  inputMaximumY : BitVec 32
  blockSize : ℕ
  hasMemory : Bool
  queues : BitVec 32 → Option VirtioQueueState
  lastNotifiedQueue : Option (BitVec 32)
  interruptStatus : BitVec 32
  pendingReceiveFrames : List (List U8)
  networkHeaderLength : ℕ
  pendingInputEvents : List VirtioInputEvent
  pendingInputReadIndex : ℕ
  pendingTouchSamples : List TouchSample
  touchContactActive : Bool
  nextTouchTrackingId : BitVec 32

/-- `VirtIOBlockStorage`. A buffer is an address of guest memory and a byte count. -/
structure VirtioBlockStorage (σ : Type) where
  count : ℕ
  read : List (U64 × ℕ) → ℕ → Fallible σ Unit
  write : List (U64 × ℕ) → ℕ → Fallible σ Unit
  flush : Fallible σ Unit
  zero : ℕ → ℕ → Fallible σ Unit

/-- `VirtIONetworkBackend`. `transmit` says whether it calls `onFramesAvailable`, and `receiveAll` is
what `receive` gives until it gives nothing. -/
structure VirtioNetworkBackend (σ : Type) where
  transmit : List U8 → σ → Bool × σ
  receiveAll : σ → List (List U8) × σ

/-- The guest memory and what is behind the device, over the state `σ` of all that is outside. -/
structure VirtioHost (σ : Type) where
  readMemory16 : U64 → Fallible σ U16
  readMemory16Acquire : U64 → Fallible σ U16
  readMemory32 : U64 → Fallible σ (BitVec 32)
  readMemory64 : U64 → Fallible σ U64
  writeMemory32 : BitVec 32 → U64 → Fallible σ Unit
  writeMemory16Release : U16 → U64 → Fallible σ Unit
  copyFromGuest : U64 → ℕ → Fallible σ (ℕ → U8)
  copyToGuest : List U8 → U64 → Fallible σ Unit
  ownedDeviceBuffer : U64 → ℕ → Fallible σ Unit
  publishOwnedDeviceWrite : U64 → ℕ → Fallible σ Unit
  registerDeviceSharedRange : U64 → ℕ → Fallible σ Unit
  uptimeNanoseconds : σ → U64
  blockStorage : Option (VirtioBlockStorage σ)
  networkBackend : Option (VirtioNetworkBackend σ)

/-- What happens on a queue. `started` and `failed` are the bounds of a batch that throws; the other
events are an entry of the available ring that is read, what is done for it, and a used element. -/
inductive QueueEvent
  | started
  | failed
  | taken (position head : U16)
  | diskWritten
  | zeroed (range : ℕ)
  | transmitted
  | eventConsumed
  | arrived (frame : List U8)
  | copied (headerLength : ℕ) (frame : List U8) (capacity : ℕ) (written : List U8)
  | published (head : U16) (usedLength : BitVec 32)
  deriving DecidableEq

/-- The device, the rest, and the history of each queue, oldest first. -/
structure VirtioWorld (σ : Type) where
  device : VirtioDevice
  outside : σ
  log : BitVec 32 → List QueueEvent

abbrev VirtioStep (σ α : Type) := Fallible (VirtioWorld σ) α

variable {σ α : Type}

namespace VirtioStep

def getDevice : VirtioStep σ VirtioDevice := fun w => (some w.device, w)

def modifyDevice (change : VirtioDevice → VirtioDevice) : VirtioStep σ Unit := fun w =>
  (some (), { w with device := change w.device })

def onOutside (m : Fallible σ α) : VirtioStep σ α :=
  Fallible.onPart VirtioWorld.outside (fun w outside => { w with outside := outside }) m

def record (queue : BitVec 32) (event : QueueEvent) : VirtioStep σ Unit := fun w =>
  (some (), { w with log := Function.update w.log queue (w.log queue ++ [event]) })

/-- `try?` of a batch of the queue. -/
def batch (queue : BitVec 32) (m : VirtioStep σ α) : VirtioStep σ (Option α) := do
  record queue .started
  match ← m.attempt with
  | some a => pure (some a)
  | none => do
    record queue .failed
    pure none

end VirtioStep

open VirtioStep

def VirtioDevice.setQueue (device : VirtioDevice) (queue : BitVec 32) (state : VirtioQueueState) :
    VirtioDevice :=
  { device with queues := Function.update device.queues queue (some state) }

namespace VirtioHost

variable (host : VirtioHost σ)

/-- The `count` bytes that are copied from guest memory. -/
def guestBytes (address : U64) (count : ℕ) : Fallible σ (List U8) := do
  let bytes ← host.copyFromGuest address count
  pure ((List.range count).map bytes)

/-- `readDescriptor`. -/
def readDescriptor (address : U64) : Fallible σ VirtioDescriptor := do
  let descriptorAddress ← host.readMemory64 address
  let length ← host.readMemory32 (address + 8)
  let flags ← host.readMemory16 (address + 12)
  let next ← host.readMemory16 (address + 14)
  pure ⟨descriptorAddress, length, flags, next⟩

/-- The loop of `indirectDescriptorChain`. A chain visits no entry twice, so the fuel lasts. -/
def indirectChain (table : U64) (tableCount : ℕ) :
    ℕ → U16 → List U16 → List VirtioDescriptor → Fallible σ (List VirtioDescriptor)
  | 0, _, _, _ => Fallible.fail
  | fuel + 1, current, visited, descriptors => do
    if tableCount ≤ current.toNat ∨ current ∈ visited then Fallible.fail
    else
      let entry ← host.readDescriptor (table + current.setWidth 64 * 16)
      if entry.isIndirect then Fallible.fail
      else if entry.hasNext then
        indirectChain table tableCount fuel entry.next (current :: visited) (descriptors ++ [entry])
      else pure (descriptors ++ [entry])

/-- `indirectDescriptorChain`. -/
def indirectDescriptorChain (descriptor : VirtioDescriptor) : Fallible σ (List VirtioDescriptor) := do
  if descriptor.count < 16 then Fallible.fail
  else
    host.registerDeviceSharedRange descriptor.address descriptor.count
    host.indirectChain descriptor.address (descriptor.count / 16) 65537 0 [] []

/-- The loop of `descriptorChain`, which an indirect descriptor ends with its own table. -/
def chainFrom (queue : VirtioQueueState) :
    ℕ → U16 → List U16 → List VirtioDescriptor → Fallible σ (List VirtioDescriptor)
  | 0, _, _, _ => Fallible.fail
  | fuel + 1, current, visited, descriptors => do
    if queue.size.toNat ≤ current.toNat ∨ current ∈ visited then Fallible.fail
    else
      let descriptor ← host.readDescriptor (queue.descriptorAddress + current.setWidth 64 * 16)
      if descriptor.isIndirect then host.indirectDescriptorChain descriptor
      else if descriptor.hasNext then
        chainFrom queue fuel descriptor.next (current :: visited) (descriptors ++ [descriptor])
      else pure (descriptors ++ [descriptor])

/-- `descriptorChain`. -/
def descriptorChain (queue : VirtioQueueState) (head : U16) : Fallible σ (List VirtioDescriptor) :=
  host.chainFrom queue 65537 head [] []

/-- The offset of a position in a ring whose elements have `width` bytes. -/
def ringOffset (queue : VirtioQueueState) (position : U16) (width : BitVec 32) : U64 :=
  (4 + position.setWidth 32 % queue.size * width).setWidth 64

/-- `publishUsedElement`. -/
def publishUsedElement (queue : BitVec 32) (head : U16) (usedLength : BitVec 32)
    (state : VirtioQueueState) : VirtioStep σ Unit := do
  onOutside do
    let usedIndex ← host.readMemory16 (state.deviceAddress + 2)
    let slot := state.deviceAddress + ringOffset state usedIndex 8
    host.writeMemory32 (head.setWidth 32) slot
    host.writeMemory32 usedLength (slot + 4)
    host.writeMemory16Release (usedIndex + 1) (state.deviceAddress + 2)
  record queue (.published head usedLength)

/-- The entry at the queue's position, which is taken off the available ring. -/
def takeEntry (queue : BitVec 32) (state : VirtioQueueState) : VirtioStep σ U16 := do
  let head ← onOutside
    (host.readMemory16 (state.driverAddress + ringOffset state state.lastAvailableIndex 2))
  record queue (.taken state.lastAvailableIndex head)
  pure head

/-- The loop of a queue: each entry is taken, `serve` does what it asks for and gives the used
length, the used element is published, and `next` prepares what follows. -/
def serveQueue (queue : BitVec 32) (wanted : VirtioDevice → Bool)
    (serve : VirtioQueueState → U16 → VirtioStep σ (BitVec 32)) (next : VirtioStep σ Unit)
    (availableIndex : U16) : ℕ → VirtioQueueState → ℕ → VirtioStep σ (VirtioQueueState × ℕ)
  | 0, state, delivered => pure (state, delivered)
  | fuel + 1, state, delivered => do
    let device ← getDevice
    if state.lastAvailableIndex = availableIndex ∨ wanted device = false then pure (state, delivered)
    else
      let head ← host.takeEntry queue state
      let usedLength ← serve state head
      host.publishUsedElement queue head usedLength state
      next
      serveQueue queue wanted serve next availableIndex fuel
        { state with lastAvailableIndex := state.lastAvailableIndex + 1 } (delivered + 1)

/-- The entries that are available. -/
def entriesLeft (state : VirtioQueueState) (availableIndex : U16) : ℕ :=
  (availableIndex - state.lastAvailableIndex).toNat

end VirtioHost

end Pinecone
