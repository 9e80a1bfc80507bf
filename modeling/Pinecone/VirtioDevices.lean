import Pinecone.VirtioQueues

/-! The block, network and input devices of VirtIO.swift, and the notifications that make them serve
their queues. -/

namespace Pinecone

variable {σ : Type}

open VirtioStep

def littleEndianNat (bytes : List U8) : ℕ :=
  bytes.foldr (fun byte value => byte.toNat + 256 * value) 0

/-- `Int.max`. -/
def maxInt : ℕ := 2 ^ 63 - 1

namespace VirtioHost

variable (host : VirtioHost σ)

/-! ## Block requests -/

/-- `writeStatus`. -/
def writeStatus (status : U8) (descriptors : List VirtioDescriptor) : Fallible σ Unit :=
  match descriptors.getLast? with
  | none => pure ()
  | some last =>
    if last.isDeviceWritable ∧ 0 < last.count then host.copyToGuest [status] last.address
    else pure ()

/-- `blockOffset(forSector:sectorCount:storageByteCount:)`, in sectors. -/
def blockRange (blockSize sector sectorCount storageByteCount : ℕ) : Option (ℕ × ℕ) :=
  if maxInt / blockSize < sector ∨ maxInt / blockSize < sectorCount then none
  else
    let offset := sector * blockSize
    let byteCount := sectorCount * blockSize
    if storageByteCount < offset ∨ storageByteCount - offset < byteCount then none
    else some (offset, byteCount)

/-- `blockOffset(forSector:byteCount:storageByteCount:)`. -/
def blockOffset (blockSize sector byteCount storageByteCount : ℕ) : Option ℕ :=
  if maxInt / blockSize < sector then none
  else
    let offset := sector * blockSize
    if storageByteCount < offset ∨ storageByteCount - offset < byteCount then none else some offset

/-- The guest buffers of the data descriptors, all of one direction, or none if one is not. -/
def guestBuffers (writable : Bool) : List VirtioDescriptor → Fallible σ (Option (List (U64 × ℕ)))
  | [] => pure (some [])
  | descriptor :: rest =>
    if descriptor.isDeviceWritable ≠ writable then pure none
    else if descriptor.count = 0 then guestBuffers writable rest
    else do
      host.ownedDeviceBuffer descriptor.address descriptor.count
      match ← guestBuffers writable rest with
      | none => pure none
      | some buffers => pure (some ((descriptor.address, descriptor.count) :: buffers))

def publishDeviceWrites : List VirtioDescriptor → Fallible σ Unit
  | [] => pure ()
  | descriptor :: rest =>
    if descriptor.count = 0 then publishDeviceWrites rest
    else do
      host.publishOwnedDeviceWrite descriptor.address descriptor.count
      publishDeviceWrites rest

/-- The payload of the descriptors, or none if the device could write one of them. -/
def readPayload : List VirtioDescriptor → Fallible σ (Option (List U8))
  | [] => pure (some [])
  | descriptor :: rest =>
    if descriptor.isDeviceWritable then pure none
    else do
      let bytes ← host.guestBytes descriptor.address descriptor.count
      match ← readPayload rest with
      | none => pure none
      | some payload => pure (some (bytes ++ payload))

/-- The 16-byte records of the payload, as sector and sector count. -/
def blockRanges : ℕ → List U8 → List (ℕ × ℕ)
  | 0, _ => []
  | records + 1, payload =>
    (littleEndianNat (payload.take 8), littleEndianNat ((payload.drop 8).take 4)) ::
      blockRanges records (payload.drop 16)

/-- `readDiscardOrWriteZeroRanges`. -/
def readZeroRanges (descriptors : List VirtioDescriptor) : Fallible σ (List (ℕ × ℕ)) := do
  match ← host.readPayload descriptors with
  | none => pure []
  | some payload =>
    if payload.length % 16 ≠ 0 then pure [] else pure (blockRanges (payload.length / 16) payload)

/-- The loop over the ranges, which says whether all of them were in the storage. -/
def zeroRanges (queue : BitVec 32) (storage : VirtioBlockStorage σ) (blockSize : ℕ) :
    ℕ → List (ℕ × ℕ) → VirtioStep σ Bool
  | _, [] => pure true
  | index, range :: rest =>
    match blockRange blockSize range.1 range.2 storage.count with
    | none => pure false
    | some (offset, byteCount) => do
      onOutside (storage.zero offset byteCount)
      record queue (.zeroed index)
      zeroRanges queue storage blockSize (index + 1) rest

/-- `processBlockRequest`, which gives the used length. -/
def processBlockRequest (queue : BitVec 32) (state : VirtioQueueState) (head : U16) :
    VirtioStep σ (BitVec 32) := do
  match host.blockStorage with
  | none => Fallible.fail
  | some storage => do
    let blockSize := (← getDevice).blockSize
    let descriptors ← onOutside (host.descriptorChain state head)
    let finish (status : U8) : VirtioStep σ (BitVec 32) := do
      onOutside (host.writeStatus status descriptors)
      pure 1
    match descriptors with
    | first :: second :: rest =>
      if first.count < 16 then finish 1
      else do
        let header ← onOutside (host.guestBytes first.address 16)
        let requestType := littleEndianNat (header.take 4)
        let sector := littleEndianNat (header.drop 8)
        let data := (second :: rest).dropLast
        let dataLength := (data.map VirtioDescriptor.count).sum
        if requestType = 0 then
          match blockOffset blockSize sector dataLength storage.count with
          | none => finish 1
          | some diskOffset => do
            match ← onOutside (host.guestBuffers true data) with
            | none => finish 1
            | some buffers => do
              onOutside (storage.read buffers diskOffset)
              onOutside (host.publishDeviceWrites data)
              onOutside (host.writeStatus 0 descriptors)
              pure (BitVec.ofNat 32 (dataLength + 1))
        else if requestType = 1 then
          match blockOffset blockSize sector dataLength storage.count with
          | none => finish 1
          | some diskOffset => do
            match ← onOutside (host.guestBuffers false data) with
            | none => finish 1
            | some buffers => do
              onOutside (storage.write buffers diskOffset)
              record queue .diskWritten
              finish 0
        else if requestType = 4 then do
          onOutside storage.flush
          finish 0
        else if requestType = 11 ∨ requestType = 13 then do
          let ranges ← onOutside (host.readZeroRanges data)
          if ranges.isEmpty then finish 1
          else if ← zeroRanges queue storage blockSize 0 ranges then finish 0
          else finish 1
        else finish 2
    | _ => finish 1

/-- The queue that is served, with the index of the entries that are available for it. -/
def availableQueue (queue : BitVec 32) : VirtioStep σ (Option (VirtioQueueState × U16)) := do
  let device ← getDevice
  match device.queues queue with
  | none => pure none
  | some state =>
    if state.ready = false ∨ state.size = 0 ∨ device.hasMemory = false then pure none
    else do
      let availableIndex ← onOutside (host.readMemory16Acquire (state.driverAddress + 2))
      pure (some (state, availableIndex))

/-- A queue of which all available entries are served. -/
def processQueue (queue : BitVec 32) (serve : VirtioQueueState → U16 → VirtioStep σ (BitVec 32)) :
    VirtioStep σ Unit := do
  match ← host.availableQueue queue with
  | none => pure ()
  | some (state, availableIndex) => do
    let served ← host.serveQueue queue (fun _ => true) serve (pure ()) availableIndex
      (entriesLeft state availableIndex) state 0
    modifyDevice fun device => device.setQueue queue served.1

/-- `processBlockQueue`. -/
def processBlockQueue (queue : BitVec 32) : VirtioStep σ Unit :=
  host.processQueue queue (host.processBlockRequest queue)

/-! ## Network frames -/

/-- `isSupportedEtherType`. -/
def isSupportedEtherType (bytes : List U8) (offset : ℕ) : Bool :=
  offset + 1 < bytes.length &&
    (bytes.getD offset 0 = 8 && (bytes.getD (offset + 1) 0 = 0 || bytes.getD (offset + 1) 0 = 6))

/-- The bytes of the descriptors that the device reads. -/
def readableBytes : List VirtioDescriptor → Fallible σ (List U8)
  | [] => pure []
  | descriptor :: rest =>
    if descriptor.isDeviceWritable then readableBytes rest
    else do
      let bytes ← host.guestBytes descriptor.address descriptor.count
      pure (bytes ++ (← readableBytes rest))

/-- `virtioNetHeaderLength`. -/
def virtioNetHeaderLength : ℕ := 10

/-- `readNetworkTransmitFrame`, which finds out the length of the driver's packet headers. -/
def readNetworkTransmitFrame (state : VirtioQueueState) (head : U16) : VirtioStep σ (List U8) := do
  let descriptors ← onOutside (host.descriptorChain state head)
  let bytes ← onOutside (host.readableBytes descriptors)
  if bytes.length < virtioNetHeaderLength then pure []
  else
    let frame := bytes.drop virtioNetHeaderLength
    if 16 ≤ frame.length ∧ isSupportedEtherType frame 12 = false ∧
        isSupportedEtherType frame 14 = true then do
      modifyDevice fun device => { device with networkHeaderLength := 12 }
      pure (bytes.drop 12)
    else do
      modifyDevice fun device => { device with networkHeaderLength := virtioNetHeaderLength }
      pure frame

/-- The copy of a packet into the descriptors that the device writes, as far as they go. -/
def copyPacket : List VirtioDescriptor → List U8 → Fallible σ (List U8)
  | [], _ => pure []
  | descriptor :: rest, packet =>
    if descriptor.isDeviceWritable = false then copyPacket rest packet
    else if packet = [] then pure []
    else do
      let part := packet.take descriptor.count
      host.copyToGuest part descriptor.address
      pure (part ++ (← copyPacket rest (packet.drop descriptor.count)))

/-- The header in front of a received frame. -/
def receiveHeader (headerLength : ℕ) : List U8 :=
  if headerLength = 12 then (List.replicate headerLength 0).set 10 1
  else List.replicate headerLength 0

/-- The bytes that the device may write to a chain. -/
def writableCount (descriptors : List VirtioDescriptor) : ℕ :=
  ((descriptors.filter VirtioDescriptor.isDeviceWritable).map VirtioDescriptor.count).sum

/-- `writeNetworkReceiveFrame`. -/
def writeNetworkReceiveFrame (frame : List U8) (state : VirtioQueueState) (head : U16) :
    VirtioStep σ (BitVec 32) := do
  let descriptors ← onOutside (host.descriptorChain state head)
  let headerLength := (← getDevice).networkHeaderLength
  let written ← onOutside (host.copyPacket descriptors (receiveHeader headerLength ++ frame))
  record 0 (.copied headerLength frame (writableCount descriptors) written)
  pure (BitVec.ofNat 32 written.length)

/-- `interruptStatus |= usedBufferInterrupt`. -/
def raiseUsedBuffer : VirtioStep σ Unit :=
  modifyDevice fun device => { device with interruptStatus := device.interruptStatus ||| 1#32 }

/-- The loop of `processNetworkReceiveQueue`, with the frames it leaves. -/
def receiveFrames : List (List U8) → U16 → VirtioQueueState →
    VirtioStep σ (VirtioQueueState × List (List U8))
  | [], _, state => pure (state, [])
  | frame :: frames, availableIndex, state =>
    if state.lastAvailableIndex = availableIndex then pure (state, frame :: frames)
    else do
      let head ← host.takeEntry 0 state
      let usedLength ← host.writeNetworkReceiveFrame frame state head
      host.publishUsedElement 0 head usedLength state
      raiseUsedBuffer
      let availableIndex ← onOutside (host.readMemory16Acquire (state.driverAddress + 2))
      receiveFrames frames availableIndex
        { state with lastAvailableIndex := state.lastAvailableIndex + 1 }

/-- The frames that `receive` gives. -/
def receiveBackendFrames : VirtioStep σ (List (List U8)) :=
  match host.networkBackend with
  | none => pure []
  | some backend => do
    let frames ← onOutside fun outside => (some (backend.receiveAll outside).1,
      (backend.receiveAll outside).2)
    frames.forM fun frame => record 0 (.arrived frame)
    pure frames

/-- `processNetworkReceiveQueue`. -/
def processNetworkReceiveQueue : VirtioStep σ Unit := do
  let device ← getDevice
  match device.queues 0 with
  | none => pure ()
  | some state =>
    if state.ready = false ∨ state.size = 0 ∨ device.hasMemory = false then pure ()
    else do
      modifyDevice fun device => { device with pendingReceiveFrames := [] }
      let backendFrames ← host.receiveBackendFrames
      let frames := device.pendingReceiveFrames ++ backendFrames
      if frames.isEmpty then modifyDevice fun device => device.setQueue 0 state
      else do
        let availableIndex ← onOutside (host.readMemory16Acquire (state.driverAddress + 2))
        let left ← host.receiveFrames frames availableIndex state
        modifyDevice fun device =>
          { device.setQueue 0 left.1 with
            pendingReceiveFrames := left.2 ++ device.pendingReceiveFrames }

/-- `pumpNetworkReceiveQueue`. -/
def pumpNetworkReceiveQueue : VirtioStep σ Unit := do
  if (← getDevice).kind = .network then do
    let _ ← batch 0 host.processNetworkReceiveQueue
  else pure ()

/-- `networkBackend?.transmit(frame:)`, which may make the device pump its receive queue. -/
def transmitFrame (queue : BitVec 32) (frame : List U8) : VirtioStep σ Unit :=
  match host.networkBackend with
  | none => pure ()
  | some backend => do
    record queue .transmitted
    let framesAvailable ← onOutside fun outside => (some (backend.transmit frame outside).1,
      (backend.transmit frame outside).2)
    if framesAvailable then host.pumpNetworkReceiveQueue else pure ()

/-- What `processNetworkTransmitQueue` does for an entry. -/
def processNetworkTransmit (queue : BitVec 32) (state : VirtioQueueState) (head : U16) :
    VirtioStep σ (BitVec 32) := do
  let frame ← host.readNetworkTransmitFrame state head
  host.transmitFrame queue frame
  pure (BitVec.ofNat 32 (frame.length + (← getDevice).networkHeaderLength))

/-- `processNetworkTransmitQueue`. -/
def processNetworkTransmitQueue (queue : BitVec 32) : VirtioStep σ Unit :=
  host.processQueue queue (host.processNetworkTransmit queue)

end VirtioHost

/-! ## Input events -/

namespace VirtioDevice

/-- `compactPendingInputEvents`. -/
def compactPendingInputEvents (device : VirtioDevice) : VirtioDevice :=
  if device.pendingInputReadIndex = 0 then device
  else if device.pendingInputReadIndex = device.pendingInputEvents.length then
    { device with pendingInputEvents := [], pendingInputReadIndex := 0 }
  else if device.pendingInputReadIndex < 256 ∨
      device.pendingInputReadIndex * 2 < device.pendingInputEvents.length then device
  else
    { device with
      pendingInputEvents := device.pendingInputEvents.drop device.pendingInputReadIndex
      pendingInputReadIndex := 0 }

/-- `Int32(clamping: min(value, maximum))`. -/
def clampCoordinate (value maximum : BitVec 32) : BitVec 32 :=
  let value := if value < maximum then value else maximum
  if value ≤ 0x7fffffff#32 then value else 0x7fffffff#32

/-- The events of a touch that is down. -/
def downEvents (x y : BitVec 32) (started : Option (BitVec 32)) : List VirtioInputEvent :=
  (if started.isSome then [⟨1, 330, 1⟩] else []) ++ [⟨3, 0, x⟩, ⟨3, 1, y⟩, ⟨3, 47, 0⟩] ++
    (started.elim [] fun trackingId => [⟨3, 57, trackingId⟩]) ++ [⟨3, 53, x⟩, ⟨3, 54, y⟩, ⟨0, 0, 0⟩]

/-- `appendTouchFrameLocked`. -/
def appendTouchFrame (device : VirtioDevice) (now : U64) (touch : TouchSample) : VirtioDevice :=
  let x := clampCoordinate touch.x device.inputMaximumX
  let y := clampCoordinate touch.y device.inputMaximumY
  let time := touch.timestampNanoseconds.getD now
  let events : List VirtioInputEvent :=
    device.pendingInputEvents ++ [⟨4, 0x7f00, time.setWidth 32⟩, ⟨4, 0x7f01, (time >>> 32).setWidth 32⟩]
  if touch.isDown then
    if device.touchContactActive then { device with pendingInputEvents := events ++ downEvents x y none }
    else
      let trackingId := device.nextTouchTrackingId
      { device with
        pendingInputEvents := events ++ downEvents x y (some trackingId)
        nextTouchTrackingId := if trackingId = 0x7fffffff#32 then 0 else trackingId + 1
        touchContactActive := true }
  else if device.touchContactActive then
    { device with
      pendingInputEvents := events ++ [⟨1, 330, 0⟩, ⟨3, 47, 0⟩, ⟨3, 57, 0xffffffff#32⟩, ⟨0, 0, 0⟩]
      touchContactActive := false }
  else { device with pendingInputEvents := events }

/-- `stageNextTouchFrame`. -/
def stageNextTouchFrame (device : VirtioDevice) (now : U64) : VirtioDevice :=
  if device.kind = .input ∧ device.inputRole = .touchscreen ∧
      device.pendingInputReadIndex = device.pendingInputEvents.length then
    let device := device.compactPendingInputEvents
    match device.pendingTouchSamples with
    | [] => device
    | touch :: rest => { device with pendingTouchSamples := rest }.appendTouchFrame now touch
  else device

def hasPendingEvent (device : VirtioDevice) : Bool :=
  device.pendingInputReadIndex < device.pendingInputEvents.length

end VirtioDevice

/-- The eight bytes of an event. -/
def VirtioInputEvent.bytes (event : VirtioInputEvent) : List U8 :=
  [event.type.setWidth 8, (event.type >>> 8).setWidth 8,
    event.code.setWidth 8, (event.code >>> 8).setWidth 8,
    event.value.setWidth 8, (event.value >>> 8).setWidth 8,
    (event.value >>> 16).setWidth 8, (event.value >>> 24).setWidth 8]

namespace VirtioHost

variable (host : VirtioHost σ)

/-- `stageNextTouchFrame`, at the time of the call. -/
def stageTouchFrame : VirtioStep σ Unit := fun w =>
  (some (), { w with device := w.device.stageNextTouchFrame (host.uptimeNanoseconds w.outside) })

/-- What `processInputEventQueue` does for an entry. The event is consumed before it is copied. -/
def processInputEvent (state : VirtioQueueState) (head : U16) : VirtioStep σ (BitVec 32) := do
  let descriptors ← onOutside (host.descriptorChain state head)
  match descriptors.find? fun descriptor => descriptor.isDeviceWritable && 8 ≤ descriptor.count with
  | none => Fallible.fail
  | some target => do
    let device ← getDevice
    let event := device.pendingInputEvents.getD device.pendingInputReadIndex ⟨0, 0, 0⟩
    modifyDevice fun device =>
      { device with pendingInputReadIndex := device.pendingInputReadIndex + 1 }
    record 0 .eventConsumed
    onOutside (host.copyToGuest event.bytes target.address)
    pure 8

/-- `processInputEventQueue`, which gives how many events it delivers. -/
def processInputEventQueue : VirtioStep σ ℕ := do
  host.stageTouchFrame
  if (← getDevice).hasPendingEvent = false then pure 0
  else do
    match ← host.availableQueue 0 with
    | none => pure 0
    | some (state, availableIndex) => do
      let served ← host.serveQueue 0 VirtioDevice.hasPendingEvent host.processInputEvent
        host.stageTouchFrame availableIndex (entriesLeft state availableIndex) state 0
      modifyDevice fun device => (device.setQueue 0 served.1).compactPendingInputEvents
      pure served.2

/-- A run of the input queue, and the interrupt for what it delivered. -/
def serveInput : VirtioStep σ Unit := do
  let delivered ← batch 0 host.processInputEventQueue
  if 0 < delivered.getD 0 then raiseUsedBuffer else pure ()

/-! ## Notifications -/

/-- `notify(queue:)`. -/
def notify (queue : BitVec 32) : VirtioStep σ Unit := do
  modifyDevice fun device => { device with lastNotifiedQueue := some queue }
  let device ← getDevice
  if ((device.queues queue).map VirtioQueueState.ready).getD false = false then pure ()
  else
    match device.kind with
    | .block => do
      let _ ← batch queue (host.processBlockQueue queue)
      raiseUsedBuffer
    | .network => do
      if queue = 1 then do
        let _ ← batch 1 (host.processNetworkTransmitQueue 1)
        let _ ← batch 0 host.processNetworkReceiveQueue
      else if queue = 0 then do
        let _ ← batch 0 host.processNetworkReceiveQueue
      else pure ()
      raiseUsedBuffer
    | .input => if queue = 0 then host.serveInput else pure ()

/-- `injectNetworkReceiveFrame`. -/
def injectNetworkReceiveFrame (frame : List U8) : VirtioStep σ Unit := do
  modifyDevice fun device =>
    { device with pendingReceiveFrames := device.pendingReceiveFrames ++ [frame] }
  record 0 (.arrived frame)
  host.pumpNetworkReceiveQueue

/-- `enqueueKey`. -/
def enqueueKey (code : U16) (value : BitVec 32) : VirtioStep σ Unit := do
  let device ← getDevice
  if device.kind = .input ∧ device.inputRole = .keyboard then do
    modifyDevice fun device => { device with
      pendingInputEvents := device.pendingInputEvents ++ [⟨1, code, value⟩, ⟨0, 0, 0⟩] }
    host.serveInput
  else pure ()

/-- `enqueueTouches`, which leaves `pending` samples in the touch queue. -/
def enqueueTouches (pending : List TouchSample) : VirtioStep σ Unit := do
  let device ← getDevice
  if device.kind = .input ∧ device.inputRole = .touchscreen then do
    modifyDevice fun device => { device with pendingTouchSamples := pending }
    host.serveInput
  else pure ()

end VirtioHost

/-- What may happen to a device. The driver and the backends change what is outside at any time. -/
inductive VirtioEvent (σ : Type)
  | notify (queue : BitVec 32)
  | pump
  | inject (frame : List U8)
  | key (code : U16) (value : BitVec 32)
  | touches (pending : List TouchSample)
  | acknowledge (value : BitVec 32)
  | outside (change : σ → σ)

namespace VirtioHost

variable (host : VirtioHost σ)

def handle : VirtioEvent σ → VirtioStep σ Unit
  | .notify queue => host.notify queue
  | .pump => host.pumpNetworkReceiveQueue
  | .inject frame => host.injectNetworkReceiveFrame frame
  | .key code value => host.enqueueKey code value
  | .touches pending => host.enqueueTouches pending
  | .acknowledge value => modifyDevice fun device =>
      { device with interruptStatus := device.interruptStatus &&& ~~~(value &&& 3#32) }
  | .outside change => onOutside fun outside => (some (), change outside)

def step (w : VirtioWorld σ) (event : VirtioEvent σ) : VirtioWorld σ := (host.handle event w).2

def run (w : VirtioWorld σ) (events : List (VirtioEvent σ)) : VirtioWorld σ :=
  events.foldl host.step w

end VirtioHost

end Pinecone
