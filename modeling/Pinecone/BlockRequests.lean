import Pinecone.LinkedTables
import Pinecone.StatefulErrors
import Pinecone.VirtioDevices

/-! `processBlockRequest` of VirtIO.swift with the arithmetic that Swift checks. A request reads guest
memory whose contents are fixed until the storage fills the buffers of a read, so the walk over the
descriptors is a function of the memory. What the request does is kept in the order of doing it. -/

namespace Pinecone.BlockRequests

/-- Why a request does not return: it throws, an operation traps, or it is still under way. -/
inductive RequestFault
  | thrown
  | trapped
  | unfinished
  deriving DecidableEq

/-! ## Checked arithmetic -/

/-- The addition of `UInt64`. -/
def sum64 (a b : U64) : Except RequestFault U64 :=
  if a.toNat + b.toNat < 2 ^ 64 then .ok (a + b) else .error .trapped

/-- A result of `Int` arithmetic that is not negative. -/
def checkedInt (value : ℕ) : Except RequestFault ℕ :=
  if value ≤ maxInt then .ok value else .error .trapped

/-- `UInt32.init`. -/
def checkedUInt32 (value : ℕ) : Except RequestFault (BitVec 32) :=
  if value < 2 ^ 32 then .ok (BitVec.ofNat 32 value) else .error .trapped

/-- `reduce(0)` over lengths. -/
def checkedSum : List ℕ → ℕ → Except RequestFault ℕ
  | [], total => .ok total
  | length :: rest, total => do
    let total ← checkedInt (total + length)
    checkedSum rest total

/-! ## Guest memory -/

/-- `PhysicalMemory`, whose size is an `Int`. -/
structure BlockMemory extends GuestRam where
  fits : size.toNat ≤ maxInt

namespace BlockMemory

variable (memory : BlockMemory)

/-- `range.contains`, of a width that is not zero. -/
def holds (address : U64) (width : ℕ) : Bool :=
  0 < width && memory.toGuestRam.contains address (BitVec.ofNat 64 width)

/-- `index(for:width:)`. -/
def index (address : U64) (width : ℕ) : Except RequestFault ℕ :=
  if memory.holds address width then checkedInt (address - memory.base).toNat else .error .thrown

def bytesAt (address : U64) (count : ℕ) : List U8 :=
  (List.range count).map fun position => memory.bytes ((address - memory.base).toNat + position)

/-- `readInteger`. -/
def readNumber (address : U64) (width : ℕ) : Except RequestFault ℕ := do
  let _ ← memory.index address width
  pure (littleEndianNat (memory.bytesAt address width))

/-- `readDescriptor`. -/
def readDescriptor (address : U64) : Except RequestFault VirtioDescriptor := do
  let descriptorAddress ← memory.readNumber address 8
  let lengthAddress ← sum64 address 8
  let length ← memory.readNumber lengthAddress 4
  let flagsAddress ← sum64 address 12
  let flags ← memory.readNumber flagsAddress 2
  let nextAddress ← sum64 address 14
  let next ← memory.readNumber nextAddress 2
  pure ⟨BitVec.ofNat 64 descriptorAddress, BitVec.ofNat 32 length, BitVec.ofNat 16 flags,
    BitVec.ofNat 16 next⟩

/-- The memory after bytes were stored from an offset of the RAM on. -/
def store (offset : ℕ) (bytes : List U8) : BlockMemory :=
  { memory with
    bytes := fun position =>
      if offset ≤ position ∧ position < offset + bytes.length then
        bytes.getD (position - offset) 0
      else memory.bytes position }

end BlockMemory

/-- The descriptors of guest memory by index, with the index to which each leads. -/
def followingDescriptor (descriptor : VirtioDescriptor) : Option U16 :=
  if descriptor.hasNext then some descriptor.next else none

/-- The table of a queue, which an indirect descriptor leaves. -/
def queueTable (memory : BlockMemory) (queue : VirtioQueueState) :
    LinkedTables.Table U16 VirtioDescriptor RequestFault where
  within index := index.toNat < queue.size.toNat
  entry index := do
    let address ← sum64 queue.descriptorAddress (index.setWidth 64 * 16)
    memory.readDescriptor address
  leaves := VirtioDescriptor.isIndirect
  next := followingDescriptor

/-- The table to which an indirect descriptor points. -/
def indirectTable (memory : BlockMemory) (descriptor : VirtioDescriptor) :
    LinkedTables.Table U16 VirtioDescriptor RequestFault where
  within index := index.toNat < descriptor.count / 16
  entry index := do
    let address ← sum64 descriptor.address (index.setWidth 64 * 16)
    let entry ← memory.readDescriptor address
    if entry.isIndirect then .error .thrown else pure entry
  leaves _ := false
  next := followingDescriptor

/-! ## What a request does -/

/-- A call of the storage. The buffers of a read or a write are the addresses and byte counts of guest
memory. -/
inductive BlockCall
  | read (buffers : List (U64 × ℕ)) (offset : ℕ)
  | write (buffers : List (U64 × ℕ)) (offset : ℕ)
  | zero (offset byteCount : ℕ)
  | flush
  deriving DecidableEq

/-- A descriptor that is read, a call of the storage and whether it returned, or the status with which
the request ends. -/
inductive BlockEvent
  | queueEntry (index : U16)
  | indirectEntry (tableCount : ℕ) (index : U16)
  | called (call : BlockCall) (isDone : Bool)
  | status (value : U8)
  deriving DecidableEq

structure RequestWorld where
  memory : BlockMemory
  disk : ℕ → U8
  events : List BlockEvent

/-- The storage of a block device. A call that throws has a reply, which says what it has left of the
bytes it was to change. -/
structure BlockBackend where
  count : ℕ
  fits : count ≤ maxInt
  blockSize : ℕ
  blockSize_pos : 0 < blockSize
  replies : ℕ → Option (ℕ → U8)

abbrev BlockStep := EStateM RequestFault RequestWorld

variable {α : Type}

def ofChecked (value : Except RequestFault α) : BlockStep α := fun w =>
  match value with
  | .ok a => .ok a w
  | .error fault => .error fault w

/-- A computation over the memory as it stands. -/
def onMemory (read : BlockMemory → Except RequestFault α) : BlockStep α := fun w =>
  ofChecked (read w.memory) w

def record (event : BlockEvent) : BlockStep Unit :=
  modify fun w => { w with events := w.events ++ [event] }

/-! ## Chains of descriptors -/

/-- The loop of `indirectDescriptorChain`, and what comes before it. -/
def indirectDescriptorChain (memory : BlockMemory) (descriptor : VirtioDescriptor) :
    List BlockEvent × Except RequestFault (List VirtioDescriptor) :=
  if descriptor.count < 16 then ([], .error .thrown)
  else
    match memory.index descriptor.address descriptor.count with
    | .error fault => ([], .error fault)
    | .ok _ =>
      let walked := LinkedTables.walk (indirectTable memory descriptor) 65537 0 [] []
      let used := walked.1.reverse.map (.indirectEntry (descriptor.count / 16))
      match walked.2 with
      | .ended entries => (used, .ok entries)
      | .left _ => (used, .error .thrown)
      | .faulted fault => (used, .error fault)
      | .refused => (used, .error .thrown)
      | .unfinished => (used, .error .unfinished)

/-- `descriptorChain`, with the descriptors that it reads. -/
def descriptorChain (memory : BlockMemory) (queue : VirtioQueueState) (head : U16) :
    List BlockEvent × Except RequestFault (List VirtioDescriptor) :=
  let walked := LinkedTables.walk (queueTable memory queue) 65537 head [] []
  let used := walked.1.reverse.map .queueEntry
  match walked.2 with
  | .ended entries => (used, .ok entries)
  | .left descriptor =>
    let rest := indirectDescriptorChain memory descriptor
    (used ++ rest.1, rest.2)
  | .faulted fault => (used, .error fault)
  | .refused => (used, .error .thrown)
  | .unfinished => (used, .error .unfinished)

/-! ## The parts of a request -/

/-- `writeStatus`. -/
def writeStatus (status : U8) (descriptors : List VirtioDescriptor) : BlockStep Unit := do
  record (.status status)
  match descriptors.getLast? with
  | none => pure ()
  | some last =>
    if last.isDeviceWritable ∧ 0 < last.count then do
      let offset ← onMemory fun memory => memory.index last.address 1
      modify fun w => { w with memory := w.memory.store offset [status] }
    else pure ()

/-- The guest buffers of the data descriptors, or none if one has the other direction. -/
def guestBuffers (memory : BlockMemory) (writable : Bool) :
    List VirtioDescriptor → Except RequestFault (Option (List (U64 × ℕ)))
  | [] => .ok (some [])
  | descriptor :: rest =>
    if descriptor.isDeviceWritable ≠ writable then .ok none
    else if descriptor.count = 0 then guestBuffers memory writable rest
    else do
      let _ ← memory.index descriptor.address descriptor.count
      let buffers ← guestBuffers memory writable rest
      pure (buffers.map ((descriptor.address, descriptor.count) :: ·))

/-- The check that `publishOwnedDeviceWrite` makes of each descriptor. -/
def publishWrites (memory : BlockMemory) : List VirtioDescriptor → Except RequestFault Unit
  | [] => .ok ()
  | descriptor :: rest =>
    if descriptor.count = 0 then publishWrites memory rest
    else do
      let _ ← memory.index descriptor.address descriptor.count
      publishWrites memory rest

/-- The bytes of the descriptors one after the other, or none if the device could write one. -/
def readPayload (memory : BlockMemory) :
    List VirtioDescriptor → Except RequestFault (Option (List U8))
  | [] => .ok (some [])
  | descriptor :: rest =>
    if descriptor.isDeviceWritable then .ok none
    else if descriptor.count = 0 then readPayload memory rest
    else do
      let _ ← memory.index descriptor.address descriptor.count
      let payload ← readPayload memory rest
      pure (payload.map (memory.bytesAt descriptor.address descriptor.count ++ ·))

/-- `readDiscardOrWriteZeroRanges`. -/
def readZeroRanges (memory : BlockMemory) (descriptors : List VirtioDescriptor) :
    Except RequestFault (List (ℕ × ℕ)) := do
  let _ ← checkedSum (descriptors.map VirtioDescriptor.count) 0
  let payload ← readPayload memory descriptors
  match payload with
  | none => pure []
  | some payload =>
    if payload.length % 16 ≠ 0 then pure []
    else pure (VirtioHost.blockRanges (payload.length / 16) payload)

variable (backend : BlockBackend)

/-- `blockOffset(forSector:byteCount:storageByteCount:)`. -/
def blockOffset (sector byteCount : ℕ) : Except RequestFault (Option ℕ) :=
  if maxInt / backend.blockSize < sector then .ok none
  else do
    let offset ← checkedInt (sector * backend.blockSize)
    if backend.count < offset ∨ backend.count - offset < byteCount then pure none
    else pure (some offset)

/-- `blockOffset(forSector:sectorCount:storageByteCount:)`. -/
def blockRange (sector sectorCount : ℕ) : Except RequestFault (Option (ℕ × ℕ)) :=
  if maxInt / backend.blockSize < sector ∨ maxInt / backend.blockSize < sectorCount then .ok none
  else do
    let offset ← checkedInt (sector * backend.blockSize)
    let byteCount ← checkedInt (sectorCount * backend.blockSize)
    if backend.count < offset ∨ backend.count - offset < byteCount then pure none
    else pure (some (offset, byteCount))

/-! ## Calls of the storage -/

def buffersLength (buffers : List (U64 × ℕ)) : ℕ := (buffers.map Prod.snd).sum

namespace BlockCall

/-- The bytes of the storage that a call is about. -/
def range : BlockCall → ℕ × ℕ
  | read buffers offset | write buffers offset => (offset, buffersLength buffers)
  | zero offset byteCount => (offset, byteCount)
  | flush => (0, 0)

def changes : BlockCall → ℕ → Bool
  | call@(write _ _), position | call@(zero _ _), position =>
    call.range.1 ≤ position && position < call.range.1 + call.range.2
  | _, _ => false

end BlockCall

/-- The bytes of the buffers, one after the other. -/
def gatherBuffers (memory : BlockMemory) (buffers : List (U64 × ℕ)) : List U8 :=
  buffers.flatMap fun buffer => memory.bytesAt buffer.1 buffer.2

/-- The memory after the buffers were filled from an offset of the storage on. -/
def fillBuffers (disk : ℕ → U8) : List (U64 × ℕ) → ℕ → BlockMemory → BlockMemory
  | [], _, memory => memory
  | buffer :: rest, offset, memory =>
    fillBuffers disk rest (offset + buffer.2)
      (memory.store (buffer.1 - memory.base).toNat
        ((List.range buffer.2).map fun position => disk (offset + position)))

/-- What a call does that returns. -/
def BlockCall.effect (w : RequestWorld) : BlockCall → RequestWorld
  | .read buffers offset => { w with memory := fillBuffers w.disk buffers offset w.memory }
  | call@(.write buffers offset) =>
    { w with
      disk := fun position =>
        if call.changes position then (gatherBuffers w.memory buffers).getD (position - offset) 0
        else w.disk position }
  | call@(.zero _ _) =>
    { w with disk := fun position => if call.changes position then 0 else w.disk position }
  | .flush => w

/-- The call of the storage that has so many before it. -/
def perform (earlier : ℕ) (call : BlockCall) : BlockStep Unit :=
  match backend.replies earlier with
  | none => do
    modify call.effect
    record (.called call true)
  | some contents => do
    modify fun w =>
      { w with
        disk := fun position => if call.changes position then contents position else w.disk position }
    record (.called call false)
    throw .thrown

/-- The loop over the ranges, which says whether all of them were in the storage. -/
def zeroRanges : ℕ → List (ℕ × ℕ) → BlockStep Bool
  | _, [] => pure true
  | earlier, range :: rest => do
    match ← ofChecked (blockRange backend range.1 range.2) with
    | none => pure false
    | some (offset, byteCount) => do
      perform backend earlier (.zero offset byteCount)
      zeroRanges (earlier + 1) rest

/-! ## Requests -/

/-- A status at the end of a request, which has then written one byte. -/
def finish (status : U8) (descriptors : List VirtioDescriptor) : BlockStep (BitVec 32) := do
  writeStatus status descriptors
  pure 1

/-- `case 0`. -/
def serveRead (sector dataLength : ℕ) (data descriptors : List VirtioDescriptor) :
    BlockStep (BitVec 32) := do
  match ← ofChecked (blockOffset backend sector dataLength) with
  | none => finish 1 descriptors
  | some diskOffset => do
    match ← onMemory fun memory => guestBuffers memory true data with
    | none => finish 1 descriptors
    | some buffers => do
      perform backend 0 (.read buffers diskOffset)
      onMemory fun memory => publishWrites memory data
      writeStatus 0 descriptors
      let usedLength ← ofChecked (checkedInt (dataLength + 1))
      ofChecked (checkedUInt32 usedLength)

/-- `case 1`. -/
def serveWrite (sector dataLength : ℕ) (data descriptors : List VirtioDescriptor) :
    BlockStep (BitVec 32) := do
  match ← ofChecked (blockOffset backend sector dataLength) with
  | none => finish 1 descriptors
  | some diskOffset => do
    match ← onMemory fun memory => guestBuffers memory false data with
    | none => finish 1 descriptors
    | some buffers => do
      perform backend 0 (.write buffers diskOffset)
      finish 0 descriptors

/-- `case 11, 13`. -/
def serveZero (data descriptors : List VirtioDescriptor) : BlockStep (BitVec 32) := do
  let ranges ← onMemory fun memory => readZeroRanges memory data
  if ranges.isEmpty then finish 1 descriptors
  else do
    if ← zeroRanges backend 0 ranges then finish 0 descriptors else finish 1 descriptors

/-- The switch over the request type. -/
def serve (requestType sector dataLength : ℕ) (data descriptors : List VirtioDescriptor) :
    BlockStep (BitVec 32) :=
  match requestType with
  | 0 => serveRead backend sector dataLength data descriptors
  | 1 => serveWrite backend sector dataLength data descriptors
  | 4 => do
    perform backend 0 .flush
    finish 0 descriptors
  | 11 | 13 => serveZero backend data descriptors
  | _ => finish 2 descriptors

/-- The descriptors of a chain, whose reading is recorded. -/
def readChain (queue : VirtioQueueState) (head : U16) : BlockStep (List VirtioDescriptor) := fun w =>
  ofChecked (descriptorChain w.memory queue head).2
    { w with events := w.events ++ (descriptorChain w.memory queue head).1 }

/-- `copyOwnedDeviceBytes` of a request's header. -/
def readHeader (memory : BlockMemory) (address : U64) : Except RequestFault (List U8) := do
  let _ ← memory.index address 16
  pure (memory.bytesAt address 16)

/-- `processBlockRequest` of a device that has a storage. -/
def processBlockRequest (queue : VirtioQueueState) (head : U16) : BlockStep (BitVec 32) := do
  let descriptors ← readChain queue head
  match descriptors with
  | first :: second :: rest =>
    if first.count < 16 then finish 1 descriptors
    else do
      let header ← onMemory fun memory => readHeader memory first.address
      let data := (second :: rest).dropLast
      let dataLength ← ofChecked (checkedSum (data.map VirtioDescriptor.count) 0)
      serve backend (littleEndianNat (header.take 4)) (littleEndianNat (header.drop 8)) dataLength data
        descriptors
  | _ => finish 1 descriptors

end Pinecone.BlockRequests
