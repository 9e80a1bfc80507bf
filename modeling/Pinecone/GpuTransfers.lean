import Mathlib.Logic.Function.Basic
import Pinecone.GpuBacking
import Pinecone.GpuResourceAccess

/-! The requests that make a resource, give it a backing and copy the backing to its mirror. -/

namespace Pinecone

open GpuResourceAccess (read16 read32)

def read64 (bytes : List U8) (offset : ℕ) : U64 :=
  (read32 bytes offset).setWidth 64 ||| (read32 bytes (offset + 4)).setWidth 64 <<< 32

def readNat (request : List U8) (offset : ℕ) : ℕ := (read32 request offset).toNat

/-- `readSignedLE32`. -/
def readSigned (request : List U8) (offset : ℕ) : ℤ := (read32 request offset).toInt

/-- `rectangle(_:at:)`. -/
def readRectangle (request : List U8) (offset : ℕ) : GpuRectangle :=
  ⟨readNat request offset, readNat request (offset + 4), readNat request (offset + 8),
    readNat request (offset + 12)⟩

/-- What the requests of `VirtIOGPUDevice` that touch pixels read and write: the resources, the
resource of the cursor and the copy that is shown, and the memory behind the backings. -/
structure GpuDevice where
  resources : BitVec 32 → Option GpuResource
  cursor : Option (BitVec 32)
  cursorPixels : Option GpuBytes
  memory : PhysicalMemory

/-- A step of a request: an error is answered, and keeps what was done before it. -/
abbrev GpuRequest := EStateM GpuResponse GpuDevice

/-- `require`. -/
def requireCount {σ : Type} (request : List U8) (count : ℕ) : EStateM GpuResponse σ Unit :=
  if request.length < count then throw .errorInvalidParameter else pure ()

def requireThat {σ : Type} (condition : Bool) (response : GpuResponse) : EStateM GpuResponse σ Unit :=
  if condition then pure () else throw response

namespace GpuDevice

def setResource (device : GpuDevice) (resourceID : BitVec 32) (resource : GpuResource) : GpuDevice :=
  { device with resources := Function.update device.resources resourceID (some resource) }

/-- An action on one resource of the device. -/
def onResource {α : Type} (resourceID : BitVec 32) (m : EStateM GpuResponse GpuResource α) :
    GpuRequest α := fun device =>
  match device.resources resourceID with
  | none => .error .errorInvalidResourceID device
  | some resource =>
    match m resource with
    | .ok a resource => .ok a (device.setResource resourceID resource)
    | .error e resource => .error e (device.setResource resourceID resource)

def getResource (resourceID : BitVec 32) : GpuRequest GpuResource := fun device =>
  match device.resources resourceID with
  | none => .error .errorInvalidResourceID device
  | some resource => .ok resource device

/-! ## Making and dropping resources -/

/-- `createResource`. `allocatedBytes` is the size of all resources there are. -/
def createResource (request : List U8) (allocatedBytes : ℕ) : GpuRequest GpuResponse := do
  requireCount request 40
  let resourceID := read32 request 24
  let device ← get
  requireThat (resourceID ≠ 0 && (device.resources resourceID).isNone) .errorInvalidResourceID
  match GpuPixelFormat.ofRawValue (read32 request 28) with
  | none => throw .errorInvalidParameter
  | some format =>
    let resourceWidth := readNat request 32
    let resourceHeight := readNat request 36
    requireThat (0 < resourceWidth && 0 < resourceHeight && resourceWidth ≤ 16384 &&
      resourceHeight ≤ 16384) .errorInvalidParameter
    requireThat (resourceWidth * resourceHeight * 4 + allocatedBytes ≤ 256 * 1024 * 1024)
      .errorOutOfMemory
    set (device.setResource resourceID (GpuResource.create format resourceWidth resourceHeight))
    return .okNoData

/-- `unrefResource`, but for the frame that is shown. -/
def unrefResource (request : List U8) : GpuRequest GpuResponse := do
  requireCount request 32
  let resourceID := read32 request 24
  let _ ← getResource resourceID
  modify fun device =>
    { device with
      resources := Function.update device.resources resourceID none
      cursor := if device.cursor = some resourceID then none else device.cursor
      cursorPixels := if device.cursor = some resourceID then none else device.cursorPixels }
  return .okNoData

/-! ## Backings -/

/-- One more entry: it is joined to the previous one where it starts at its end. -/
def appendEntry (entries : List GpuBackingEntry) (entry : GpuBackingEntry) : List GpuBackingEntry :=
  match entries.getLast? with
  | some previous =>
    if previous.address + previous.length = entry.address then
      entries.dropLast ++ [⟨previous.address, previous.length + entry.length⟩]
    else entries ++ [entry]
  | none => [entry]

/-- The loop of `attachBacking`, over the entries from `index` on. -/
def readEntries (request : List U8) (memory : PhysicalMemory) :
    ℕ → ℕ → List GpuBackingEntry → Option (List GpuBackingEntry)
  | 0, _, entries => some entries
  | count + 1, index, entries =>
    let offset := 32 + index * 16
    let address := (read64 request offset).toNat
    let length := readNat request (offset + 8)
    if memory.Contains address length then
      readEntries request memory count (index + 1) (appendEntry entries ⟨address, length⟩)
    else none

def withBacking (resource : GpuResource) (entries : List GpuBackingEntry) : GpuResource :=
  { resource with
    backing := entries
    hasCompleteHostContents := false
    pendingTransfers := []
    pendingExactTransfers := []
    pendingGuestWrites := []
    lastBackingDirtyEpoch := none }

/-- `attachBacking`. -/
def attachBacking (request : List U8) : GpuRequest GpuResponse := do
  requireCount request 32
  let resourceID := read32 request 24
  let entryCount := readNat request 28
  let resource ← getResource resourceID
  requireThat (0 < entryCount && entryCount ≤ 16384 && entryCount ≤ (request.length - 32) / 16)
    .errorInvalidParameter
  let device ← get
  match readEntries request device.memory entryCount 0 [] with
  | none => throw .errorInvalidParameter
  | some entries =>
    requireThat (resource.byteCount ≤ (entries.map GpuBackingEntry.length).sum) .errorInvalidParameter
    set (device.setResource resourceID (withBacking resource entries))
    return .okNoData

/-- `detachBacking`. -/
def detachBacking (request : List U8) : GpuRequest GpuResponse := do
  requireCount request 32
  let resourceID := read32 request 24
  let resource ← getResource resourceID
  modify fun device => device.setResource resourceID (withBacking resource [])
  return .okNoData

end GpuDevice

/-! ## Transfers -/

namespace GpuResource

/-- The complete transfer that copies what has changed since `afterEpoch`, and the rectangles it
has copied. -/
def transferChanges (memory : PhysicalMemory) (afterEpoch throughEpoch : U64) :
    EStateM GpuResponse GpuResource (List GpuRectangle) := do
  let resource ← get
  let knownWrites := resource.pendingGuestWrites
  knownWrites.forM fun write => copyBackingRectangle memory write.rectangle write.packedA8
  let dirtyRanges := dirtyBackingRanges resource.backing resource.byteCount memory afterEpoch
    throughEpoch
  dirtyRanges.forM fun range => do
    copyBacking memory range.offset range.count range.offset
    modifyPixels fun resource =>
      normalizePixelBytes resource.pixels range.offset range.count resource.format
  modify fun resource =>
    { resource with
      pendingExactTransfers := resource.pendingExactTransfers ++
        knownWrites.map KnownGuestWrite.rectangle }
  return compactDamageRectangles (knownWrites.map KnownGuestWrite.rectangle ++
    dirtyRanges.flatMap fun range => range.rectangles resource.width resource.height)

/-- The complete transfer that copies everything. -/
def transferAll (memory : PhysicalMemory) (rectangle : GpuRectangle) :
    EStateM GpuResponse GpuResource (List GpuRectangle) := do
  copyBacking memory 0 (rectangle.width.toNat * 4 * rectangle.height.toNat) 0
  normalizeRectangle rectangle
  return [rectangle]

/-- A complete transfer up to `throughEpoch`. -/
def transferCompletely (memory : PhysicalMemory) (throughEpoch : U64) (rectangle : GpuRectangle) :
    EStateM GpuResponse GpuResource (List GpuRectangle) := do
  let resource ← get
  let transferred ←
    match resource.hasCompleteHostContents, resource.lastBackingDirtyEpoch with
    | true, some afterEpoch => transferChanges memory afterEpoch throughEpoch
    | _, _ => transferAll memory rectangle
  modify fun resource =>
    { resource with
      hasCompleteHostContents := true
      pendingGuestWrites := []
      lastBackingDirtyEpoch := some throughEpoch }
  return transferred

/-- The rows of a partial transfer that is narrower than the resource, from `row` on. -/
def transferRows (memory : PhysicalMemory) (rectangle : GpuRectangle) (baseSourceOffset : ℕ) :
    ℕ → ℕ → EStateM GpuResponse GpuResource Unit
  | 0, _ => pure ()
  | rows + 1, row => do
    let resource ← get
    let rowOffset := row * resource.stride
    let rowBytes := rectangle.width.toNat * 4
    requireThat (rowOffset ≤ resource.byteCount - baseSourceOffset) .errorInvalidParameter
    let logicalSource := baseSourceOffset + rowOffset
    requireThat (rowBytes ≤ resource.byteCount - logicalSource) .errorInvalidParameter
    let destinationOffset := (rectangle.y.toNat + row) * resource.stride + rectangle.x.toNat * 4
    copyBacking memory logicalSource rowBytes destinationOffset
    transferRows memory rectangle baseSourceOffset rows (row + 1)

/-- A transfer of a part, which forgets the epoch once it has copied all its rows. -/
def transferPart (memory : PhysicalMemory) (rectangle : GpuRectangle) (baseSourceOffset : ℕ) :
    EStateM GpuResponse GpuResource (List GpuRectangle) := do
  let resource ← get
  if rectangle.x = 0 ∧ rectangle.width = resource.width then do
    let count := rectangle.width.toNat * 4 * rectangle.height.toNat
    requireThat (count ≤ resource.byteCount - baseSourceOffset) .errorInvalidParameter
    copyBacking memory baseSourceOffset count (rectangle.y.toNat * resource.stride)
  else
    transferRows memory rectangle baseSourceOffset rectangle.height.toNat 0
  normalizeRectangle rectangle
  modify fun resource =>
    { resource with
      lastBackingDirtyEpoch := none
      pendingGuestWrites := resource.pendingGuestWrites.flatMap fun write =>
        write.subtracting rectangle }
  return [rectangle]

/-- The rectangle and the offset of a transfer request are those of all pixels. -/
def IsCompleteTransfer (resource : GpuResource) (rectangle : GpuRectangle) (sourceOffset : ℕ) : Prop :=
  rectangle.x = 0 ∧ rectangle.y = 0 ∧ rectangle.width = resource.width ∧
    rectangle.height = resource.height ∧ sourceOffset = 0

instance (resource : GpuResource) (rectangle : GpuRectangle) (sourceOffset : ℕ) :
    Decidable (resource.IsCompleteTransfer rectangle sourceOffset) :=
  inferInstanceAs (Decidable (_ ∧ _ ∧ _ ∧ _ ∧ _))

/-- What a transfer request asks of its resource. -/
def acceptsTransfer (resource : GpuResource) (rectangle : GpuRectangle) (sourceOffset : ℕ) : Bool :=
  !resource.backing.isEmpty && !rectangle.isEmpty &&
    rectangle.isWithin resource.width resource.height && sourceOffset < 2 ^ 63 &&
    sourceOffset ≤ resource.byteCount

def noteTransferred (rectangles : List GpuRectangle) : EStateM GpuResponse GpuResource Unit :=
  modify fun resource =>
    { resource with pendingTransfers := resource.pendingTransfers ++ rectangles }

end GpuResource

namespace GpuDevice

/-- `refreshCursorPixels(for:)`. -/
def refreshCursorPixels (device : GpuDevice) (resourceID : BitVec 32) : GpuDevice :=
  match device.resources resourceID with
  | some resource =>
    if device.cursor = some resourceID then { device with cursorPixels := some resource.pixels }
    else device
  | none => device

/-- `transferToHost`. A complete transfer advances the dirty epoch first. -/
def transferToHost (request : List U8) : GpuRequest GpuResponse := do
  requireCount request 56
  let rectangle := readRectangle request 24
  let sourceOffset := (read64 request 40).toNat
  let resourceID := read32 request 48
  let resource ← getResource resourceID
  requireThat (resource.acceptsTransfer rectangle sourceOffset) .errorInvalidParameter
  let memory := (← get).memory
  if resource.IsCompleteTransfer rectangle sourceOffset then do
    modify fun device => { device with memory := device.memory.advanceDirtyEpoch }
    onResource resourceID do
      GpuResource.noteTransferred
        (← GpuResource.transferCompletely memory memory.native.currentEpoch rectangle)
  else
    onResource resourceID do
      GpuResource.noteTransferred (← GpuResource.transferPart memory rectangle sourceOffset)
  modify fun device => device.refreshCursorPixels resourceID
  return .okNoData

end GpuDevice

end Pinecone
