import Mathlib.Data.List.Sort
import Pinecone.DirtyRanges
import Pinecone.GuestMemoryWrites
import Pinecone.GpuPixels

/-! The backing of a resource: the guest memory from which its pixels are copied. A copy that
fails leaves what it has already written. -/

namespace Pinecone

/-- `VirtIOGPUDevice.Response`; an error of `PhysicalMemory` is answered as `errorUnspecified`. -/
inductive GpuResponse
  | okNoData
  | okDisplayInfo
  | errorUnspecified
  | errorOutOfMemory
  | errorInvalidScanoutID
  | errorInvalidResourceID
  | errorInvalidParameter
  deriving DecidableEq

/-- `PhysicalMemory`, whose window of addresses ends below `2 ^ 64`. -/
structure PhysicalMemory where
  base : ℕ
  native : GuestMemory

namespace PhysicalMemory

/-- `AddressRange.contains(_:width:)` of the memory's range. -/
def Contains (memory : PhysicalMemory) (address width : ℕ) : Prop :=
  0 < width ∧ memory.base ≤ address ∧ address + width < 2 ^ 64 ∧
    address + width ≤ memory.base + memory.native.size

instance (memory : PhysicalMemory) (address width : ℕ) : Decidable (memory.Contains address width) :=
  inferInstanceAs (Decidable (_ ∧ _ ∧ _ ∧ _))

/-- `index(for:width:)`. -/
def index (memory : PhysicalMemory) (address width : ℕ) : Option ℕ :=
  if memory.Contains address width then some (address - memory.base) else none

def advanceDirtyEpoch (memory : PhysicalMemory) : PhysicalMemory :=
  { memory with native := memory.native.advanceDirtyEpoch }

/-- `noteDeviceWrite(at:count:)`. -/
def noteDeviceWrite (memory : PhysicalMemory) (address count : ℕ) : PhysicalMemory :=
  match memory.index address count with
  | none => memory
  | some offset => { memory with native := memory.native.noteDeviceWrite offset count }

/-- `dirtyRanges(at:count:afterEpoch:throughEpoch:capacity:)`, with addresses as offsets. -/
def dirtyRanges (memory : PhysicalMemory) (address count : ℕ) (afterEpoch throughEpoch : U64)
    (capacity : ℕ) : List GuestDirtyRange :=
  match memory.index address count with
  | none => []
  | some offset =>
    (memory.native.dirtyRanges offset count afterEpoch throughEpoch capacity).map fun range =>
      ⟨memory.base + range.offset, range.length⟩

end PhysicalMemory

/-- `memcpy` between two surfaces. -/
def copyBytes (source : GpuBytes) (sourceOffset : ℕ) (destination : GpuBytes)
    (destinationOffset count : ℕ) : GpuBytes := fun byte =>
  if destinationOffset ≤ byte ∧ byte < destinationOffset + count then
    source (sourceOffset + (byte - destinationOffset))
  else destination byte

/-- `VirtIOGPUDevice.BackingEntry`. -/
structure GpuBackingEntry where
  address : ℕ
  length : ℕ
  deriving DecidableEq

/-- `copyOwnedDeviceBytes(from:count:to:)` into the host mirror at `destinationOffset`. -/
def copyOwnedDeviceBytes (memory : PhysicalMemory) (address count destinationOffset : ℕ) :
    EStateM GpuResponse GpuBytes Unit := do
  if count = 0 then return
  match memory.index address count with
  | none => throw .errorUnspecified
  | some offset => modify fun pixels => copyBytes memory.native.bytes offset pixels destinationOffset count

/-- The loop of `copyBackingBytes`. -/
def copyBackingEntries (memory : PhysicalMemory) (count destinationOffset : ℕ) :
    List GpuBackingEntry → ℕ → ℕ → EStateM GpuResponse GpuBytes Unit
  | [], _, _ => throw .errorInvalidParameter
  | entry :: rest, skipped, copied =>
    if entry.length ≤ skipped then
      copyBackingEntries memory count destinationOffset rest (skipped - entry.length) copied
    else do
      let byteCount := min (entry.length - skipped) (count - copied)
      copyOwnedDeviceBytes memory (entry.address + skipped) byteCount (destinationOffset + copied)
      if copied + byteCount = count then return
      copyBackingEntries memory count destinationOffset rest 0 (copied + byteCount)

/-- `copyBackingBytes`, into a mirror of `byteCount` bytes. -/
def copyBackingBytes (entries : List GpuBackingEntry) (memory : PhysicalMemory)
    (byteCount logicalOffset count destinationOffset : ℕ) : EStateM GpuResponse GpuBytes Unit := do
  if byteCount < destinationOffset ∨ byteCount - destinationOffset < count then
    throw .errorInvalidParameter
  if count = 0 then return
  copyBackingEntries memory count destinationOffset entries logicalOffset 0

/-- `KnownGuestWrite`. -/
structure KnownGuestWrite where
  rectangle : GpuRectangle
  packedA8 : Bool
  deriving DecidableEq

def KnownGuestWrite.subtracting (write : KnownGuestWrite) (other : GpuRectangle) :
    List KnownGuestWrite :=
  (write.rectangle.subtracting other).map fun rectangle => ⟨rectangle, write.packedA8⟩

/-- `VirtIOGPUDevice.Resource`; the size of its storage is `width * height * 4`. -/
structure GpuResource where
  format : GpuPixelFormat
  width : ℕ
  height : ℕ
  backing : List GpuBackingEntry
  pixels : GpuBytes
  hasCompleteHostContents : Bool
  pendingTransfers : List GpuRectangle
  pendingExactTransfers : List GpuRectangle
  pendingGuestWrites : List KnownGuestWrite
  lastBackingDirtyEpoch : Option U64

namespace GpuResource

/-- `Resource.init`, whose storage is cleared. -/
def create (format : GpuPixelFormat) (width height : ℕ) : GpuResource where
  format := format
  width := width
  height := height
  backing := []
  pixels := fun _ => 0#8
  hasCompleteHostContents := false
  pendingTransfers := []
  pendingExactTransfers := []
  pendingGuestWrites := []
  lastBackingDirtyEpoch := none

def stride (resource : GpuResource) : ℕ := resource.width * 4

def byteCount (resource : GpuResource) : ℕ := resource.width * resource.height * 4

/-- The mirror's bytes as an action on the resource. -/
def onPixels {α : Type} (m : EStateM GpuResponse GpuBytes α) : EStateM GpuResponse GpuResource α :=
  fun resource =>
    match m resource.pixels with
    | .ok a pixels => .ok a { resource with pixels := pixels }
    | .error e pixels => .error e { resource with pixels := pixels }

def modifyPixels (change : GpuResource → GpuBytes) : EStateM GpuResponse GpuResource Unit :=
  modify fun resource => { resource with pixels := change resource }

/-- `copyBackingBytes` of a resource to its own mirror. -/
def copyBacking (memory : PhysicalMemory) (logicalOffset count destinationOffset : ℕ) :
    EStateM GpuResponse GpuResource Unit := do
  let resource ← get
  onPixels (copyBackingBytes resource.backing memory resource.byteCount logicalOffset count
    destinationOffset)

def normalizeRectangle (rectangle : GpuRectangle) : EStateM GpuResponse GpuResource Unit :=
  modifyPixels fun resource =>
    normalizePixels resource.pixels rectangle resource.stride resource.format

/-- `copyBackingRectangle`. -/
def copyBackingRectangle (memory : PhysicalMemory) (rectangle : GpuRectangle) (packedA8 : Bool) :
    EStateM GpuResponse GpuResource Unit := do
  let resource ← get
  let bytesPerPixel := if packedA8 then 1 else 4
  (List.range rectangle.height.toNat).forM fun row => do
    let offset := (rectangle.y.toNat + row) * resource.stride + rectangle.x.toNat * bytesPerPixel
    copyBacking memory offset (rectangle.width.toNat * bytesPerPixel) offset
  if packedA8 = false then normalizeRectangle rectangle

end GpuResource

/-! ## Dirty ranges of a backing -/

/-- `LogicalByteRange`. -/
structure LogicalByteRange where
  offset : ℕ
  count : ℕ
  deriving DecidableEq

namespace LogicalByteRange

def last (range : LogicalByteRange) : ℕ := range.offset + range.count

def Contains (range : LogicalByteRange) (byte : ℕ) : Prop :=
  range.offset ≤ byte ∧ byte < range.last

/-- The order in which `compactLogicalByteRanges` sorts. -/
def precedes (lhs rhs : LogicalByteRange) : Bool :=
  if lhs.offset = rhs.offset then decide (lhs.last ≤ rhs.last) else decide (lhs.offset < rhs.offset)

/-- One range joined to the compacted ones, the latest first. -/
def compactOne (compacted : List LogicalByteRange) (range : LogicalByteRange) :
    List LogicalByteRange :=
  match compacted with
  | previous :: rest =>
    if range.offset ≤ previous.last then
      ⟨previous.offset, max previous.last range.last - previous.offset⟩ :: rest
    else range :: previous :: rest
  | [] => [range]

/-- `compactLogicalByteRanges`. -/
def compact (ranges : List LogicalByteRange) : List LogicalByteRange :=
  let sorted := ranges.mergeSort precedes
  ((sorted.filter fun range => 0 < range.count).foldl compactOne []).reverse

/-- `rectangles(for:resourceWidth:resourceHeight:)`: the rest of the first row, the full rows and
the start of the last row. -/
def rectangles (range : LogicalByteRange) (resourceWidth resourceHeight : ℕ) : List GpuRectangle :=
  if range.count = 0 ∨ resourceWidth = 0 then []
  else
    let pixel := range.offset / 4
    let remaining := range.count / 4
    let firstX := pixel % resourceWidth
    let firstWidth := if firstX = 0 then 0 else min remaining (resourceWidth - firstX)
    let first : List GpuRectangle :=
      if firstX = 0 then [] else [⟨firstX, pixel / resourceWidth, firstWidth, 1⟩]
    let pixel := pixel + firstWidth
    let remaining := remaining - firstWidth
    let fullRows := remaining / resourceWidth
    let full : List GpuRectangle :=
      if fullRows = 0 then [] else [⟨0, pixel / resourceWidth, resourceWidth, fullRows⟩]
    let pixel := pixel + fullRows * resourceWidth
    let remaining := remaining - fullRows * resourceWidth
    let last : List GpuRectangle :=
      if remaining = 0 then [] else [⟨0, pixel / resourceWidth, remaining, 1⟩]
    (first ++ full ++ last).filter fun rectangle => rectangle.isWithin resourceWidth resourceHeight

end LogicalByteRange

/-- A dirty range of an entry in whole pixels of the resource. -/
def dirtyPixelRange (entry : GpuBackingEntry) (logicalOffset byteCount : ℕ)
    (dirtyRange : GuestDirtyRange) : Option LogicalByteRange :=
  let physicalOffset := dirtyRange.offset - entry.address
  let dirtyStart := logicalOffset + physicalOffset
  let dirtyEnd := dirtyStart + dirtyRange.length
  let pixelStart := dirtyStart / 4 * 4
  let pixelEnd := min byteCount ((dirtyEnd + 3) / 4 * 4)
  if pixelStart < pixelEnd then some ⟨pixelStart, pixelEnd - pixelStart⟩ else none

/-- The loop of `dirtyBackingRanges`. -/
def dirtyEntryRanges (memory : PhysicalMemory) (byteCount : ℕ) (afterEpoch throughEpoch : U64) :
    List GpuBackingEntry → ℕ → List LogicalByteRange
  | [], _ => []
  | entry :: rest, logicalOffset =>
    if logicalOffset < byteCount then
      let observedLength := min entry.length (byteCount - logicalOffset)
      let dirtyRanges := memory.dirtyRanges entry.address observedLength afterEpoch throughEpoch 1024
      dirtyRanges.filterMap (dirtyPixelRange entry logicalOffset byteCount) ++
        dirtyEntryRanges memory byteCount afterEpoch throughEpoch rest (logicalOffset + entry.length)
    else dirtyEntryRanges memory byteCount afterEpoch throughEpoch rest logicalOffset

def dirtyBackingRanges (entries : List GpuBackingEntry) (byteCount : ℕ) (memory : PhysicalMemory)
    (afterEpoch throughEpoch : U64) : List LogicalByteRange :=
  LogicalByteRange.compact (dirtyEntryRanges memory byteCount afterEpoch throughEpoch entries 0)

/-! ## Damage -/

def maximumPublishedDamageRectangles : ℕ := 128

/-- The test by which `compactDamageRectangles` joins two rectangles. -/
def GpuRectangle.touches (existing candidate : GpuRectangle) : Bool :=
  (existing.intersection candidate).isSome ||
    (existing.y == candidate.y && existing.height == candidate.height &&
      candidate.x ≤ existing.x + existing.width && existing.x ≤ candidate.x + candidate.width) ||
    (existing.x == candidate.x && existing.width == candidate.width &&
      candidate.y ≤ existing.y + existing.height && existing.y ≤ candidate.y + candidate.height)

/-- The inner loop: it starts again with each rectangle that it joins. -/
def absorbDamage : ℕ → List GpuRectangle → GpuRectangle → List GpuRectangle
  | 0, compacted, candidate => compacted ++ [candidate]
  | fuel + 1, compacted, candidate =>
    match compacted.findIdx? fun existing => existing.touches candidate with
    | none => compacted ++ [candidate]
    | some index =>
      absorbDamage fuel (compacted.eraseIdx index) ((compacted.getD index candidate).union candidate)

/-- The outer loop; `none` once there are too many rectangles. -/
def compactDamageFrom : List GpuRectangle → List GpuRectangle → Option (List GpuRectangle)
  | [], compacted => some compacted
  | rectangle :: rest, compacted =>
    if rectangle.isEmpty then compactDamageFrom rest compacted
    else
      let compacted := absorbDamage compacted.length compacted rectangle
      if maximumPublishedDamageRectangles < compacted.length then none
      else compactDamageFrom rest compacted

/-- `compactDamageRectangles`. -/
def compactDamageRectangles (rectangles : List GpuRectangle) : List GpuRectangle :=
  match rectangles with
  | [] => []
  | first :: rest =>
    match compactDamageFrom rectangles [] with
    | some compacted => compacted
    | none => [rest.foldl GpuRectangle.union first]

end Pinecone
