import Pinecone.Paravirtual2D

/-! Carrying out a prepared submission: filling the host mirrors of what is read, drawing in the
native core or in an accelerator, and publishing the destinations to the guest. -/

namespace Pinecone

/-! ## The state of a submission -/

/-- The device and the read mirrors of the submission. -/
structure Paravirtual2DState where
  device : GpuDevice
  readResources : ReadResources

abbrev Paravirtual2DStep := EStateM GpuResponse Paravirtual2DState

namespace Paravirtual2DState

def resource (state : Paravirtual2DState) : GpuResourceRef → Option GpuResource
  | .shared resourceID => state.device.resources resourceID
  | .retained resourceID => state.readResources resourceID

def setResource (state : Paravirtual2DState) (ref : GpuResourceRef) (resource : GpuResource) :
    Paravirtual2DState :=
  match ref with
  | .shared resourceID => { state with device := state.device.setResource resourceID resource }
  | .retained resourceID =>
    { state with readResources := Function.update state.readResources resourceID (some resource) }

def setMemory (state : Paravirtual2DState) (memory : PhysicalMemory) : Paravirtual2DState :=
  { state with device := { state.device with memory := memory } }

/-- The resource behind a reference, which stays there while the submission holds it. -/
def getResource (ref : GpuResourceRef) : Paravirtual2DStep GpuResource := fun state =>
  match state.resource ref with
  | some resource => .ok resource state
  | none => .error .errorUnspecified state

end Paravirtual2DState

open Paravirtual2DState

/-! ## Copies between a mirror and the backing -/

/-- `ownedDeviceSpans`. -/
def ownedDeviceSpans (memory : PhysicalMemory) (entries : List GpuBackingEntry) :
    Option (List GuestMemorySpan) :=
  if entries = [] then none
  else entries.mapM fun entry =>
    (memory.index entry.address entry.length).map fun offset => ⟨offset, entry.length⟩

/-- The request of `copyOwnedDeviceRectangle` for a rectangle of a resource. -/
def GpuResource.deviceRect (resource : GpuResource) (memory : PhysicalMemory)
    (rectangle : GpuRectangle) (packedA8 : Bool) : Option DmaRect :=
  let bytesPerPixel := if packedA8 then 1 else 4
  (ownedDeviceSpans memory resource.backing).map fun spans =>
    { spans := spans
      logicalOffset := rectangle.byteOffset resource.stride bytesPerPixel
      rowByteCount := rectangle.width.toNat * bytesPerPixel
      rowStride := resource.stride
      rowCount := rectangle.height.toNat
      host := (List.range resource.byteCount).map resource.pixels }

/-- `avz_guest_memory_dma_read_rect_owned`: whether it succeeds, and the mirror after it. -/
def GuestMemory.dmaReadRectOwned (memory : GuestMemory) (rect : DmaRect) (pixels : GpuBytes) :
    Bool × GpuBytes :=
  if rect.Accepted memory then
    (rect.chunks.2, rect.chunks.1.foldl (fun pixels chunk =>
      copyBytes memory.bytes chunk.guestOffset pixels chunk.hostOffset chunk.byteCount) pixels)
  else (false, pixels)

/-- `synchronizeResource`. -/
def synchronizeResource (ref : GpuResourceRef) (rectangle : GpuRectangle)
    (preserveAlpha packedA8 : Bool) : Paravirtual2DStep Unit := do
  let resource ← getResource ref
  let memory := (← get).device.memory
  match resource.deviceRect memory rectangle packedA8 with
  | none => throw .errorUnspecified
  | some rect =>
    let (copied, pixels) := memory.native.dmaReadRectOwned rect resource.pixels
    modify fun state => state.setResource ref { resource with pixels := pixels }
    requireThat copied .errorUnspecified
    if preserveAlpha = false ∧ packedA8 = false then
      modify fun state => state.setResource ref
        { resource with
          pixels := normalizePixels pixels rectangle resource.stride resource.format }

/-- `copyResourceBytesToBacking`. -/
def copyResourceBytesToBacking (ref : GpuResourceRef) (rectangle : GpuRectangle) (packedA8 : Bool) :
    Paravirtual2DStep Unit := do
  let resource ← getResource ref
  let memory := (← get).device.memory
  match resource.deviceRect memory rectangle packedA8 with
  | none => throw .errorUnspecified
  | some rect =>
    modify fun state => state.setMemory { memory with native := memory.native.dmaWriteRectOwned rect }
    requireThat (decide (rect.Accepted memory.native) && rect.chunks.2) .errorUnspecified

/-! ## Inputs -/

/-- What `synchronizeParavirtual2DInputs` fills for a record. -/
structure MirrorInput where
  resource : GpuResourceRef
  rectangle : GpuRectangle
  alpha : Bool
  a8 : Bool
  deriving DecidableEq

namespace PreparedParavirtual2D

def sourceInput (item : PreparedParavirtual2D) : Option MirrorInput :=
  item.source.map fun source =>
    ⟨source.resource, source.rectangle, item.sourceContainsAlpha, item.command.sourceIsPackedA8⟩

def maskInput (item : PreparedParavirtual2D) : Option MirrorInput :=
  item.mask.map fun mask => ⟨mask.resource, mask.rectangle, true, item.command.maskIsPackedA8⟩

def destinationInput (item : PreparedParavirtual2D) : Option MirrorInput :=
  if item.command.blendOperator = .source ∨ item.command.blendOperator = .clear then none
  else some ⟨item.destination.resource, item.destination.rectangle, false,
    item.command.destinationIsPackedA8⟩

def ofMirror (operand : Option PreparedOperand) (input : Option MirrorInput) : List MirrorInput :=
  if operand.any fun operand => !operand.isGuestMemory then input.toList else []

def ofGuestMemory (operand : Option PreparedOperand) (input : Option MirrorInput) :
    List MirrorInput :=
  if operand.any PreparedOperand.isGuestMemory then input.toList else []

/-- The inputs of a record whose surfaces are mirrors. -/
def mirrorInputs (item : PreparedParavirtual2D) : List MirrorInput :=
  ofMirror item.source item.sourceInput ++ ofMirror (some item.destination) item.destinationInput ++
    ofMirror item.mask item.maskInput

/-- The inputs of a record that the native core reads through a mirror although their surfaces are
guest memory. -/
def nativeInputs (item : PreparedParavirtual2D) : List MirrorInput :=
  ofGuestMemory item.source item.sourceInput ++ ofGuestMemory item.mask item.maskInput

end PreparedParavirtual2D

def MirrorInput.synchronize (input : MirrorInput) : Paravirtual2DStep Unit :=
  synchronizeResource input.resource input.rectangle input.alpha input.a8

/-- What a submission has already filled of a resource, and how. -/
structure SynchronizedRegions where
  alpha : Bool
  a8 : Bool
  regions : List GpuRectangle

/-- What of the rectangles the covers leave over. -/
def uncovered (covers regions : List GpuRectangle) : List GpuRectangle :=
  covers.foldl (fun regions cover => regions.flatMap fun region => region.subtracting cover) regions

/-- `synchronizeOnce`. -/
def synchronizeOnce (synchronized : GpuResourceRef → Option SynchronizedRegions)
    (input : MirrorInput) : Paravirtual2DStep (GpuResourceRef → Option SynchronizedRegions) := do
  let covered :=
    match synchronized input.resource with
    | some previous =>
      if previous.alpha = input.alpha ∧ previous.a8 = input.a8 then previous.regions else []
    | none => []
  let missing := uncovered covered [input.rectangle]
  missing.forM fun region => { input with rectangle := region }.synchronize
  return Function.update synchronized input.resource
    (some ⟨input.alpha, input.a8, covered ++ missing⟩)

/-- `synchronizeParavirtual2DInputs`. -/
def synchronizeParavirtual2DInputs (prepared : List PreparedParavirtual2D) :
    Paravirtual2DStep Unit := do
  let _ ← (prepared.flatMap PreparedParavirtual2D.mirrorInputs).foldlM synchronizeOnce fun _ => none

/-! ## The native core -/

/-- The routine of the framebuffer library that draws a command. -/
inductive FramebufferRoutine
  | composite
  | maskedComposite
  | bilinearScaleCopy
  | copy
  | scaleCopy
  | bilinearScaleSourceOver
  | sourceOver
  | scaleSourceOver
  | fill
  | fillOver
  deriving DecidableEq

structure RasterSurface where
  bytes : GpuBytes
  stride : ℕ

/-- The routines of the framebuffer library, which answer with the bytes of the destination or
refuse their arguments. -/
abbrev FramebufferCore := FramebufferRoutine → PineconeGraphicsCommand → Option RasterSurface →
  Option RasterSurface → RasterSurface → Option GpuBytes

def PineconeGraphicsCommand.routine (command : PineconeGraphicsCommand) (hasMask : Bool) :
    FramebufferRoutine :=
  let unscaled := command.sourceWidth = command.destinationRectangle.width ∧
    command.sourceHeight = command.destinationRectangle.height
  if command.componentAlphaMask || command.maskIsPackedA8 || command.sourceIsPackedA8 ||
      command.destinationIsPackedA8 ||
      decide (command.blendOperator ≠ .sourceOver ∧ command.blendOperator ≠ .source) then .composite
  else if hasMask || command.maskAlpha.isSome then .maskedComposite
  else
    match command.operation with
    | .source =>
      if command.usesBilinearFiltering then .bilinearScaleCopy
      else if unscaled then .copy
      else .scaleCopy
    | .sourceOver =>
      if command.usesBilinearFiltering then .bilinearScaleSourceOver
      else if unscaled then .sourceOver
      else .scaleSourceOver
    | .fill => .fill
    | .fillOver => .fillOver

/-- The bytes of host memory that drawing reads and writes. -/
structure HostBytes where
  guest : GpuBytes
  mirror : GpuResourceRef → GpuBytes

namespace HostBytes

def read (host : HostBytes) : SurfaceStorage → GpuBytes
  | .guestMemory offset => fun byte => host.guest (offset + byte)
  | .hostMirror ref => host.mirror ref

/-- The first `count` bytes of a surface replaced. -/
def write (host : HostBytes) (storage : SurfaceStorage) (count : ℕ) (bytes : GpuBytes) : HostBytes :=
  match storage with
  | .guestMemory offset => { host with guest := copyBytes bytes 0 host.guest offset count }
  | .hostMirror ref =>
    { host with
      mirror := Function.update host.mirror ref (copyBytes bytes 0 (host.mirror ref) 0 count) }

end HostBytes

namespace Paravirtual2DState

def hostBytes (state : Paravirtual2DState) : HostBytes where
  guest := state.device.memory.native.bytes
  mirror := fun ref => (state.resource ref).elim (fun _ => 0#8) GpuResource.pixels

def withHostBytes (state : Paravirtual2DState) (host : HostBytes) : Paravirtual2DState where
  device :=
    { state.device with
      memory :=
        { state.device.memory with native := { state.device.memory.native with bytes := host.guest } }
      resources := fun resourceID => (state.device.resources resourceID).map fun resource =>
        { resource with pixels := host.mirror (.shared resourceID) } }
  readResources := fun resourceID => (state.readResources resourceID).map fun resource =>
    { resource with pixels := host.mirror (.retained resourceID) }

end Paravirtual2DState

/-- The mirror of an operand as the native core reads it. -/
def mirrorSurface (operand : PreparedOperand) (host : HostBytes) : RasterSurface where
  bytes := host.mirror operand.resource
  stride := operand.surface.stride

/-- `executeParavirtual2DInNativeCore` as a function of the bytes, with the format of the
destination. -/
def drawNatively (core : FramebufferCore) (item : PreparedParavirtual2D) (host : HostBytes) :
    Option HostBytes := do
  let routine := item.command.routine item.mask.isSome
  let surface := item.destination.surface
  let needsSource : Bool := routine matches .bilinearScaleCopy | .copy | .scaleCopy |
    .bilinearScaleSourceOver | .sourceOver | .scaleSourceOver
  if needsSource && item.source.isNone then failure
  let drawn ← core routine item.command (item.source.map fun source => mirrorSurface source host)
    (item.mask.map fun mask => mirrorSurface mask host) ⟨host.read surface.storage, surface.stride⟩
  let drawn :=
    if !item.command.destinationIsPackedA8 && surface.pixelFormat = some .bgrx8 then
      normalizePixels drawn item.destination.rectangle surface.stride .b8g8r8x8UNorm
    else drawn
  return host.write surface.storage (surface.width * surface.height * 4) drawn

/-- `executeParavirtual2DInNativeCore`. -/
def executeParavirtual2DInNativeCore (core : FramebufferCore) (item : PreparedParavirtual2D) :
    Paravirtual2DStep Unit := do
  match drawNatively core item (← get).hostBytes with
  | none => throw .errorInvalidParameter
  | some host => modify fun state => state.withHostBytes host

/-! ## Publishing a destination -/

/-- `noteDirectGuestWrite`. -/
def noteDirectGuestWrite (ref : GpuResourceRef) (rectangle : GpuRectangle) (packedA8 : Bool) :
    Paravirtual2DStep Unit := do
  let resource ← getResource ref
  match resource.backing with
  | [] => return
  | backing :: _ =>
    if 0 < rectangle.width ∧ 0 < rectangle.height then
      let bytesPerPixel := if packedA8 then 1 else 4
      let offset := rectangle.byteOffset resource.stride bytesPerPixel
      let byteCount := (rectangle.height.toNat - 1) * resource.stride +
        rectangle.width.toNat * bytesPerPixel
      modify fun state =>
        let memory := state.device.memory.noteDeviceWrite (backing.address + offset) byteCount
        (state.setMemory memory).setResource ref
          { resource with pendingGuestWrites := resource.pendingGuestWrites ++ [⟨rectangle, packedA8⟩] }

/-- `finishParavirtual2D`. -/
def finishParavirtual2D (item : PreparedParavirtual2D) : Paravirtual2DStep Unit := do
  let ref := item.destination.resource
  let rectangle := item.destination.rectangle
  let packedA8 := item.command.destinationIsPackedA8
  if item.destination.isGuestMemory then
    noteDirectGuestWrite ref rectangle packedA8
  else do
    copyResourceBytesToBacking ref rectangle packedA8
    let resource ← getResource ref
    let updatedWholeResource := decide (rectangle.x = 0 ∧ rectangle.y = 0 ∧
      rectangle.width = resource.width ∧ rectangle.height = resource.height)
    modify fun state => state.setResource ref
      { resource with
        hasCompleteHostContents := resource.hasCompleteHostContents || updatedWholeResource
        pendingTransfers := resource.pendingTransfers ++ [rectangle] }

/-! ## Executing a submission -/

/-- `PineconeGraphicsWorkItem`. -/
structure PineconeGraphicsWorkItem where
  command : PineconeGraphicsCommand
  source : Option PineconeGraphicsSurface
  mask : Option PineconeGraphicsSurface
  destination : PineconeGraphicsSurface

/-- `paravirtual2DWorkItems`. -/
def paravirtual2DWorkItems (prepared : List PreparedParavirtual2D) : List PineconeGraphicsWorkItem :=
  prepared.map fun item =>
    { command := item.command
      source := item.source.map PreparedOperand.surface
      mask := item.mask.map PreparedOperand.surface
      destination := item.destination.surface }

/-- `PineconeGraphicsAccelerator`: a batch that it declines has changed nothing. -/
structure PineconeGraphicsAccelerator where
  acceptsBatch : List PineconeGraphicsWorkItem → Bool
  executeBatch : List PineconeGraphicsWorkItem → HostBytes → Option HostBytes
  executeBatchAsync : List PineconeGraphicsWorkItem → Bool

/-- One record in the native core. -/
def executeNatively (core : FramebufferCore) (inputsReady : Bool) (item : PreparedParavirtual2D) :
    Paravirtual2DStep Unit := do
  if inputsReady = false then synchronizeParavirtual2DInputs [item]
  item.nativeInputs.forM MirrorInput.synchronize
  executeParavirtual2DInNativeCore core item
  finishParavirtual2D item

/-- `refreshPreparedCursorPixels`. -/
def refreshPreparedCursorPixels (prepared : List PreparedParavirtual2D)
    (state : Paravirtual2DState) : Paravirtual2DState :=
  match state.device.cursor with
  | none => state
  | some resourceID =>
    let isCursor (operand : PreparedOperand) : Bool := operand.resource = .shared resourceID
    if prepared.any fun item =>
        isCursor item.destination || item.source.any isCursor || item.mask.any isCursor then
      { state with device := state.device.refreshCursorPixels resourceID }
    else state

/-- `defer`: a change of the state however the action ends. -/
def deferring {σ α : Type} (change : σ → σ) (m : EStateM GpuResponse σ α) :
    EStateM GpuResponse σ α := fun state =>
  match m state with
  | .ok a state => .ok a (change state)
  | .error e state => .error e (change state)

/-- The part of `executeParavirtual2D` in which an accelerator draws: whether it did, and whether
the inputs are filled. -/
def tryAccelerator (accelerator : Option PineconeGraphicsAccelerator)
    (prepared : List PreparedParavirtual2D) (inputsReady : Bool) : Paravirtual2DStep (Bool × Bool) := do
  let workItems := paravirtual2DWorkItems prepared
  match accelerator with
  | none => return (false, inputsReady)
  | some accelerator =>
    if accelerator.acceptsBatch workItems then do
      synchronizeParavirtual2DInputs prepared
      match accelerator.executeBatch workItems (← get).hostBytes with
      | none => return (false, true)
      | some host =>
        modify fun state => state.withHostBytes host
        return (true, true)
    else return (false, inputsReady)

/-- `executeParavirtual2D`, with the accelerator if it is allowed. -/
def executeParavirtual2D (core : FramebufferCore) (accelerator : Option PineconeGraphicsAccelerator)
    (prepared : List PreparedParavirtual2D) (inputsAlreadySynchronized : Bool) :
    Paravirtual2DStep GpuResponse :=
  deferring (refreshPreparedCursorPixels prepared) do
    let (accelerated, inputsReady) ← tryAccelerator accelerator prepared inputsAlreadySynchronized
    if accelerated then prepared.forM finishParavirtual2D
    else prepared.forM (executeNatively core inputsReady)
    return .okNoData

end Pinecone
