import Pinecone.GpuTransfers

/-! The records of a paravirtual submission: what they ask for, the resources and the surfaces
they are given, and the checks that refuse them. -/

namespace Pinecone

open GpuResourceAccess (read16 read32)
open PineconeGraphicsProtocol

/-! ## Commands -/

inductive PineconeGraphicsOperation
  | source
  | sourceOver
  | fill
  | fillOver
  deriving DecidableEq

def PineconeGraphicsOperation.ofRawValue (value : U16) : Option PineconeGraphicsOperation :=
  [none, some .source, some .sourceOver, some .fill, some .fillOver].getD value.toNat none

inductive PineconeGraphicsBlendOperator
  | clear
  | source
  | destination
  | sourceOver
  | destinationOver
  | sourceIn
  | destinationIn
  | sourceOut
  | destinationOut
  | sourceAtop
  | destinationAtop
  | xor
  | add
  | saturate
  deriving DecidableEq

def PineconeGraphicsBlendOperator.ofRawValue (value : U16) : Option PineconeGraphicsBlendOperator :=
  [some .clear, some .source, some .destination, some .sourceOver, some .destinationOver,
    some .sourceIn, some .destinationIn, some .sourceOut, some .destinationOut, some .sourceAtop,
    some .destinationAtop, some .xor, some .add, some .saturate].getD value.toNat none

inductive PineconeGraphicsPixelFormat
  | bgra8Premultiplied
  | bgrx8
  deriving DecidableEq

/-- `paravirtualPixelFormat`. -/
def GpuPixelFormat.paravirtual : GpuPixelFormat → Option PineconeGraphicsPixelFormat
  | .b8g8r8a8UNorm => some .bgra8Premultiplied
  | .b8g8r8x8UNorm => some .bgrx8
  | _ => none

structure PineconeGraphicsCommand where
  operation : PineconeGraphicsOperation
  blendOperator : PineconeGraphicsBlendOperator
  sourceIsSolid : Bool
  sourceResourceID : BitVec 32
  destinationResourceID : BitVec 32
  sourceX : ℤ
  sourceY : ℤ
  sourceWidth : ℕ
  sourceHeight : ℕ
  destinationRectangle : GpuRectangle
  color : BitVec 32
  sourceContainsAlpha : Bool
  usesBilinearFiltering : Bool
  maskResourceID : BitVec 32
  maskAlpha : Option U8
  componentAlphaMask : Bool
  maskIsPackedA8 : Bool
  sourceIsPackedA8 : Bool
  destinationIsPackedA8 : Bool
  deriving DecidableEq

/-! ## Resources and surfaces of a submission -/

/-- A resource of the device, or the read mirror that a submission has made for itself. -/
inductive GpuResourceRef
  | shared (resourceID : BitVec 32)
  | retained (resourceID : BitVec 32)
  deriving DecidableEq

/-- Where the bytes of a surface are: in guest memory from `offset` on, or in a mirror. -/
inductive SurfaceStorage
  | guestMemory (offset : ℕ)
  | hostMirror (resource : GpuResourceRef)
  deriving DecidableEq

structure PineconeGraphicsSurface where
  resourceID : BitVec 32
  width : ℕ
  height : ℕ
  stride : ℕ
  pixelFormat : Option PineconeGraphicsPixelFormat
  storage : SurfaceStorage
  deriving DecidableEq

/-- A resource of a prepared record, with the rectangle and the surface it is used through. -/
structure PreparedOperand where
  resource : GpuResourceRef
  rectangle : GpuRectangle
  surface : PineconeGraphicsSurface
  deriving DecidableEq

def PreparedOperand.isGuestMemory (operand : PreparedOperand) : Bool :=
  match operand.surface.storage with
  | .guestMemory _ => true
  | .hostMirror _ => false

structure PreparedParavirtual2D where
  command : PineconeGraphicsCommand
  source : Option PreparedOperand
  destination : PreparedOperand
  mask : Option PreparedOperand
  sourceContainsAlpha : Bool
  deriving DecidableEq

/-- The read mirrors of a submission. -/
abbrev ReadResources := BitVec 32 → Option GpuResource

namespace GpuResource

/-- Where the backing is when it is one entry that holds the whole surface. -/
def directOffset (resource : GpuResource) (memory : PhysicalMemory) : Option ℕ :=
  match resource.backing with
  | [backing] =>
    if resource.byteCount ≤ backing.length then memory.index backing.address resource.byteCount
    else none
  | _ => none

/-- The read mirror of a submission. -/
def readMirror (resource : GpuResource) : GpuResource :=
  { create resource.format resource.width resource.height with backing := resource.backing }

/-- `acceleratorSurface`. -/
def acceleratorSurface (resource : GpuResource) (memory : PhysicalMemory) (ref : GpuResourceRef)
    (resourceID : BitVec 32) : PineconeGraphicsSurface where
  resourceID := resourceID
  width := resource.width
  height := resource.height
  stride := resource.stride
  pixelFormat := resource.format.paravirtual
  storage :=
    match resource.directOffset memory with
    | some offset => .guestMemory offset
    | none => .hostMirror ref

end GpuResource

/-- `retainedReadResource`. -/
def retainedReadResource (memory : PhysicalMemory) (writableResources : Finset (BitVec 32))
    (resource : GpuResource) (resourceID : BitVec 32) :
    EStateM GpuResponse ReadResources GpuResourceRef := fun readResources =>
  if resourceID ∈ writableResources then .ok (.shared resourceID) readResources
  else if (readResources resourceID).isSome then .ok (.retained resourceID) readResources
  else if (resource.directOffset memory).isSome then .ok (.shared resourceID) readResources
  else
    .ok (.retained resourceID)
      (Function.update readResources resourceID (some resource.readMirror))

/-! ## Preparing a record -/

/-- The flags of a record. -/
structure RecordFlags where
  sourceContainsAlpha : Bool
  usesBilinearFiltering : Bool
  hasMask : Bool
  hasSolidMask : Bool
  hasSolidSource : Bool
  hasComponentAlphaMask : Bool
  hasPackedA8Mask : Bool
  hasPackedA8Source : Bool
  hasPackedA8Destination : Bool

def RecordFlags.ofBits (flags : BitVec 32) : RecordFlags where
  sourceContainsAlpha := flags.getLsbD 0
  usesBilinearFiltering := flags.getLsbD 1
  hasMask := flags.getLsbD 2
  hasSolidMask := flags.getLsbD 3
  hasSolidSource := flags.getLsbD 4
  hasComponentAlphaMask := flags.getLsbD 5
  hasPackedA8Mask := flags.getLsbD 6
  hasPackedA8Source := flags.getLsbD 7
  hasPackedA8Destination := flags.getLsbD 8

/-- The operator and the operation of a record. -/
def recordOperator (isExactComposite : Bool) (recordVersion rawOperation : U16) (solid : Bool) :
    Option (PineconeGraphicsBlendOperator × PineconeGraphicsOperation) :=
  if isExactComposite then
    (PineconeGraphicsBlendOperator.ofRawValue rawOperation).map fun blendOperator =>
      (blendOperator,
        if solid then (if blendOperator = .source then .fill else .fillOver)
        else (if blendOperator = .source then .source else .sourceOver))
  else if recordVersion = version then
    (PineconeGraphicsOperation.ofRawValue rawOperation).map fun operation =>
      (if operation = .source ∨ operation = .fill then .source else .sourceOver, operation)
  else none

/-- The flags agree with each other, with the version and with the mask that is named. -/
def maskFlagsValid (flags : RecordFlags) (isExactComposite : Bool) (maskResourceID : BitVec 32)
    (maskAlphaValue : ℕ) : Bool :=
  (!flags.hasSolidMask || flags.hasMask) &&
  (!flags.hasComponentAlphaMask || (flags.hasMask && !flags.hasSolidMask)) &&
  (!flags.hasPackedA8Mask || (flags.hasMask && !flags.hasSolidMask)) &&
  (isExactComposite || (!flags.hasSolidSource && !flags.hasComponentAlphaMask &&
    !flags.hasPackedA8Mask && !flags.hasPackedA8Source && !flags.hasPackedA8Destination)) &&
  maskAlphaValue ≤ 255 &&
  (if flags.hasMask then
    (if flags.hasSolidMask then maskResourceID == 0 else maskResourceID != 0 && maskAlphaValue == 0)
  else maskResourceID == 0 && maskAlphaValue == 0)

/-- The resource that a record names, if the record may use it. -/
def usableResource (device : GpuDevice) (resourceID : BitVec 32)
    (condition : GpuResource → Bool) : EStateM GpuResponse ReadResources GpuResource :=
  match device.resources resourceID with
  | none => throw .errorInvalidResourceID
  | some resource => do
    requireThat (resourceID ≠ 0 && resource.format.paravirtual.isSome && !resource.backing.isEmpty &&
      condition resource) .errorInvalidParameter
    return resource

/-- A resource that a record reads. -/
def readOperand (device : GpuDevice) (writableResources : Finset (BitVec 32))
    (resourceID : BitVec 32) (rectangle : GpuRectangle) (resource : GpuResource) :
    EStateM GpuResponse ReadResources PreparedOperand := do
  let ref ← retainedReadResource device.memory writableResources resource resourceID
  return ⟨ref, rectangle, resource.acceleratorSurface device.memory ref resourceID⟩

/-- `prepareParavirtual2D`. -/
def prepareParavirtual2D (request : List U8) (payloadOffset : ℕ) (device : GpuDevice)
    (writableResources : Finset (BitVec 32)) :
    EStateM GpuResponse ReadResources PreparedParavirtual2D := do
  requireCount request (payloadOffset + payloadByteCount)
  let recordVersion := read16 request (payloadOffset + 4)
  let rawOperation := read16 request (payloadOffset + 6)
  let rawFlags := read32 request (payloadOffset + 8)
  let isExactComposite := decide (recordVersion = exactCompositeVersion)
  let flags := RecordFlags.ofBits rawFlags
  match recordOperator isExactComposite recordVersion rawOperation flags.hasSolidSource with
  | none => throw .errorInvalidParameter
  | some (blendOperator, operation) =>
    let permittedFlags := if isExactComposite then supportedFlags else legacySupportedFlags
    requireThat (read32 request payloadOffset = magic && rawFlags &&& ~~~permittedFlags = 0)
      .errorInvalidParameter
    let sourceResourceID := read32 request (payloadOffset + 12)
    let destinationResourceID := read32 request (payloadOffset + 16)
    let sourceX := readSigned request (payloadOffset + 20)
    let sourceY := readSigned request (payloadOffset + 24)
    let destinationRectangle : GpuRectangle :=
      ⟨readSigned request (payloadOffset + 28), readSigned request (payloadOffset + 32),
        readNat request (payloadOffset + 36), readNat request (payloadOffset + 40)⟩
    let color := read32 request (payloadOffset + 44)
    let sourceWidth := readNat request (payloadOffset + 48)
    let sourceHeight := readNat request (payloadOffset + 52)
    let maskResourceID := read32 request (payloadOffset + 56)
    let maskAlphaValue := readNat request (payloadOffset + 60)
    requireThat (maskFlagsValid flags isExactComposite maskResourceID maskAlphaValue)
      .errorInvalidParameter
    let destination ← usableResource device destinationResourceID fun resource =>
      !destinationRectangle.isEmpty && destinationRectangle.isWithin resource.width resource.height
    let operatorNeedsSource := decide (blendOperator ≠ .clear ∧ blendOperator ≠ .destination)
    let isFill := !isExactComposite && decide (operation = .fill ∨ operation = .fillOver)
    let sourceRectangle : GpuRectangle := ⟨sourceX, sourceY, sourceWidth, sourceHeight⟩
    let source ←
      if !operatorNeedsSource || flags.hasSolidSource || isFill then do
        requireThat (sourceResourceID = 0 && !flags.sourceContainsAlpha &&
          !flags.usesBilinearFiltering && sourceWidth = 0 && sourceHeight = 0) .errorInvalidParameter
        requireThat (!flags.hasSolidSource || operatorNeedsSource) .errorInvalidParameter
        pure none
      else some <$> usableResource device sourceResourceID fun resource =>
        0 < sourceWidth && 0 < sourceHeight &&
          sourceRectangle.isWithin resource.width resource.height &&
          sourceResourceID ≠ destinationResourceID
    requireThat ((!flags.hasPackedA8Source || (operatorNeedsSource && !flags.hasSolidSource &&
        flags.sourceContainsAlpha && !flags.usesBilinearFiltering)) &&
      (!flags.hasPackedA8Destination || isExactComposite)) .errorInvalidParameter
    let maskRectangle : GpuRectangle := ⟨0, 0, destinationRectangle.width, destinationRectangle.height⟩
    let mask ←
      if flags.hasMask && !flags.hasSolidMask then
        some <$> usableResource device maskResourceID fun resource =>
          maskRectangle.isWithin resource.width resource.height &&
            maskResourceID ≠ destinationResourceID && maskResourceID ≠ sourceResourceID
      else pure none
    let preparedSource ← source.mapM
      (readOperand device writableResources sourceResourceID sourceRectangle)
    let preparedMask ← mask.mapM (readOperand device writableResources maskResourceID maskRectangle)
    return {
      command := {
        operation := operation
        blendOperator := blendOperator
        sourceIsSolid := flags.hasSolidSource || isFill
        sourceResourceID := sourceResourceID
        destinationResourceID := destinationResourceID
        sourceX := sourceX
        sourceY := sourceY
        sourceWidth := sourceWidth
        sourceHeight := sourceHeight
        destinationRectangle := destinationRectangle
        color := color
        sourceContainsAlpha := flags.sourceContainsAlpha
        usesBilinearFiltering := flags.usesBilinearFiltering
        maskResourceID := maskResourceID
        maskAlpha := if flags.hasSolidMask then some (BitVec.ofNat 8 maskAlphaValue) else none
        componentAlphaMask := flags.hasComponentAlphaMask
        maskIsPackedA8 := flags.hasPackedA8Mask
        sourceIsPackedA8 := flags.hasPackedA8Source
        destinationIsPackedA8 := flags.hasPackedA8Destination }
      source := preparedSource
      destination := ⟨.shared destinationResourceID, destinationRectangle,
        destination.acceleratorSurface device.memory (.shared destinationResourceID)
          destinationResourceID⟩
      mask := preparedMask
      sourceContainsAlpha := flags.sourceContainsAlpha }

/-- Where the records of a submission start. -/
def submissionRecords (request : List U8) : EStateM GpuResponse ReadResources (List ℕ) := do
  let payloadOffset := 32
  requireCount request (payloadOffset + 8)
  let payloadSize := readNat request 24
  requireThat (8 ≤ payloadSize && payloadOffset + payloadSize ≤ request.length &&
    read32 request payloadOffset = magic) .errorInvalidParameter
  let submissionVersion := read16 request (payloadOffset + 4)
  if submissionVersion = version ∨ submissionVersion = exactCompositeVersion then do
    requireThat (payloadSize = payloadByteCount) .errorInvalidParameter
    return [payloadOffset]
  else if submissionVersion = batchVersion then do
    requireCount request (payloadOffset + batchHeaderByteCount)
    let commandCount := (read16 request (payloadOffset + 6)).toNat
    let recordByteCount := (read16 request (payloadOffset + 8)).toNat
    let batchFlags := read16 request (payloadOffset + 10)
    let declaredByteCount := readNat request (payloadOffset + 12)
    requireThat (0 < commandCount && commandCount ≤ maximumBatchCommandCount &&
      recordByteCount = batchRecordByteCount && batchFlags = 0) .errorInvalidParameter
    let expectedByteCount := batchHeaderByteCount + commandCount * recordByteCount
    requireThat (payloadSize = expectedByteCount && declaredByteCount = expectedByteCount)
      .errorInvalidParameter
    return (List.range commandCount).map fun index =>
      payloadOffset + batchHeaderByteCount + index * recordByteCount
  else throw .errorInvalidParameter

/-- `prepareParavirtual2DRequest`. -/
def prepareParavirtual2DRequest (request : List U8) (device : GpuDevice) :
    EStateM GpuResponse ReadResources (List PreparedParavirtual2D) := do
  let writableResources := (GpuResourceAccess.parse request).writes
  let starts ← submissionRecords request
  starts.mapM fun start => prepareParavirtual2D request start device writableResources

end Pinecone
