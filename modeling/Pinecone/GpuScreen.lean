import Pinecone.GpuTransfers
import Pinecone.PublishedFrames
import Pinecone.TransferRegions

/-! The commands of VirtIOGPU.swift that give resources their pixels and show them. -/

namespace Pinecone

open GpuRectangle
open GpuResourceAccess (read32)

/-- The resources and the display. The last two fields are not in the source: they have the resource of the
last flush, for as long as it is the same object, and what was flushed of it since it is shown. -/
structure GpuScreen (width height : ℕ) where
  device : GpuDevice
  display : FrameDisplay width height
  shown : Option (BitVec 32)
  flushed : List GpuRectangle

/-- A request, a write of the guest to its memory, the next step of a request that publishes a frame, or a
reader. -/
inductive ScreenEvent
  | createResource (request : List U8) (allocatedBytes : ℕ)
  | unrefResource (request : List U8)
  | attachBacking (request : List U8)
  | detachBacking (request : List U8)
  | transferToHost (request : List U8)
  | setScanout (request : List U8)
  | flushResource (request : List U8)
  | reset
  | writeMemory (native : GuestMemory)
  | proceed
  | lease (previousGeneration : Option ℕ)
  | release (index : ℕ)

namespace GpuScreen

variable {width height : ℕ} (screen : GpuScreen width height)

/-- A device that has just been made, with some memory. -/
def initial (width height : ℕ) (memory : PhysicalMemory) : GpuScreen width height where
  device := ⟨fun _ => none, none, none, memory⟩
  display := FrameDisplay.initial width height
  shown := none
  flushed := []

/-- A request that touches the resources only. -/
def onDevice (m : GpuRequest GpuResponse) : GpuScreen width height :=
  { screen with device := finalState (m screen.device) }

/-- `unrefResource`. -/
def unrefResource (request : List U8) : GpuScreen width height :=
  match GpuDevice.unrefResource request screen.device with
  | .ok _ device =>
    { screen with
      device := device
      display := screen.display.command (.unref (read32 request 24))
      shown := if screen.shown = some (read32 request 24) then none else screen.shown }
  | .error _ device => { screen with device := device }

/-- `setScanout`. -/
def setScanout (request : List U8) : GpuScreen width height :=
  let rectangle := readRectangle request 24
  let scanoutID := read32 request 40
  let resourceID := read32 request 44
  if request.length < 48 ∨ scanoutID ≠ 0 then screen
  else if resourceID = 0 then { screen with display := screen.display.command .disableScanout }
  else
    match screen.device.resources resourceID with
    | none => screen
    | some resource =>
      if !rectangle.isEmpty && rectangle.isWithin resource.width resource.height &&
          rectangle.width ≤ width && rectangle.height ≤ height then
        { screen with display := screen.display.command (.setScanout ⟨resourceID, rectangle⟩) }
      else screen

/-- `flushResource`, until it gives the lock up. -/
def flushResource (request : List U8) : GpuScreen width height :=
  let flushRectangle := readRectangle request 24
  let resourceID := read32 request 40
  if request.length < 48 then screen
  else
    match screen.device.resources resourceID with
    | none => screen
    | some resource =>
      if !flushRectangle.isEmpty && flushRectangle.isWithin resource.width resource.height then
        { screen with display := screen.display.command (.flush resourceID resource flushRectangle) }
      else screen

/-- `reset`. -/
def reset : GpuScreen width height :=
  { screen with
    device := { screen.device with resources := fun _ => none, cursor := none, cursorPixels := none }
    display := screen.display.command .reset
    shown := none }

/-- The end of a flush: what it has shown is no longer pending. -/
def finishFlush (flush : FrameFlush) (scanout : GpuScanout) (needsFullFrame : Bool) :
    GpuScreen width height :=
  let subtracting (pending : List GpuRectangle) : List GpuRectangle :=
    pending.flatMap fun rectangle => rectangle.subtracting flush.flushRectangle
  { screen with
    device :=
      match screen.device.resources scanout.resourceID with
      | none => screen.device
      | some resource =>
        screen.device.setResource scanout.resourceID
          { resource with
            pendingTransfers := subtracting resource.pendingTransfers
            pendingExactTransfers := subtracting resource.pendingExactTransfers }
    shown := some scanout.resourceID
    flushed :=
      if needsFullFrame = false ∧ screen.shown = some scanout.resourceID then
        flush.flushRectangle :: screen.flushed
      else [flush.flushRectangle] }

/-- The next step of the running request. -/
def proceed : Option (GpuScreen width height) :=
  screen.display.proceed.map fun display =>
    let next : GpuScreen width height := { screen with display := display }
    match screen.display.task with
    | some (.publish _ _ (.flush flush scanout needsFullFrame)) => next.finishFlush flush scanout needsFullFrame
    | _ => next

/-- A request, which waits until no other one runs. -/
def request : ScreenEvent → GpuScreen width height
  | .createResource request allocatedBytes => screen.onDevice (GpuDevice.createResource request allocatedBytes)
  | .unrefResource request => screen.unrefResource request
  | .attachBacking request => screen.onDevice (GpuDevice.attachBacking request)
  | .detachBacking request => screen.onDevice (GpuDevice.detachBacking request)
  | .transferToHost request => screen.onDevice (GpuDevice.transferToHost request)
  | .setScanout request => screen.setScanout request
  | .flushResource request => screen.flushResource request
  | .reset => screen.reset
  | _ => screen

/-- The next state, if the event can happen. -/
def step (event : ScreenEvent) : Option (GpuScreen width height) :=
  match event with
  | .writeMemory native =>
    if native.size = screen.device.memory.native.size then
      some { screen with device := { screen.device with memory := { screen.device.memory with native := native } } }
    else none
  | .proceed => screen.proceed
  | .lease previousGeneration =>
    some { screen with display := screen.display.frameLease previousGeneration }
  | .release index => (screen.display.step (.release index)).map fun display => { screen with display := display }
  | event => if screen.display.task.isNone then some (screen.request event) else none

def run (events : List ScreenEvent) : Option (GpuScreen width height) := events.foldlM step screen

/-! ## Flushes that show the resource -/

/-- `needsFullFrame`. -/
def needsFullFrame (scanout : GpuScanout) : Bool :=
  !screen.display.hasCommittedFrame ||
    decide (screen.display.committedScanout.map GpuScanout.rectangle ≠ some scanout.rectangle)

/-- The point is pending in the resource, or was flushed since the resource is shown. -/
def Drawable (resourceID : BitVec 32) (px py : ℤ) : Prop :=
  (∃ resource, screen.device.resources resourceID = some resource ∧ Covers resource.pendingTransfers px py) ∨
    screen.shown = some resourceID ∧ Covers screen.flushed px py

/-- A flush that keeps the frame finds each point that it shows pending or flushed before, a new backing of
the shown resource finds nothing pending of what was flushed, and a transfer to it is not refused halfway. -/
def KeepsShown : ScreenEvent → Prop
  | .flushResource request => ∀ scanout, screen.display.scanout = some scanout →
      scanout.resourceID = read32 request 40 → screen.needsFullFrame scanout = false →
      ∀ px py, (readRectangle request 24).Contains px py → scanout.rectangle.Contains px py →
        screen.Drawable scanout.resourceID px py
  | .attachBacking request => screen.shown = some (read32 request 24) →
      (∃ device, GpuDevice.attachBacking request screen.device = .ok .okNoData device) →
      ∀ resource, screen.device.resources (read32 request 24) = some resource →
        ∀ px py, Covers screen.flushed px py → ¬ Covers resource.pendingTransfers px py
  | .detachBacking request => screen.shown = some (read32 request 24) →
      ∀ resource, screen.device.resources (read32 request 24) = some resource →
        ∀ px py, Covers screen.flushed px py → ¬ Covers resource.pendingTransfers px py
  | .transferToHost request => screen.shown = some (read32 request 48) →
      ∀ resource, screen.device.resources (read32 request 48) = some resource →
        ¬ ((readRectangle request 24).x = 0 ∧ (readRectangle request 24).width = resource.width) →
        resource.CompletesRows (readRectangle request 24) (read64 request 40).toNat
  | _ => True

end GpuScreen

end Pinecone
