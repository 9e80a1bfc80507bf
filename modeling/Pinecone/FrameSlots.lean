import Mathlib.Logic.Function.Basic
import Pinecone.FrameFlush

/-! The frames that VirtIOGPU.swift publishes. A command has the execution gate and gives the metadata lock
up for its pixel work, and the readers of frames take the lock in between. -/

namespace Pinecone

open GpuRectangle

/-- `PublishedFrameSlot`. -/
structure PublishedFrameSlot (width height : ℕ) where
  pixels : GpuFrame width height
  leaseCount : ℤ
  generation : Option ℕ

/-- `Scanout`. -/
structure GpuScanout where
  resourceID : BitVec 32
  rectangle : GpuRectangle
  deriving DecidableEq

/-- `Cursor`. -/
structure GpuCursor where
  resourceID : BitVec 32
  x : ℤ
  y : ℤ
  hotX : ℤ
  hotY : ℤ
  deriving DecidableEq

/-- The image of a cursor, of 64 by 64 pixels. -/
abbrev CursorImage := ℤ → ℤ → BitVec 32

/-- A lease of a frame, which is released once. -/
structure FrameLease where
  slot : ℕ
  generation : ℕ
  damage : List GpuRectangle
  hasStableStorage : Bool

/-- A command that publishes a frame. -/
inductive FrameCommand
  | flush (flush : FrameFlush) (scanout : GpuScanout) (needsFullFrame : Bool)
  | disable
  | unref (resourceID : BitVec 32)
  | reset

/-- `copyContents` of `unpublishedFrame`. -/
def FrameCommand.copyContents : FrameCommand → Bool
  | .flush _ _ needsFullFrame => !needsFullFrame
  | _ => false

/-- What the running command does next. The pixel work is done without the lock: making a slot, copying
damage to it, and drawing. The other steps are sections under the lock. -/
inductive FrameTask
  | makeSlot (command : FrameCommand)
  | addSlot (command : FrameCommand)
  | copyDamage (slot : ℕ) (damage : List GpuRectangle) (command : FrameCommand)
  | tagSlot (slot : ℕ) (command : FrameCommand)
  | drawFrame (slot : ℕ) (command : FrameCommand)
  | publish (slot : ℕ) (damage : List GpuRectangle) (command : FrameCommand)

/-- The slot that the command fills. -/
def FrameTask.slot : FrameTask → Option ℕ
  | .makeSlot _ => none
  | .addSlot _ => none
  | .copyDamage slot _ _ => some slot
  | .tagSlot slot _ => some slot
  | .drawFrame slot _ => some slot
  | .publish slot _ _ => some slot

/-- The display state of `VirtIOGPUDevice`. The slots are numbered as they are made, and the history has
the generation and the rectangles of each record. The last field is not in the source: it has the frame
that was committed as each generation. -/
structure FrameDisplay (width height : ℕ) where
  slots : ℕ → PublishedFrameSlot width height
  slotCount : ℕ
  frameSlots : List ℕ
  committedFrame : ℕ
  cursorFrame : Option ℕ
  cursorFrameGeneration : Option ℕ
  cursor : Option GpuCursor
  cursorPixels : Option CursorImage
  scanout : Option GpuScanout
  committedScanout : Option GpuScanout
  committedGeneration : ℕ
  damageHistory : List (ℕ × List GpuRectangle)
  hasCommittedFrame : Bool
  leases : List FrameLease
  task : Option FrameTask
  committedAs : ℕ → GpuFrame width height

/-- A command on the display, the next step of the running one, or a reader. The image of a cursor is that
of its resource. -/
inductive DisplayEvent
  | setScanout (scanout : GpuScanout)
  | disableScanout
  | flush (resourceID : BitVec 32) (resource : GpuResource) (flushRectangle : GpuRectangle)
  | unref (resourceID : BitVec 32)
  | reset
  | updateCursor (cursor : GpuCursor) (image : CursorImage)
  | removeCursor
  | moveCursor (x y : BitVec 32)
  | refreshCursorPixels (resourceID : BitVec 32) (image : CursorImage)
  | proceed
  | lease (previousGeneration : Option ℕ)
  | release (index : ℕ)

/-- `maximumDamageHistory`. -/
def maximumDamageHistory : ℕ := 120

/-! ## Cursors -/

/-- One channel of `avz_framebuffer_source_over_bgra8`. -/
def overChannel (foreground background alpha : U8) : U8 :=
  let product := background.toNat * (255 - alpha.toNat) + 128
  BitVec.ofNat 8 (min 255 (foreground.toNat + (product + product / 2 ^ 8) / 2 ^ 8))

/-- `avz_framebuffer_source_over_bgra8`, of one pixel. -/
def sourceOver (foreground background : BitVec 32) : BitVec 32 :=
  let channel (index : ℕ) : U8 :=
    overChannel (foreground.extractLsb' (index * 8) 8) (background.extractLsb' (index * 8) 8)
      (foreground.extractLsb' 24 8)
  channel 3 ++ channel 2 ++ channel 1 ++ channel 0

namespace GpuCursor

variable (cursor : GpuCursor)

/-- `cursorBounds` of `compositeCursor`. -/
def bounds : GpuRectangle := ⟨cursor.x - cursor.hotX, cursor.y - cursor.hotY, 64, 64⟩

/-- `cursorRectangle`. -/
def rectangle (width height : ℕ) : Option GpuRectangle := cursor.bounds.intersection ⟨0, 0, width, height⟩

/-- The cursor over a part of a frame. -/
def blend {width height : ℕ} (image : CursorImage) (frame : GpuFrame width height) (visible : GpuRectangle) :
    GpuFrame width height := fun place =>
  if visible.Contains place.1 place.2 then
    sourceOver (image (place.1 - cursor.bounds.x) (place.2 - cursor.bounds.y)) (frame place)
  else frame place

end GpuCursor

/-- `combinedCursorDamage`, of `cursorRectangle` of both. -/
def combinedCursorDamage (first second : Option GpuRectangle) : Option GpuRectangle :=
  match first, second with
  | some first, some second => some (first.union second)
  | some first, none => some first
  | none, second => second

namespace FrameDisplay

variable {width height : ℕ} (display : FrameDisplay width height)

/-- The device as it is made, with one slot. -/
def initial (width height : ℕ) : FrameDisplay width height where
  slots := fun _ => ⟨fun _ => 0, 0, none⟩
  slotCount := 1
  frameSlots := [0]
  committedFrame := 0
  cursorFrame := none
  cursorFrameGeneration := none
  cursor := none
  cursorPixels := none
  scanout := none
  committedScanout := none
  committedGeneration := 0
  damageHistory := []
  hasCommittedFrame := false
  leases := []
  task := none
  committedAs := fun _ _ => 0

def fullFrame (width height : ℕ) : GpuRectangle := ⟨0, 0, width, height⟩

/-- `committedPixels`. -/
def committedPixels : GpuFrame width height := (display.slots display.committedFrame).pixels

def updateSlot (slot : ℕ) (change : PublishedFrameSlot width height → PublishedFrameSlot width height) :
    FrameDisplay width height :=
  { display with slots := Function.update display.slots slot (change (display.slots slot)) }

def setPixels (slot : ℕ) (pixels : GpuFrame width height) : FrameDisplay width height :=
  display.updateSlot slot fun published => { published with pixels := pixels }

def setGeneration (slot : ℕ) (generation : Option ℕ) : FrameDisplay width height :=
  display.updateSlot slot fun published => { published with generation := generation }

def addLease (slot : ℕ) (count : ℤ) : FrameDisplay width height :=
  display.updateSlot slot fun published => { published with leaseCount := published.leaseCount + count }

/-! ## Damage -/

/-- The damage of `frameMetadata(afterGeneration:)`, if there is a newer frame. -/
def frameMetadata (previousGeneration : Option ℕ) : Option (List GpuRectangle) :=
  if display.hasCommittedFrame = false ∨ previousGeneration = some display.committedGeneration then none
  else
    match previousGeneration with
    | none => some [fullFrame width height]
    | some previous =>
      let records := display.damageHistory.filter fun record => previous < record.1
      let historyStartsAfterRequestedGeneration : Bool :=
        match display.damageHistory.head? with
        | some first => previous + 1 < first.1
        | none => true
      if records = [] ∨ historyStartsAfterRequestedGeneration then some [fullFrame width height]
      else some (compactDamageRectangles (records.flatMap Prod.snd))

/-- `commit(damage:)`. -/
def commit (rectangles : List GpuRectangle) : FrameDisplay width height :=
  let rectangles := rectangles.filter fun rectangle => !rectangle.isEmpty
  if rectangles = [] then display
  else
    let generation := display.committedGeneration + 1
    let history := display.damageHistory ++ [(generation, rectangles)]
    { display with
      committedGeneration := generation
      damageHistory := history.drop (history.length - maximumDamageHistory)
      hasCommittedFrame := true
      committedAs := Function.update display.committedAs generation display.committedPixels }

/-- `displayStateChanged(damage:)`. -/
def displayStateChanged (damage : Option GpuRectangle) : FrameDisplay width height :=
  match damage with
  | some damage => if display.hasCommittedFrame then display.commit [damage] else display
  | none => display

def cursorRectangle : Option GpuRectangle := display.cursor.bind fun cursor => cursor.rectangle width height

/-! ## Commands -/

/-- The end of `unrefResource` and `updateCursor` without a resource: there is no cursor any more. -/
def dropCursor : FrameDisplay width height :=
  let dropped : FrameDisplay width height := { display with cursor := none, cursorPixels := none }
  dropped.displayStateChanged display.cursorRectangle

/-- The cursor of a resource is dropped with it. -/
def dropCursorOf (resourceID : BitVec 32) : FrameDisplay width height :=
  if display.cursor.map GpuCursor.resourceID = some resourceID then display.dropCursor else display

/-- The damage that `unpublishedFrame` copies to a slot. -/
def unpublishedDamage (slot : ℕ) : List GpuRectangle :=
  let generation := (display.slots slot).generation
  if generation = some display.committedGeneration then []
  else (display.frameMetadata generation).getD [fullFrame width height]

/-- `unpublishedFrame`, once it has a slot. -/
def takeSlot (slot : ℕ) (command : FrameCommand) : FrameDisplay width height :=
  { display with
    task := some (if command.copyContents then .copyDamage slot (display.unpublishedDamage slot) command
      else .drawFrame slot command) }

/-- The start of `unpublishedFrame`: a slot that is free, or a new one. -/
def begin (command : FrameCommand) : FrameDisplay width height :=
  match display.frameSlots.find? fun slot =>
      slot ≠ display.committedFrame && (display.slots slot).leaseCount = 0 with
  | some available => display.takeSlot available command
  | none => { display with task := some (.makeSlot command) }

/-- `copyFramebufferRectangle` of each rectangle from the committed frame. -/
def copyDamage (damage : List GpuRectangle) (frame : GpuFrame width height) : GpuFrame width height :=
  damage.foldl (fun frame rectangle =>
    frame.copy rectangle (GpuFrame.pixel display.committedPixels)) frame

/-- The pixels that a command draws in a frame, and their damage. -/
def drawn (command : FrameCommand) (frame : GpuFrame width height) :
    GpuFrame width height × List GpuRectangle :=
  match command with
  | .flush flush _ needsFullFrame => flush.draw needsFullFrame frame
  | _ => (fun _ => 0, [])

/-- The last section of a command, in which its slot becomes the committed one. -/
def publish (slot : ℕ) (damage : List GpuRectangle) : FrameCommand → FrameDisplay width height
  | .flush _ scanout _ =>
    let published : FrameDisplay width height :=
      { display with committedScanout := some scanout, committedFrame := slot, task := none }
    let committed := published.commit damage
    committed.setGeneration slot (some committed.committedGeneration)
  | .disable =>
    let cleared : FrameDisplay width height :=
      { display.setGeneration slot none with committedFrame := slot, task := none }
    cleared.commit [fullFrame width height]
  | .unref resourceID =>
    let cleared : FrameDisplay width height :=
      { display.setGeneration slot none with committedFrame := slot, task := none }
    (cleared.commit [fullFrame width height]).dropCursorOf resourceID
  | .reset =>
    let cleared : FrameDisplay width height :=
      { display.setGeneration slot none with committedFrame := slot, task := none }
    { cleared with
      scanout := none
      committedScanout := none
      cursor := none
      cursorPixels := none
      cursorFrame := none
      cursorFrameGeneration := none
      committedGeneration := display.committedGeneration + 1
      damageHistory := []
      hasCommittedFrame := false
      committedAs := Function.update display.committedAs (display.committedGeneration + 1)
        cleared.committedPixels }

/-- The next step of the running command. -/
def proceed : Option (FrameDisplay width height) :=
  match display.task with
  | none => none
  | some (.makeSlot command) => some { display with task := some (.addSlot command) }
  | some (.addSlot command) =>
    let added : FrameDisplay width height :=
      { display with
        slots := Function.update display.slots display.slotCount ⟨fun _ => 0, 0, none⟩
        slotCount := display.slotCount + 1
        frameSlots := display.frameSlots ++ [display.slotCount] }
    some (added.takeSlot display.slotCount command)
  | some (.copyDamage slot damage command) =>
    some { display.setPixels slot (display.copyDamage damage (display.slots slot).pixels) with
      task := some (.tagSlot slot command) }
  | some (.tagSlot slot command) =>
    some { display.setGeneration slot (some display.committedGeneration) with
      task := some (.drawFrame slot command) }
  | some (.drawFrame slot command) =>
    let drawn := drawn command (display.slots slot).pixels
    some { display.setPixels slot drawn.1 with task := some (.publish slot drawn.2 command) }
  | some (.publish slot damage command) => some (display.publish slot damage command)

/-! ## Readers -/

/-- `compositeCursor(into:damage:)`. -/
def compositeCursor (damage : List GpuRectangle) (frame : GpuFrame width height) : GpuFrame width height :=
  match display.cursor, display.cursorPixels with
  | some cursor, some image =>
    damage.foldl (fun frame rectangle =>
      match (rectangle.intersection cursor.bounds).bind fun part =>
          part.intersection (fullFrame width height) with
      | some visible => cursor.blend image frame visible
      | none => frame) frame
  | _, _ => frame

/-- `compositedPixels()`, the image that is displayed. -/
def compositedPixels : GpuFrame width height :=
  match display.cursor, display.cursorPixels with
  | some cursor, some image =>
    match cursor.rectangle width height with
    | some visible => cursor.blend image display.committedPixels visible
    | none => display.committedPixels
  | _, _ => display.committedPixels

/-- The slot of `prepareCursorFrame`: the one that there is, or a new one with what that has. -/
def takeCursorFrame : ℕ × FrameDisplay width height :=
  let fresh (pixels : GpuFrame width height) : ℕ × FrameDisplay width height :=
    (display.slotCount,
      { display with
        slots := Function.update display.slots display.slotCount ⟨pixels, 0, none⟩
        slotCount := display.slotCount + 1
        cursorFrame := some display.slotCount })
  match display.cursorFrame with
  | some previous =>
    if (display.slots previous).leaseCount = 0 then (previous, display)
    else fresh (display.slots previous).pixels
  | none => fresh fun _ => 0

/-- The damage of `prepareCursorFrame`, if it has anything to do. -/
def cursorFrameDamage : Option (List GpuRectangle) :=
  match display.cursorFrameGeneration with
  | none => some [fullFrame width height]
  | some generation =>
    if generation = display.committedGeneration then none
    else some ((display.frameMetadata (some generation)).getD [fullFrame width height])

/-- `prepareCursorFrame`. -/
def prepareCursorFrame : ℕ × FrameDisplay width height :=
  let taken := display.takeCursorFrame
  match display.cursorFrameDamage with
  | none => taken
  | some damage =>
    let copied := display.copyDamage damage (taken.2.slots taken.1).pixels
    (taken.1,
      { taken.2.setPixels taken.1 (display.compositeCursor damage copied) with
        cursorFrameGeneration := some display.committedGeneration })

/-- `frameLease(afterGeneration:)`. -/
def frameLease (previousGeneration : Option ℕ) : FrameDisplay width height :=
  match display.frameMetadata previousGeneration with
  | none => display
  | some damage =>
    if display.cursor.isNone then
      { display.addLease display.committedFrame 1 with
        leases := display.leases ++
          [⟨display.committedFrame, display.committedGeneration, damage, true⟩] }
    else
      let prepared := display.prepareCursorFrame
      { prepared.2.addLease prepared.1 1 with
        leases := display.leases ++ [⟨prepared.1, display.committedGeneration, damage, false⟩] }

/-- The release handler of a lease. A slot that the device has dropped is left alone, and a lease that is
not counted traps. -/
def releaseLease (lease : FrameLease) : Option (FrameDisplay width height) :=
  if lease.slot ∈ display.frameSlots ∨ display.cursorFrame = some lease.slot then
    if 0 < (display.slots lease.slot).leaseCount then some (display.addLease lease.slot (-1)) else none
  else some display

/-! ## Events -/

/-- What `setScanout` asks of its rectangle, but for the resource. -/
def AcceptsScanout (width height : ℕ) (rectangle : GpuRectangle) : Prop :=
  0 ≤ rectangle.x ∧ 0 ≤ rectangle.y ∧ 0 < rectangle.width ∧ 0 < rectangle.height ∧
    rectangle.width ≤ width ∧ rectangle.height ≤ height

instance (width height : ℕ) (rectangle : GpuRectangle) : Decidable (AcceptsScanout width height rectangle) :=
  inferInstanceAs (Decidable (_ ∧ _ ∧ _ ∧ _ ∧ _ ∧ _))

/-- A flush of what the scanout shows starts with the slot, and another flush does nothing. -/
def beginFlush (resourceID : BitVec 32) (resource : GpuResource) (flushRectangle : GpuRectangle) :
    FrameDisplay width height :=
  match display.scanout with
  | none => display
  | some scanout =>
    let flush : FrameFlush := ⟨resource, scanout.rectangle, flushRectangle⟩
    if scanout.resourceID = resourceID ∧ flush.visible.isSome then
      let geometryChanged := display.committedScanout.map GpuScanout.rectangle ≠ some scanout.rectangle
      display.begin (.flush flush scanout (!display.hasCommittedFrame || geometryChanged))
    else display

/-- The commands, each of which waits until no other one runs. -/
def command : DisplayEvent → FrameDisplay width height
  | .setScanout scanout =>
    if AcceptsScanout width height scanout.rectangle then { display with scanout := some scanout } else display
  | .disableScanout =>
    ({ display with scanout := none, committedScanout := none } : FrameDisplay width height).begin .disable
  | .flush resourceID resource flushRectangle => display.beginFlush resourceID resource flushRectangle
  | .unref resourceID =>
    if display.scanout.map GpuScanout.resourceID = some resourceID then
      ({ display with scanout := none, committedScanout := none } : FrameDisplay width height).begin
        (.unref resourceID)
    else display.dropCursorOf resourceID
  | .reset => display.begin .reset
  | .updateCursor cursor image =>
    let updated : FrameDisplay width height :=
      { display with cursor := some cursor, cursorPixels := some image, cursorFrameGeneration := none }
    updated.displayStateChanged (combinedCursorDamage display.cursorRectangle updated.cursorRectangle)
  | .removeCursor => display.dropCursor
  | .moveCursor x y =>
    match display.cursor with
    | some cursor =>
      let moved : FrameDisplay width height :=
        { display with cursor := some { cursor with x := x.toNat, y := y.toNat } }
      moved.displayStateChanged (combinedCursorDamage display.cursorRectangle moved.cursorRectangle)
    | none => display
  | .refreshCursorPixels resourceID image =>
    if display.cursor.map GpuCursor.resourceID = some resourceID then
      { display with cursorPixels := some image, cursorFrameGeneration := none }
    else display
  | _ => display

/-- The next state, if the event can happen and does not trap. -/
def step (event : DisplayEvent) : Option (FrameDisplay width height) :=
  match event with
  | .proceed => display.proceed
  | .lease previousGeneration => some (display.frameLease previousGeneration)
  | .release index =>
    match display.leases[index]? with
    | none => none
    | some lease =>
      ({ display with leases := display.leases.eraseIdx index } : FrameDisplay width height).releaseLease lease
  | event => if display.task.isNone then some (display.command event) else none

def run (events : List DisplayEvent) : Option (FrameDisplay width height) :=
  events.foldlM step display

end FrameDisplay

end Pinecone
