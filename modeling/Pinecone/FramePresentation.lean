import Pinecone.GuestRam

/-! The scheduler of frame presentations and the plan of an upload to the staging surface. -/

namespace Pinecone

/-- `Int.max`. -/
def intMax : ℤ := 2 ^ 63 - 1

structure VirtualFramebufferDamage where
  x : ℤ
  y : ℤ
  width : ℤ
  height : ℤ

namespace VirtualFramebufferDamage

def Contains (rectangle : VirtualFramebufferDamage) (x y : ℤ) : Prop :=
  rectangle.x ≤ x ∧ x < rectangle.x + rectangle.width ∧
    rectangle.y ≤ y ∧ y < rectangle.y + rectangle.height

instance (rectangle : VirtualFramebufferDamage) (x y : ℤ) : Decidable (rectangle.Contains x y) :=
  inferInstanceAs (Decidable (_ ∧ _))

end VirtualFramebufferDamage

structure VirtualFramebufferFrameMetadata where
  width : ℤ
  height : ℤ
  stride : ℤ
  bytesPerPixel : ℤ
  generation : U64
  commitTimestampNanoseconds : U64
  damage : List VirtualFramebufferDamage

/-- A leased frame: its metadata and the bytes of its storage. -/
structure VirtualFramebufferFrameLease where
  metadata : VirtualFramebufferFrameMetadata
  byteCount : ℤ
  bytes : ℤ → BitVec 8

namespace VirtualFramebufferFrameLease

variable (lease : VirtualFramebufferFrameLease)

def InFrame (x y : ℤ) : Prop :=
  0 ≤ x ∧ x < lease.metadata.width ∧ 0 ≤ y ∧ y < lease.metadata.height

def pixel (x y : ℤ) : Fin 4 → BitVec 8 := fun byte =>
  lease.bytes (y * lease.metadata.stride + x * lease.metadata.bytesPerPixel + byte)

def Damages (x y : ℤ) : Prop :=
  ∃ rectangle ∈ lease.metadata.damage, rectangle.Contains x y

end VirtualFramebufferFrameLease

structure FramePresentationUploadPlan where
  byteCount : ℤ
  damage : List VirtualFramebufferDamage

namespace FramePresentationUploadPlan

/-- The rectangle lies in the frame. -/
def accepts (metadata : VirtualFramebufferFrameMetadata) (rectangle : VirtualFramebufferDamage) :
    Bool :=
  0 ≤ rectangle.x && 0 ≤ rectangle.y && 0 ≤ rectangle.width && 0 ≤ rectangle.height &&
    rectangle.x ≤ metadata.width && rectangle.y ≤ metadata.height &&
    rectangle.width ≤ metadata.width - rectangle.x &&
    rectangle.height ≤ metadata.height - rectangle.y

/-- `FramePresentationUploadPlan.init`. -/
def make (metadata : VirtualFramebufferFrameMetadata) (requiresFullUpload : Bool) :
    Option FramePresentationUploadPlan :=
  if metadata.bytesPerPixel = 4 ∧ 0 < metadata.width ∧ 0 < metadata.height ∧
      metadata.width ≤ intMax / 4 ∧ metadata.width * 4 ≤ metadata.stride ∧
      metadata.height ≤ intMax / metadata.stride then
    if metadata.damage.all (accepts metadata) then
      some {
        byteCount := metadata.height * metadata.stride
        damage :=
          if requiresFullUpload then [⟨0, 0, metadata.width, metadata.height⟩]
          else metadata.damage.filter fun rectangle =>
            0 < rectangle.width && 0 < rectangle.height }
    else none
  else none

end FramePresentationUploadPlan

/-- The staging texture. -/
structure StagingSurface where
  width : ℤ
  height : ℤ
  pixel : ℤ → ℤ → Fin 4 → BitVec 8

namespace StagingSurface

/-- The surface is the complete leased frame. -/
structure Shows (surface : StagingSurface) (lease : VirtualFramebufferFrameLease) : Prop where
  width : surface.width = lease.metadata.width
  height : surface.height = lease.metadata.height
  pixel : ∀ x y, lease.InFrame x y → surface.pixel x y = lease.pixel x y

/-- `FramebufferStager.upload`: a surface of another size is replaced by a new one. -/
def upload (surface : StagingSurface) (lease : VirtualFramebufferFrameLease) :
    Option StagingSurface :=
  let canReuseTexture :=
    surface.width == lease.metadata.width && surface.height == lease.metadata.height
  match FramePresentationUploadPlan.make lease.metadata (!canReuseTexture) with
  | none => none
  | some plan =>
    if plan.byteCount ≤ lease.byteCount then
      some {
        width := lease.metadata.width
        height := lease.metadata.height
        pixel := fun x y =>
          if plan.damage.any fun rectangle => rectangle.Contains x y then lease.pixel x y
          else surface.pixel x y }
    else none

end StagingSurface

/-- Its identifiers are the ones that `UUID()` makes. -/
structure Ticket where
  epoch : ℕ
  identifier : ℕ
  deriving DecidableEq

structure Upload where
  ticket : Ticket
  lease : VirtualFramebufferFrameLease

inductive UploadDisposition
  | ready
  | discarded
  deriving DecidableEq

inductive Phase
  | uploading
  | ready
  | queued
  deriving DecidableEq

structure Active where
  upload : Upload
  phase : Phase

structure FramePresentationScheduler where
  epoch : ℕ
  active : Option Active
  latestMetadata : Option VirtualFramebufferFrameMetadata
  uploadedMetadata : Option VirtualFramebufferFrameMetadata
  displayedMetadata : Option VirtualFramebufferFrameMetadata
  redrawRequested : Bool
  queuedGeneration : Option U64
  /-- The number of UUIDs made so far, which is the next one. -/
  uuids : ℕ

namespace FramePresentationScheduler

/-- `FramePresentationScheduler.init`. -/
def initial : FramePresentationScheduler where
  epoch := 0
  active := none
  latestMetadata := none
  uploadedMetadata := none
  displayedMetadata := none
  redrawRequested := false
  queuedGeneration := none
  uuids := 1

def sameLayout (lhs rhs : VirtualFramebufferFrameMetadata) : Bool :=
  lhs.width == rhs.width && lhs.height == rhs.height && lhs.stride == rhs.stride &&
    lhs.bytesPerPixel == rhs.bytesPerPixel

def sameFrame (lhs : VirtualFramebufferFrameMetadata) :
    Option VirtualFramebufferFrameMetadata → Bool
  | none => false
  | some rhs =>
    lhs.generation == rhs.generation &&
      lhs.commitTimestampNanoseconds == rhs.commitTimestampNanoseconds && sameLayout lhs rhs

variable (scheduler : FramePresentationScheduler)

def needsRefresh : Bool :=
  match scheduler.active with
  | some active => active.phase == .ready
  | none =>
    match scheduler.latestMetadata with
    | none => false
    | some latestMetadata =>
      scheduler.redrawRequested || !sameFrame latestMetadata scheduler.displayedMetadata

def readyUpload : Option Upload :=
  match scheduler.active with
  | some active => if active.phase = .ready then some active.upload else none
  | none => none

/-- The active slot belongs to the ticket. -/
def isActive (ticket : Ticket) : Bool :=
  scheduler.active.any fun active => active.upload.ticket == ticket

def isCurrent (ticket : Ticket) : Bool :=
  scheduler.isActive ticket && ticket.epoch == scheduler.epoch

def receive (metadata : VirtualFramebufferFrameMetadata) : FramePresentationScheduler :=
  match scheduler.latestMetadata with
  | none => { scheduler with latestMetadata := some metadata }
  | some latestMetadata =>
    if metadata.commitTimestampNanoseconds ≠ 0 ∧
        metadata.commitTimestampNanoseconds < latestMetadata.commitTimestampNanoseconds then
      scheduler
    else { scheduler with latestMetadata := some metadata }

def requestRedraw : FramePresentationScheduler :=
  { scheduler with redrawRequested := true }

/-- The generation after which `beginRefresh` asks for the damage, if it asks for a part. -/
def previousGeneration (latestMetadata : VirtualFramebufferFrameMetadata) : Option U64 :=
  match scheduler.uploadedMetadata with
  | none => none
  | some uploadedMetadata =>
    if latestMetadata.generation < uploadedMetadata.generation ∨
        sameLayout latestMetadata uploadedMetadata = false ∨
        sameFrame latestMetadata (some uploadedMetadata) = true then none
    else some uploadedMetadata.generation

/-- The lease that `beginRefresh` keeps: a whole one where the source went back. -/
def acquireLease (acquireFrame : Option U64 → Option VirtualFramebufferFrameLease)
    (previousGeneration : Option U64) : Option VirtualFramebufferFrameLease :=
  match acquireFrame previousGeneration with
  | none => none
  | some lease =>
    match previousGeneration with
    | none => some lease
    | some previous =>
      if lease.metadata.generation < previous then acquireFrame none else some lease

def beginRefresh (acquireFrame : Option U64 → Option VirtualFramebufferFrameLease) :
    Option Upload × FramePresentationScheduler :=
  if scheduler.active.isSome ∨ scheduler.needsRefresh = false then (none, scheduler)
  else
    match scheduler.latestMetadata with
    | none => (none, scheduler)
    | some latestMetadata =>
      match acquireLease acquireFrame (scheduler.previousGeneration latestMetadata) with
      | none => (none, scheduler)
      | some lease =>
        let upload := ⟨⟨scheduler.epoch, scheduler.uuids⟩, lease⟩
        (some upload, { scheduler with
          latestMetadata := some lease.metadata
          redrawRequested := false
          active := some ⟨upload, .uploading⟩
          uuids := scheduler.uuids + 1 })

def finishUpload (ticket : Ticket) (succeeded : Bool) :
    UploadDisposition × FramePresentationScheduler :=
  match scheduler.active with
  | none => (.discarded, scheduler)
  | some active =>
    if active.upload.ticket ≠ ticket ∨ active.phase ≠ .uploading then (.discarded, scheduler)
    else if ticket.epoch ≠ scheduler.epoch then (.discarded, { scheduler with active := none })
    else if succeeded = false then
      (.discarded, { scheduler with uploadedMetadata := none, active := none })
    else
      (.ready, { scheduler with
        uploadedMetadata := some active.upload.lease.metadata
        active := some { active with phase := .ready } })

def markQueued (ticket : Ticket) : Bool × FramePresentationScheduler :=
  match scheduler.active with
  | none => (false, scheduler)
  | some active =>
    if active.upload.ticket ≠ ticket ∨ active.phase ≠ .ready ∨ ticket.epoch ≠ scheduler.epoch then
      (false, scheduler)
    else
      (true, { scheduler with
        queuedGeneration := some active.upload.lease.metadata.generation
        active := some { active with phase := .queued } })

def complete (ticket : Ticket) (succeeded : Bool) : Bool × FramePresentationScheduler :=
  match scheduler.active with
  | none => (false, scheduler)
  | some active =>
    if active.upload.ticket ≠ ticket ∨
        ¬ (active.phase = .queued ∨ succeeded = false ∧ active.phase = .ready) then
      (false, scheduler)
    else if ticket.epoch ≠ scheduler.epoch then (false, { scheduler with active := none })
    else if succeeded = false then
      (false, { scheduler with active := none, queuedGeneration := none, uploadedMetadata := none })
    else
      (true, { scheduler with
        active := none
        queuedGeneration := none
        displayedMetadata := some active.upload.lease.metadata })

def reset : FramePresentationScheduler :=
  { scheduler with
    epoch := scheduler.uuids
    uuids := scheduler.uuids + 1
    latestMetadata := none
    uploadedMetadata := none
    displayedMetadata := none
    queuedGeneration := none
    redrawRequested := false
    active :=
      match scheduler.active with
      | some active => if active.phase = .ready then none else some active
      | none => none }

end FramePresentationScheduler

end Pinecone
