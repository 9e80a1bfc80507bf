import Mathlib.Data.BitVec
import Pinecone.Runs

/-! The touch queue between the host's view and the guest's touch device. Times are nanoseconds. -/

namespace Pinecone

inductive TouchPhase
  | down
  | move
  | up
  | cancel
  deriving DecidableEq

def TouchPhase.isDown : TouchPhase → Bool
  | .down | .move => true
  | .up | .cancel => false

structure TouchTraceIdentity where
  epoch : ℕ
  sequence : ℕ
  deriving DecidableEq

structure TouchQueueTraceDisposition where
  identity : TouchTraceIdentity
  reason : String
  deriving DecidableEq

structure TimestampedTouchEvent where
  x : BitVec 32
  y : BitVec 32
  isDown : Bool
  timestampNanoseconds : Option ℕ
  phase : Option TouchPhase
  traceIdentity : Option TouchTraceIdentity
  deriving DecidableEq

/-- `TouchMotionQueue.Entry`. -/
structure TouchEntry where
  event : TimestampedTouchEvent
  finalMove : Bool
  deriving DecidableEq

namespace TouchEntry

def isMove (entry : TouchEntry) : Bool := entry.event.phase = some .move

/-- Ordinary motion, which `makeRoom` may drop. -/
def evictable (entry : TouchEntry) : Bool := entry.isMove && !entry.finalMove

end TouchEntry

structure TouchMotionQueue where
  capacity : ℕ
  maximumPendingMotionSamplesPerGesture : Option ℕ
  four_le : 4 ≤ capacity
  two_le : ∀ limit ∈ maximumPendingMotionSamplesPerGesture, 2 ≤ limit
  entries : List TouchEntry
  active : Bool
  rejectingContact : Bool
  lastPoint : Option (BitVec 32 × BitVec 32)
  lastTimestamp : ℕ
  discardedMotionCount : ℕ
  rejectedGestureCount : ℕ
  traceDispositions : List TouchQueueTraceDisposition

namespace TouchMotionQueue

variable (q : TouchMotionQueue)

def count : ℕ := q.entries.length

def noteDisposition (event : TimestampedTouchEvent) (reason : String) : TouchMotionQueue :=
  match event.traceIdentity with
  | none => q
  | some identity =>
    let kept := if q.traceDispositions.length = q.capacity then q.traceDispositions.drop 1
      else q.traceDispositions
    { q with traceDispositions := kept ++ [⟨identity, reason⟩] }

/-- The first ordinary motion of `entries` is dropped. -/
def evict (entry : TouchEntry) : TouchMotionQueue :=
  let noted := q.noteDisposition entry.event "droppedMotion"
  { noted with
    entries := noted.entries.eraseP TouchEntry.evictable
    discardedMotionCount := noted.discardedMotionCount + 1 }

/-- The loop of `makeRoom`. Each turn drops an entry. -/
def makeRoomLoop (limit : ℕ) : ℕ → TouchMotionQueue → TouchMotionQueue
  | 0, q => q
  | turns + 1, q =>
    if limit < q.count then
      match q.entries.find? TouchEntry.evictable with
      | none => q
      | some entry => makeRoomLoop limit turns (q.evict entry)
    else q

def makeRoom (limit : ℕ) : TouchMotionQueue := makeRoomLoop limit q.count q

/-- `entries.lastIndex { $0.event.phase != .move }`. -/
def lastEdge : Option ℕ :=
  (q.entries.reverse.findIdx? fun entry => !entry.isMove).map fun index => q.count - 1 - index

def compactPendingMotionHistory : TouchMotionQueue :=
  match q.maximumPendingMotionSamplesPerGesture with
  | none => q
  | some limit =>
    let start := (q.lastEdge.map (· + 1)).getD 0
    let excess := q.count - start - limit
    if excess = 0 then q
    else
      let noted := ((q.entries.drop start).take excess).foldl
        (fun q entry => q.noteDisposition entry.event "coalesced") q
      { noted with
        entries := noted.entries.take start ++ noted.entries.drop (start + excess)
        discardedMotionCount := noted.discardedMotionCount + excess }

/-- The phase that `enqueue` takes an event for. -/
def phaseOf (event : TimestampedTouchEvent) : TouchPhase :=
  event.phase.getD (if event.isDown then if q.active then .move else .down else .up)

def timestampOf (event : TimestampedTouchEvent) (nowNanoseconds : ℕ) : ℕ :=
  max q.lastTimestamp (min (event.timestampNanoseconds.getD nowNanoseconds) nowNanoseconds)

def sampleOf (event : TimestampedTouchEvent) (phase : TouchPhase) (timestamp : ℕ) :
    TimestampedTouchEvent :=
  ⟨event.x, event.y, phase.isDown, some timestamp, some phase, event.traceIdentity⟩

/-- The move to the point of a release. -/
def finalMoveOf (event : TimestampedTouchEvent) (timestamp : ℕ) : TimestampedTouchEvent :=
  ⟨event.x, event.y, true, some timestamp, some .move, none⟩

/-- The motion that ends at the point of the release is kept for good. -/
def protectLast (entries : List TouchEntry) : List TouchEntry :=
  match entries.getLast? with
  | some last =>
    if last.isMove then entries.dropLast ++ [{ last with finalMove := true }] else entries
  | none => entries

/-- The branch of a release: its final move, if it has moved, and the end of the contact. -/
def endContact (event : TimestampedTouchEvent) (timestamp : ℕ) : TouchMotionQueue :=
  { q with
    entries := if q.lastPoint ≠ some (event.x, event.y) then
        q.entries ++ [⟨finalMoveOf event timestamp, true⟩]
      else protectLast q.entries
    active := false
    lastPoint := none }

/-- The second half of `enqueue`, for an event that is accepted. -/
def accept (event : TimestampedTouchEvent) (phase : TouchPhase) (nowNanoseconds : ℕ) :
    TouchMotionQueue :=
  let timestamp := q.timestampOf event nowNanoseconds
  let timed := { q with lastTimestamp := timestamp }
  let placed := if phase.isDown then { timed with lastPoint := some (event.x, event.y) }
    else timed.endContact event timestamp
  let appended := { placed with
    entries := placed.entries ++ [⟨sampleOf event phase timestamp, false⟩] }
  if phase = .move then appended.compactPendingMotionHistory else appended

def refuse (event : TimestampedTouchEvent) : TouchMotionQueue × Bool :=
  (q.noteDisposition event "rejected", false)

def enqueue (event : TimestampedTouchEvent) (nowNanoseconds : ℕ) : TouchMotionQueue × Bool :=
  if event.phase.any (·.isDown != event.isDown) then q.refuse event
  else
    let phase := q.phaseOf event
    if q.rejectingContact then
      (if event.isDown then q else { q with rejectingContact := false }).refuse event
    else
      match phase with
      | .down =>
        if q.active then q.refuse event
        else
          let roomy := q.makeRoom (q.capacity - 3)
          if roomy.capacity - 3 < roomy.count then
            TouchMotionQueue.refuse { roomy with
              rejectingContact := true
              rejectedGestureCount := roomy.rejectedGestureCount + 1 } event
          else (TouchMotionQueue.accept { roomy with active := true } event phase nowNanoseconds, true)
      | .move =>
        if q.active then
          let roomy := q.makeRoom (q.capacity - 3)
          if roomy.capacity - 3 < roomy.count then roomy.refuse event
          else (roomy.accept event phase nowNanoseconds, true)
        else q.refuse event
      | .up | .cancel =>
        if q.active then (q.accept event phase nowNanoseconds, true) else q.refuse event

def drainTraceDispositions : TouchMotionQueue × List TouchQueueTraceDisposition :=
  ({ q with traceDispositions := [] }, q.traceDispositions)

def popFirst : TouchMotionQueue × Option TimestampedTouchEvent :=
  match q.entries with
  | [] => (q, none)
  | entry :: rest => ({ q with entries := rest }, some entry.event)

def drain (maxCount : ℤ) : TouchMotionQueue × List TimestampedTouchEvent :=
  let amount := min q.count (max 0 maxCount).toNat
  ({ q with entries := q.entries.drop amount }, (q.entries.take amount).map TouchEntry.event)

end TouchMotionQueue

/-! ## Runs -/

inductive TouchOp
  | enqueue (event : TimestampedTouchEvent) (nowNanoseconds : ℕ)
  | popFirst
  | drain (maxCount : ℤ)
  | drainTraceDispositions

/-- What a call did: an event accepted as a phase with the samples queued for it, an event refused
(and with it its contact, for want of room), or a sample delivered. -/
inductive TouchLogEntry
  | accepted (event : TimestampedTouchEvent) (phase : TouchPhase)
      (samples : List TimestampedTouchEvent)
  | refused (event : TimestampedTouchEvent) (rejectsContact : Bool)
  | delivered (sample : TimestampedTouchEvent)

namespace TouchMotionQueue

variable (q : TouchMotionQueue)

/-- The samples that an accepted event adds to the queue. -/
def samplesOf (event : TimestampedTouchEvent) (nowNanoseconds : ℕ) : List TimestampedTouchEvent :=
  let timestamp := q.timestampOf event nowNanoseconds
  let sample := sampleOf event (q.phaseOf event) timestamp
  if (q.phaseOf event).isDown = false ∧ q.lastPoint ≠ some (event.x, event.y) then
    [finalMoveOf event timestamp, sample]
  else [sample]

def step : TouchOp → TouchMotionQueue × List TouchLogEntry
  | .enqueue event nowNanoseconds =>
    let outcome := q.enqueue event nowNanoseconds
    (outcome.1,
      if outcome.2 then [.accepted event (q.phaseOf event) (q.samplesOf event nowNanoseconds)]
      else [.refused event (outcome.1.rejectingContact && !q.rejectingContact)])
  | .popFirst => (q.popFirst.1, (q.popFirst.2.map TouchLogEntry.delivered).toList)
  | .drain maxCount =>
    ((q.drain maxCount).1, ((q.drain maxCount).2.map TouchLogEntry.delivered).reverse)
  | .drainTraceDispositions => (q.drainTraceDispositions.1, [])

/-- `TouchMotionQueue.init`. -/
structure Initial : Prop where
  entries : q.entries = []
  active : q.active = false
  rejectingContact : q.rejectingContact = false
  lastPoint : q.lastPoint = none
  lastTimestamp : q.lastTimestamp = 0
  discardedMotionCount : q.discardedMotionCount = 0
  rejectedGestureCount : q.rejectedGestureCount = 0
  traceDispositions : q.traceDispositions = []

end TouchMotionQueue

def touchSystem : LoggedSystem TouchMotionQueue TouchOp TouchLogEntry where
  initial := TouchMotionQueue.Initial
  step q op q' new := q.step op = (q', new)

end Pinecone
