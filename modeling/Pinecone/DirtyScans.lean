import Pinecone.DirtyMarks
import Pinecone.DirtyRanges
import Pinecone.EpochLog

/-! Guest memories with their fast paths and the observers that scan them for dirty pages. -/

namespace Pinecone

namespace MonitorOp

/-- The fast path through which an operation goes. -/
def path : MonitorOp → Option ℕ
  | .fastExclusiveRead cpu _ _ _ | .fastExclusiveReadPair cpu _ _ _
  | .fastExclusiveWrite cpu _ _ _ _ _ | .fastExclusiveWritePair cpu _ _ _ _ _ _
  | .fastWrite cpu _ _ _ _ | .fastWritePair cpu _ _ _ _ _ _ | .fastWriteHot cpu _ _ _ _
  | .fastWriteBytes cpu _ _ _ | .fastFill cpu _ _ _ _ _ | .fastMappedWrite cpu _ _ _ => some cpu
  | .exclusiveRead _ _ | .exclusiveReadPair _ _ | .exclusiveWrite _ _ _ _
  | .exclusiveWritePair _ _ _ _ _ | .dmaWriteOwned _ _ | .dmaWriteRectOwned _ | .hostWrite _ _
  | .deviceWrite _ _ | .storeU16Release _ _ | .noteHostObservation _ _ | .noteBulkRead _ _
  | .clearHostObservations | .markCodePage _ | .advanceDirtyEpoch => none

/-- The writes of devices, which do not count as the guest's. -/
def byDevice : MonitorOp → Bool
  | .dmaWriteOwned _ _ | .dmaWriteRectOwned _ | .deviceWrite _ _ => true
  | .exclusiveRead _ _ | .exclusiveReadPair _ _ | .exclusiveWrite _ _ _ _
  | .exclusiveWritePair _ _ _ _ _ | .fastExclusiveRead _ _ _ _ | .fastExclusiveReadPair _ _ _ _
  | .fastExclusiveWrite _ _ _ _ _ _ | .fastExclusiveWritePair _ _ _ _ _ _ _ | .fastWrite _ _ _ _ _
  | .fastWritePair _ _ _ _ _ _ _ | .fastWriteHot _ _ _ _ _ | .fastWriteBytes _ _ _ _
  | .fastFill _ _ _ _ _ _ | .fastMappedWrite _ _ _ _ | .hostWrite _ _ | .storeU16Release _ _
  | .noteHostObservation _ _ | .noteBulkRead _ _ | .clearHostObservations | .markCodePage _
  | .advanceDirtyEpoch => false

def advances : MonitorOp → Bool
  | .advanceDirtyEpoch => true
  | .exclusiveRead _ _ | .exclusiveReadPair _ _ | .exclusiveWrite _ _ _ _
  | .exclusiveWritePair _ _ _ _ _ | .fastExclusiveRead _ _ _ _ | .fastExclusiveReadPair _ _ _ _
  | .fastExclusiveWrite _ _ _ _ _ _ | .fastExclusiveWritePair _ _ _ _ _ _ _ | .fastWrite _ _ _ _ _
  | .fastWritePair _ _ _ _ _ _ _ | .fastWriteHot _ _ _ _ _ | .fastWriteBytes _ _ _ _
  | .fastFill _ _ _ _ _ _ | .fastMappedWrite _ _ _ _ | .dmaWriteOwned _ _ | .dmaWriteRectOwned _
  | .hostWrite _ _ | .deviceWrite _ _ | .storeU16Release _ _ | .noteHostObservation _ _
  | .noteBulkRead _ _ | .clearHostObservations | .markCodePage _ => false

end MonitorOp

/-- What an observer scans, and how many ranges it has room for. -/
structure DirtyWindow (Memory : Type*) where
  memory : Memory
  offset : ℕ
  byteCount : ℕ
  rangeCapacity : ℕ

structure DirtyMachine (Memory Observer : Type*) where
  size : Memory → ℕ
  ramSize : ℕ → ℕ
  window : Observer → DirtyWindow Memory

/-- `ram` is the guest memory whose bytes a fast path uses, `throughEpoch` the epoch that the
scan in progress completed. -/
structure DirtyState (Memory Observer : Type*) where
  memory : Memory → GuestMemory
  ram : ℕ → Option Memory
  guestMemory : ℕ → Option Memory
  dirtyHot : ℕ → ℕ → DirtyHotEntry
  throughEpoch : Observer → Option U64
  reportedEpoch : Observer → U64

inductive DirtyOp (Memory Observer : Type*)
  | access (memory : Memory) (op : MonitorOp)
  | setRam (path : ℕ) (ram : Option Memory)
  | setGuestMemory (path : ℕ) (memory : Memory)
  | beginScan (observer : Observer)
  | report (observer : Observer)

inductive DirtyEntry (Memory Observer : Type*)
  | wrote (memory : Memory) (byDevice : Bool) (location : Location)
  | advanced (memory : Memory)
  | began (observer : Observer)
  | reported (observer : Observer) (ranges : List GuestDirtyRange)
  deriving DecidableEq

namespace DirtyMachine

variable {Memory Observer : Type*} [DecidableEq Memory] [DecidableEq Observer]
  (machine : DirtyMachine Memory Observer)

def shared (s : DirtyState Memory Observer) (memory : Memory) : SharedMemory :=
  ⟨s.memory memory, s.dirtyHot⟩

/-- The log of an access. -/
def accessEntries (memory : Memory) (op : MonitorOp) (entries : List MonitorEntry) :
    List (DirtyEntry Memory Observer) :=
  if op.advances = true then [.advanced memory]
  else entries.map fun entry => .wrote memory op.byDevice entry.written

/-- A fast path writes through the guest memory it is bound to. A scan is
`avz_guest_memory_advance_dirty_epoch`, then `avz_guest_memory_dirty_ranges` after the
observer's last reported epoch. -/
def step (s : DirtyState Memory Observer) :
    DirtyOp Memory Observer → Option (DirtyState Memory Observer × List (DirtyEntry Memory Observer))
  | .access memory op =>
    if ∀ path ∈ op.path, s.guestMemory path = some memory then
      let (shared, entries) := (shared s memory).step op
      some ({ s with
        memory := Function.update s.memory memory shared.memory
        dirtyHot := shared.dirtyHot }, accessEntries memory op entries)
    else none
  | .setRam path ram =>
    some ({ s with
      ram := Function.update s.ram path ram
      guestMemory := Function.update s.guestMemory path
        (if s.guestMemory path = ram then ram else none) }, [])
  | .setGuestMemory path memory =>
    if s.ram path = some memory ∧ (s.memory memory).size = machine.ramSize path then
      some ({ s with guestMemory := Function.update s.guestMemory path (some memory) }, [])
    else some (s, [])
  | .beginScan observer =>
    match s.throughEpoch observer with
    | some _ => none
    | none =>
      let memory := (machine.window observer).memory
      some ({ s with
        memory := Function.update s.memory memory (s.memory memory).advanceDirtyEpoch
        throughEpoch := Function.update s.throughEpoch observer
          (some (s.memory memory).currentEpoch) }, [.began observer])
  | .report observer =>
    match s.throughEpoch observer with
    | none => none
    | some through =>
      let window := machine.window observer
      some ({ s with
        throughEpoch := Function.update s.throughEpoch observer none
        reportedEpoch := Function.update s.reportedEpoch observer through },
        [.reported observer ((s.memory window.memory).dirtyRanges window.offset window.byteCount
          (s.reportedEpoch observer) through window.rangeCapacity)])

/-- All interleavings in which `Allowed` steps run, from new memories and fast paths. -/
def system (Allowed : DirtyState Memory Observer → DirtyOp Memory Observer → Prop) :
    LoggedSystem (DirtyState Memory Observer) (DirtyOp Memory Observer)
      (DirtyEntry Memory Observer) where
  initial s := (∀ memory, GuestMemory.create (machine.size memory) = some (s.memory memory)) ∧
    (∀ path, s.guestMemory path = none) ∧ (∀ path slot, s.dirtyHot path slot = ⟨0, 0#64, false⟩) ∧
    (∀ observer, s.throughEpoch observer = none) ∧ ∀ observer, s.reportedEpoch observer = 0#64
  step s op s' new := Allowed s op ∧ machine.step s op = some (s', new)

/-- The bulk routines stay inside the memory, and a fast path is bound to a memory about whose
pages its cache is right. -/
def Tracked (s : DirtyState Memory Observer) : DirtyOp Memory Observer → Prop
  | .access memory op => BulkInMemory (shared s memory) op
  | .setGuestMemory path memory => HotAgrees (s.memory memory) (s.dirtyHot path)
  | .setRam _ _ | .beginScan _ | .report _ => True

/-! ## No page is lost -/

/-- The entry advances the dirty epoch of `memory`. -/
def Advances (memory : Memory) : DirtyEntry Memory Observer → Prop
  | .advanced other => other = memory
  | .began observer => (machine.window observer).memory = memory
  | .wrote _ _ _ | .reported _ _ => False

instance (memory : Memory) : DecidablePred (machine.Advances memory)
  | .advanced _ | .began _ => inferInstanceAs (Decidable (_ = _))
  | .wrote _ _ _ | .reported _ _ => isFalse fun h => h

/-- The entry writes a page of `memory`; `devices` says whether a device's write counts. -/
def Writes (devices : Bool) (memory : Memory) : DirtyEntry Memory Observer → ℕ → Prop
  | .wrote other byDevice location, page => other = memory ∧ (byDevice = true → devices = true) ∧
    ∃ span ∈ location, span.byteCount ≠ 0 ∧ GuestMemory.firstPage span.offset ≤ page ∧
      page ≤ GuestMemory.lastPage span.offset span.byteCount
  | .advanced _, _ | .began _, _ | .reported _ _, _ => False

instance (devices : Bool) (memory : Memory) :
    (entry : DirtyEntry Memory Observer) → (page : ℕ) → Decidable (Writes devices memory entry page)
  | .wrote _ _ _, _ => inferInstanceAs (Decidable (_ ∧ _ ∧ _))
  | .advanced _, _ | .began _, _ | .reported _ _, _ => isFalse fun h => h

/-- The ranges cover all that the observer's window has of a page. -/
def CoversPage (observer : Observer) (ranges : List GuestDirtyRange) (page : ℕ) : Prop :=
  ∀ byte, (machine.window observer).offset ≤ byte →
    byte < (machine.window observer).offset + (machine.window observer).byteCount →
    byte / fastPageSize = page → ∃ range ∈ ranges, range.Contains byte

/-- A scan that both began and reported in `log` covers the page. -/
def ReportedIn (observer : Observer) (page : ℕ) (log : List (DirtyEntry Memory Observer)) : Prop :=
  ∃ later ranges between earlier,
    log = later ++ .reported observer ranges :: (between ++ .began observer :: earlier) ∧
      machine.CoversPage observer ranges page

/-- The observer's request is one that `avz_guest_memory_dirty_ranges` accepts. -/
def ValidWindow (observer : Observer) : Prop :=
  0 < (machine.window observer).rangeCapacity ∧ (machine.window observer).byteCount ≠ 0 ∧
    (machine.window observer).offset + (machine.window observer).byteCount ≤
      machine.size (machine.window observer).memory

instance (observer : Observer) : Decidable (machine.ValidWindow observer) :=
  inferInstanceAs (Decidable (_ ∧ _ ∧ _))

/-- Nothing of the observer's scans in `between`. -/
def ScanBetween (observer : Observer) (between : List (DirtyEntry Memory Observer)) : Prop :=
  ∀ entry ∈ between, entry ≠ .began observer ∧ ∀ ranges, entry ≠ .reported observer ranges

/-- Each scan that starts after a write covers the page, unless the page is written again during
the scan or an earlier scan after the write covered it. -/
def NoLostPage (devices : Bool) (log : List (DirtyEntry Memory Observer)) : Prop :=
  ∀ later observer ranges between middle write earlier page,
    log = later ++ .reported observer ranges ::
      (between ++ .began observer :: (middle ++ write :: earlier)) →
    ScanBetween observer between → machine.ValidWindow observer →
    Writes devices (machine.window observer).memory write page →
    machine.CoversPage observer ranges page ∨
      (∃ entry ∈ between, Writes devices (machine.window observer).memory entry page) ∨
      machine.ReportedIn observer page middle

/-- What a scan in progress will report. -/
def ReportsDirty (s : DirtyState Memory Observer) : Prop :=
  ∀ observer through, s.throughEpoch observer = some through → machine.ValidWindow observer →
    ScanReports
      ((s.memory (machine.window observer).memory).dirtyBetween (s.reportedEpoch observer) through)
      (machine.window observer).offset (machine.window observer).byteCount
      (machine.window observer).rangeCapacity
      ((s.memory (machine.window observer).memory).dirtyRanges (machine.window observer).offset
        (machine.window observer).byteCount (s.reportedEpoch observer) through
        (machine.window observer).rangeCapacity)

end DirtyMachine

end Pinecone
