import Pinecone.GuestMemoryWrites
import Pinecone.Runs

/-! The exclusive monitor: load- and store-exclusives by generation, and the system of
vCPUs and devices that share one guest memory. Each operation is one step. -/

namespace Pinecone

/-- The elements of an exclusive access, in order. -/
abbrev Location := List GuestMemorySpan

namespace Location

def Covers (location : Location) (byte : ℕ) : Prop := ∃ span ∈ location, span.Contains byte

instance (location : Location) (byte : ℕ) : Decidable (location.Covers byte) :=
  inferInstanceAs (Decidable (∃ span ∈ location, span.Contains byte))

def single (offset width : ℕ) : Location := [⟨offset, width⟩]

def pair (first second width : ℕ) : Location := [⟨first, width⟩, ⟨second, width⟩]

end Location

/-- The status of a store-exclusive: no such location, lost reservation, stored. -/
inductive ExclusiveStatus
  | invalid
  | conflict
  | stored
  deriving DecidableEq

namespace GuestMemory

/-- `avz_guest_memory_valid_exclusive_range`. -/
def ValidExclusiveRange (memory : GuestMemory) (offset width elementCount : ℕ) : Prop :=
  fastWidthSupported width = true ∧ offset ≤ memory.size ∧
    width * elementCount ≤ memory.size - offset

instance (memory : GuestMemory) (offset width elementCount : ℕ) :
    Decidable (memory.ValidExclusiveRange offset width elementCount) :=
  inferInstanceAs (Decidable (_ ∧ _ ∧ _))

/-- The memory after the load, the value and the generation. -/
def exclusiveRead (memory : GuestMemory) (offset width : ℕ) : Option (GuestMemory × U64 × U64) :=
  if memory.ValidExclusiveRange offset width 1 then
    let observed := memory.noteExclusiveObservation offset width
    some (observed, observed.loadValue offset width, observed.exclusiveWriteGeneration offset width)
  else none

def exclusiveReadPair (memory : GuestMemory) (offset width : ℕ) :
    Option (GuestMemory × (U64 × U64) × U64) :=
  if memory.ValidExclusiveRange offset width 2 then
    let observed := memory.noteExclusiveObservation offset (width * 2)
    some (observed, (observed.loadValue offset width, observed.loadValue (offset + width) width),
      observed.exclusiveWriteGeneration offset (width * 2))
  else none

def exclusiveWrite (memory : GuestMemory) (offset width : ℕ) (value expectedGeneration : U64) :
    GuestMemory × ExclusiveStatus :=
  if memory.ValidExclusiveRange offset width 1 then
    if memory.exclusiveWriteGeneration offset width ≠ expectedGeneration then (memory, .conflict)
    else ((memory.storeValue offset width value).noteWrite offset width, .stored)
  else (memory, .invalid)

def exclusiveWritePair (memory : GuestMemory) (offset width : ℕ)
    (firstValue secondValue expectedGeneration : U64) : GuestMemory × ExclusiveStatus :=
  if memory.ValidExclusiveRange offset width 2 then
    if memory.exclusiveWriteGeneration offset (width * 2) ≠ expectedGeneration then
      (memory, .conflict)
    else (((memory.storeValue offset width firstValue).storeValue (offset + width) width
      secondValue).noteWrite offset (width * 2), .stored)
  else (memory, .invalid)

/-- The generation of a pair whose elements were translated apart. -/
def pairWriteGeneration (memory : GuestMemory) (first second width : ℕ) : U64 :=
  let firstGeneration := memory.exclusiveWriteGeneration first width
  let secondGeneration := memory.exclusiveWriteGeneration second width
  if secondGeneration < firstGeneration then firstGeneration else secondGeneration

end GuestMemory

/-- The two elements of a pair, translated one after the other. -/
def fastTranslateElements (translate : RamTranslation) (memory : GuestMemory) (virtualAddress : U64)
    (width : ℕ) : Option (ℕ × ℕ) :=
  match fastTranslate translate memory virtualAddress width,
      fastTranslate translate memory (virtualAddress + BitVec.ofNat 64 width) width with
  | some first, some second => some (first, second)
  | _, _ => none

namespace FastMemory

/-- `avz_native_fast_memory_exclusive_read`, at the translated offset. -/
def exclusiveRead (fast : FastMemory) (offset width : ℕ) : FastMemory × U64 × U64 :=
  let observed := fast.memory.noteExclusiveObservation offset width
  ({ fast with memory := observed }, observed.loadValue offset width,
    observed.exclusiveWriteGeneration offset width)

def exclusiveReadPair (fast : FastMemory) (first second width : ℕ) :
    FastMemory × (U64 × U64) × U64 :=
  let observed :=
    (fast.memory.noteExclusiveObservation first width).noteExclusiveObservation second width
  ({ fast with memory := observed }, (observed.loadValue first width, observed.loadValue second width),
    observed.pairWriteGeneration first second width)

def exclusiveWrite (fast : FastMemory) (offset width : ℕ) (value expectedGeneration : U64) :
    FastMemory × ExclusiveStatus :=
  if fast.memory.exclusiveWriteGeneration offset width ≠ expectedGeneration then (fast, .conflict)
  else ((fast.storeValue offset width value).markDirty offset width, .stored)

def exclusiveWritePair (fast : FastMemory) (first second width : ℕ)
    (firstValue secondValue expectedGeneration : U64) : FastMemory × ExclusiveStatus :=
  if fast.memory.pairWriteGeneration first second width ≠ expectedGeneration then (fast, .conflict)
  else
    ((((fast.storeValue first width firstValue).storeValue second width secondValue).markDirty first
      width).markDirty second width, .stored)

end FastMemory

/-! ## The shared system -/

/-- The operations of the vCPUs (by number), the devices and the host on the memory. A vCPU's
operation carries the translation in force when it runs. -/
inductive MonitorOp
  | exclusiveRead (offset width : ℕ)
  | exclusiveReadPair (offset width : ℕ)
  | exclusiveWrite (offset width : ℕ) (value expectedGeneration : U64)
  | exclusiveWritePair (offset width : ℕ) (firstValue secondValue expectedGeneration : U64)
  | fastExclusiveRead (cpu : ℕ) (translate : RamTranslation) (virtualAddress : U64) (width : ℕ)
  | fastExclusiveReadPair (cpu : ℕ) (translate : RamTranslation) (virtualAddress : U64) (width : ℕ)
  | fastExclusiveWrite (cpu : ℕ) (translate : RamTranslation) (virtualAddress : U64) (width : ℕ)
      (value expectedGeneration : U64)
  | fastExclusiveWritePair (cpu : ℕ) (translate : RamTranslation) (virtualAddress : U64) (width : ℕ)
      (firstValue secondValue expectedGeneration : U64)
  | fastWrite (cpu : ℕ) (translate : RamTranslation) (virtualAddress : U64) (width : ℕ) (value : U64)
  | fastWritePair (cpu : ℕ) (translate : RamTranslation) (hotSpan : Bool) (virtualAddress : U64)
      (width : ℕ) (firstValue secondValue : U64)
  | fastWriteHot (cpu : ℕ) (translate : RamTranslation) (virtualAddress : U64) (width : ℕ)
      (value : U64)
  | fastWriteBytes (cpu : ℕ) (translate : RamTranslation) (virtualAddress : U64)
      (source : List (BitVec 8))
  | fastFill (cpu : ℕ) (translate : RamTranslation) (virtualAddress : U64) (byteCount : ℕ)
      (pattern : U64) (patternWidth : ℕ)
  | fastMappedWrite (cpu : ℕ) (translate : RamTranslation) (virtualAddress : U64)
      (source : List (BitVec 8))
  | dmaWriteOwned (offset : ℕ) (data : List (BitVec 8))
  | dmaWriteRectOwned (rect : DmaRect)
  | hostWrite (offset : ℕ) (data : List (BitVec 8))
  | deviceWrite (offset : ℕ) (data : List (BitVec 8))
  | storeU16Release (offset : ℕ) (value : U64)
  | noteHostObservation (offset byteCount : ℕ)
  | noteBulkRead (offset byteCount : ℕ)
  | clearHostObservations
  | markCodePage (offset : ℕ)
  | advanceDirtyEpoch

/-- What an operation did, as the claims about the monitor see it. -/
inductive MonitorEntry
  | loadExclusive (location : Location) (generation : U64)
  | storeExclusive (location : Location) (expectedGeneration : U64) (status : ExclusiveStatus)
  | wrote (location : Location)
  deriving DecidableEq

namespace MonitorEntry

/-- The bytes that an operation wrote. -/
def written : MonitorEntry → Location
  | .wrote location => location
  | .storeExclusive location _ .stored => location
  | _ => []

def Touches (entry : MonitorEntry) (byte : ℕ) : Prop := entry.written.Covers byte

instance (entry : MonitorEntry) (byte : ℕ) : Decidable (entry.Touches byte) :=
  inferInstanceAs (Decidable (Location.Covers _ _))

end MonitorEntry

/-- The guest memory and every vCPU's dirty-page cache. -/
structure SharedMemory where
  memory : GuestMemory
  dirtyHot : ℕ → ℕ → DirtyHotEntry

namespace SharedMemory

def fast (shared : SharedMemory) (cpu : ℕ) : FastMemory := ⟨shared.memory, shared.dirtyHot cpu⟩

def setFast (shared : SharedMemory) (cpu : ℕ) (fast : FastMemory) : SharedMemory :=
  ⟨fast.memory, Function.update shared.dirtyHot cpu fast.dirtyHot⟩

def setMemory (shared : SharedMemory) (memory : GuestMemory) : SharedMemory :=
  { shared with memory := memory }

def spansWritten (spans : List WriteSpan) : Location :=
  spans.map (fun span => ⟨span.offset, span.byteCount⟩)

/-- `avz_native_fast_memory_try_write_hot` once its hot entry is hit: it declines an observed
page and a store that is not naturally aligned. -/
def tryWriteHot (shared : SharedMemory) (cpu : ℕ) (translate : RamTranslation) (virtualAddress : U64)
    (width : ℕ) (value : U64) : SharedMemory × List MonitorEntry :=
  match fastTranslate translate shared.memory virtualAddress width with
  | some offset =>
    let page := GuestMemory.firstPage offset
    if shared.memory.pageObservationFlags page ≠ 0#8 ∨ offset % width ≠ 0 then (shared, [])
    else
      (shared.setFast cpu (((shared.fast cpu).storeValue offset width value).commitUnobservedWriteHot
        page offset width), [.wrote (.single offset width)])
  | none => (shared, [])

/-- `avz_native_fast_memory_map_span`, the stores through the pointer it returns, and
`avz_native_fast_memory_commit_write_span`. -/
def mappedWrite (shared : SharedMemory) (cpu : ℕ) (translate : RamTranslation) (virtualAddress : U64)
    (source : List (BitVec 8)) : SharedMemory × List MonitorEntry :=
  if source.length = 0 ∨ 64 < source.length ∨
      fastPageSize - virtualAddress.toNat % fastPageSize < source.length then (shared, [])
  else
    match fastTranslate translate shared.memory virtualAddress 1 with
    | some offset =>
      if shared.memory.size < offset ∨ shared.memory.size - offset < source.length then (shared, [])
      else
        let observed := shared.memory.noteHostObservation offset source.length
        (shared.setFast cpu ((FastMemory.writeBytes ⟨observed, shared.dirtyHot cpu⟩ offset
          source).markDirty offset source.length), [.wrote (.single offset source.length)])
    | none => (shared, [])

def writeSpans (shared : SharedMemory) (cpu : ℕ) (data : ℕ → ℕ → List (BitVec 8)) :
    Option (List WriteSpan) → SharedMemory × List MonitorEntry
  | some spans =>
    (shared.setFast cpu (FastMemory.writeSpans data (shared.fast cpu) spans),
      [.wrote (spansWritten spans)])
  | none => (shared, [])

/-- The write of a range that the memory has, and nothing outside it. -/
def writeRange (shared : SharedMemory) (memory : GuestMemory) (offset byteCount : ℕ) :
    SharedMemory × List MonitorEntry :=
  if shared.memory.HasRange offset byteCount then
    (shared.setMemory memory, [.wrote (.single offset byteCount)])
  else (shared, [])

def step (shared : SharedMemory) : MonitorOp → SharedMemory × List MonitorEntry
  | .exclusiveRead offset width =>
    match shared.memory.exclusiveRead offset width with
    | some (memory, _, generation) =>
      (shared.setMemory memory, [.loadExclusive (.single offset width) generation])
    | none => (shared, [])
  | .exclusiveReadPair offset width =>
    match shared.memory.exclusiveReadPair offset width with
    | some (memory, _, generation) =>
      (shared.setMemory memory, [.loadExclusive (.pair offset (offset + width) width) generation])
    | none => (shared, [])
  | .exclusiveWrite offset width value expected =>
    let (memory, status) := shared.memory.exclusiveWrite offset width value expected
    (shared.setMemory memory, [.storeExclusive (.single offset width) expected status])
  | .exclusiveWritePair offset width firstValue secondValue expected =>
    let (memory, status) :=
      shared.memory.exclusiveWritePair offset width firstValue secondValue expected
    (shared.setMemory memory,
      [.storeExclusive (.pair offset (offset + width) width) expected status])
  | .fastExclusiveRead cpu translate virtualAddress width =>
    match fastTranslate translate shared.memory virtualAddress width with
    | some offset =>
      let (fast, _, generation) := (shared.fast cpu).exclusiveRead offset width
      (shared.setFast cpu fast, [.loadExclusive (.single offset width) generation])
    | none => (shared, [])
  | .fastExclusiveReadPair cpu translate virtualAddress width =>
    match fastTranslateElements translate shared.memory virtualAddress width with
    | some (first, second) =>
      let (fast, _, generation) := (shared.fast cpu).exclusiveReadPair first second width
      (shared.setFast cpu fast, [.loadExclusive (.pair first second width) generation])
    | none => (shared, [])
  | .fastExclusiveWrite cpu translate virtualAddress width value expected =>
    match fastTranslate translate shared.memory virtualAddress width with
    | some offset =>
      let (fast, status) := (shared.fast cpu).exclusiveWrite offset width value expected
      (shared.setFast cpu fast, [.storeExclusive (.single offset width) expected status])
    | none => (shared, [.storeExclusive [] expected .invalid])
  | .fastExclusiveWritePair cpu translate virtualAddress width firstValue secondValue expected =>
    match fastTranslateElements translate shared.memory virtualAddress width with
    | some (first, second) =>
      let (fast, status) :=
        (shared.fast cpu).exclusiveWritePair first second width firstValue secondValue expected
      (shared.setFast cpu fast, [.storeExclusive (.pair first second width) expected status])
    | none => (shared, [.storeExclusive [] expected .invalid])
  | .fastWrite cpu translate virtualAddress width value =>
    match fastTranslate translate shared.memory virtualAddress width with
    | some offset =>
      (shared.setFast cpu ((shared.fast cpu).store offset width value),
        [.wrote (.single offset width)])
    | none => (shared, [])
  | .fastWritePair cpu translate hotSpan virtualAddress width firstValue secondValue =>
    match fastTranslatePair translate shared.memory hotSpan virtualAddress width with
    | some (first, second) =>
      (shared.setFast cpu ((shared.fast cpu).storePair first second width firstValue secondValue),
        [.wrote (.pair first second width)])
    | none => (shared, [])
  | .fastWriteHot cpu translate virtualAddress width value =>
    shared.tryWriteHot cpu translate virtualAddress width value
  | .fastWriteBytes cpu translate virtualAddress source =>
    shared.writeSpans cpu (fun sourceOffset byteCount => (source.drop sourceOffset).take byteCount)
      (writeBytesSpans translate shared.memory virtualAddress source.length)
  | .fastFill cpu translate virtualAddress byteCount pattern patternWidth =>
    shared.writeSpans cpu (fillData pattern patternWidth)
      (fillSpans translate shared.memory virtualAddress byteCount patternWidth)
  | .fastMappedWrite cpu translate virtualAddress source =>
    shared.mappedWrite cpu translate virtualAddress source
  | .dmaWriteOwned offset data =>
    shared.writeRange (shared.memory.dmaWriteOwned offset data) offset data.length
  | .dmaWriteRectOwned rect =>
    if rect.Accepted shared.memory then
      (shared.setMemory (shared.memory.dmaWriteRectOwned rect),
        [.wrote (rect.chunks.1.map (fun chunk => ⟨chunk.guestOffset, chunk.byteCount⟩))])
    else (shared, [])
  | .hostWrite offset data =>
    shared.writeRange (shared.memory.hostWrite offset data) offset data.length
  | .deviceWrite offset data =>
    shared.writeRange (shared.memory.deviceWrite offset data) offset data.length
  | .storeU16Release offset value =>
    if offset % 2 = 0 then shared.writeRange (shared.memory.storeU16Release offset value) offset 2
    else (shared, [])
  | .noteHostObservation offset byteCount =>
    (shared.setMemory (shared.memory.noteHostObservation offset byteCount), [])
  | .noteBulkRead offset byteCount =>
    (shared.setMemory (shared.memory.noteBulkRead offset byteCount), [])
  | .clearHostObservations => (shared.setMemory shared.memory.clearHostObservations, [])
  | .markCodePage offset => (shared.setMemory (shared.memory.markCodePage offset), [])
  | .advanceDirtyEpoch => (shared.setMemory shared.memory.advanceDirtyEpoch, [])

end SharedMemory

/-- The bulk routines translate the first byte of a piece only; the piece they write
lies in the memory when this holds. -/
def SpansInMemory (memory : GuestMemory) : Option (List WriteSpan) → Prop
  | some spans => ∀ span ∈ spans, span.offset + span.byteCount ≤ memory.size
  | none => True

/-- The condition on an operation under which every byte it writes is noted. -/
def BulkInMemory (shared : SharedMemory) : MonitorOp → Prop
  | .fastWriteBytes _ translate virtualAddress source =>
    SpansInMemory shared.memory
      (writeBytesSpans translate shared.memory virtualAddress source.length)
  | .fastFill _ translate virtualAddress byteCount _ patternWidth =>
    SpansInMemory shared.memory
      (fillSpans translate shared.memory virtualAddress byteCount patternWidth)
  | _ => True

/-- All interleavings of the operations that `Allowed` lets run, from a new memory and
new fast paths. -/
def monitorSystem (Allowed : SharedMemory → MonitorOp → Prop) :
    LoggedSystem SharedMemory MonitorOp MonitorEntry where
  initial shared := (∃ size, GuestMemory.create size = some shared.memory) ∧
    ∀ cpu slot, shared.dirtyHot cpu slot = ⟨0, 0#64, false⟩
  step shared op shared' new := Allowed shared op ∧ shared.step op = (shared', new)

end Pinecone
