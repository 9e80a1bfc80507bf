import Mathlib.Data.BitVec
import Mathlib.Logic.Function.Basic
import Pinecone.GuestRam

/-! The shared guest memory: its bytes and the tables of pages and granules beside
them. Offsets are `size_t` values that the range check keeps below the memory's
size, so their sums do not wrap. -/

namespace Pinecone

def fastPageSize : ℕ := 4096

def exclusiveGranulesPerPage : ℕ := 256

/-- A run of bytes of guest memory. -/
structure GuestMemorySpan where
  offset : ℕ
  byteCount : ℕ
  deriving DecidableEq

namespace GuestMemorySpan

def Contains (span : GuestMemorySpan) (byte : ℕ) : Prop :=
  span.offset ≤ byte ∧ byte < span.offset + span.byteCount

instance (span : GuestMemorySpan) (byte : ℕ) : Decidable (span.Contains byte) :=
  inferInstanceAs (Decidable (_ ∧ _))

end GuestMemorySpan

/-- `AVZGuestMemory`, less its locks, its TLBI journal and its statistics. -/
structure GuestMemory where
  size : ℕ
  bytes : ℕ → BitVec 8
  exclusiveSlotMask : ℕ
  pageEpochs : ℕ → U64
  pageWriteGenerations : ℕ → U64
  pageExclusiveObservationEpochs : ℕ → U64
  hostPageObservations : ℕ → BitVec 8
  bulkReadPageObservations : ℕ → BitVec 8
  pageObservationFlags : ℕ → BitVec 8
  exclusiveWriteGenerations : ℕ → U64
  exclusiveObservations : ℕ → BitVec 8
  codePageBits : ℕ → Bool
  currentEpoch : U64
  currentWriteGeneration : U64
  codeMutationEpoch : U64

def observationHost : BitVec 8 := 1#8
def observationBulkReader : BitVec 8 := 2#8
def observationExclusive : BitVec 8 := 4#8

/-- The loop that stores one value at every index from `first` to `last`. -/
def storeRange {α : Type} (table : ℕ → α) (first last : ℕ) (value : α) : ℕ → α :=
  fun index => if first ≤ index ∧ index ≤ last then value else table index

def indexRange (first last : ℕ) : List ℕ := List.range' first (last + 1 - first)

theorem mem_indexRange {first last index : ℕ} :
    index ∈ indexRange first last ↔ first ≤ index ∧ index ≤ last := by
  simp only [indexRange, List.mem_range'_1]
  omega

/-- `avz_next_power_of_two`. -/
def nextPowerOfTwo (value : U64) : U64 :=
  if value ≤ 1#64 then 1#64
  else
    let smeared := [1, 2, 4, 8, 16, 32].foldl (fun value shift => value ||| value >>> shift)
      (value - 1#64)
    if smeared = BitVec.allOnes 64 then 0#64 else smeared + 1#64

namespace GuestMemory

/-- `avz_guest_memory_create`: all tables zero, all counters one. -/
def create (size : ℕ) : Option GuestMemory :=
  let pageCount := (size + (fastPageSize - 1)) / fastPageSize
  let slotCount := nextPowerOfTwo (BitVec.ofNat 64 (max (pageCount * 8) 8192))
  if size = 0 ∨ 2 ^ 64 - fastPageSize < size ∨ (2 ^ 64 - 1) / 8 < pageCount ∨ slotCount = 0#64 then
    none
  else some
    { size := size
      bytes := fun _ => 0#8
      exclusiveSlotMask := slotCount.toNat - 1
      pageEpochs := fun _ => 0#64
      pageWriteGenerations := fun _ => 0#64
      pageExclusiveObservationEpochs := fun _ => 0#64
      hostPageObservations := fun _ => 0#8
      bulkReadPageObservations := fun _ => 0#8
      pageObservationFlags := fun _ => 0#8
      exclusiveWriteGenerations := fun _ => 0#64
      exclusiveObservations := fun _ => 0#8
      codePageBits := fun _ => false
      currentEpoch := 1#64
      currentWriteGeneration := 1#64
      codeMutationEpoch := 1#64 }

/-- The range check that opens every routine on `memory`. -/
def HasRange (memory : GuestMemory) (offset byteCount : ℕ) : Prop :=
  byteCount ≠ 0 ∧ offset < memory.size ∧ byteCount ≤ memory.size - offset

instance (memory : GuestMemory) (offset byteCount : ℕ) : Decidable (memory.HasRange offset byteCount) :=
  inferInstanceAs (Decidable (_ ∧ _ ∧ _))

def firstPage (offset : ℕ) : ℕ := offset / fastPageSize

def lastPage (offset byteCount : ℕ) : ℕ := (offset + byteCount - 1) / fastPageSize

/-- `avz_guest_memory_exclusive_slot`. -/
def exclusiveSlot (memory : GuestMemory) (granule : ℕ) : ℕ :=
  let value := BitVec.ofNat 64 granule
  let value := value ^^^ (value >>> 30)
  let value := value * 0xbf58476d1ce4e5b9#64
  let value := value ^^^ (value >>> 27)
  let value := value * 0x94d049bb133111eb#64
  let value := value ^^^ (value >>> 31)
  value.toNat &&& memory.exclusiveSlotMask

/-! ## Code pages and write generations -/

/-- `avz_guest_memory_mark_code_page`, of the page that holds `offset`. -/
def markCodePage (memory : GuestMemory) (offset : ℕ) : GuestMemory :=
  if offset < memory.size then
    { memory with codePageBits := Function.update memory.codePageBits (firstPage offset) true }
  else memory

def rangeMayContainCode (memory : GuestMemory) (offset byteCount : ℕ) : Bool :=
  if memory.HasRange offset byteCount then
    (indexRange (firstPage offset) (lastPage offset byteCount)).any memory.codePageBits
  else false

def advanceCodeMutationEpoch (memory : GuestMemory) : GuestMemory :=
  let epoch := memory.codeMutationEpoch + 1#64
  { memory with codeMutationEpoch := if epoch = 0#64 then 1#64 else epoch }

/-- `avz_guest_memory_next_write_generation`: the counter after it is the
generation it returns. -/
def nextWriteGeneration (memory : GuestMemory) : GuestMemory :=
  let generation := memory.currentWriteGeneration + 1#64
  { memory with currentWriteGeneration := if generation = 0#64 then 1#64 else generation }

def notePageWriteGeneration (memory : GuestMemory) (offset byteCount : ℕ) : GuestMemory :=
  if memory.HasRange offset byteCount then
    let next := memory.nextWriteGeneration
    { next with
      pageWriteGenerations := storeRange next.pageWriteGenerations (firstPage offset)
        (lastPage offset byteCount) next.currentWriteGeneration }
  else memory

/-! ## Observers -/

def noteHostObservation (memory : GuestMemory) (offset byteCount : ℕ) : GuestMemory :=
  if memory.HasRange offset byteCount then
    { memory with
      hostPageObservations := storeRange memory.hostPageObservations (firstPage offset)
        (lastPage offset byteCount) 1#8
      pageObservationFlags := fun page =>
        if firstPage offset ≤ page ∧ page ≤ lastPage offset byteCount
        then memory.pageObservationFlags page ||| observationHost
        else memory.pageObservationFlags page }
  else memory

def noteBulkRead (memory : GuestMemory) (offset byteCount : ℕ) : GuestMemory :=
  if memory.HasRange offset byteCount then
    { memory with
      bulkReadPageObservations := storeRange memory.bulkReadPageObservations (firstPage offset)
        (lastPage offset byteCount) 1#8
      pageObservationFlags := fun page =>
        if firstPage offset ≤ page ∧ page ≤ lastPage offset byteCount
        then memory.pageObservationFlags page ||| observationBulkReader
        else memory.pageObservationFlags page }
  else memory

/-- `avz_guest_memory_clear_host_observations`: exclusive observations stay. -/
def clearHostObservations (memory : GuestMemory) : GuestMemory :=
  { memory with
    hostPageObservations := fun _ => 0#8
    bulkReadPageObservations := fun _ => 0#8
    pageObservationFlags := fun page =>
      memory.pageObservationFlags page &&& ~~~(observationHost ||| observationBulkReader) }

def firstGranule (offset : ℕ) : ℕ := offset / 16

def lastGranule (offset byteCount : ℕ) : ℕ := (offset + byteCount - 1) / 16

def noteExclusiveObservation (memory : GuestMemory) (offset byteCount : ℕ) : GuestMemory :=
  if memory.HasRange offset byteCount then
    { memory with
      pageExclusiveObservationEpochs := storeRange memory.pageExclusiveObservationEpochs
        (firstPage offset) (lastPage offset byteCount) 1#64
      pageObservationFlags := fun page =>
        if firstPage offset ≤ page ∧ page ≤ lastPage offset byteCount
        then memory.pageObservationFlags page ||| observationExclusive
        else memory.pageObservationFlags page
      exclusiveObservations :=
        (indexRange (firstGranule offset) (lastGranule offset byteCount)).foldl
          (fun observations granule =>
            Function.update observations (memory.exclusiveSlot granule) 1#8)
          memory.exclusiveObservations }
  else memory

/-- One granule of `avz_guest_memory_note_exclusive_write_generation`: the
generation is drawn at the first granule that needs one. -/
def noteGranule (noted : GuestMemory × U64) (granule : ℕ) : GuestMemory × U64 :=
  let slot := noted.1.exclusiveSlot granule
  if noted.1.exclusiveObservations slot = 0#8 then noted
  else
    let memory := if noted.2 = 0#64 then noted.1.nextWriteGeneration else noted.1
    let generation := if noted.2 = 0#64 then memory.currentWriteGeneration else noted.2
    ({ memory with
        exclusiveWriteGenerations := Function.update memory.exclusiveWriteGenerations slot generation },
      generation)

/-- The granules of `[first, last]` that lie in one page, when the page was observed. -/
def noteGranulesOfPage (first last : ℕ) (noted : GuestMemory × U64) (page : ℕ) : GuestMemory × U64 :=
  if noted.1.pageExclusiveObservationEpochs page = 0#64 then noted
  else
    let pageFirst := page * exclusiveGranulesPerPage
    let pageLast := pageFirst + exclusiveGranulesPerPage - 1
    (indexRange (max first pageFirst) (min last pageLast)).foldl noteGranule noted

def noteExclusiveWriteGeneration (memory : GuestMemory) (offset byteCount : ℕ) : GuestMemory :=
  if memory.HasRange offset byteCount then
    let first := firstGranule offset
    let last := lastGranule offset byteCount
    ((indexRange (first / exclusiveGranulesPerPage) (last / exclusiveGranulesPerPage)).foldl
      (noteGranulesOfPage first last) (memory, 0#64)).1
  else memory

/-- `avz_guest_memory_exclusive_write_generation`: the newest generation of a granule
of the range. -/
def exclusiveWriteGeneration (memory : GuestMemory) (offset byteCount : ℕ) : U64 :=
  if memory.HasRange offset byteCount then
    (indexRange (firstGranule offset) (lastGranule offset byteCount)).foldl
      (fun generation granule =>
        let candidate := memory.exclusiveWriteGenerations (memory.exclusiveSlot granule)
        if generation < candidate then candidate else generation) 0#64
  else 0#64

/-! ## Dirty pages and the notes of a write -/

def markDirty (memory : GuestMemory) (offset byteCount : ℕ) : GuestMemory :=
  if memory.HasRange offset byteCount then
    { memory with
      pageEpochs := storeRange memory.pageEpochs (firstPage offset) (lastPage offset byteCount)
        memory.currentEpoch }
  else memory

/-- What every noted write does last: code under the range was changed. -/
def noteCodeWrite (memory : GuestMemory) (touchesCode : Bool) (offset byteCount : ℕ) : GuestMemory :=
  if touchesCode then (memory.notePageWriteGeneration offset byteCount).advanceCodeMutationEpoch
  else memory

def noteWrite (memory : GuestMemory) (offset byteCount : ℕ) : GuestMemory :=
  if memory.HasRange offset byteCount then
    let touchesCode := memory.rangeMayContainCode offset byteCount
    ((memory.markDirty offset byteCount).noteExclusiveWriteGeneration offset byteCount).noteCodeWrite
      touchesCode offset byteCount
  else memory

def noteDeviceWrite (memory : GuestMemory) (offset byteCount : ℕ) : GuestMemory :=
  if memory.HasRange offset byteCount then
    let memory := memory.noteHostObservation offset byteCount
    let touchesCode := memory.rangeMayContainCode offset byteCount
    (memory.noteExclusiveWriteGeneration offset byteCount).noteCodeWrite touchesCode offset byteCount
  else memory

/-! ## Bytes -/

/-- `memcpy` into guest RAM. -/
def writeBytes (memory : GuestMemory) (offset : ℕ) (data : List (BitVec 8)) : GuestMemory :=
  { memory with
    bytes := fun byte =>
      if offset ≤ byte ∧ byte < offset + data.length then data.getD (byte - offset) 0#8
      else memory.bytes byte }

def littleEndian (width : ℕ) (value : U64) : List (BitVec 8) :=
  (List.range width).map (fun index => (value >>> (8 * index)).setWidth 8)

/-- `avz_fast_store_value`. -/
def storeValue (memory : GuestMemory) (offset width : ℕ) (value : U64) : GuestMemory :=
  memory.writeBytes offset (littleEndian width value)

/-- `avz_fast_load`. -/
def loadValue (memory : GuestMemory) (offset width : ℕ) : U64 :=
  (List.range width).foldl
    (fun value index => value ||| (memory.bytes (offset + index)).setWidth 64 <<< (8 * index)) 0#64

end GuestMemory

def pageMemory : GuestMemory := (GuestMemory.create 4096).get (by decide)

theorem create_pageMemory : GuestMemory.create 4096 = some pageMemory := (Option.some_get _).symm

/-- A memory that ends 16 bytes into its second page. -/
def partialPageMemory : GuestMemory := (GuestMemory.create 4112).get (by decide)

theorem create_partialPageMemory : GuestMemory.create 4112 = some partialPageMemory :=
  (Option.some_get _).symm

end Pinecone
