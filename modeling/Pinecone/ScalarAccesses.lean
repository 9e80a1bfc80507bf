import Pinecone.BulkAccesses
import Pinecone.TranslationLookup

/-! The scalar and the pair accesses of the memory fast path, through its translation caches, and
the inline routines that only look at a hot entry. -/

namespace Pinecone

/-- `AVZNativeMemoryFastPath`, as its scalar and pair accesses use it. The walks read the bytes of
the guest memory, whatever `cache.ram` holds. -/
structure AccessPath where
  cache : MemoryFastPath
  journal : TranslationJournal
  writes : FastWrites
  translateRam : U64 → U64 → Bool → Option U64
  translationFaultPending : Bool
  faults : List TranslationFaultReport
  physicalCallbacks : Bool

/-- What a single read comes to: a value from RAM, a read that is left to `read_physical` or to
`slow_read`, or a fault that is left pending. -/
inductive ReadAnswer
  | value (value : U64)
  | physical (physicalAddress : U64)
  | slow
  | faulted
  deriving DecidableEq

inductive WriteAnswer
  | stored
  | physical (physicalAddress : U64)
  | slow
  | faulted
  deriving DecidableEq

/-- The elements of a pair, in RAM. -/
structure PairSpan where
  firstPhysical : U64
  secondPhysical : U64
  firstHost : U64
  secondHost : U64
  deriving DecidableEq

namespace FastWrites

def storeValue (w : FastWrites) (offset width : ℕ) (value : U64) : FastWrites :=
  { w with fast := w.fast.storeValue offset width value }

/-- `avz_native_fast_memory_commit_unobserved_write_hot`. -/
def commitUnobservedWriteHot (w : FastWrites) (page offset byteCount : ℕ) : FastWrites :=
  if w.memory.codePageBits page then w.commitWriteSpan offset byteCount
  else { w with fast := FastMemory.markDirtyPage w.memory.currentEpoch w.fast page }

end FastWrites

namespace MemoryFastPath

/-- The fault that `avz_fast_translate` reports, if it comes to a walk and that fails. -/
def dataFault (fp : MemoryFastPath) (virtualAddress width : U64) (isWrite : Bool) :
    Option TranslationFaultReport :=
  let limit := fastPageOffset virtualAddress + width
  let hot := fp.dataHot isWrite (fp.hotIndex virtualAddress)
  if 4096#64 < limit ∨ fp.hotMatches hot virtualAddress limit = true ∨
      (fp.lookupWays (dataAccess isWrite) virtualAddress limit).hit.isSome ∨
      fp.nativeTranslationEnabled = false then none
  else
    match stage1Translate fp.ram fp.translationState virtualAddress (dataAccess isWrite) with
    | .ok _ => none
    | .error report => some report

end MemoryFastPath

namespace AccessPath

open MemoryFastPath

variable (p : AccessPath)

def memory : GuestMemory := p.writes.memory

/-- The caches over the bytes of the guest memory. -/
def view : MemoryFastPath :=
  { p.cache with ram := { p.cache.ram with bytes := p.memory.bytes } }

def setCache (fp : MemoryFastPath) : AccessPath :=
  { p with cache := { fp with ram := p.cache.ram } }

/-- `avz_stage1_fault`. -/
def noteFault : Option TranslationFaultReport → AccessPath
  | none => p
  | some report => { p with
      translationFaultPending := true
      faults := p.faults ++ [report] }

/-- `avz_fast_synchronize_shared_translation_epoch`. -/
def synchronize : AccessPath := p.setCache (p.view.synchronizeSharedTranslationEpoch p.journal)

/-- `avz_fast_translate`. -/
def translate (virtualAddress width : U64) (isWrite : Bool) : AccessPath × FastTranslation :=
  if MemoryFastPath.fastWidthSupported width = false then (p, .failed)
  else
    let fp := p.synchronize.view
    let outcome := fp.translateData virtualAddress width isWrite
      (p.translateRam virtualAddress width isWrite)
    ((p.setCache outcome.1).noteFault (fp.dataFault virtualAddress width isWrite), outcome.2.1)

/-- `avz_native_fast_memory_read`, up to the callbacks. -/
def read (virtualAddress width : U64) : AccessPath × ReadAnswer :=
  match p.translate virtualAddress width false with
  | (p, .ram _ host) => (p, .value (p.memory.loadValue host.toNat width.toNat))
  | (p, .physical physicalAddress) =>
    (p, if p.physicalCallbacks then .physical physicalAddress
      else if p.translationFaultPending then .faulted else .slow)
  | (p, .failed) => (p, if p.translationFaultPending then .faulted else .slow)

def storeValue (host width value : U64) : AccessPath :=
  { p with writes := p.writes.storeValue host.toNat width.toNat value }

/-- `avz_fast_mark_dirty` and `avz_fast_invalidate_code_after_write`. -/
def commit (physicalAddress byteCount : U64) : AccessPath :=
  if physicalAddress < p.cache.ram.base then p
  else { p with
    writes := p.writes.commitWriteSpan (physicalAddress - p.cache.ram.base).toNat byteCount.toNat }

/-- `avz_fast_store`. -/
def store (host physicalAddress width value : U64) : AccessPath :=
  (p.storeValue host width value).commit physicalAddress width

/-- `avz_native_fast_memory_write`, up to the callbacks. -/
def write (virtualAddress width value : U64) : AccessPath × WriteAnswer :=
  match p.translate virtualAddress width true with
  | (p, .ram physicalAddress host) => (p.store host physicalAddress width value, .stored)
  | (p, .physical physicalAddress) =>
    (p, if p.physicalCallbacks then .physical physicalAddress
      else if p.translationFaultPending then .faulted else .slow)
  | (p, .failed) => (p, if p.translationFaultPending then .faulted else .slow)

/-! ## Hot entries alone -/

/-- The checks that the two inline routines share: the offset of the access in RAM by the physical
page of the hot entry, and by its host page. -/
def hotSpan (virtualAddress width : U64) (isWrite : Bool) : Option (U64 × U64) :=
  let pageOffset := fastPageOffset virtualAddress
  if MemoryFastPath.fastWidthSupported width = false ∨
      p.journal.translationEpoch ≠ p.cache.observedSharedTranslationEpoch ∨
      4096#64 < pageOffset + width then none
  else
    let entry := p.cache.dataHot isWrite (p.cache.hotIndex virtualAddress)
    if p.cache.hotMatches entry virtualAddress (pageOffset + width) then
      match entry.hostPage with
      | none => none
      | some hostPage =>
        let ramPageOffset := entry.physicalPage - p.cache.ram.base
        if entry.physicalPage < p.cache.ram.base ∨ p.cache.ram.size < ramPageOffset ∨
            p.cache.ram.size - ramPageOffset < pageOffset ∨
            p.cache.ram.size - ramPageOffset - pageOffset < width then none
        else some (ramPageOffset + pageOffset, hostPage + pageOffset)
    else none

def pageCount : ℕ := (p.memory.size + (fastPageSize - 1)) / fastPageSize

/-- `avz_native_fast_memory_try_read_hot`. -/
def tryReadHot (virtualAddress width : U64) : Option U64 :=
  match p.hotSpan virtualAddress width false with
  | none => none
  | some (offset, host) =>
    let page := GuestMemory.firstPage offset.toNat
    if p.pageCount ≤ page ∨
        p.memory.pageObservationFlags page &&& observationHost ≠ 0#8 ∨
        host.toNat % width.toNat ≠ 0 then none
    else some (p.memory.loadValue host.toNat width.toNat)

/-- `avz_native_fast_memory_try_write_hot`. -/
def tryWriteHot (virtualAddress width value : U64) : Option AccessPath :=
  match p.hotSpan virtualAddress width true with
  | none => none
  | some (offset, host) =>
    let page := GuestMemory.firstPage offset.toNat
    if p.pageCount ≤ page ∨ p.memory.pageObservationFlags page ≠ 0#8 ∨
        host.toNat % width.toNat ≠ 0 then none
    else some { p with
      writes := (p.writes.storeValue host.toNat width.toNat value).commitUnobservedWriteHot page
        offset.toNat width.toNat }

/-! ## Pairs -/

/-- An eight-byte pair within a page may be in the span of one hot entry. -/
def hotPair (virtualAddress width : U64) (isWrite : Bool) : Option PairSpan :=
  let pageOffset := fastPageOffset virtualAddress
  let entry := p.cache.dataHot isWrite (p.cache.hotIndex virtualAddress)
  if p.cache.hotMatches entry virtualAddress (pageOffset + 2 * width) then
    match entry.hostPage with
    | none => none
    | some hostPage =>
      if 0xffffffffffffffff#64 - pageOffset - width < entry.physicalPage then none
      else
        let physicalAddress := entry.physicalPage + pageOffset
        let host := hostPage + pageOffset
        some ⟨physicalAddress, physicalAddress + width, host, host + width⟩
  else none

/-- The first part of `avz_native_fast_memory_translate_pair`: both elements by one translation. -/
def probePair (virtualAddress width : U64) (isWrite : Bool) : AccessPath × Option PairSpan :=
  if 4096#64 - fastPageOffset virtualAddress < 2 * width then (p, none)
  else
    let synchronized := if width = 8#64 then p.synchronize else p
    match if width = 8#64 then synchronized.hotPair virtualAddress width isWrite else none with
    | some span => (synchronized, some span)
    | none =>
      match synchronized.translate virtualAddress (2 * width) isWrite with
      | (p, .ram physicalAddress host) =>
        (p, some ⟨physicalAddress, physicalAddress + width, host, host + width⟩)
      | (p, _) => (p, none)

/-- The second part: the elements one after the other. -/
def translateElements (virtualAddress width : U64) (isWrite : Bool) : AccessPath × Option PairSpan :=
  match p.translate virtualAddress width isWrite with
  | (p, .ram firstPhysical firstHost) =>
    match p.translate (virtualAddress + width) width isWrite with
    | (p, .ram secondPhysical secondHost) =>
      (p, some ⟨firstPhysical, secondPhysical, firstHost, secondHost⟩)
    | (p, _) => (p, none)
  | (p, _) => (p, none)

/-- The checks that open `avz_native_fast_memory_translate_pair`. -/
def PairAccepted (virtualAddress width : U64) : Prop :=
  MemoryFastPath.fastWidthSupported width = true ∧ virtualAddress ≤ 0xffffffffffffffff#64 - width

instance (virtualAddress width : U64) : Decidable (PairAccepted virtualAddress width) :=
  inferInstanceAs (Decidable (_ ∧ _))

/-- `avz_native_fast_memory_translate_pair`. -/
def translatePair (virtualAddress width : U64) (isWrite : Bool) : AccessPath × Option PairSpan :=
  if PairAccepted virtualAddress width then
    match p.probePair virtualAddress width isWrite with
    | (p, some span) => (p, some span)
    | (p, none) => p.translateElements virtualAddress width isWrite
  else (p, none)

/-- `avz_native_fast_memory_read_pair`. -/
def readPair (virtualAddress width : U64) : AccessPath × Option (U64 × U64) :=
  match p.translatePair virtualAddress width false with
  | (p, some span) => (p, some (p.memory.loadValue span.firstHost.toNat width.toNat,
      p.memory.loadValue span.secondHost.toNat width.toNat))
  | (p, none) => (p, none)

/-- The stores of `avz_native_fast_memory_write_pair`. -/
def storePair (span : PairSpan) (width firstValue secondValue : U64) : AccessPath :=
  let stored := (p.storeValue span.firstHost width firstValue).storeValue span.secondHost width
    secondValue
  if span.secondPhysical = span.firstPhysical + width then
    stored.commit span.firstPhysical (2 * width)
  else (stored.commit span.firstPhysical width).commit span.secondPhysical width

/-- `avz_native_fast_memory_write_pair`. -/
def writePair (virtualAddress width firstValue secondValue : U64) : AccessPath × Bool :=
  match p.translatePair virtualAddress width true with
  | (p, some span) => (p.storePair span width firstValue secondValue, true)
  | (p, none) => (p, false)

/-! ## The elements as single accesses -/

def readInOrder (virtualAddress width : U64) : AccessPath × Option (U64 × U64) :=
  match p.read virtualAddress width with
  | (p, .value first) =>
    match p.read (virtualAddress + width) width with
    | (p, .value second) => (p, some (first, second))
    | (p, _) => (p, none)
  | (p, _) => (p, none)

def writeInOrder (virtualAddress width firstValue secondValue : U64) : AccessPath × Bool :=
  match p.write virtualAddress width firstValue with
  | (p, .stored) =>
    match p.write (virtualAddress + width) width secondValue with
    | (p, .stored) => (p, true)
    | (p, _) => (p, false)
  | (p, _) => (p, false)

end AccessPath

end Pinecone
