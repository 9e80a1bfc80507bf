import Mathlib.Data.List.Basic
import Pinecone.GuestMemory

/-! The store paths of guest memory: fast-path stores with their dirty-page cache,
bulk writes and fills, DMA transfers and host writes. A fast path is bound to the
whole memory, so it works on offsets into it; a store that is not to RAM goes to a
callback and leaves the memory alone. -/

namespace Pinecone

structure DirtyHotEntry where
  page : ℕ
  epoch : U64
  valid : Bool
  deriving DecidableEq

def fastDirtyHotCount : ℕ := 4096

/-- The guest memory as one vCPU's fast path sees it. -/
structure FastMemory where
  memory : GuestMemory
  dirtyHot : ℕ → DirtyHotEntry

/-- The RAM offset to which the translation in force maps an address for an access;
`none` for a device, a hole or a fault. -/
abbrev RamTranslation := U64 → Option ℕ

/-- Virtual addresses are offsets. -/
def flatTranslation : RamTranslation := fun virtualAddress => some virtualAddress.toNat

def fastWidthSupported (width : ℕ) : Bool := width == 1 || width == 2 || width == 4 || width == 8

/-- The last checks of a translation: the access ends inside RAM. -/
def fastTranslateWithin (translate : RamTranslation) (memory : GuestMemory) (virtualAddress : U64)
    (byteCount : ℕ) : Option ℕ :=
  match translate virtualAddress with
  | some offset =>
    if memory.size < offset ∨ memory.size - offset < byteCount then none else some offset
  | none => none

/-- `avz_fast_translate`, as far as it answers with RAM. -/
def fastTranslate (translate : RamTranslation) (memory : GuestMemory) (virtualAddress : U64)
    (width : ℕ) : Option ℕ :=
  if fastWidthSupported width = false ∨ fastPageSize < virtualAddress.toNat % fastPageSize + width then
    none
  else fastTranslateWithin translate memory virtualAddress width

/-- `avz_native_fast_memory_translate_pair`. One translation serves both elements when
the pair is a supported width, or when a hot span covers sixteen bytes. -/
def fastTranslatePair (translate : RamTranslation) (memory : GuestMemory) (hotSpan : Bool)
    (virtualAddress : U64) (width : ℕ) : Option (ℕ × ℕ) :=
  if fastWidthSupported width = false ∨ 2 ^ 64 - 1 - width < virtualAddress.toNat then none
  else
    let whole :=
      if virtualAddress.toNat % fastPageSize + 2 * width ≤ fastPageSize ∧
          (fastWidthSupported (2 * width) ∨ (width = 8 ∧ hotSpan))
      then fastTranslateWithin translate memory virtualAddress (2 * width)
      else none
    match whole with
    | some first => some (first, first + width)
    | none =>
      match fastTranslate translate memory virtualAddress width,
          fastTranslate translate memory (virtualAddress + BitVec.ofNat 64 width) width with
      | some first, some second => some (first, second)
      | _, _ => none

/-- The pieces of `[0, byteCount)`, from `checked` on, that end at page boundaries of
`virtualAddress + ·`. -/
def pageChunks (virtualAddress byteCount : ℕ) : ℕ → ℕ → List (ℕ × ℕ)
  | 0, _ => []
  | fuel + 1, checked =>
    if checked < byteCount then
      let pageRemaining := fastPageSize - (virtualAddress + checked) % fastPageSize
      let chunk := min (byteCount - checked) pageRemaining
      (checked, chunk) :: pageChunks virtualAddress byteCount fuel (checked + chunk)
    else []

/-- One translated piece of a bulk write. -/
structure WriteSpan where
  offset : ℕ
  sourceOffset : ℕ
  byteCount : ℕ

/-- The translation loop of the bulk routines: only the first byte of each piece is
translated. -/
def translateChunks (translate : RamTranslation) (memory : GuestMemory) (virtualAddress : U64) :
    List (ℕ × ℕ) → Option (List WriteSpan)
  | [] => some []
  | (checked, chunk) :: rest =>
    match fastTranslate translate memory (virtualAddress + BitVec.ofNat 64 checked) 1,
        translateChunks translate memory virtualAddress rest with
    | some offset, some spans => some (⟨offset, checked, chunk⟩ :: spans)
    | _, _ => none

namespace FastMemory

def markDirtyPage (epoch : U64) (fast : FastMemory) (page : ℕ) : FastMemory :=
  let slot := page % fastDirtyHotCount
  let entry := fast.dirtyHot slot
  if entry.valid ∧ entry.page = page ∧ entry.epoch = epoch then fast
  else
    { memory := { fast.memory with pageEpochs := Function.update fast.memory.pageEpochs page epoch }
      dirtyHot := Function.update fast.dirtyHot slot ⟨page, epoch, true⟩ }

/-- `avz_fast_mark_dirty`, with `byteCount` possibly past the end of the memory. -/
def markDirty (fast : FastMemory) (offset byteCount : ℕ) : FastMemory :=
  if fast.memory.HasRange offset byteCount then
    let pages := indexRange (GuestMemory.firstPage offset) (GuestMemory.lastPage offset byteCount)
    let mutatedCode := pages.any fast.memory.codePageBits
    let dirtied := pages.foldl (markDirtyPage fast.memory.currentEpoch) fast
    { dirtied with
      memory := (dirtied.memory.noteExclusiveWriteGeneration offset byteCount).noteCodeWrite
        mutatedCode offset byteCount }
  else fast

def storeValue (fast : FastMemory) (offset width : ℕ) (value : U64) : FastMemory :=
  { fast with memory := fast.memory.storeValue offset width value }

def writeBytes (fast : FastMemory) (offset : ℕ) (data : List (BitVec 8)) : FastMemory :=
  { fast with memory := fast.memory.writeBytes offset data }

/-- `avz_fast_store`. -/
def store (fast : FastMemory) (offset width : ℕ) (value : U64) : FastMemory :=
  (fast.storeValue offset width value).markDirty offset width

/-- The stores of `avz_native_fast_memory_write_pair`. -/
def storePair (fast : FastMemory) (first second width : ℕ) (firstValue secondValue : U64) :
    FastMemory :=
  let stored := (fast.storeValue first width firstValue).storeValue second width secondValue
  if second = first + width then stored.markDirty first (2 * width)
  else (stored.markDirty first width).markDirty second width

/-- The write loop of the bulk routines. -/
def writeSpans (data : ℕ → ℕ → List (BitVec 8)) (fast : FastMemory) (spans : List WriteSpan) :
    FastMemory :=
  spans.foldl
    (fun fast span =>
      (fast.writeBytes span.offset (data span.sourceOffset span.byteCount)).markDirty span.offset
        span.byteCount)
    fast

/-- `avz_native_fast_memory_commit_unobserved_write_hot`: no exclusive generation is
noted unless the page holds code. -/
def commitUnobservedWriteHot (fast : FastMemory) (page offset byteCount : ℕ) : FastMemory :=
  if fast.memory.codePageBits page then fast.markDirty offset byteCount
  else markDirtyPage fast.memory.currentEpoch fast page

end FastMemory

/-- The spans that `avz_native_fast_memory_write_bytes` writes. -/
def writeBytesSpans (translate : RamTranslation) (memory : GuestMemory) (virtualAddress : U64)
    (byteCount : ℕ) : Option (List WriteSpan) :=
  let chunks := pageChunks virtualAddress.toNat byteCount byteCount 0
  if byteCount = 0 ∨ 64 < byteCount ∨ 2 ^ 64 - 1 - (byteCount - 1) < virtualAddress.toNat ∨
      2 < chunks.length then none
  else translateChunks translate memory virtualAddress chunks

/-- The spans that `avz_native_fast_memory_fill` fills. -/
def fillSpans (translate : RamTranslation) (memory : GuestMemory) (virtualAddress : U64)
    (byteCount patternWidth : ℕ) : Option (List WriteSpan) :=
  if byteCount = 0 ∨ fastWidthSupported patternWidth = false ∨
      2 ^ 64 - 1 - (byteCount - 1) < virtualAddress.toNat then none
  else translateChunks translate memory virtualAddress
    (pageChunks virtualAddress.toNat byteCount byteCount 0)

/-- The bytes that `avz_fast_atomic_fill_bytes` stores for the piece at `written`. -/
def fillData (pattern : U64) (patternWidth : ℕ) (written chunk : ℕ) : List (BitVec 8) :=
  let patternBytes := GuestMemory.littleEndian patternWidth pattern
  (List.range chunk).map
    (fun index => patternBytes.getD ((written % patternWidth + index) % patternWidth) 0#8)

/-! ## DMA -/

/-- One copy of a rectangular transfer. -/
structure RectChunk where
  guestOffset : ℕ
  hostOffset : ℕ
  byteCount : ℕ

/-- The span search that opens a row: the spans from the one that holds `rowOffset` on,
and where the first of them starts. -/
def rectSeek (rowOffset : ℕ) : List GuestMemorySpan → ℕ → List GuestMemorySpan × ℕ
  | [], start => ([], start)
  | span :: rest, start =>
    if start + span.byteCount ≤ rowOffset then rectSeek rowOffset rest (start + span.byteCount)
    else (span :: rest, start)

/-- The copies of one row, from `copied` on, and how far the row got. A copy that does
not reach the end of its span is the row's last. -/
def rectRow (rowOffset rowByteCount : ℕ) : List GuestMemorySpan → ℕ → ℕ → List RectChunk × ℕ
  | [], _, copied => ([], copied)
  | span :: rest, start, copied =>
    if copied < rowByteCount then
      let withinSpan := rowOffset + copied - start
      let available := span.byteCount - withinSpan
      let byteCount := if available < rowByteCount - copied then available else rowByteCount - copied
      let chunk : RectChunk := ⟨span.offset + withinSpan, rowOffset + copied, byteCount⟩
      if withinSpan + byteCount = span.byteCount then
        let tail := rectRow rowOffset rowByteCount rest (start + span.byteCount) (copied + byteCount)
        (chunk :: tail.1, tail.2)
      else ([chunk], copied + byteCount)
    else ([], copied)

/-- The copies of all rows up to the first one that comes up short, and whether none did. -/
def rectRows (logicalOffset rowByteCount rowStride : ℕ) :
    List ℕ → List GuestMemorySpan → ℕ → List RectChunk × Bool
  | [], _, _ => ([], true)
  | row :: rows, spans, start =>
    let rowOffset := logicalOffset + row * rowStride
    let (remaining, start) := rectSeek rowOffset spans start
    let (chunks, copied) := rectRow rowOffset rowByteCount remaining start 0
    if copied = rowByteCount then
      let (rest, complete) := rectRows logicalOffset rowByteCount rowStride rows remaining start
      (chunks ++ rest, complete)
    else (chunks, false)

/-- A rectangular DMA request. -/
structure DmaRect where
  spans : List GuestMemorySpan
  logicalOffset : ℕ
  rowByteCount : ℕ
  rowStride : ℕ
  rowCount : ℕ
  host : List (BitVec 8)

namespace DmaRect

def requiredByteCount (rect : DmaRect) : ℕ :=
  rect.logicalOffset + (rect.rowCount - 1) * rect.rowStride + rect.rowByteCount

def logicalByteCount (rect : DmaRect) : ℕ := (rect.spans.map GuestMemorySpan.byteCount).sum

/-- The checks that open `avz_guest_memory_dma_rect_owned`. -/
def Accepted (rect : DmaRect) (memory : GuestMemory) : Prop :=
  rect.spans ≠ [] ∧ rect.rowByteCount ≠ 0 ∧ rect.rowCount ≠ 0 ∧ rect.rowByteCount ≤ rect.rowStride ∧
    rect.requiredByteCount < 2 ^ 64 ∧ rect.requiredByteCount ≤ rect.host.length ∧
    (∀ span ∈ rect.spans, memory.HasRange span.offset span.byteCount) ∧
    rect.logicalByteCount < 2 ^ 64 ∧ rect.requiredByteCount ≤ rect.logicalByteCount

instance (rect : DmaRect) (memory : GuestMemory) : Decidable (rect.Accepted memory) :=
  inferInstanceAs (Decidable (_ ∧ _ ∧ _ ∧ _ ∧ _ ∧ _ ∧ _ ∧ _ ∧ _))

def chunks (rect : DmaRect) : List RectChunk × Bool :=
  rectRows rect.logicalOffset rect.rowByteCount rect.rowStride (List.range rect.rowCount) rect.spans 0

end DmaRect

namespace GuestMemory

/-- The notes of one DMA range, but for the code epoch. -/
def noteDmaRange (memory : GuestMemory) (offset byteCount : ℕ) : GuestMemory :=
  let memory := memory.noteExclusiveWriteGeneration offset byteCount
  if memory.rangeMayContainCode offset byteCount then memory.notePageWriteGeneration offset byteCount
  else memory

/-- `avz_guest_memory_dma_write_owned_complete`. -/
def dmaWriteOwnedComplete (memory : GuestMemory) (offset byteCount : ℕ) : GuestMemory :=
  if memory.HasRange offset byteCount then
    let noted := memory.noteDmaRange offset byteCount
    if memory.rangeMayContainCode offset byteCount then noted.advanceCodeMutationEpoch else noted
  else memory

/-- `avz_guest_memory_dma_write_owned`, which is also a transfer through the pointer
of `avz_guest_memory_dma_owned_pointer` and its completion. -/
def dmaWriteOwned (memory : GuestMemory) (offset : ℕ) (data : List (BitVec 8)) : GuestMemory :=
  if memory.HasRange offset data.length then
    (memory.writeBytes offset data).dmaWriteOwnedComplete offset data.length
  else memory

def copyRectChunk (host : List (BitVec 8)) (memory : GuestMemory) (chunk : RectChunk) : GuestMemory :=
  memory.writeBytes chunk.guestOffset ((host.drop chunk.hostOffset).take chunk.byteCount)

/-- `avz_guest_memory_dma_write_rect_owned`: all rows are copied, then all are noted; a
row that comes up short ends the transfer before the notes. -/
def dmaWriteRectOwned (memory : GuestMemory) (rect : DmaRect) : GuestMemory :=
  if rect.Accepted memory then
    let copied := rect.chunks.1.foldl (copyRectChunk rect.host) memory
    if rect.chunks.2 then
      let noted := rect.chunks.1.foldl
        (fun memory chunk => memory.noteDmaRange chunk.guestOffset chunk.byteCount) copied
      if rect.chunks.1.any (fun chunk => copied.rangeMayContainCode chunk.guestOffset chunk.byteCount)
      then noted.advanceCodeMutationEpoch else noted
    else copied
  else memory

/-! ## Host and device writes -/

/-- A write of `PhysicalMemory`: under the range lock, whose acquisition is itself
an observation. -/
def hostWrite (memory : GuestMemory) (offset : ℕ) (data : List (BitVec 8)) : GuestMemory :=
  if memory.HasRange offset data.length then
    ((memory.noteHostObservation offset data.length).writeBytes offset data).noteWrite offset
      data.length
  else memory

/-- A device's store through its own pointer, reported afterwards. -/
def deviceWrite (memory : GuestMemory) (offset : ℕ) (data : List (BitVec 8)) : GuestMemory :=
  if memory.HasRange offset data.length then
    (memory.writeBytes offset data).noteDeviceWrite offset data.length
  else memory

/-- `avz_guest_memory_store_u16_release`. -/
def storeU16Release (memory : GuestMemory) (offset : ℕ) (value : U64) : GuestMemory :=
  if memory.size < offset ∨ memory.size - offset < 2 ∨ offset % 2 ≠ 0 then memory
  else ((memory.noteHostObservation offset 2).noteWrite offset 2).storeValue offset 2 value

def advanceDirtyEpoch (memory : GuestMemory) : GuestMemory :=
  if memory.currentEpoch = BitVec.allOnes 64 then memory
  else { memory with currentEpoch := memory.currentEpoch + 1#64 }

end GuestMemory

end Pinecone
