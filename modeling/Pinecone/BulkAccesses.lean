import Pinecone.GuestMemoryWrites

/-! The bulk routines of the memory fast path, and the byte by byte accesses that they stand for.
The mapping in force takes virtual pages to pages of RAM, and is the same in a whole call. -/

namespace Pinecone

/-- The page of RAM that backs a virtual page; `none` for a device, a hole or a fault. -/
abbrev PageMapping := U64 → Option ℕ

def PageMapping.translate (mapping : PageMapping) : RamTranslation := fun virtualAddress =>
  (mapping (virtualAddress >>> 12)).map fun page =>
    page * fastPageSize + virtualAddress.toNat % fastPageSize

/-- The guest memory as a fast path writes it, and the ranges for which it has called
`avz_native_block_cache_invalidate_physical_range`. -/
structure FastWrites where
  fast : FastMemory
  invalidated : List GuestMemorySpan

namespace FastWrites

variable (w : FastWrites)

def memory : GuestMemory := w.fast.memory

def writeBytes (offset : ℕ) (data : List (BitVec 8)) : FastWrites :=
  { w with fast := w.fast.writeBytes offset data }

/-- `avz_fast_mark_dirty` and then `avz_fast_invalidate_code_after_write`, which together are
`avz_native_fast_memory_commit_write_span`. -/
def commitWriteSpan (offset byteCount : ℕ) : FastWrites where
  fast := w.fast.markDirty offset byteCount
  invalidated :=
    if w.memory.rangeMayContainCode offset byteCount then w.invalidated ++ [⟨offset, byteCount⟩]
    else w.invalidated

/-- `avz_fast_store`. -/
def store (offset width : ℕ) (value : U64) : FastWrites :=
  { w with fast := w.fast.storeValue offset width value }.commitWriteSpan offset width

/-- One piece of a bulk write. -/
def writeSpan (offset : ℕ) (data : List (BitVec 8)) : FastWrites :=
  (w.writeBytes offset data).commitWriteSpan offset data.length

/-- `avz_native_fast_memory_read_bytes`. Where a piece is not inside the memory, its lock cannot be
collected. -/
def readBytes (mapping : PageMapping) (virtualAddress : U64) (byteCount : ℕ) :
    Option (List (BitVec 8)) :=
  let chunks := pageChunks virtualAddress.toNat byteCount byteCount 0
  if byteCount = 0 ∨ fastPageSize < byteCount ∨
      2 ^ 64 - 1 - (byteCount - 1) < virtualAddress.toNat ∨ 2 < chunks.length then none
  else
    match translateChunks mapping.translate w.memory virtualAddress chunks with
    | some spans =>
      if spans.all fun span => w.memory.HasRange span.offset span.byteCount then
        some (spans.flatMap fun span => (List.range span.byteCount).map fun i =>
          w.memory.bytes (span.offset + i))
      else none
    | none => none

/-- The commit loop of `avz_native_fast_memory_write_bytes`. -/
def writeSpans (source : List (BitVec 8)) (spans : List WriteSpan) : FastWrites :=
  spans.foldl
    (fun w span => w.writeSpan span.offset ((source.drop span.sourceOffset).take span.byteCount)) w

/-- `avz_native_fast_memory_write_bytes`. -/
def writeBytesAt (mapping : PageMapping) (virtualAddress : U64) (source : List (BitVec 8)) :
    Bool × FastWrites :=
  match writeBytesSpans mapping.translate w.memory virtualAddress source.length with
  | some spans => (true, w.writeSpans source spans)
  | none => (false, w)

/-- What `avz_native_fast_memory_fill` comes to. What it does not fill itself it leaves to
`translation_fault_pending` and to the slow callback. -/
inductive FillAnswer
  | filled
  | failed
  | handedOver
  deriving DecidableEq

/-- The second pass of `avz_native_fast_memory_fill`, which translates every piece again. -/
def fillPieces (mapping : PageMapping) (virtualAddress pattern : U64) (patternWidth : ℕ) :
    List (ℕ × ℕ) → FastWrites → FillAnswer × FastWrites
  | [], w => (.filled, w)
  | (written, chunk) :: rest, w =>
    match fastTranslate mapping.translate w.memory (virtualAddress + BitVec.ofNat 64 written) 1 with
    | some offset => fillPieces mapping virtualAddress pattern patternWidth rest
        (w.writeSpan offset (fillData pattern patternWidth written chunk))
    | none => (.failed, w)

/-- `avz_native_fast_memory_fill`. -/
def fill (mapping : PageMapping) (virtualAddress byteCount pattern : U64) (patternWidth : ℕ) :
    FillAnswer × FastWrites :=
  match fillSpans mapping.translate w.memory virtualAddress byteCount.toNat patternWidth with
  | some _ => fillPieces mapping virtualAddress pattern patternWidth
      (pageChunks virtualAddress.toNat byteCount.toNat byteCount.toNat 0) w
  | none => (.handedOver, w)

/-! ## Byte by byte -/

/-- `avz_native_fast_memory_read` of one byte, where it is RAM. -/
def readByte (mapping : PageMapping) (virtualAddress : U64) : Option (BitVec 8) :=
  (fastTranslate mapping.translate w.memory virtualAddress 1).map w.memory.bytes

/-- `avz_native_fast_memory_write` of one byte, where it is RAM. -/
def writeByte (mapping : PageMapping) (virtualAddress : U64) (byte : BitVec 8) : Option FastWrites :=
  (fastTranslate mapping.translate w.memory virtualAddress 1).map fun offset =>
    w.store offset 1 (byte.setWidth 64)

def readEach (mapping : PageMapping) (virtualAddress : U64) : ℕ → Option (List (BitVec 8))
  | 0 => some []
  | byteCount + 1 => do
    let byte ← w.readByte mapping virtualAddress
    let rest ← readEach mapping (virtualAddress + 1) byteCount
    return byte :: rest

def writeEach (mapping : PageMapping) : U64 → List (BitVec 8) → FastWrites → Option FastWrites
  | _, [], w => some w
  | virtualAddress, byte :: rest, w => do
    let w ← w.writeByte mapping virtualAddress byte
    writeEach mapping (virtualAddress + 1) rest w

/-- The bytes of a pattern that is repeated from its start on. -/
def patternBytes (pattern : U64) (patternWidth byteCount : ℕ) : List (BitVec 8) :=
  (List.range byteCount).map fun i =>
    (GuestMemory.littleEndian patternWidth pattern).getD (i % patternWidth) 0#8

end FastWrites

end Pinecone
