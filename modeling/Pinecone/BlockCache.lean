import Pinecone.InstructionDecoder
import Pinecone.IntrusiveList

/-! The decoded-block cache of ARM64VizBlockCache.c: its entries, the index of their physical
pages, and the counters that tell whether an entry is still current. -/

namespace Pinecone

/-- `AVZNativeBlockKey`. -/
structure BlockKey where
  pc : U64
  sctlrEl1 : U64
  tcrEl1 : U64
  ttbr0El1 : U64
  ttbr1El1 : U64
  currentEl : BitVec 8
  deriving DecidableEq

/-- A set and a way of the entry array. -/
abbrev BlockIndex := Fin 8192 × Fin 4

/-- An entry and a slot of its code pages. -/
abbrev PageLink := BlockIndex × Fin 2

structure BlockInstruction where
  instruction : NativeInstruction
  physicalAddress : U64

/-- A code page with the generations sampled through its tokens, where these are not NULL. -/
structure CodePage where
  page : U64
  generation : Option U64
  sharedGeneration : Option U64

/-- `AVZBlockSuccessor`; the serial token is that of the target's entry. -/
structure BlockSuccessor where
  target : Option BlockIndex
  targetSerial : U64
  lastUsed : U64

def BlockSuccessor.empty : BlockSuccessor := ⟨none, 0, 0⟩

/-- `AVZNativeDecodedBlock`. -/
structure DecodedBlock where
  key : BlockKey
  instructions : List BlockInstruction
  codePages : List CodePage
  successors : Fin 2 → BlockSuccessor
  successorClock : U64

def BlockKey.zero : BlockKey := ⟨0, 0, 0, 0, 0, 0⟩

def DecodedBlock.empty (key : BlockKey) : DecodedBlock := ⟨key, [], [], fun _ => .empty, 0⟩

/-- `AVZBlockCacheEntry`. -/
structure BlockCacheEntry where
  block : DecodedBlock
  serial : U64
  validatedCodeMutationEpoch : U64
  validatedSharedCodeMutationEpoch : U64
  validatedTranslationEpoch : U64
  lastUsed : U64
  valid : Bool
  prefetched : Bool

def BlockCacheEntry.zero : BlockCacheEntry := ⟨.empty .zero, 0, 0, 0, 0, 0, false, false⟩

/-- The RAM that `avz_native_block_cache_bind_physical_memory` binds, with its identity. -/
structure BoundRam where
  ram : ℕ
  base : U64
  size : U64
  deriving DecidableEq

/-- The decode window, when it is valid. -/
structure DecodeWindow where
  key : BlockKey
  virtualPage : U64
  physicalPage : U64

/-- `AVZNativeBlockCache`. The arrays over the tracked pages are made together, and
`guestMemory` and `mappingValidator` are the identities of what the pointers refer to. -/
structure BlockCache where
  entries : BlockIndex → BlockCacheEntry
  pageLinks : NodeLinks PageLink
  linkPage : PageLink → U64
  linked : PageLink → Bool
  pageBucketHeads : Fin 16384 → Option PageLink
  accessClock : U64
  frontEntries : Fin 8192 → Option (U64 × BlockIndex)
  lastContext : Option (BlockKey × U64)
  tracksPages : Bool
  trackedFirstPage : U64
  trackedPageCount : ℕ
  codePageRefcounts : ℕ → BitVec 16
  codePageGenerations : ℕ → U64
  traceCodePages : ℕ → Bool
  ram : Option BoundRam
  decodeWindow : Option DecodeWindow
  batchPrefetchActive : Bool
  batchPrefetchLimit : ℕ
  batchPrefetchWindowHits : ℕ
  batchPrefetchWindowUnused : ℕ
  nextSerial : U64
  generation : U64
  mutationEpoch : U64
  codeMutationEpoch : U64
  resetEpoch : U64
  translationEpoch : U64
  mappingValidator : Option ℕ
  guestMemory : Option ℕ

/-- `avz_advance_nonzero_counter`. -/
def advanceNonzeroCounter (counter : U64) : U64 :=
  if counter + 1 = 0#64 then 1#64 else counter + 1

/-- `avz_mix_u64`. -/
def mixU64 (value : U64) : U64 :=
  let value := value ^^^ (value >>> 30)
  let value := value * 0xbf58476d1ce4e5b9#64
  let value := value ^^^ (value >>> 27)
  let value := value * 0x94d049bb133111eb#64
  value ^^^ (value >>> 31)

/-- `AVZ_BLOCK_TTBR_BASE_MASK`. -/
def blockTtbrBaseMask : U64 := 0x0000fffffffff000#64

/-- `AVZ_NATIVE_BLOCK_MAX_CODE_PAGES`. -/
def blockMaxCodePages : ℕ := 2

/-- `AVZ_NATIVE_BLOCK_MAX_INSTRUCTIONS`. -/
def blockMaxInstructions : ℕ := 16

/-- `avz_canonical_block_key`. -/
def BlockKey.canonical (key : BlockKey) : BlockKey :=
  if key.pc.msb then
    { key with ttbr0El1 := 0, ttbr1El1 := key.ttbr1El1 &&& blockTtbrBaseMask }
  else { key with ttbr0El1 := key.ttbr0El1 &&& blockTtbrBaseMask, ttbr1El1 := 0 }

/-- `avz_block_contexts_equal`. -/
def BlockKey.contextsEqual (left right : BlockKey) : Prop :=
  left.sctlrEl1 = right.sctlrEl1 ∧ left.tcrEl1 = right.tcrEl1 ∧ left.ttbr0El1 = right.ttbr0El1 ∧
    left.ttbr1El1 = right.ttbr1El1 ∧ left.currentEl = right.currentEl

instance (left right : BlockKey) : Decidable (left.contextsEqual right) := by
  unfold BlockKey.contextsEqual
  infer_instance

/-- What `avz_block_context_hash` computes when it does not know the context. -/
def BlockKey.contextHash (key : BlockKey) : U64 :=
  let hash := mixU64 key.sctlrEl1
  let hash := hash ^^^ mixU64 key.tcrEl1
  let hash := hash ^^^ mixU64 key.ttbr0El1
  let hash := hash ^^^ mixU64 key.ttbr1El1
  let hash := hash ^^^ mixU64 (key.currentEl.setWidth 64)
  mixU64 hash

/-- `avz_block_set_index`. -/
def blockSetIndex (hash : U64) : Fin 8192 := Fin.ofNat 8192 hash.toNat

/-- The index into the front cache. -/
def blockFrontIndex (hash : U64) : Fin 8192 := Fin.ofNat 8192 hash.toNat

/-- `avz_page_bucket`. -/
def pageBucket (page : U64) : Fin 16384 := Fin.ofNat 16384 (mixU64 (page >>> 12)).toNat

/-- `& ~UINT64_C(0xfff)`. -/
def pageOf (address : U64) : U64 := address &&& ~~~0xfff#64

namespace BlockCache

variable (cache : BlockCache)

/-- `avz_block_context_hash`. -/
def contextHash (key : BlockKey) : U64 × BlockCache :=
  let miss := (key.contextHash, { cache with lastContext := some (key, key.contextHash) })
  match cache.lastContext with
  | some (last, hash) => if last.contextsEqual key then (hash, cache) else miss
  | none => miss

/-- `avz_block_key_hash`. -/
def keyHash (key : BlockKey) : U64 × BlockCache :=
  (mixU64 (mixU64 key.pc ^^^ (cache.contextHash key).1), (cache.contextHash key).2)

/-- `avz_allocate_block_serial`. -/
def allocateBlockSerial : U64 × BlockCache :=
  let serial := advanceNonzeroCounter cache.nextSerial
  (serial, { cache with nextSerial := serial })

/-- `avz_update_front_cache`. -/
def updateFrontCache (hash : U64) (entry : BlockIndex) : BlockCache :=
  { cache with
    frontEntries := Function.update cache.frontEntries (blockFrontIndex hash) (some (hash, entry)) }

/-- The index of a page in the arrays over the tracked pages. -/
def trackedPageIndex (page : U64) : Option ℕ :=
  if cache.tracksPages = false ∨ page < cache.trackedFirstPage then none
  else
    let index := ((page - cache.trackedFirstPage) >>> 12).toNat
    if cache.trackedPageCount ≤ index then none else some index

/-- `avz_track_code_page`, on the reference counts. -/
def trackCodePage (page : U64) : BlockCache :=
  match cache.trackedPageIndex page with
  | none => cache
  | some index =>
    let refcount := cache.codePageRefcounts index
    { cache with
      codePageRefcounts := Function.update cache.codePageRefcounts index
        (if refcount < 0xffff#16 then refcount + 1 else refcount) }

/-- `avz_untrack_code_page`. -/
def untrackCodePage (page : U64) : BlockCache :=
  match cache.trackedPageIndex page with
  | none => cache
  | some index =>
    let refcount := cache.codePageRefcounts index
    { cache with
      codePageRefcounts := Function.update cache.codePageRefcounts index
        (if 0#16 < refcount then refcount - 1 else refcount) }

/-- `avz_code_page_generation_token`, with what it points to. -/
def codePageGeneration (page : U64) : Option U64 :=
  (cache.trackedPageIndex page).map cache.codePageGenerations

/-- `avz_direct_physical_pointer`: the offset into the bound RAM. -/
def directPhysicalPointer (physicalAddress byteCount : U64) : Option (ℕ × U64) :=
  match cache.ram with
  | none => none
  | some bound =>
    if byteCount = 0 ∨ physicalAddress < bound.base then none
    else
      let offset := physicalAddress - bound.base
      if bound.size < offset ∨ bound.size - offset < byteCount then none
      else some (bound.ram, offset)

/-- `avz_unlink_page_link`. -/
def unlinkPageLink (link : PageLink) : BlockCache :=
  if cache.linked link then
    let cache := cache.untrackCodePage (cache.linkPage link)
    let bucket := pageBucket (cache.linkPage link)
    { cache with
      pageBucketHeads := if (cache.pageLinks.previous link).isSome then cache.pageBucketHeads
        else Function.update cache.pageBucketHeads bucket (cache.pageLinks.next link)
      pageLinks := (cache.pageLinks.bypass link).setLinks link none none
      linkPage := Function.update cache.linkPage link 0
      linked := Function.update cache.linked link false }
  else cache

/-- `avz_unindex_entry`. -/
def unindexEntry (entry : BlockIndex) : BlockCache :=
  (cache.unlinkPageLink (entry, 0)).unlinkPageLink (entry, 1)

/-- `avz_link_entry_page`. -/
def linkEntryPage (link : PageLink) (page : U64) : BlockCache :=
  let bucket := pageBucket page
  let cache := { cache with
    pageLinks := cache.pageLinks.pushFront link (cache.pageBucketHeads bucket)
    linkPage := Function.update cache.linkPage link page
    linked := Function.update cache.linked link true
    pageBucketHeads := Function.update cache.pageBucketHeads bucket (some link) }
  cache.trackCodePage page

/-- The outcome that `avz_record_prefetch_outcome` counts, with its adaptation window. -/
def recordPrefetchOutcome (useful : Bool) : BlockCache :=
  let hits := if useful then cache.batchPrefetchWindowHits + 1 else cache.batchPrefetchWindowHits
  let unused :=
    if useful then cache.batchPrefetchWindowUnused else cache.batchPrefetchWindowUnused + 1
  let outcomes := hits + unused
  if outcomes < 4096 then
    { cache with batchPrefetchWindowHits := hits, batchPrefetchWindowUnused := unused }
  else
    { cache with
      batchPrefetchLimit :=
        if outcomes * 80 ≤ hits * 100 then 3
        else if outcomes * 65 ≤ hits * 100 then 2
        else if outcomes * 55 ≤ hits * 100 then 1
        else 0
      batchPrefetchWindowHits := 0
      batchPrefetchWindowUnused := 0 }

def setEntry (index : BlockIndex) (entry : BlockCacheEntry) : BlockCache :=
  { cache with entries := Function.update cache.entries index entry }

/-- `avz_retire_unused_prefetch`. -/
def retireUnusedPrefetch (index : BlockIndex) : BlockCache :=
  let entry := cache.entries index
  if entry.valid ∧ entry.prefetched then
    (cache.setEntry index { entry with prefetched := false }).recordPrefetchOutcome false
  else cache

/-- `avz_record_prefetch_hit`. -/
def recordPrefetchHit (index : BlockIndex) : BlockCache :=
  let entry := cache.entries index
  if cache.batchPrefetchActive = false ∧ entry.prefetched then
    (cache.setEntry index { entry with prefetched := false }).recordPrefetchOutcome true
  else cache

/-- `avz_touch_entry`. -/
def touchEntry (index : BlockIndex) : BlockCache :=
  let clock := advanceNonzeroCounter cache.accessClock
  { cache with
    accessClock := clock
    entries := Function.update cache.entries index
      { cache.entries index with lastUsed := clock } }

/-- `avz_discard_stale_entry`. -/
def discardStaleEntry (index : BlockIndex) : BlockCache :=
  if (cache.entries index).valid then
    let cache := (cache.retireUnusedPrefetch index).unindexEntry index
    { cache with
      entries := Function.update cache.entries index
        { cache.entries index with valid := false, serial := 0, validatedCodeMutationEpoch := 0 }
      mutationEpoch := advanceNonzeroCounter cache.mutationEpoch }
  else cache

/-- `avz_invalidate_entry`. -/
def invalidateEntry (index : BlockIndex) : BlockCache :=
  if (cache.entries index).valid then
    let cache := (cache.retireUnusedPrefetch index).unindexEntry index
    { cache with
      entries := Function.update cache.entries index
        { cache.entries index with valid := false, serial := 0 }
      generation := advanceNonzeroCounter cache.generation
      mutationEpoch := advanceNonzeroCounter cache.mutationEpoch }
  else cache

/-- `avz_native_block_cache_create`. -/
def create : BlockCache where
  entries := fun _ => .zero
  pageLinks := ⟨fun _ => none, fun _ => none⟩
  linkPage := fun _ => 0
  linked := fun _ => false
  pageBucketHeads := fun _ => none
  accessClock := 0
  frontEntries := fun _ => none
  lastContext := none
  tracksPages := false
  trackedFirstPage := 0
  trackedPageCount := 0
  codePageRefcounts := fun _ => 0
  codePageGenerations := fun _ => 0
  traceCodePages := fun _ => false
  ram := none
  decodeWindow := none
  batchPrefetchActive := false
  batchPrefetchLimit := 3
  batchPrefetchWindowHits := 0
  batchPrefetchWindowUnused := 0
  nextSerial := 0
  generation := 1
  mutationEpoch := 1
  codeMutationEpoch := 1
  resetEpoch := 1
  translationEpoch := 0
  mappingValidator := none
  guestMemory := none

/-- `avz_native_block_cache_clear`. -/
def clear : BlockCache :=
  { cache with
    generation := advanceNonzeroCounter cache.generation
    mutationEpoch := advanceNonzeroCounter cache.mutationEpoch
    codeMutationEpoch := advanceNonzeroCounter cache.codeMutationEpoch
    resetEpoch := advanceNonzeroCounter cache.resetEpoch
    entries := fun _ => .zero
    accessClock := 0
    frontEntries := fun _ => none
    lastContext := none
    decodeWindow := none
    batchPrefetchActive := false
    codePageRefcounts := if cache.tracksPages then fun _ => 0 else cache.codePageRefcounts
    traceCodePages := if cache.tracksPages then fun _ => false else cache.traceCodePages
    pageBucketHeads := fun _ => none
    pageLinks := ⟨fun _ => none, fun _ => none⟩
    linkPage := fun _ => 0
    linked := fun _ => false }

/-- `avz_native_block_cache_configure_physical_range`, whose allocations succeed. -/
def configurePhysicalRange (physicalAddress byteCount : U64) : Bool × BlockCache :=
  let lastAddress := physicalAddress + (byteCount - 1)
  if byteCount = 0 ∨ lastAddress < physicalAddress then (false, cache)
  else
    let firstPage := pageOf physicalAddress
    let pageCount := ((pageOf lastAddress - firstPage) >>> 12).toNat + 1
    if cache.tracksPages ∧ cache.trackedFirstPage = firstPage ∧
        cache.trackedPageCount = pageCount then (true, cache)
    else
      (true, { cache.clear with
        tracksPages := true
        codePageRefcounts := fun _ => 0
        codePageGenerations := fun _ => 1
        traceCodePages := fun _ => false
        trackedFirstPage := firstPage
        trackedPageCount := pageCount
        ram := none })

/-- `avz_native_block_cache_bind_physical_memory`. -/
def bindPhysicalMemory (bound : BoundRam) : Bool × BlockCache :=
  if bound.size = 0 ∨ 0xffffffffffffffff#64 - (bound.size - 1) < bound.base then (false, cache)
  else
    let firstPage := pageOf bound.base
    let pageCount := ((pageOf (bound.base + bound.size - 1) - firstPage) >>> 12).toNat + 1
    if cache.tracksPages ∧ cache.trackedFirstPage = firstPage ∧
        cache.trackedPageCount = pageCount then
      if cache.ram = some bound then (true, cache)
      else (true, { cache.clear with ram := some bound })
    else
      match cache.configurePhysicalRange bound.base bound.size with
      | (false, cache) => (false, cache)
      | (true, cache) => (true, { cache with ram := some bound })

/-- `avz_native_block_cache_set_guest_memory`. -/
def setGuestMemory (memory : Option ℕ) : BlockCache :=
  if cache.guestMemory = memory then cache else { cache with guestMemory := memory }.clear

/-- `avz_native_block_cache_invalidate_decode_window`. -/
def invalidateDecodeWindow : BlockCache := { cache with decodeWindow := none }

/-- `avz_native_block_cache_invalidate_translation_mappings`. -/
def invalidateTranslationMappings : BlockCache :=
  { cache with
    decodeWindow := none
    translationEpoch := advanceNonzeroCounter cache.translationEpoch
    codeMutationEpoch := advanceNonzeroCounter cache.codeMutationEpoch }

/-- `avz_native_block_cache_set_mapping_validator`. -/
def setMappingValidator (validator : Option ℕ) : BlockCache :=
  if cache.mappingValidator = validator then cache
  else { cache with mappingValidator := validator }.invalidateTranslationMappings

/-- `avz_native_block_cache_register_trace_code_page`. -/
def registerTraceCodePage (page : U64) : Bool × BlockCache :=
  if page &&& 0xfff#64 ≠ 0#64 then (false, cache)
  else
    match cache.trackedPageIndex page with
    | none => (false, cache)
    | some index =>
      (true, { cache with traceCodePages := Function.update cache.traceCodePages index true })

/-- `avz_range_may_contain_code`. -/
def rangeMayContainCode (physicalAddress lastAddress : U64) : Bool :=
  if cache.tracksPages = false ∨ cache.trackedPageCount = 0 then true
  else
    let firstPage := pageOf physicalAddress
    let lastPage := pageOf lastAddress
    let trackedLastPage :=
      cache.trackedFirstPage + (BitVec.ofNat 64 (cache.trackedPageCount - 1) <<< 12)
    if firstPage < cache.trackedFirstPage ∨ trackedLastPage < lastPage then true
    else
      let firstIndex := ((firstPage - cache.trackedFirstPage) >>> 12).toNat
      let lastIndex := ((lastPage - cache.trackedFirstPage) >>> 12).toNat
      (List.range' firstIndex (lastIndex + 1 - firstIndex)).any fun index =>
        cache.codePageRefcounts index ≠ 0 || cache.traceCodePages index

/-- The generation of a page is advanced if it has code. -/
def bumpCodePage (bumped : Bool × BlockCache) (index : ℕ) : Bool × BlockCache :=
  let cache := bumped.2
  if cache.codePageRefcounts index ≠ 0 ∨ cache.traceCodePages index then
    (true, { cache with
      codePageGenerations := Function.update cache.codePageGenerations index
        (advanceNonzeroCounter (cache.codePageGenerations index)) })
  else bumped

/-- The entry holds an instruction that overlaps the addresses. -/
def entryOverlaps (index : BlockIndex) (physicalAddress lastAddress : U64) : Bool :=
  (cache.entries index).block.instructions.any fun i =>
    let last := if 0xffffffffffffffff#64 - 3 < i.physicalAddress then 0xffffffffffffffff#64
      else i.physicalAddress + 3
    i.physicalAddress ≤ lastAddress && physicalAddress ≤ last

/-- The walk of a bucket, which reads each link's successor before it invalidates its entry. -/
def invalidateBucket (physicalAddress lastAddress page : U64) :
    ℕ → Option PageLink → BlockCache → BlockCache
  | 0, _, cache => cache
  | _ + 1, none, cache => cache
  | fuel + 1, some link, cache =>
    let next := cache.pageLinks.next link
    invalidateBucket physicalAddress lastAddress page fuel next
      (if cache.linked link ∧ cache.linkPage link = page ∧
          cache.entryOverlaps link.1 physicalAddress lastAddress then
        cache.invalidateEntry link.1
      else cache)

/-- The walk of the pages of a range that is not tracked. -/
def invalidatePages (physicalAddress lastAddress : U64) : ℕ → U64 → BlockCache → BlockCache
  | 0, _, cache => cache
  | fuel + 1, page, cache =>
    let cache := invalidateBucket physicalAddress lastAddress page 65536
      (cache.pageBucketHeads (pageBucket page)) cache
    if page = pageOf lastAddress ∨ 0xffffffffffffffff#64 - 0x1000 < page then cache
    else invalidatePages physicalAddress lastAddress fuel (page + 0x1000) cache

/-- `avz_native_block_cache_invalidate_physical_range`. -/
def invalidatePhysicalRange (physicalAddress byteCount : U64) : BlockCache :=
  if byteCount = 0 then cache
  else
    let lastAddress := physicalAddress + (byteCount - 1)
    let lastAddress := if lastAddress < physicalAddress then 0xffffffffffffffff#64 else lastAddress
    let firstPage := pageOf physicalAddress
    let lastPage := pageOf lastAddress
    if cache.rangeMayContainCode physicalAddress lastAddress = false then cache
    else
      let trackedLastPage : U64 := if cache.trackedPageCount = 0 then 0
        else cache.trackedFirstPage + (BitVec.ofNat 64 (cache.trackedPageCount - 1) <<< 12)
      if cache.tracksPages ∧ cache.trackedFirstPage ≤ firstPage ∧ lastPage ≤ trackedLastPage then
        let firstIndex := ((firstPage - cache.trackedFirstPage) >>> 12).toNat
        let pageCount := ((lastPage - firstPage) >>> 12).toNat + 1
        match (List.range' firstIndex pageCount).foldl bumpCodePage (false, cache) with
        | (true, cache) =>
          { cache with codeMutationEpoch := advanceNonzeroCounter cache.codeMutationEpoch }
        | (false, cache) => cache
      else
        invalidatePages physicalAddress lastAddress (((lastPage - firstPage) >>> 12).toNat + 1)
          firstPage cache

end BlockCache

end Pinecone
