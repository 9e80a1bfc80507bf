import Pinecone.BlockDecode

/-! Lookups in the block cache: validation, decoding, eviction, and the prefetch of the blocks that
follow. -/

namespace Pinecone

namespace BlockWorld

variable {σ : Type} (source : CodeSource σ) (w : BlockWorld σ)

/-- `avz_native_block_cache_shared_code_mutation_epoch`. -/
def sharedCodeMutationEpoch : U64 := source.codeMutationEpoch w.cache.guestMemory w.outside

/-- `cache->ram_base`, which is 0 without bound RAM. -/
def ramBase : U64 := w.cache.ram.elim 0 BoundRam.base

/-- `avz_block_code_pages_are_current`. -/
def codePagesAreCurrent (block : DecodedBlock) : Bool :=
  block.codePages.all fun code =>
    code.generation.all fun generation => w.cache.codePageGeneration code.page = some generation

/-- `avz_block_shared_code_pages_are_current`. -/
def sharedCodePagesAreCurrent (block : DecodedBlock) : Bool :=
  w.cache.guestMemory.isNone || block.codePages.all fun code =>
    code.sharedGeneration.all fun generation =>
      source.pageWriteGeneration w.cache.guestMemory code.page w.ramBase w.outside = some generation

/-- The validation loop over the instructions of an entry, one for each virtual page. -/
def validateMappings (validator : ℕ) (pc : U64) :
    U64 → List BlockInstruction → BlockWorld σ → Bool × BlockWorld σ
  | _, [], w => (true, w)
  | previousPage, i :: rest, w =>
    if pc >>> 12 = previousPage then validateMappings validator (pc + 4) previousPage rest w
    else
      let (reply, outside) := source.validateMapping validator pc i.physicalAddress w.outside
      let w := ⟨w.remap reply.remapped, outside⟩
      if reply.current then validateMappings validator (pc + 4) (pc >>> 12) rest w else (false, w)

def modifyEntry (index : BlockIndex) (change : BlockCacheEntry → BlockCacheEntry) : BlockWorld σ :=
  { w with cache := w.cache.setEntry index (change (w.cache.entries index)) }

/-- The part of `avz_entry_code_is_current` that acknowledges the shared epoch. -/
def sharedCodeIsCurrent (index : BlockIndex) : Bool × BlockWorld σ :=
  let entry := w.cache.entries index
  let sharedEpoch := w.sharedCodeMutationEpoch source
  if entry.validatedSharedCodeMutationEpoch ≠ sharedEpoch then
    if w.sharedCodePagesAreCurrent source entry.block then
      (true, w.modifyEntry index fun entry =>
        { entry with validatedSharedCodeMutationEpoch := sharedEpoch })
    else (false, w)
  else (true, w)

/-- The part of `avz_entry_code_is_current` that acknowledges the translation epoch. -/
def translationIsCurrent (index : BlockIndex) : Bool × BlockWorld σ :=
  let entry := w.cache.entries index
  let epoch := w.cache.translationEpoch
  if entry.validatedTranslationEpoch ≠ epoch then
    match w.cache.mappingValidator with
    | none => (false, w)
    | some validator =>
      match validateMappings source validator entry.block.key.pc 0xffffffffffffffff#64
          entry.block.instructions w with
      | (false, w) => (false, w)
      | (true, w) =>
        if epoch ≠ w.cache.translationEpoch then (false, w)
        else (true, w.modifyEntry index fun entry =>
          { entry with validatedTranslationEpoch := epoch })
  else (true, w)

/-- `avz_entry_code_is_current`. -/
def entryCodeIsCurrent (index : BlockIndex) : Bool × BlockWorld σ :=
  match w.sharedCodeIsCurrent source index with
  | (false, w) => (false, w)
  | (true, w) =>
    if (w.cache.entries index).validatedCodeMutationEpoch = w.cache.codeMutationEpoch then (true, w)
    else
      match w.translationIsCurrent source index with
      | (false, w) => (false, w)
      | (true, w) =>
        if w.codePagesAreCurrent (w.cache.entries index).block then
          (true, w.modifyEntry index fun entry =>
            { entry with validatedCodeMutationEpoch := w.cache.codeMutationEpoch })
        else (false, w)

/-- The distinct pages of the instructions, in their order, as long as there is a slot for them. -/
def entryPages (instructions : List BlockInstruction) : List U64 :=
  instructions.foldl (fun pages i =>
    let page := pageOf i.physicalAddress
    if page ∉ pages ∧ pages.length < blockMaxCodePages then pages ++ [page] else pages) []

/-- The loop of `avz_index_entry` over the pages, whose slots they fill in turn. -/
def indexPages (index : BlockIndex) :
    List (Fin 2) → List U64 → BlockWorld σ → List CodePage × BlockWorld σ
  | slot :: slots, page :: pages, w =>
    let ramBase := w.ramBase
    let w := ⟨w.cache.linkEntryPage (index, slot) page,
      source.markCodePage w.cache.guestMemory page ramBase w.outside⟩
    let code := ⟨page, w.cache.codePageGeneration page,
      source.pageWriteGeneration w.cache.guestMemory page ramBase w.outside⟩
    let (codePages, w) := indexPages index slots pages w
    (code :: codePages, w)
  | _, _, w => ([], w)

/-- `avz_index_entry`. -/
def indexEntry (index : BlockIndex) : BlockWorld σ :=
  let (codePages, w) := indexPages source index [0, 1]
    (entryPages (w.cache.entries index).block.instructions) w
  w.modifyEntry index fun entry => { entry with block := { entry.block with codePages := codePages } }

/-- A valid entry of the key is returned if it is current, and is discarded if it is not. -/
def probeEntry (key : BlockKey) (index : BlockIndex) : Bool × BlockWorld σ :=
  let entry := w.cache.entries index
  if entry.valid ∧ entry.block.key = key then
    match w.entryCodeIsCurrent source index with
    | (false, w) => (false, { w with cache := w.cache.discardStaleEntry index })
    | (true, w) =>
      (true, { w with cache := (w.cache.recordPrefetchHit index).touchEntry index })
  else (false, w)

/-- The probe of the front cache. -/
def probeFront (key : BlockKey) (hash : U64) : Option BlockIndex × BlockWorld σ :=
  match w.cache.frontEntries (blockFrontIndex hash) with
  | some (known, index) =>
    if known = hash then
      match w.probeEntry source key index with
      | (true, w) => (some index, w)
      | (false, w) => (none, w)
    else (none, w)
  | none => (none, w)

/-- The probe of the ways of the set, and the first of them that it leaves invalid. -/
def probeSet (key : BlockKey) (hash : U64) :
    List (Fin 4) → Option BlockIndex → BlockWorld σ →
      (Option BlockIndex × Option BlockIndex) × BlockWorld σ
  | [], firstInvalid, w => ((none, firstInvalid), w)
  | way :: ways, firstInvalid, w =>
    let index : BlockIndex := (blockSetIndex hash, way)
    match w.probeEntry source key index with
    | (true, w) =>
      ((some index, firstInvalid), { w with cache := w.cache.updateFrontCache hash index })
    | (false, w) =>
      let firstInvalid := firstInvalid.or
        (if (w.cache.entries index).valid then none else some index)
      probeSet key hash ways firstInvalid w

end BlockWorld

namespace BlockCache

variable (cache : BlockCache)

/-- The candidate is evicted before the victim. -/
def evictsFirst (candidate victim : BlockCacheEntry) : Bool :=
  (candidate.prefetched && !victim.prefetched) ||
    (candidate.prefetched = victim.prefetched && candidate.lastUsed < victim.lastUsed)

/-- The way of a full set that makes room for a block. -/
def victimWay (set : Fin 8192) : BlockIndex :=
  [1, 2, 3].foldl (fun victim way =>
    if evictsFirst (cache.entries (set, way)) (cache.entries victim) then (set, way) else victim)
    (set, 0)

/-- The eviction of a full set's victim. -/
def evictEntry (index : BlockIndex) : BlockCache :=
  let cache := (cache.retireUnusedPrefetch index).unindexEntry index
  { cache with
    entries := Function.update cache.entries index { cache.entries index with serial := 0 }
    mutationEpoch := advanceNonzeroCounter cache.mutationEpoch }

end BlockCache

namespace BlockWorld

variable {σ : Type} (source : CodeSource σ) (w : BlockWorld σ)

/-- The entry of a decoded block before its index. -/
def writeEntry (block : DecodedBlock) (index : BlockIndex) : BlockWorld σ :=
  let (serial, cache) := w.cache.allocateBlockSerial
  { w with cache := (cache.setEntry index
    { block := block
      serial := serial
      validatedCodeMutationEpoch := cache.codeMutationEpoch
      validatedSharedCodeMutationEpoch := w.sharedCodeMutationEpoch source
      validatedTranslationEpoch := cache.translationEpoch
      lastUsed := (cache.entries index).lastUsed
      valid := true
      prefetched := cache.batchPrefetchActive }).touchEntry index }

/-- The block goes to the invalid way that was found, or to the victim's. -/
def installBlock (block : DecodedBlock) (hash : U64) (firstInvalid : Option BlockIndex) :
    BlockIndex × BlockWorld σ :=
  let (index, cache) :=
    match firstInvalid with
    | some index => (index, w.cache)
    | none =>
      let victim := w.cache.victimWay (blockSetIndex hash)
      (victim, w.cache.evictEntry victim)
  let w := ({ w with cache := cache }.writeEntry source block index).indexEntry source index
  (index, { w with cache := w.cache.updateFrontCache hash index })

/-- What a lookup returns: the entry, and whether it was decoded for it. -/
structure LookupResult where
  index : BlockIndex
  decoded : Bool

/-- The miss of a lookup. -/
def decodeMiss (key : BlockKey) (hash : U64) (firstInvalid : Option BlockIndex) :
    (Option LookupResult × BlockDecodeStatus) × BlockWorld σ :=
  match w.decodeBlock source key with
  | ((.ok, block), w) =>
    if block.instructions = [] then ((none, .ok), w)
    else
      let (index, w) := w.installBlock source block hash firstInvalid
      ((some ⟨index, true⟩, .ok), w)
  | ((status, _), w) => ((none, status), w)

/-- `avz_native_block_cache_get_or_decode` without the prefetch. -/
def lookupOrDecode (key : BlockKey) :
    (Option LookupResult × BlockDecodeStatus) × BlockWorld σ :=
  let (hash, cache) := w.cache.keyHash key
  match { w with cache := cache }.probeFront source key hash with
  | (some index, w) => ((some ⟨index, false⟩, .ok), w)
  | (none, w) =>
    match probeSet source key hash [0, 1, 2, 3] none w with
    | ((some index, _), w) => ((some ⟨index, false⟩, .ok), w)
    | ((none, firstInvalid), w) => w.decodeMiss source key hash firstInvalid

/-- The key of the block that follows in a straight line, if the block falls through and the
next one is on the page of the first. -/
def nextKey (first : BlockKey) (block : DecodedBlock) : Option BlockKey :=
  match block.instructions.getLast? with
  | none => none
  | some last =>
    let bytes := BitVec.ofNat 64 (block.instructions.length * 4)
    if last.instruction.kind.hasLinearFallthrough = false ∨
        0xffffffffffffffff#64 - bytes < block.key.pc then none
    else
      let pc := block.key.pc + bytes
      if pc >>> 12 ≠ first.pc >>> 12 then none else some { block.key with pc := pc }

/-- The prefetch loop, whose limit is at most 3. Blocks of the first one's set are left alone. -/
def batchPrefetch (first : BlockKey) (protectedSet : Fin 8192) :
    List ℕ → BlockIndex → BlockWorld σ → BlockWorld σ
  | [], _, w => w
  | batchIndex :: rest, current, w =>
    if w.cache.batchPrefetchLimit ≤ batchIndex then w
    else
      match nextKey first (w.cache.entries current).block with
      | none => w
      | some key =>
        let (hash, cache) := w.cache.keyHash key
        let w := { w with cache := cache }
        if blockSetIndex hash = protectedSet then w
        else
          match w.lookupOrDecode source key.canonical with
          | ((some next, .ok), w) => batchPrefetch first protectedSet rest next.index w
          | (_, w) => w

/-- `avz_native_block_cache_get_or_decode`. A decode during the prefetch makes no further one. -/
def getOrDecode (key : BlockKey) : (Option BlockIndex × BlockDecodeStatus) × BlockWorld σ :=
  let key := key.canonical
  match w.lookupOrDecode source key with
  | ((none, status), w) => ((none, status), w)
  | ((some result, status), w) =>
    if result.decoded ∧ w.cache.batchPrefetchActive = false ∧ w.cache.ram.isSome ∧
        w.cache.batchPrefetchLimit ≠ 0 then
      let w := { w with cache := { w.cache with batchPrefetchActive := true } }
      let w := batchPrefetch source key result.index.1 [0, 1, 2] result.index w
      ((some result.index, status),
        { w with cache := { w.cache with batchPrefetchActive := false } })
    else ((some result.index, status), w)

end BlockWorld

end Pinecone
