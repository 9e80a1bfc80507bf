import Pinecone.BlockCacheRuns

/-! What any step of the block cache does to its page links: it unlinks links one by one, links the
pages of an entry that has none, or drops all links at once. -/

namespace Pinecone

namespace BlockCache

variable {cache cache' cache'' : BlockCache} {link : PageLink} {index : BlockIndex}

/-- The page links, their buckets and their pages are the same. -/
structure SameLinks (cache' cache : BlockCache) : Prop where
  pageLinks : cache'.pageLinks = cache.pageLinks
  pageBucketHeads : cache'.pageBucketHeads = cache.pageBucketHeads
  slots : cache'.slotPage = cache.slotPage

/-- The second cache's links come about from the first one's. -/
inductive Relinked : BlockCache → BlockCache → Prop
  | same {cache' cache : BlockCache} (h : cache'.SameLinks cache) : Relinked cache' cache
  | unlink (cache : BlockCache) (link : PageLink) : Relinked (cache.unlinkPageLink link) cache
  | link {cache : BlockCache} {index : BlockIndex} {pages : List U64}
    (hunlinked : ∀ slot, cache.slotPage (index, slot) = none)
    (hpages : BlockWorld.EntryPages pages) :
    Relinked (BlockWorld.linkPages index [0, 1] pages cache) cache
  | empty {cache' cache : BlockCache} (hlinked : cache'.linked = fun _ => false)
    (hlinks : cache'.pageLinks = ⟨fun _ => none, fun _ => none⟩)
    (hheads : cache'.pageBucketHeads = fun _ => none) : Relinked cache' cache
  | trans {cache'' cache' cache : BlockCache} (h : Relinked cache'' cache')
    (h' : Relinked cache' cache) : Relinked cache'' cache

theorem SameIndex.relinked (h : cache'.SameIndex cache) : cache'.Relinked cache :=
  .same ⟨congrArg IndexView.pageLinks h.view, congrArg IndexView.pageBucketHeads h.view, h.slotPage⟩

theorem Relinked.refl : cache.Relinked cache := SameIndex.refl.relinked

theorem Relinked.setEntry (entry : BlockCacheEntry) : (cache.setEntry index entry).Relinked cache :=
  .same ⟨rfl, rfl, rfl⟩

theorem Relinked.unindexEntry : (cache.unindexEntry index).Relinked cache :=
  .trans (.unlink _ _) (.unlink _ _)

theorem Relinked.dropEntry (epoch : U64) : (cache.dropEntry index epoch).Relinked cache :=
  .trans (.setEntry _) (.trans .unindexEntry (retireUnusedPrefetch_same cache index).relinked)

theorem Relinked.discardStaleEntry : (cache.discardStaleEntry index).Relinked cache := by
  by_cases hvalid : (cache.entries index).valid = true
  · exact .trans (discardStaleEntry_same hvalid).relinked (.dropEntry 0)
  · rw [BlockCache.discardStaleEntry, if_neg hvalid]
    exact .refl

theorem Relinked.invalidateEntry : (cache.invalidateEntry index).Relinked cache := by
  by_cases hvalid : (cache.entries index).valid = true
  · obtain ⟨epoch, hsame⟩ := invalidateEntry_same hvalid
    exact .trans hsame.relinked (.dropEntry epoch)
  · rw [BlockCache.invalidateEntry, if_neg hvalid]
    exact .refl

theorem Relinked.evictEntry : (cache.evictEntry index).Relinked cache := by
  have hsame : SameLinks (cache.evictEntry index)
      ((cache.retireUnusedPrefetch index).unindexEntry index) := ⟨rfl, rfl, rfl⟩
  exact .trans (.same hsame) (.trans .unindexEntry (retireUnusedPrefetch_same cache index).relinked)

theorem Relinked.clear : cache.clear.Relinked cache := .empty rfl rfl rfl

theorem Relinked.withRam (ram : Option BoundRam) : Relinked { cache with ram := ram } cache :=
  .same ⟨rfl, rfl, rfl⟩

theorem Relinked.configurePhysicalRange (physicalAddress byteCount : U64) :
    (cache.configurePhysicalRange physicalAddress byteCount).2.Relinked cache := by
  unfold BlockCache.configurePhysicalRange
  dsimp only
  split
  · exact .refl
  · split
    · exact .refl
    · exact .empty rfl rfl rfl

theorem Relinked.bindPhysicalMemory (ram : BoundRam) :
    (cache.bindPhysicalMemory ram).2.Relinked cache := by
  have hconfigured : (cache.configurePhysicalRange ram.base ram.size).2.Relinked cache :=
    .configurePhysicalRange ram.base ram.size
  unfold BlockCache.bindPhysicalMemory
  dsimp only
  split
  · exact .refl
  · split
    · split
      · exact .refl
      · exact .trans (.withRam _) .clear
    · split
      · rename_i hdeclined
        rw [hdeclined] at hconfigured
        exact hconfigured
      · rename_i haccepted
        rw [haccepted] at hconfigured
        exact .trans (.withRam _) hconfigured

theorem Relinked.setGuestMemory (memory : Option ℕ) :
    (cache.setGuestMemory memory).Relinked cache := by
  unfold BlockCache.setGuestMemory
  split
  · exact .refl
  · exact .empty rfl rfl rfl

theorem Relinked.invalidateBucket (physicalAddress lastAddress page : U64) (fuel : ℕ)
    (link : Option PageLink) :
    (invalidateBucket physicalAddress lastAddress page fuel link cache).Relinked cache := by
  induction fuel generalizing link cache with
  | zero => cases link <;> exact .refl
  | succ fuel ih =>
    cases link with
    | none => exact .refl
    | some link =>
      unfold BlockCache.invalidateBucket
      refine .trans (ih _) ?_
      split
      · exact .invalidateEntry
      · exact .refl

theorem Relinked.invalidatePages (physicalAddress lastAddress : U64) (fuel : ℕ) (page : U64) :
    (invalidatePages physicalAddress lastAddress fuel page cache).Relinked cache := by
  induction fuel generalizing page cache with
  | zero => exact .refl
  | succ fuel ih =>
    have hbucket : (BlockCache.invalidateBucket physicalAddress lastAddress page 65536
        (cache.pageBucketHeads (pageBucket page)) cache).Relinked cache := .invalidateBucket ..
    unfold BlockCache.invalidatePages
    dsimp only
    split
    · exact hbucket
    · exact .trans (ih _) hbucket

theorem Relinked.invalidatePhysicalRange (physicalAddress byteCount : U64) :
    (cache.invalidatePhysicalRange physicalAddress byteCount).Relinked cache := by
  unfold BlockCache.invalidatePhysicalRange
  split
  · exact .refl
  · dsimp only
    generalize (if physicalAddress + (byteCount - 1) < physicalAddress then
      0xffffffffffffffff#64 else physicalAddress + (byteCount - 1)) = lastAddress
    generalize (if cache.trackedPageCount = 0 then 0 else cache.trackedFirstPage +
      (BitVec.ofNat 64 (cache.trackedPageCount - 1) <<< 12) : U64) = trackedLastPage
    split
    · exact .refl
    · split
      · have hbumped := (bumpCodePages_same (List.range'
          ((pageOf physicalAddress - cache.trackedFirstPage) >>> 12).toNat
          (((pageOf lastAddress - pageOf physicalAddress) >>> 12).toNat + 1))
          (false, cache)).relinked
        split
        · rename_i cache' hfolded
          rw [hfolded] at hbumped
          have hepoch : SameIndex { cache' with
            codeMutationEpoch := advanceNonzeroCounter cache'.codeMutationEpoch } cache' := ⟨rfl, id⟩
          exact .trans hepoch.relinked hbumped
        · rename_i cache' hfolded
          rw [hfolded] at hbumped
          exact hbumped
      · exact .invalidatePages physicalAddress lastAddress _ _

end BlockCache

namespace BlockWorld

open BlockCache

variable {σ : Type} {source : CodeSource σ} {w : BlockWorld σ} {bound : ℕ} {index : BlockIndex}

theorem probeEntry_relinked (w : BlockWorld σ) (key : BlockKey) (index : BlockIndex) :
    (w.probeEntry source key index).2.cache.Relinked w.cache := by
  have hcurrent := (w.entryCodeIsCurrent_same source index).relinked
  unfold probeEntry
  dsimp only
  split
  · split
    · rename_i w' hstale
      rw [hstale] at hcurrent
      exact .trans .discardStaleEntry hcurrent
    · rename_i w' hfresh
      rw [hfresh] at hcurrent
      refine .trans ?_ hcurrent
      exact (SameIndex.touchEntry.trans SameIndex.recordPrefetchHit).relinked
  · exact .refl

theorem probeFront_relinked (w : BlockWorld σ) (key : BlockKey) (hash : U64) :
    (w.probeFront source key hash).2.cache.Relinked w.cache := by
  unfold probeFront
  split
  · rename_i known index _
    have hprobed : (w.probeEntry source key index).2.cache.Relinked w.cache :=
      probeEntry_relinked w key index
    split
    · split
      · rename_i hhit
        rw [hhit] at hprobed
        exact hprobed
      · rename_i hmiss
        rw [hmiss] at hprobed
        exact hprobed
    · exact .refl
  · exact .refl

theorem probeSet_relinked (key : BlockKey) (hash : U64) (ways : List (Fin 4))
    (firstInvalid : Option BlockIndex) (w : BlockWorld σ) :
    (probeSet source key hash ways firstInvalid w).2.cache.Relinked w.cache := by
  induction ways generalizing firstInvalid w with
  | nil => exact .refl
  | cons way ways ih =>
    have hprobed : (w.probeEntry source key (blockSetIndex hash, way)).2.cache.Relinked w.cache :=
      probeEntry_relinked w key _
    unfold probeSet
    dsimp only
    split
    · rename_i w' hhit
      rw [hhit] at hprobed
      exact .trans (SameIndex.updateFrontCache hash).relinked hprobed
    · rename_i w' hmiss
      rw [hmiss] at hprobed
      exact .trans (ih _ w') hprobed

theorem fill_relinked {block : DecodedBlock}
    (hunlinked : ∀ slot, w.cache.slotPage (index, slot) = none) :
    ((w.writeEntry source block index).indexEntry source index).cache.Relinked w.cache := by
  let written := w.writeEntry source block index
  let pages := entryPages (written.cache.entries index).block.instructions
  have hwritten : written.cache.Relinked w.cache :=
    .trans SameIndex.touchEntry.relinked (.same ⟨rfl, rfl, rfl⟩)
  have hcache : (indexPages source index [0, 1] pages written).2.cache =
      linkPages index [0, 1] pages written.cache := indexPages_cache [0, 1] pages written
  have hindexed : (written.indexEntry source index).cache.Relinked
      (linkPages index [0, 1] pages written.cache) := by
    rw [← hcache]
    exact .setEntry _
  exact hindexed.trans (.trans (.link hunlinked (entryPages_ok _)) hwritten)

theorem installBlock_relinked {block : DecodedBlock} {hash : U64} {firstInvalid : Option BlockIndex}
    (h : w.cache.Kept none bound)
    (hfree : ∀ index ∈ firstInvalid, (w.cache.entries index).valid = false) :
    (w.installBlock source block hash firstInvalid).2.cache.Relinked w.cache := by
  rcases firstInvalid with _ | index
  · refine .trans (SameIndex.updateFrontCache hash).relinked (.trans (fill_relinked ?_) .evictEntry)
    exact evictEntry_slotPage
  · refine .trans (SameIndex.updateFrontCache hash).relinked (fill_relinked fun slot => ?_)
    have hinvalid := hfree index rfl
    have hslot : w.cache.slotPage (index, slot) = none := by
      rw [h.index.slots _ (by simp), entrySlot, hinvalid]
      rfl
    exact hslot

theorem decodeMiss_relinked {key : BlockKey} {hash : U64} {firstInvalid : Option BlockIndex}
    (h : w.cache.Kept none bound)
    (hfree : ∀ index ∈ firstInvalid, (w.cache.entries index).valid = false) :
    (w.decodeMiss source key hash firstInvalid).2.cache.Relinked w.cache := by
  have hsame := w.decodeBlock_same source key
  unfold decodeMiss
  split
  · rename_i block w' hdecoded
    rw [hdecoded] at hsame
    split
    · exact hsame.relinked
    · refine .trans (installBlock_relinked (hsame.kept h) fun index hindex => ?_) hsame.relinked
      exact (hsame.valid index).trans (hfree index hindex)
  · rename_i status block w' hdecoded
    rw [hdecoded] at hsame
    exact hsame.relinked

theorem lookupOrDecode_relinked (h : w.cache.Kept none bound) (key : BlockKey) :
    (w.lookupOrDecode source key).2.cache.Relinked w.cache := by
  obtain ⟨hhash, hhashed⟩ := keyHash_spec h.context key
  have hkept : (w.cache.keyHash key).2.Kept none bound := hhashed.kept h
  unfold lookupOrDecode
  dsimp only
  rw [hhash]
  refine .trans ?_ hhashed.relinked
  have hfront := probeFront_probed source (w := { w with cache := (w.cache.keyHash key).2 }) hkept
    key key.hash
  have hlinks : (BlockWorld.probeFront source { w with cache := (w.cache.keyHash key).2 } key
      key.hash).2.cache.Relinked (w.cache.keyHash key).2 := probeFront_relinked _ key key.hash
  split
  · rename_i index w' hhit
    rw [hhit] at hlinks
    exact hlinks
  · rename_i w' hmiss
    rw [hmiss] at hfront hlinks
    refine .trans ?_ hlinks
    obtain ⟨hprobed, hmissed⟩ := probeSet_probed source key key.hash [0, 1, 2, 3] none w'
      hfront.kept (by simp)
    have hset : (probeSet source key key.hash [0, 1, 2, 3] none w').2.cache.Relinked w'.cache :=
      probeSet_relinked key key.hash _ none w'
    split
    · rename_i index first w'' hhit
      rw [hhit] at hset
      exact hset
    · rename_i firstInvalid w'' hnone
      rw [hnone] at hprobed hmissed hset
      exact .trans (decodeMiss_relinked hprobed.kept fun index hindex =>
        ((hmissed rfl).2 index hindex).2) hset

theorem batchPrefetch_relinked (first : BlockKey) (protectedSet : Fin 8192) (batch : List ℕ)
    (current : BlockIndex) (w : BlockWorld σ) (h : w.cache.Kept none bound) :
    (batchPrefetch source first protectedSet batch current w).cache.Relinked w.cache := by
  induction batch generalizing current w bound with
  | nil => exact .refl
  | cons batchIndex rest ih =>
    unfold batchPrefetch
    split
    · exact .refl
    · split
      · exact .refl
      · rename_i key _
        have hhashed := (keyHash_spec h.context key).2
        have hkept : (w.cache.keyHash key).2.Kept none bound := hhashed.kept h
        dsimp only
        split
        · exact hhashed.relinked
        · refine .trans ?_ hhashed.relinked
          have hlooked := lookupOrDecode_kept source (w := { w with cache := (w.cache.keyHash key).2 })
            hkept key.canonical
          have hlinks : (BlockWorld.lookupOrDecode source { w with cache := (w.cache.keyHash key).2 }
              key.canonical).2.cache.Relinked (w.cache.keyHash key).2 :=
            lookupOrDecode_relinked hkept key.canonical
          split
          · rename_i next w' hnext
            rw [hnext] at hlooked hlinks
            exact .trans (ih next.index w' hlooked) hlinks
          · rename_i w' _ hnext
            rw [hnext] at hlinks
            exact hlinks

theorem getOrDecode_relinked (h : w.cache.Kept none bound) (key : BlockKey) :
    (w.getOrDecode source key).2.cache.Relinked w.cache := by
  have hlooked := lookupOrDecode_kept source h key.canonical
  have hlinks : (w.lookupOrDecode source key.canonical).2.cache.Relinked w.cache :=
    lookupOrDecode_relinked h key.canonical
  unfold getOrDecode
  dsimp only
  split
  · rename_i status w' hmiss
    rw [hmiss] at hlinks
    exact hlinks
  · rename_i result status w' hfound
    rw [hfound] at hlooked hlinks
    split
    · have hactive : ∀ (cache : BlockCache) (active : Bool),
          SameIndex { cache with batchPrefetchActive := active } cache := fun _ _ => ⟨rfl, id⟩
      have hprefetched : (batchPrefetch source key.canonical result.index.1 [0, 1, 2] result.index
          { w' with cache := { w'.cache with batchPrefetchActive := true } }).cache.Relinked
          { w'.cache with batchPrefetchActive := true } :=
        batchPrefetch_relinked key.canonical result.index.1 [0, 1, 2] result.index _
          ((hactive _ _).kept hlooked)
      exact .trans (hactive _ _).relinked (hprefetched.trans (.trans (hactive _ _).relinked hlinks))
    · exact hlinks

theorem step_relinked (h : w.cache.Kept none bound) (event : BlockCacheEvent σ) :
    (w.step source event).cache.Relinked w.cache := by
  cases event with
  | getOrDecode key => exact getOrDecode_relinked h key
  | codeIsCurrent index => exact (codeIsCurrent_same index).relinked
  | invalidatePhysicalRange physicalAddress byteCount =>
    exact .invalidatePhysicalRange physicalAddress byteCount
  | clear => exact .clear
  | configurePhysicalRange physicalAddress byteCount =>
    exact .configurePhysicalRange physicalAddress byteCount
  | bindPhysicalMemory ram => exact .bindPhysicalMemory ram
  | setGuestMemory memory => exact .setGuestMemory memory
  | setMappingValidator validator => exact (SameIndex.setMappingValidator validator).relinked
  | invalidateTranslationMappings => exact SameIndex.invalidateTranslationMappings.relinked
  | invalidateDecodeWindow => exact SameIndex.invalidateDecodeWindow.relinked
  | registerTraceCodePage page => exact (SameIndex.registerTraceCodePage page).relinked
  | outside change => exact .refl

theorem run_relinked (events : List (BlockCacheEvent σ)) (h : w.cache.Kept none bound) :
    (w.run source events).cache.Relinked w.cache := by
  induction events generalizing w bound with
  | nil => exact .refl
  | cons event events ih =>
    have hnext : (w.step source event).cache.Kept none (bound + 4) := step_kept h event
    exact .trans (ih hnext) (step_relinked h event)

end BlockWorld

end Pinecone
