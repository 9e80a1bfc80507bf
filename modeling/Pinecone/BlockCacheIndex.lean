import Pinecone.BlockPageIndex

/-! The entries of the block cache agree with its page index, and lie in the sets of their keys. -/

namespace Pinecone

/-- The hash that `avz_block_key_hash` returns. -/
def BlockKey.hash (key : BlockKey) : U64 := mixU64 (mixU64 key.pc ^^^ key.contextHash)

namespace BlockCache

/-- The page of a slot, by the instructions of its entry. -/
def entrySlot (cache : BlockCache) (link : PageLink) : Option U64 :=
  if (cache.entries link.1).valid then
    (BlockWorld.entryPages (cache.entries link.1).block.instructions)[link.2.val]?
  else none

/-- The entry is valid and not the one that is being replaced. -/
def Live (cache : BlockCache) (hole : Option BlockIndex) (index : BlockIndex) : Prop :=
  (cache.entries index).valid = true ∧ hole ≠ some index

/-- The entries but the one being replaced, if any, are linked for their pages. -/
structure IndexKept (cache : BlockCache) (hole : Option BlockIndex) : Prop where
  pages : cache.PageIndex
  slots : ∀ link, hole ≠ some link.1 → cache.slotPage link = cache.entrySlot link
  unique : ∀ i j, cache.Live hole i → cache.Live hole j →
    (cache.entries i).block.key = (cache.entries j).block.key → i = j
  sets : ∀ i, cache.Live hole i → blockSetIndex (cache.entries i).block.key.hash = i.1
  serials : ∀ i, cache.Live hole i → (cache.entries i).serial ≠ 0#64

/-- The remembered hash is that of its context. -/
def ContextKnown (cache : BlockCache) : Prop :=
  ∀ key hash, cache.lastContext = some (key, hash) → hash = key.contextHash

/-- The serials of the entries are distinct, and at most `bound` were issued. -/
structure Numbered (cache : BlockCache) (hole : Option BlockIndex) (bound : ℕ) : Prop where
  bounded : cache.nextSerial.toNat ≤ bound
  issued : ∀ i, cache.Live hole i → (cache.entries i).serial.toNat ≤ cache.nextSerial.toNat
  distinct : ∀ i j, cache.Live hole i → cache.Live hole j →
    (cache.entries i).serial = (cache.entries j).serial → i = j

/-- What every operation keeps, with the serials as long as the counter does not wrap. -/
structure Kept (cache : BlockCache) (hole : Option BlockIndex) (bound : ℕ) : Prop where
  index : cache.IndexKept hole
  context : cache.ContextKnown
  numbered : bound < 2 ^ 64 → cache.Numbered hole bound

/-- What the index invariant reads of an entry. -/
structure EntryView where
  valid : Bool
  serial : U64
  key : BlockKey
  instructions : List BlockInstruction

end BlockCache

def BlockCacheEntry.view (entry : BlockCacheEntry) : BlockCache.EntryView :=
  ⟨entry.valid, entry.serial, entry.block.key, entry.block.instructions⟩

namespace BlockCache

/-- What the index invariant reads of the cache. -/
structure IndexView where
  entries : BlockIndex → EntryView
  pageLinks : NodeLinks PageLink
  linkPage : PageLink → U64
  linked : PageLink → Bool
  pageBucketHeads : Fin 16384 → Option PageLink
  tracksPages : Bool
  trackedFirstPage : U64
  trackedPageCount : ℕ
  codePageRefcounts : ℕ → BitVec 16
  nextSerial : U64

def indexView (cache : BlockCache) : IndexView where
  entries := fun index => (cache.entries index).view
  pageLinks := cache.pageLinks
  linkPage := cache.linkPage
  linked := cache.linked
  pageBucketHeads := cache.pageBucketHeads
  tracksPages := cache.tracksPages
  trackedFirstPage := cache.trackedFirstPage
  trackedPageCount := cache.trackedPageCount
  codePageRefcounts := cache.codePageRefcounts
  nextSerial := cache.nextSerial

/-- The operation does not touch the index. -/
structure SameIndex (cache' cache : BlockCache) : Prop where
  view : cache'.indexView = cache.indexView
  context : cache.ContextKnown → cache'.ContextKnown

variable {cache cache' cache'' : BlockCache} {hole : Option BlockIndex} {bound : ℕ}
  {index : BlockIndex}

theorem SameIndex.refl : cache.SameIndex cache := ⟨rfl, id⟩

theorem SameIndex.trans (h : cache''.SameIndex cache') (h' : cache'.SameIndex cache) :
    cache''.SameIndex cache :=
  ⟨h.view.trans h'.view, fun hcontext => h.context (h'.context hcontext)⟩

theorem SameIndex.entry (h : cache'.SameIndex cache) (index : BlockIndex) :
    (cache'.entries index).view = (cache.entries index).view :=
  congrFun (congrArg IndexView.entries h.view) index

theorem SameIndex.valid (h : cache'.SameIndex cache) (index : BlockIndex) :
    (cache'.entries index).valid = (cache.entries index).valid :=
  congrArg EntryView.valid (h.entry index)

theorem SameIndex.serial (h : cache'.SameIndex cache) (index : BlockIndex) :
    (cache'.entries index).serial = (cache.entries index).serial :=
  congrArg EntryView.serial (h.entry index)

theorem SameIndex.key (h : cache'.SameIndex cache) (index : BlockIndex) :
    (cache'.entries index).block.key = (cache.entries index).block.key :=
  congrArg EntryView.key (h.entry index)

theorem SameIndex.instructions (h : cache'.SameIndex cache) (index : BlockIndex) :
    (cache'.entries index).block.instructions = (cache.entries index).block.instructions :=
  congrArg EntryView.instructions (h.entry index)

theorem SameIndex.nextSerial (h : cache'.SameIndex cache) : cache'.nextSerial = cache.nextSerial :=
  congrArg IndexView.nextSerial h.view

theorem SameIndex.slotPage (h : cache'.SameIndex cache) : cache'.slotPage = cache.slotPage := by
  have hlinked : cache'.linked = cache.linked := congrArg IndexView.linked h.view
  have hpage : cache'.linkPage = cache.linkPage := congrArg IndexView.linkPage h.view
  funext link
  rw [BlockCache.slotPage, BlockCache.slotPage, hlinked, hpage]

theorem SameIndex.pageIndex (h : cache'.SameIndex cache) (hpages : cache.PageIndex) :
    cache'.PageIndex := by
  have hslots := h.slotPage
  have hlinks : cache'.pageLinks = cache.pageLinks := congrArg IndexView.pageLinks h.view
  have hheads : cache'.pageBucketHeads = cache.pageBucketHeads :=
    congrArg IndexView.pageBucketHeads h.view
  have htracks : cache'.tracksPages = cache.tracksPages := congrArg IndexView.tracksPages h.view
  have hfirst : cache'.trackedFirstPage = cache.trackedFirstPage :=
    congrArg IndexView.trackedFirstPage h.view
  have hcount : cache'.trackedPageCount = cache.trackedPageCount :=
    congrArg IndexView.trackedPageCount h.view
  have hrefcounts : cache'.codePageRefcounts = cache.codePageRefcounts :=
    congrArg IndexView.codePageRefcounts h.view
  have htracked : cache'.trackedPageIndex = cache.trackedPageIndex := by
    funext page
    simp only [trackedPageIndex, htracks, hfirst, hcount]
  have hlinksOf : ∀ index, cache'.linksOf index = cache.linksOf index := by
    intro index
    ext link
    rw [mem_linksOf, mem_linksOf, hslots, htracked]
  refine ⟨?_, ?_, hfirst ▸ hpages.firstPage, ?_, ?_⟩
  · rw [hslots, hlinks, hheads]
    exact hpages.buckets
  · rw [htracks, hcount, hrefcounts]
    simpa only [hlinksOf] using hpages.refcounts
  · rw [hslots]
    exact hpages.aligned
  · rw [hslots]
    exact hpages.distinct

theorem SameIndex.live (h : cache'.SameIndex cache) : cache'.Live hole index ↔ cache.Live hole index := by
  rw [Live, Live, h.valid]

theorem SameIndex.kept (h : cache'.SameIndex cache) (hkept : cache.Kept hole bound) :
    cache'.Kept hole bound := by
  have hindex := hkept.index
  refine ⟨⟨h.pageIndex hindex.pages, fun link hlink => ?_, fun i j hi hj hkey => ?_, fun i hi => ?_,
    fun i hi => ?_⟩, h.context hkept.context, fun hbound => ⟨?_, fun i hi => ?_,
    fun i j hi hj hserial => ?_⟩⟩
  · rw [h.slotPage, hindex.slots link hlink, entrySlot, entrySlot, h.valid, h.instructions]
  · rw [h.key, h.key] at hkey
    exact hindex.unique i j (h.live.mp hi) (h.live.mp hj) hkey
  · rw [h.key]
    exact hindex.sets i (h.live.mp hi)
  · rw [h.serial]
    exact hindex.serials i (h.live.mp hi)
  · rw [h.nextSerial]
    exact (hkept.numbered hbound).bounded
  · rw [h.serial, h.nextSerial]
    exact (hkept.numbered hbound).issued i (h.live.mp hi)
  · rw [h.serial, h.serial] at hserial
    exact (hkept.numbered hbound).distinct i j (h.live.mp hi) (h.live.mp hj) hserial

theorem Kept.mono (h : cache.Kept hole bound) {bound' : ℕ} (hle : bound ≤ bound') :
    cache.Kept hole bound' := by
  refine ⟨h.index, h.context, fun hbound => ?_⟩
  have hnumbered := h.numbered (lt_of_le_of_lt hle hbound)
  exact ⟨hnumbered.bounded.trans hle, hnumbered.issued, hnumbered.distinct⟩

section SameIndex

theorem SameIndex.setEntry {entry : BlockCacheEntry}
    (h : entry.view = (cache.entries index).view) : (cache.setEntry index entry).SameIndex cache := by
  refine ⟨?_, id⟩
  have hentries : (fun other => ((cache.setEntry index entry).entries other).view) =
      fun other => (cache.entries other).view := by
    funext other
    by_cases hother : other = index
    · subst hother
      simpa [BlockCache.setEntry] using h
    · simp [BlockCache.setEntry, hother]
  simp only [indexView, hentries]
  rfl

theorem SameIndex.recordPrefetchOutcome (useful : Bool) :
    (cache.recordPrefetchOutcome useful).SameIndex cache := by
  unfold BlockCache.recordPrefetchOutcome
  dsimp only
  split_ifs
  all_goals exact ⟨rfl, id⟩

theorem SameIndex.retireUnusedPrefetch : (cache.retireUnusedPrefetch index).SameIndex cache := by
  unfold BlockCache.retireUnusedPrefetch
  dsimp only
  split
  · exact (SameIndex.recordPrefetchOutcome false).trans (.setEntry rfl)
  · exact .refl

theorem SameIndex.recordPrefetchHit : (cache.recordPrefetchHit index).SameIndex cache := by
  unfold BlockCache.recordPrefetchHit
  dsimp only
  split
  · exact (SameIndex.recordPrefetchOutcome true).trans (.setEntry rfl)
  · exact .refl

theorem SameIndex.touchEntry : (cache.touchEntry index).SameIndex cache := by
  have hset : (cache.setEntry index { cache.entries index with
      lastUsed := advanceNonzeroCounter cache.accessClock }).SameIndex cache := .setEntry rfl
  exact ⟨hset.view, id⟩

theorem SameIndex.updateFrontCache (hash : U64) :
    (cache.updateFrontCache hash index).SameIndex cache := ⟨rfl, id⟩

theorem SameIndex.invalidateDecodeWindow : cache.invalidateDecodeWindow.SameIndex cache := ⟨rfl, id⟩

theorem SameIndex.invalidateTranslationMappings :
    cache.invalidateTranslationMappings.SameIndex cache := ⟨rfl, id⟩

theorem SameIndex.setMappingValidator (validator : Option ℕ) :
    (cache.setMappingValidator validator).SameIndex cache := by
  unfold BlockCache.setMappingValidator
  split
  · exact .refl
  · exact ⟨rfl, id⟩

theorem SameIndex.registerTraceCodePage (page : U64) :
    (cache.registerTraceCodePage page).2.SameIndex cache := by
  unfold BlockCache.registerTraceCodePage
  split
  · exact .refl
  · split
    · exact .refl
    · exact ⟨rfl, id⟩

theorem contextHash_of_contextsEqual {left right : BlockKey} (h : left.contextsEqual right) :
    left.contextHash = right.contextHash := by
  obtain ⟨hsctlr, htcr, httbr0, httbr1, hel⟩ := h
  simp only [BlockKey.contextHash, hsctlr, htcr, httbr0, httbr1, hel]

theorem contextHash_spec (hknown : cache.ContextKnown) (key : BlockKey) :
    (cache.contextHash key).1 = key.contextHash ∧ (cache.contextHash key).2.SameIndex cache := by
  have hmiss : SameIndex { cache with lastContext := some (key, key.contextHash) } cache := by
    refine ⟨rfl, fun _ => ?_⟩
    rintro known hash hlast
    obtain ⟨rfl, rfl⟩ := Prod.mk.inj (Option.some.inj hlast)
    rfl
  unfold BlockCache.contextHash
  dsimp only
  split
  · rename_i last hash hlast
    split
    · rename_i hequal
      exact ⟨(hknown last hash hlast).trans (contextHash_of_contextsEqual hequal), .refl⟩
    · exact ⟨rfl, hmiss⟩
  · exact ⟨rfl, hmiss⟩

theorem keyHash_spec (hknown : cache.ContextKnown) (key : BlockKey) :
    (cache.keyHash key).1 = key.hash ∧ (cache.keyHash key).2.SameIndex cache := by
  obtain ⟨hhash, hsame⟩ := contextHash_spec hknown key
  rw [keyHash, BlockKey.hash, ← hhash]
  exact ⟨rfl, hsame⟩

end SameIndex

end BlockCache

end Pinecone
