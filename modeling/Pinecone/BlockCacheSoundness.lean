import Pinecone.BlockCacheIndex

/-! Lookups, evictions and invalidations keep the index of the block cache. -/

namespace Pinecone

namespace BlockCache

variable {cache cache' : BlockCache} {hole : Option BlockIndex} {bound : ℕ} {index : BlockIndex}

section remove

theorem retireUnusedPrefetch_same (cache : BlockCache) (index : BlockIndex) :
    (cache.retireUnusedPrefetch index).SameIndex cache :=
  .retireUnusedPrefetch

theorem unlinkPageLink_frame (cache : BlockCache) (link : PageLink) :
    (cache.unlinkPageLink link).entries = cache.entries ∧
      (cache.unlinkPageLink link).nextSerial = cache.nextSerial ∧
      (cache.unlinkPageLink link).lastContext = cache.lastContext := by
  rcases hpage : cache.slotPage link with _ | page
  · rw [unlinkPageLink_of_unlinked hpage]
    exact ⟨rfl, rfl, rfl⟩
  · have hrelinks := unlinkPageLink_relinks hpage
    exact ⟨hrelinks.entries, hrelinks.nextSerial, hrelinks.lastContext⟩

theorem unindexEntry_frame (cache : BlockCache) (index : BlockIndex) :
    (cache.unindexEntry index).entries = cache.entries ∧
      (cache.unindexEntry index).nextSerial = cache.nextSerial ∧
      (cache.unindexEntry index).lastContext = cache.lastContext := by
  obtain ⟨hentries, hserial, hcontext⟩ := unlinkPageLink_frame cache (index, 0)
  obtain ⟨hentries', hserial', hcontext'⟩ :=
    unlinkPageLink_frame (cache.unlinkPageLink (index, 0)) (index, 1)
  exact ⟨hentries'.trans hentries, hserial'.trans hserial, hcontext'.trans hcontext⟩

theorem Live.of_some {i : BlockIndex} (h : cache.Live (some index) i) : cache.Live none i :=
  ⟨h.1, by simp⟩

theorem Live.ne {i : BlockIndex} (h : cache.Live (some index) i) : i ≠ index := by
  rintro rfl
  exact h.2 rfl

theorem entrySlot_congr (h : cache'.entries = cache.entries) : cache'.entrySlot = cache.entrySlot := by
  funext link
  rw [entrySlot, entrySlot, h]

theorem Kept.unindex (h : cache.Kept none bound) : (cache.unindexEntry index).Kept (some index) bound := by
  obtain ⟨hentries, hserial, hcontext⟩ := unindexEntry_frame cache index
  have hlive : ∀ i, (cache.unindexEntry index).Live (some index) i → cache.Live none i := by
    intro i hi
    refine ⟨?_, by simp⟩
    rw [← hentries]
    exact hi.1
  refine ⟨⟨h.index.pages.unindexEntry, fun link hlink => ?_, fun i j hi hj => ?_, fun i hi => ?_,
    fun i hi => ?_⟩, ?_, fun hbound => ⟨?_, fun i hi => ?_, fun i j hi hj => ?_⟩⟩
  · have hne : ¬ link.1 = index := fun heq => hlink (by rw [heq])
    rw [unindexEntry_slotPage, entrySlot_congr hentries, if_neg hne]
    exact h.index.slots link (by simp)
  · rw [hentries]
    exact h.index.unique i j (hlive i hi) (hlive j hj)
  · rw [hentries]
    exact h.index.sets i (hlive i hi)
  · rw [hentries]
    exact h.index.serials i (hlive i hi)
  · rw [ContextKnown, hcontext]
    exact h.context
  · rw [hserial]
    exact (h.numbered hbound).bounded
  · rw [hserial, hentries]
    exact (h.numbered hbound).issued i (hlive i hi)
  · rw [hentries]
    exact (h.numbered hbound).distinct i j (hlive i hi) (hlive j hj)

theorem Kept.setEntry_hole (h : cache.Kept (some index) bound) (entry : BlockCacheEntry) :
    (cache.setEntry index entry).Kept (some index) bound := by
  have hentry : ∀ i, i ≠ index → (cache.setEntry index entry).entries i = cache.entries i := by
    intro i hi
    simp [setEntry, hi]
  have hlive : ∀ i, (cache.setEntry index entry).Live (some index) i → cache.Live (some index) i := by
    intro i hi
    refine ⟨?_, hi.2⟩
    rw [← hentry i hi.ne]
    exact hi.1
  have hpages : (cache.setEntry index entry).PageIndex := ⟨h.index.pages.buckets,
    fun htracks i hi => by
      rw [← show cache.linksOf i = (cache.setEntry index entry).linksOf i by
        ext link
        rw [mem_linksOf, mem_linksOf]
        rfl]
      exact h.index.pages.refcounts htracks i hi,
    h.index.pages.firstPage, h.index.pages.aligned, h.index.pages.distinct⟩
  refine ⟨⟨hpages, fun link hlink => ?_, fun i j hi hj => ?_, fun i hi => ?_,
    fun i hi => ?_⟩, h.context, fun hbound => ⟨(h.numbered hbound).bounded, fun i hi => ?_,
    fun i j hi hj => ?_⟩⟩
  · have hne : link.1 ≠ index := fun heq => hlink (by rw [heq])
    rw [entrySlot, hentry link.1 hne]
    exact h.index.slots link hlink
  · rw [hentry i hi.ne, hentry j hj.ne]
    exact h.index.unique i j (hlive i hi) (hlive j hj)
  · rw [hentry i hi.ne]
    exact h.index.sets i (hlive i hi)
  · rw [hentry i hi.ne]
    exact h.index.serials i (hlive i hi)
  · rw [hentry i hi.ne]
    exact (h.numbered hbound).issued i (hlive i hi)
  · rw [hentry i hi.ne, hentry j hj.ne]
    exact (h.numbered hbound).distinct i j (hlive i hi) (hlive j hj)

theorem Kept.opened (h : cache.Kept none bound) : cache.Kept (some index) bound :=
  ⟨⟨h.index.pages, fun link _ => h.index.slots link (by simp),
    fun i j hi hj => h.index.unique i j hi.of_some hj.of_some,
    fun i hi => h.index.sets i hi.of_some, fun i hi => h.index.serials i hi.of_some⟩, h.context,
    fun hbound => ⟨(h.numbered hbound).bounded, fun i hi => (h.numbered hbound).issued i hi.of_some,
      fun i j hi hj => (h.numbered hbound).distinct i j hi.of_some hj.of_some⟩⟩

theorem Kept.closed (h : cache.Kept (some index) bound)
    (hinvalid : (cache.entries index).valid = false)
    (hunlinked : ∀ slot, cache.slotPage (index, slot) = none) : cache.Kept none bound := by
  have hlive : ∀ i, cache.Live none i → cache.Live (some index) i := by
    intro i hi
    refine ⟨hi.1, fun hindex => ?_⟩
    obtain rfl := Option.some.inj hindex
    exact absurd hi.1 (by simp [hinvalid])
  refine ⟨⟨h.index.pages, fun link _ => ?_,
    fun i j hi hj => h.index.unique i j (hlive i hi) (hlive j hj),
    fun i hi => h.index.sets i (hlive i hi), fun i hi => h.index.serials i (hlive i hi)⟩, h.context,
    fun hbound => ⟨(h.numbered hbound).bounded,
      fun i hi => (h.numbered hbound).issued i (hlive i hi),
      fun i j hi hj => (h.numbered hbound).distinct i j (hlive i hi) (hlive j hj)⟩⟩
  by_cases hlink : some index = some link.1
  · obtain rfl := Option.some.inj hlink
    rw [hunlinked link.2, entrySlot, hinvalid]
    rfl
  · exact h.index.slots link hlink

/-- The entries that are still valid are as they were. -/
def Shrinks (cache' cache : BlockCache) : Prop :=
  ∀ i, (cache'.entries i).valid = true → (cache'.entries i).view = (cache.entries i).view

theorem Shrinks.refl : cache.Shrinks cache := fun _ _ => rfl

theorem Shrinks.trans {cache'' : BlockCache} (h : cache''.Shrinks cache')
    (h' : cache'.Shrinks cache) : cache''.Shrinks cache := by
  intro i hi
  have hview := h i hi
  have hvalid : (cache'.entries i).valid = true := by
    have heq := congrArg EntryView.valid hview
    exact heq.symm.trans hi
  exact hview.trans (h' i hvalid)

theorem SameIndex.shrinks (h : cache'.SameIndex cache) : cache'.Shrinks cache :=
  fun i _ => h.entry i

theorem Shrinks.valid (h : cache'.Shrinks cache) {i : BlockIndex}
    (hi : (cache'.entries i).valid = true) : (cache.entries i).valid = true :=
  (congrArg EntryView.valid (h i hi)).symm.trans hi

theorem Shrinks.key (h : cache'.Shrinks cache) {i : BlockIndex}
    (hi : (cache'.entries i).valid = true) :
    (cache'.entries i).block.key = (cache.entries i).block.key :=
  congrArg EntryView.key (h i hi)

/-- The entry without its links, and made invalid. -/
def dropEntry (cache : BlockCache) (index : BlockIndex) (epoch : U64) : BlockCache :=
  let cache := (cache.retireUnusedPrefetch index).unindexEntry index
  cache.setEntry index { cache.entries index with
    valid := false, serial := 0, validatedCodeMutationEpoch := epoch }

theorem dropEntry_invalid (epoch : U64) : ((cache.dropEntry index epoch).entries index).valid = false := by
  simp [dropEntry, setEntry]

theorem Kept.dropEntry (h : cache.Kept none bound) (epoch : U64) :
    (cache.dropEntry index epoch).Kept none bound := by
  have hkept : (cache.dropEntry index epoch).Kept (some index) bound :=
    (SameIndex.retireUnusedPrefetch.kept h).unindex.setEntry_hole _
  refine hkept.closed (dropEntry_invalid epoch) fun slot => ?_
  have hslot : (cache.dropEntry index epoch).slotPage =
    ((cache.retireUnusedPrefetch index).unindexEntry index).slotPage := rfl
  rw [hslot, unindexEntry_slotPage, if_pos rfl]

theorem dropEntry_shrinks (epoch : U64) : (cache.dropEntry index epoch).Shrinks cache := by
  intro i hi
  have hne : i ≠ index := by
    rintro rfl
    simp [dropEntry, setEntry] at hi
  have hsame := (retireUnusedPrefetch_same cache index).entry i
  have hentries := (unindexEntry_frame (cache.retireUnusedPrefetch index) index).1
  rw [← hsame, ← hentries]
  simp [dropEntry, setEntry, hne]

theorem discardStaleEntry_same (h : (cache.entries index).valid = true) :
    (cache.discardStaleEntry index).SameIndex (cache.dropEntry index 0) := by
  unfold discardStaleEntry
  rw [if_pos h]
  exact ⟨rfl, id⟩

theorem invalidateEntry_same (h : (cache.entries index).valid = true) :
    ∃ epoch, (cache.invalidateEntry index).SameIndex (cache.dropEntry index epoch) := by
  unfold invalidateEntry
  rw [if_pos h]
  exact ⟨_, rfl, id⟩

theorem Kept.invalidateEntry (h : cache.Kept none bound) :
    (cache.invalidateEntry index).Kept none bound := by
  by_cases hvalid : (cache.entries index).valid = true
  · obtain ⟨epoch, hsame⟩ := invalidateEntry_same hvalid
    exact hsame.kept (h.dropEntry epoch)
  · rw [BlockCache.invalidateEntry, if_neg hvalid]
    exact h

theorem Kept.evictEntry (h : cache.Kept none bound) :
    (cache.evictEntry index).Kept (some index) bound := by
  have hretired := (retireUnusedPrefetch_same cache index).kept h
  have hunlinked : ((cache.retireUnusedPrefetch index).unindexEntry index).Kept (some index) bound :=
    hretired.unindex
  have hsame : (cache.evictEntry index).SameIndex
      (((cache.retireUnusedPrefetch index).unindexEntry index).setEntry index
        { ((cache.retireUnusedPrefetch index).unindexEntry index).entries index with
          serial := 0 }) := ⟨rfl, id⟩
  exact hsame.kept (hunlinked.setEntry_hole _)

theorem evictEntry_slotPage (slot : Fin 2) : (cache.evictEntry index).slotPage (index, slot) = none := by
  have hslot : (cache.evictEntry index).slotPage =
    ((cache.retireUnusedPrefetch index).unindexEntry index).slotPage := rfl
  rw [hslot, unindexEntry_slotPage, if_pos rfl]

theorem evictEntry_entry {i : BlockIndex} (hne : i ≠ index) :
    ((cache.evictEntry index).entries i).view = (cache.entries i).view := by
  have hsame := (retireUnusedPrefetch_same cache index).entry i
  have hentries := (unindexEntry_frame (cache.retireUnusedPrefetch index) index).1
  rw [← hsame, ← hentries]
  simp [evictEntry, hne]

end remove

end BlockCache

end Pinecone
