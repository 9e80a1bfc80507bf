import Pinecone.BlockCacheSoundness

/-! A decoded block enters the block cache with its pages, under a serial that is new. -/

namespace Pinecone

namespace BlockWorld

variable {σ : Type} {source : CodeSource σ} {w : BlockWorld σ} {bound : ℕ} {index : BlockIndex}

section entryPages

/-- The pages of an entry: each once, on the page grid, as many as there are slots. -/
structure EntryPages (pages : List U64) : Prop where
  nodup : pages.Nodup
  aligned : ∀ page ∈ pages, page &&& 0xfff#64 = 0#64
  length : pages.length ≤ 2

theorem pageOf_aligned (address : U64) : pageOf address &&& 0xfff#64 = 0#64 := by
  unfold pageOf
  rw [BitVec.and_assoc]
  simp

theorem entryPages_ok (instructions : List BlockInstruction) : EntryPages (entryPages instructions) := by
  have hfold : ∀ pages, EntryPages pages → EntryPages (instructions.foldl (fun pages i =>
      let page := pageOf i.physicalAddress
      if page ∉ pages ∧ pages.length < blockMaxCodePages then pages ++ [page] else pages) pages) := by
    induction instructions with
    | nil => exact fun _ h => h
    | cons i rest ih =>
      intro pages h
      refine ih _ ?_
      dsimp only
      split
      · rename_i hnew
        refine ⟨?_, ?_, ?_⟩
        · rw [List.nodup_append]
          refine ⟨h.nodup, List.nodup_singleton _, ?_⟩
          intro page hpage page' hpage'
          rw [List.mem_singleton.mp hpage']
          exact ne_of_mem_of_not_mem hpage hnew.1
        · intro page hpage
          rcases List.mem_append.mp hpage with hpage | hpage
          · exact h.aligned page hpage
          · rw [List.mem_singleton.mp hpage]
            exact pageOf_aligned _
        · have hlt : pages.length < 2 := hnew.2
          simp only [List.length_append, List.length_singleton]
          omega
      · exact h
  exact hfold [] ⟨List.nodup_nil, by simp, by simp⟩

theorem mem_entryPages {instructions : List BlockInstruction} {all : List U64}
    (hall : ∀ i ∈ instructions, pageOf i.physicalAddress ∈ all) (hlength : all.length ≤ 2)
    (page : U64) :
    page ∈ entryPages instructions ↔ ∃ i ∈ instructions, pageOf i.physicalAddress = page := by
  have hfold : ∀ pages : List U64, pages.Nodup → (∀ page ∈ pages, page ∈ all) →
      (page ∈ instructions.foldl (fun pages i =>
        let page := pageOf i.physicalAddress
        if page ∉ pages ∧ pages.length < blockMaxCodePages then pages ++ [page] else pages) pages ↔
      page ∈ pages ∨ ∃ i ∈ instructions, pageOf i.physicalAddress = page) := by
    induction instructions with
    | nil => simp
    | cons i rest ih =>
      intro pages hnodup hsubset
      have hpage := hall i (List.mem_cons_self ..)
      have hrest : ∀ j ∈ rest, pageOf j.physicalAddress ∈ all :=
        fun j hj => hall j (List.mem_cons_of_mem _ hj)
      rw [List.foldl_cons]
      by_cases hold : pageOf i.physicalAddress ∈ pages
      · simp only [hold, not_true_eq_false, false_and, if_false]
        rw [ih hrest pages hnodup hsubset]
        constructor
        · rintro (hmem | ⟨j, hj, hpage⟩)
          · exact .inl hmem
          · exact .inr ⟨j, List.mem_cons_of_mem _ hj, hpage⟩
        · rintro (hmem | ⟨j, hj, rfl⟩)
          · exact .inl hmem
          · rcases List.mem_cons.mp hj with rfl | hj
            · exact .inl hold
            · exact .inr ⟨j, hj, rfl⟩
      · have hnew : (pages ++ [pageOf i.physicalAddress]).Nodup := by
          rw [List.nodup_append]
          refine ⟨hnodup, List.nodup_singleton _, ?_⟩
          intro other hother last hlast
          rw [List.mem_singleton.mp hlast]
          exact ne_of_mem_of_not_mem hother hold
        have hinside : ∀ other ∈ pages ++ [pageOf i.physicalAddress], other ∈ all := by
          intro other hother
          rcases List.mem_append.mp hother with hother | hother
          · exact hsubset other hother
          · rw [List.mem_singleton.mp hother]
            exact hpage
        have hroom : pages.length < blockMaxCodePages := by
          have hle := (hnew.subperm hinside).length_le
          simp only [List.length_append, List.length_singleton] at hle
          exact Nat.lt_of_lt_of_le (Nat.lt_succ_self _) (hle.trans hlength)
        simp only [hold, not_false_eq_true, hroom, and_self, if_true]
        rw [ih hrest _ hnew hinside, List.mem_append, List.mem_singleton]
        constructor
        · rintro ((hmem | rfl) | ⟨j, hj, hpage⟩)
          · exact .inl hmem
          · exact .inr ⟨i, List.mem_cons_self .., rfl⟩
          · exact .inr ⟨j, List.mem_cons_of_mem _ hj, hpage⟩
        · rintro (hmem | ⟨j, hj, rfl⟩)
          · exact .inl (.inl hmem)
          · rcases List.mem_cons.mp hj with rfl | hj
            · exact .inl (.inr rfl)
            · exact .inr ⟨j, hj, rfl⟩
  simpa [entryPages] using hfold [] List.nodup_nil (by simp)

end entryPages

section link

/-- The links of an entry's pages, slot by slot. -/
def linkPages (index : BlockIndex) : List (Fin 2) → List U64 → BlockCache → BlockCache
  | slot :: slots, page :: pages, cache =>
    linkPages index slots pages (cache.linkEntryPage (index, slot) page)
  | _, _, cache => cache

theorem indexPages_cache (slots : List (Fin 2)) (pages : List U64) (w : BlockWorld σ) :
    (indexPages source index slots pages w).2.cache = linkPages index slots pages w.cache := by
  induction slots generalizing pages w with
  | nil => cases pages <;> rfl
  | cons slot slots ih =>
    cases pages with
    | nil => rfl
    | cons page pages => exact ih pages _

/-- The index of the pages with a hole where its links were. -/
structure Linked (cache' cache : BlockCache) (index : BlockIndex) (pages : List U64) : Prop where
  pageIndex : cache'.PageIndex
  slots : ∀ link, cache'.slotPage link =
    if link.1 = index then pages[link.2.val]? else cache.slotPage link
  entries : cache'.entries = cache.entries
  nextSerial : cache'.nextSerial = cache.nextSerial
  lastContext : cache'.lastContext = cache.lastContext

theorem linkPages_linked {cache : BlockCache} {pages : List U64} (h : cache.PageIndex)
    (hunlinked : ∀ slot, cache.slotPage (index, slot) = none) (hpages : EntryPages pages) :
    Linked (linkPages index [0, 1] pages cache) cache index pages := by
  have hslot : ∀ slot : Fin 2, slot = 0 ∨ slot = 1 := by omega
  match pages, hpages with
  | [], _ =>
    refine ⟨h, fun link => ?_, rfl, rfl, rfl⟩
    obtain ⟨i, slot⟩ := link
    by_cases hi : i = index
    · subst hi
      simp [linkPages, hunlinked slot]
    · simp [linkPages, hi]
  | [page], hpages =>
    have hrelinks := BlockCache.linkEntryPage_relinks cache (index, 0) page
    refine ⟨h.linkEntryPage (hunlinked 0) (hpages.aligned page (by simp)) (by simp [hunlinked]),
      fun link => ?_, hrelinks.entries, hrelinks.nextSerial, hrelinks.lastContext⟩
    obtain ⟨i, slot⟩ := link
    rw [linkPages, linkPages, hrelinks.slots]
    · by_cases hi : i = index
      · subst hi
        obtain rfl | rfl := hslot slot
        · simp
        · simp [hunlinked 1]
      · simp [hi]
    · simp
  | [page, page'], hpages =>
    have hfirst := h.linkEntryPage (hunlinked 0) (hpages.aligned page (by simp)) (by simp [hunlinked])
    have hrelinks := BlockCache.linkEntryPage_relinks cache (index, 0) page
    have hrelinks' := BlockCache.linkEntryPage_relinks (cache.linkEntryPage (index, 0) page)
      (index, 1) page'
    have hne : page ≠ page' := by
      rintro rfl
      simpa using hpages.nodup
    refine ⟨hfirst.linkEntryPage ?_ (hpages.aligned page' (by simp)) fun other => ?_,
      fun link => ?_, hrelinks'.entries.trans hrelinks.entries,
      hrelinks'.nextSerial.trans hrelinks.nextSerial,
      hrelinks'.lastContext.trans hrelinks.lastContext⟩
    · rw [hrelinks.slots]
      simp [hunlinked 1]
    · rw [hrelinks.slots]
      obtain rfl | rfl := hslot other
      · simpa using hne
      · simp [hunlinked 1]
    · obtain ⟨i, slot⟩ := link
      rw [linkPages, linkPages, linkPages, hrelinks'.slots, hrelinks.slots]
      · by_cases hi : i = index
        · subst hi
          obtain rfl | rfl := hslot slot
          · simp
          · simp
        · simp [Function.update_apply, hi]
      · simp
  | page :: page' :: page'' :: rest, hpages =>
    have hlength := hpages.length
    simp at hlength

end link

end BlockWorld

namespace BlockCache

variable {cache : BlockCache} {bound : ℕ} {index : BlockIndex} {block : DecodedBlock}

theorem advanceNonzeroCounter_ne (counter : U64) : advanceNonzeroCounter counter ≠ 0#64 := by
  unfold advanceNonzeroCounter
  split
  · simp
  · assumption

theorem advanceNonzeroCounter_toNat {counter : U64} (h : counter.toNat + 1 < 2 ^ 64) :
    (advanceNonzeroCounter counter).toNat = counter.toNat + 1 := by
  have hnext : (counter + 1).toNat = counter.toNat + 1 := by
    rw [BitVec.toNat_add]
    exact Nat.mod_eq_of_lt h
  unfold advanceNonzeroCounter
  split
  · rename_i hzero
    rw [hzero] at hnext
    simp at hnext
  · exact hnext

theorem Kept.allocate {hole : Option BlockIndex} (h : cache.Kept hole bound) :
    cache.allocateBlockSerial.2.Kept hole (bound + 1) := by
  have hpages : cache.allocateBlockSerial.2.PageIndex := ⟨h.index.pages.buckets,
    fun htracks i hi => by
      rw [← show cache.linksOf i = cache.allocateBlockSerial.2.linksOf i by
        ext link
        rw [mem_linksOf, mem_linksOf]
        rfl]
      exact h.index.pages.refcounts htracks i hi,
    h.index.pages.firstPage, h.index.pages.aligned, h.index.pages.distinct⟩
  refine ⟨⟨hpages, h.index.slots, h.index.unique, h.index.sets, h.index.serials⟩, h.context,
    fun hbound => ?_⟩
  have hnumbered := h.numbered (by omega)
  have hnext : cache.allocateBlockSerial.2.nextSerial.toNat = cache.nextSerial.toNat + 1 :=
    advanceNonzeroCounter_toNat (by have := hnumbered.bounded; omega)
  refine ⟨?_, fun i hi => ?_, hnumbered.distinct⟩
  · rw [hnext]
    exact Nat.succ_le_succ hnumbered.bounded
  · rw [hnext]
    exact Nat.le_succ_of_le (hnumbered.issued i hi)

/-- What a written entry holds, while the others are as they were. -/
structure Written (cache' cache : BlockCache) (index : BlockIndex) (block : DecodedBlock) : Prop where
  valid : (cache'.entries index).valid = true
  key : (cache'.entries index).block.key = block.key
  instructions : (cache'.entries index).block.instructions = block.instructions
  serial : (cache'.entries index).serial = advanceNonzeroCounter cache.nextSerial
  nextSerial : cache'.nextSerial = advanceNonzeroCounter cache.nextSerial
  others : ∀ i, i ≠ index → (cache'.entries i).view = (cache.entries i).view

theorem Written.live {cache' : BlockCache} {i : BlockIndex} (h : cache'.Written cache index block)
    (hi : cache'.Live (some index) i) : cache.Live (some index) i ∧
      (cache'.entries i).block.key = (cache.entries i).block.key ∧
      (cache'.entries i).serial = (cache.entries i).serial := by
  have hview := h.others i hi.ne
  have hvalid : (cache.entries i).valid = true :=
    (congrArg EntryView.valid hview).symm.trans hi.1
  exact ⟨⟨hvalid, hi.2⟩, congrArg EntryView.key hview, congrArg EntryView.serial hview⟩

theorem Kept.fill (h : cache.Kept (some index) bound)
    (hslots : ∀ slot, cache.slotPage (index, slot) = cache.entrySlot (index, slot))
    (hunique : ∀ i, cache.Live (some index) i →
      (cache.entries i).block.key ≠ (cache.entries index).block.key)
    (hset : blockSetIndex (cache.entries index).block.key.hash = index.1)
    (hserial : (cache.entries index).serial ≠ 0#64)
    (hissued : (cache.entries index).serial.toNat ≤ cache.nextSerial.toNat)
    (hfresh : bound < 2 ^ 64 → ∀ i, cache.Live (some index) i →
      (cache.entries i).serial ≠ (cache.entries index).serial) : cache.Kept none bound := by
  have hlive : ∀ i, cache.Live none i → i = index ∨ cache.Live (some index) i := by
    intro i hi
    by_cases hindex : i = index
    · exact .inl hindex
    · exact .inr ⟨hi.1, fun heq => hindex (Option.some.inj heq).symm⟩
  refine ⟨⟨h.index.pages, fun link => ?_, fun i j hi hj hkey => ?_, fun i hi => ?_, fun i hi => ?_⟩,
    h.context, fun hbound => ⟨(h.numbered hbound).bounded, fun i hi => ?_,
      fun i j hi hj heq => ?_⟩⟩
  · obtain ⟨i, slot⟩ := link
    by_cases hi : i = index
    · subst hi
      simpa using hslots slot
    · have hne : ¬ index = i := fun heq => hi heq.symm
      simpa [hne] using h.index.slots (i, slot)
  · rcases hlive i hi with rfl | hi <;> rcases hlive j hj with rfl | hj
    · rfl
    · exact absurd hkey.symm (hunique j hj)
    · exact absurd hkey (hunique i hi)
    · exact h.index.unique i j hi hj hkey
  · rcases hlive i hi with rfl | hi
    · exact hset
    · exact h.index.sets i hi
  · rcases hlive i hi with rfl | hi
    · exact hserial
    · exact h.index.serials i hi
  · rcases hlive i hi with rfl | hi
    · exact hissued
    · exact (h.numbered hbound).issued i hi
  · rcases hlive i hi with rfl | hi <;> rcases hlive j hj with rfl | hj
    · rfl
    · exact absurd heq.symm (hfresh hbound j hj)
    · exact absurd heq (hfresh hbound i hi)
    · exact (h.numbered hbound).distinct i j hi hj heq

end BlockCache

namespace BlockWorld

open BlockCache

variable {σ : Type} {source : CodeSource σ} {w : BlockWorld σ} {cache : BlockCache} {bound : ℕ}
  {index : BlockIndex} {block : DecodedBlock} {hash : U64}

theorem writeEntry_written (w : BlockWorld σ) :
    Written (w.writeEntry source block index).cache w.cache index block := by
  refine ⟨?_, ?_, ?_, ?_, rfl, fun i hi => ?_⟩
  · simp [writeEntry, setEntry, touchEntry, allocateBlockSerial]
  · simp [writeEntry, setEntry, touchEntry, allocateBlockSerial]
  · simp [writeEntry, setEntry, touchEntry, allocateBlockSerial]
  · simp [writeEntry, setEntry, touchEntry, allocateBlockSerial]
  · simp [writeEntry, setEntry, touchEntry, allocateBlockSerial, hi]

theorem writeEntry_kept (h : w.cache.Kept (some index) bound) :
    (w.writeEntry source block index).cache.Kept (some index) (bound + 1) :=
  SameIndex.touchEntry.kept (Kept.setEntry_hole (Kept.allocate h) _)

theorem Linked.kept {cache' : BlockCache} {pages : List U64}
    (hlinked : Linked cache' cache index pages) (h : cache.Kept (some index) bound) :
    cache'.Kept (some index) bound := by
  have hlive : ∀ i, cache'.Live (some index) i → cache.Live (some index) i := by
    intro i hi
    rw [Live, hlinked.entries] at hi
    exact hi
  refine ⟨⟨hlinked.pageIndex, fun link hlink => ?_, fun i j hi hj => ?_, fun i hi => ?_,
    fun i hi => ?_⟩, ?_, fun hbound => ⟨?_, fun i hi => ?_, fun i j hi hj => ?_⟩⟩
  · have hne : ¬ link.1 = index := fun heq => hlink (by rw [heq])
    rw [hlinked.slots, if_neg hne, entrySlot_congr hlinked.entries]
    exact h.index.slots link hlink
  · rw [hlinked.entries]
    exact h.index.unique i j (hlive i hi) (hlive j hj)
  · rw [hlinked.entries]
    exact h.index.sets i (hlive i hi)
  · rw [hlinked.entries]
    exact h.index.serials i (hlive i hi)
  · rw [ContextKnown, hlinked.lastContext]
    exact h.context
  · rw [hlinked.nextSerial]
    exact (h.numbered hbound).bounded
  · rw [hlinked.entries, hlinked.nextSerial]
    exact (h.numbered hbound).issued i (hlive i hi)
  · rw [hlinked.entries]
    exact (h.numbered hbound).distinct i j (hlive i hi) (hlive j hj)

theorem fill_kept (h : w.cache.Kept (some index) bound)
    (hunlinked : ∀ slot, w.cache.slotPage (index, slot) = none)
    (hunique : ∀ i, w.cache.Live (some index) i → (w.cache.entries i).block.key ≠ block.key)
    (hset : blockSetIndex block.key.hash = index.1) :
    ((w.writeEntry source block index).indexEntry source index).cache.Kept none (bound + 1) := by
  let written := w.writeEntry source block index
  let pages := entryPages (written.cache.entries index).block.instructions
  have hwritten : Written written.cache w.cache index block := writeEntry_written w
  have hkept : written.cache.Kept (some index) (bound + 1) := writeEntry_kept h
  have hlinked : Linked (linkPages index [0, 1] pages written.cache) written.cache index pages :=
    linkPages_linked hkept.index.pages hunlinked (entryPages_ok _)
  have hindexed : (written.indexEntry source index).cache.SameIndex
      (linkPages index [0, 1] pages written.cache) := by
    have hcache : (indexPages source index [0, 1] pages written).2.cache =
        linkPages index [0, 1] pages written.cache := indexPages_cache [0, 1] pages written
    rw [← hcache]
    exact SameIndex.setEntry rfl
  refine hindexed.kept ((hlinked.kept hkept).fill (fun slot => ?_) (fun i hi => ?_) ?_ ?_ ?_
    fun hbound i hi => ?_)
  · rw [hlinked.slots, if_pos rfl, entrySlot_congr hlinked.entries, entrySlot, hwritten.valid]
    rfl
  · rw [Live, hlinked.entries] at hi
    obtain ⟨hlive, hkey, -⟩ := hwritten.live hi
    rw [hlinked.entries, hwritten.key, hkey]
    exact hunique i hlive
  · rw [hlinked.entries, hwritten.key]
    exact hset
  · rw [hlinked.entries, hwritten.serial]
    exact advanceNonzeroCounter_ne _
  · rw [hlinked.entries, hlinked.nextSerial, hwritten.serial, hwritten.nextSerial]
  · rw [Live, hlinked.entries] at hi
    obtain ⟨hlive, -, hserial⟩ := hwritten.live hi
    have hnumbered := h.numbered (by omega)
    have hissued := hnumbered.issued i hlive
    have hbounded := hnumbered.bounded
    have hnext : (advanceNonzeroCounter w.cache.nextSerial).toNat = w.cache.nextSerial.toNat + 1 :=
      advanceNonzeroCounter_toNat (by omega)
    rw [hlinked.entries, hwritten.serial, hserial]
    intro heq
    rw [← heq] at hnext
    omega

end BlockWorld

end Pinecone
