import Mathlib.Data.Fintype.Card
import Mathlib.Data.Fintype.Prod
import Mathlib.Data.Fin.Tuple.Basic
import Pinecone.BlockLookup

/-! The page buckets and the reference counts of the block cache follow its page links. -/

namespace Pinecone

namespace BlockCache

variable {cache cache' : BlockCache} {link other : PageLink} {page : U64} {entry : BlockIndex}
  {slot : Fin 2}

/-- The page that a link is linked for. -/
def slotPage (cache : BlockCache) (link : PageLink) : Option U64 :=
  if cache.linked link then some (cache.linkPage link) else none

/-- The links of a page in the arrays over the tracked pages. -/
@[irreducible] def linksOf (cache : BlockCache) (index : ℕ) : Finset PageLink :=
  Finset.univ.filter fun link => (cache.slotPage link).bind cache.trackedPageIndex = some index

/-- The page index: lists by bucket, counts by page, and no page twice for an entry. -/
structure PageIndex (cache : BlockCache) : Prop where
  buckets : ∃ buckets : Fin 16384 → List PageLink,
    cache.pageLinks.Shares buckets (fun link => (cache.slotPage link).map pageBucket) ∧
      cache.pageBucketHeads = fun bucket => (buckets bucket).head?
  refcounts : cache.tracksPages = true → ∀ index < cache.trackedPageCount,
    (cache.codePageRefcounts index).toNat = (cache.linksOf index).card
  firstPage : cache.trackedFirstPage &&& 0xfff#64 = 0#64
  aligned : ∀ link page, cache.slotPage link = some page → page &&& 0xfff#64 = 0#64
  distinct : ∀ entry page, cache.slotPage (entry, 0) = some page →
    cache.slotPage (entry, 1) ≠ some page

theorem mem_linksOf {index : ℕ} : link ∈ cache.linksOf index ↔
    (cache.slotPage link).bind cache.trackedPageIndex = some index := by
  unfold linksOf
  simp

theorem slotPage_of_linked (h : cache.linked link = true) :
    cache.slotPage link = some (cache.linkPage link) := by
  simp [slotPage, h]

theorem linked_of_slotPage (h : cache.slotPage link = some page) :
    cache.linked link = true ∧ cache.linkPage link = page := by
  unfold slotPage at h
  split at h
  · rename_i hlinked
    exact ⟨hlinked, Option.some.inj h⟩
  · simp at h

theorem trackedPageIndex_injective (hfirst : cache.trackedFirstPage &&& 0xfff#64 = 0#64)
    {page' : U64} {index : ℕ} (hpage : page &&& 0xfff#64 = 0#64) (hpage' : page' &&& 0xfff#64 = 0#64)
    (h : cache.trackedPageIndex page = some index) (h' : cache.trackedPageIndex page' = some index) :
    page = page' := by
  have hmod : ∀ address : U64, address &&& 0xfff#64 = 0#64 → address.toNat % 4096 = 0 := by
    intro address haddress
    have hand := congrArg BitVec.toNat haddress
    rw [BitVec.toNat_and] at hand
    exact (Nat.and_two_pow_sub_one_eq_mod address.toNat 12).symm.trans hand
  have hindex : ∀ address : U64, cache.trackedPageIndex address = some index →
      cache.trackedFirstPage.toNat ≤ address.toNat ∧
        (address.toNat - cache.trackedFirstPage.toNat) / 4096 = index := by
    intro address haddress
    unfold trackedPageIndex at haddress
    split at haddress
    · simp at haddress
    · rename_i htracked
      push_neg at htracked
      have hle : cache.trackedFirstPage.toNat ≤ address.toNat := by
        have hnot := htracked.2
        bv_omega
      refine ⟨hle, ?_⟩
      dsimp only at haddress
      split at haddress
      · simp at haddress
      · rw [Option.some.injEq] at haddress
        rw [← haddress, BitVec.toNat_ushiftRight, BitVec.toNat_sub_of_le hle, Nat.shiftRight_eq_div_pow]
  have hf := hmod _ hfirst
  have hp := hmod _ hpage
  have hp' := hmod _ hpage'
  obtain ⟨hle, heq⟩ := hindex page h
  obtain ⟨hle', heq'⟩ := hindex page' h'
  refine BitVec.eq_of_toNat_eq ?_
  omega

theorem PageIndex.slot_unique (h : cache.PageIndex) {slot slot' : Fin 2}
    (hpage : cache.slotPage (entry, slot) = some page)
    (hpage' : cache.slotPage (entry, slot') = some page) : slot = slot' := by
  have hdistinct := h.distinct entry page
  by_contra hne
  have hslots : (slot = 0 ∧ slot' = 1) ∨ (slot = 1 ∧ slot' = 0) := by omega
  obtain ⟨rfl, rfl⟩ | ⟨rfl, rfl⟩ := hslots
  · exact hdistinct hpage hpage'
  · exact hdistinct hpage' hpage

theorem PageIndex.injOn_fst (h : cache.PageIndex) (index : ℕ) :
    Set.InjOn Prod.fst (cache.linksOf index : Set PageLink) := by
  rintro ⟨entry, slot⟩ hlink ⟨entry', slot'⟩ hlink' rfl
  rw [Finset.mem_coe, mem_linksOf, Option.bind_eq_some_iff] at hlink hlink'
  obtain ⟨page, hpage, hindex⟩ := hlink
  obtain ⟨page', hpage', hindex'⟩ := hlink'
  have heq := trackedPageIndex_injective h.firstPage (h.aligned _ _ hpage) (h.aligned _ _ hpage')
    hindex hindex'
  subst heq
  rw [h.slot_unique hpage hpage']

theorem card_blockIndex : (Finset.univ : Finset BlockIndex).card = 32768 := by
  rw [Finset.card_univ, Fintype.card_prod, Fintype.card_fin, Fintype.card_fin]

theorem PageIndex.card_linksOf_le (h : cache.PageIndex) (index : ℕ) :
    (cache.linksOf index).card ≤ 32768 := by
  rw [← Finset.card_image_of_injOn (h.injOn_fst index), ← card_blockIndex]
  exact Finset.card_le_card (Finset.subset_univ _)

theorem untrackCodePage_spec (cache : BlockCache) (page : U64) : ∃ refcounts,
    cache.untrackCodePage page = { cache with codePageRefcounts := refcounts } ∧
      ∀ index, refcounts index =
        if cache.trackedPageIndex page = some index ∧ 0#16 < cache.codePageRefcounts index then
          cache.codePageRefcounts index - 1
        else cache.codePageRefcounts index := by
  refine ⟨(cache.untrackCodePage page).codePageRefcounts, ?_, fun index => ?_⟩
  · unfold untrackCodePage
    split <;> rfl
  · rcases htracked : cache.trackedPageIndex page with _ | tracked
    · simp [untrackCodePage, htracked]
    · by_cases hindex : index = tracked
      · subst hindex
        simp [untrackCodePage, htracked]
      · have hne : ¬ tracked = index := fun h => hindex h.symm
        simp [untrackCodePage, htracked, hindex, hne]

theorem trackCodePage_spec (cache : BlockCache) (page : U64) : ∃ refcounts,
    cache.trackCodePage page = { cache with codePageRefcounts := refcounts } ∧
      ∀ index, refcounts index =
        if cache.trackedPageIndex page = some index ∧ cache.codePageRefcounts index < 0xffff#16 then
          cache.codePageRefcounts index + 1
        else cache.codePageRefcounts index := by
  refine ⟨(cache.trackCodePage page).codePageRefcounts, ?_, fun index => ?_⟩
  · unfold trackCodePage
    split <;> rfl
  · rcases htracked : cache.trackedPageIndex page with _ | tracked
    · simp [trackCodePage, htracked]
    · by_cases hindex : index = tracked
      · subst hindex
        simp [trackCodePage, htracked]
      · have hne : ¬ tracked = index := fun h => hindex h.symm
        simp [trackCodePage, htracked, hindex, hne]

/-- Only the place of the link changes. -/
structure Relinks (cache' cache : BlockCache) (link : PageLink) (slotPage : Option U64) : Prop where
  entries : cache'.entries = cache.entries
  slots : cache'.slotPage = Function.update cache.slotPage link slotPage
  tracksPages : cache'.tracksPages = cache.tracksPages
  trackedFirstPage : cache'.trackedFirstPage = cache.trackedFirstPage
  trackedPageCount : cache'.trackedPageCount = cache.trackedPageCount
  lastContext : cache'.lastContext = cache.lastContext
  nextSerial : cache'.nextSerial = cache.nextSerial

theorem Relinks.trackedPageIndex {place : Option U64} (h : cache'.Relinks cache link place)
    (page : U64) : cache'.trackedPageIndex page = cache.trackedPageIndex page := by
  simp only [BlockCache.trackedPageIndex, h.tracksPages, h.trackedFirstPage, h.trackedPageCount]

theorem Relinks.linksOf_unlink (h : cache'.Relinks cache link none) (index : ℕ) :
    cache'.linksOf index = (cache.linksOf index).erase link := by
  ext other
  rw [Finset.mem_erase, mem_linksOf, mem_linksOf, h.slots, funext h.trackedPageIndex]
  by_cases hother : other = link
  · simp [hother]
  · simp [hother]

theorem Relinks.linksOf_link (h : cache'.Relinks cache link (some page)) (index : ℕ)
    (hunlinked : cache.slotPage link = none) : cache'.linksOf index =
      if cache.trackedPageIndex page = some index then insert link (cache.linksOf index)
      else cache.linksOf index := by
  ext other
  rw [mem_linksOf, h.slots, funext h.trackedPageIndex]
  by_cases hother : other = link
  · subst hother
    by_cases htracked : cache.trackedPageIndex page = some index
    · simp [htracked]
    · simp [htracked, mem_linksOf, hunlinked]
  · by_cases htracked : cache.trackedPageIndex page = some index
    · simp [htracked, hother, mem_linksOf]
    · simp [htracked, hother, mem_linksOf]

theorem unlinkPageLink_of_unlinked (h : cache.slotPage link = none) :
    cache.unlinkPageLink link = cache := by
  have hlinked : cache.linked link = false := by
    unfold slotPage at h
    split at h
    · simp at h
    · rename_i hnot
      exact Bool.eq_false_iff.mpr hnot
  simp [unlinkPageLink, hlinked]

theorem unlinkPageLink_relinks (h : cache.slotPage link = some page) :
    (cache.unlinkPageLink link).Relinks cache link none := by
  obtain ⟨hlinked, hpage⟩ := linked_of_slotPage h
  obtain ⟨refcounts, htracked, -⟩ := untrackCodePage_spec cache (cache.linkPage link)
  have hslots : (cache.unlinkPageLink link).slotPage = Function.update cache.slotPage link none := by
    funext other
    by_cases hother : other = link
    · simp [unlinkPageLink, hlinked, htracked, slotPage, hother]
    · simp [unlinkPageLink, hlinked, htracked, slotPage, hother]
  refine ⟨?_, hslots, ?_, ?_, ?_, ?_, ?_⟩
  all_goals simp [unlinkPageLink, hlinked, htracked]

theorem PageIndex.unlinkPageLink (h : cache.PageIndex) : (cache.unlinkPageLink link).PageIndex := by
  rcases hpage : cache.slotPage link with _ | page
  · rw [unlinkPageLink_of_unlinked hpage]
    exact h
  · have hrelinks := unlinkPageLink_relinks hpage
    have hslots := hrelinks.slots
    obtain ⟨hlinked, rfl⟩ := linked_of_slotPage hpage
    obtain ⟨refcounts, htracked, hcounts⟩ := untrackCodePage_spec cache (cache.linkPage link)
    obtain ⟨buckets, hshares, hheads⟩ := h.buckets
    have hplace : (cache.slotPage link).map pageBucket = some (pageBucket (cache.linkPage link)) := by
      rw [hpage]
      rfl
    obtain ⟨before, after, hsplit⟩ := hshares.split hplace
    let buckets' := Function.update buckets (pageBucket (cache.linkPage link)) (before ++ after)
    refine ⟨⟨buckets', ?_, ?_⟩, fun htracks index hindex => ?_, ?_, fun other page hother => ?_,
      fun entry page h0 h1 => ?_⟩
    · have hremoved := hshares.remove hplace hsplit
      have hpages : (fun other => ((cache.unlinkPageLink link).slotPage other).map pageBucket) =
          Function.update (fun other => (cache.slotPage other).map pageBucket) link none := by
        rw [hslots]
        funext other
        by_cases hother : other = link
        · simp [hother]
        · simp [hother]
      rw [hpages]
      simpa [BlockCache.unlinkPageLink, hlinked, htracked] using hremoved
    · have hheads' := funext (hshares.head?_remove hsplit)
      rw [hheads', ← hheads]
      simp [BlockCache.unlinkPageLink, hlinked, htracked]
    · rw [hrelinks.tracksPages] at htracks
      rw [hrelinks.trackedPageCount] at hindex
      have hrefcount : (cache.unlinkPageLink link).codePageRefcounts = refcounts := by
        simp [BlockCache.unlinkPageLink, hlinked, htracked]
      have hbefore := h.refcounts htracks index hindex
      rw [hrefcount, hcounts, hrelinks.linksOf_unlink]
      by_cases hmem : link ∈ cache.linksOf index
      · have hpositive := Finset.card_pos.mpr ⟨link, hmem⟩
        have hindex' : cache.trackedPageIndex (cache.linkPage link) = some index := by
          simpa [mem_linksOf, hpage] using hmem
        have hlt : 0#16 < cache.codePageRefcounts index := by
          rw [BitVec.lt_def]
          simpa [hbefore] using hpositive
        rw [if_pos ⟨hindex', hlt⟩, Finset.card_erase_of_mem hmem]
        rw [← hbefore]
        bv_omega
      · have hindex' : cache.trackedPageIndex (cache.linkPage link) ≠ some index := by
          simpa [mem_linksOf, hpage] using hmem
        rw [if_neg (fun hand => hindex' hand.1), Finset.erase_eq_of_notMem hmem, hbefore]
    · rw [hrelinks.trackedFirstPage]
      exact h.firstPage
    · rw [hslots] at hother
      by_cases hne : other = link
      · simp [hne] at hother
      · exact h.aligned other page (by simpa [hne] using hother)
    · rw [hslots] at h0 h1
      by_cases hne0 : (entry, 0) = link
      · simp [hne0] at h0
      · by_cases hne1 : (entry, 1) = link
        · simp [hne1] at h1
        · exact h.distinct entry page (by simpa [hne0] using h0) (by simpa [hne1] using h1)

/-- The link at the head of the bucket, with the page's count to come. -/
def pushPageLink (cache : BlockCache) (link : PageLink) (page : U64) : BlockCache :=
  { cache with
    pageLinks := cache.pageLinks.pushFront link (cache.pageBucketHeads (pageBucket page))
    linkPage := Function.update cache.linkPage link page
    linked := Function.update cache.linked link true
    pageBucketHeads := Function.update cache.pageBucketHeads (pageBucket page) (some link) }

theorem linkEntryPage_eq (link : PageLink) (page : U64) :
    cache.linkEntryPage link page = (cache.pushPageLink link page).trackCodePage page := rfl

theorem linkEntryPage_relinks (cache : BlockCache) (link : PageLink) (page : U64) :
    (cache.linkEntryPage link page).Relinks cache link (some page) := by
  obtain ⟨refcounts, htracked, -⟩ := trackCodePage_spec (cache.pushPageLink link page) page
  rw [linkEntryPage_eq, htracked]
  refine ⟨rfl, ?_, rfl, rfl, rfl, rfl, rfl⟩
  funext other
  by_cases hother : other = link
  · simp [slotPage, pushPageLink, hother]
  · simp [slotPage, pushPageLink, hother]

theorem PageIndex.linkEntryPage (h : cache.PageIndex) (hunlinked : cache.slotPage (entry, slot) = none)
    (haligned : page &&& 0xfff#64 = 0#64)
    (hdistinct : ∀ other, cache.slotPage (entry, other) ≠ some page) :
    (cache.linkEntryPage (entry, slot) page).PageIndex := by
  have hrelinks := linkEntryPage_relinks cache (entry, slot) page
  have hslots := hrelinks.slots
  have hsame : (cache.pushPageLink (entry, slot) page).trackedPageIndex = cache.trackedPageIndex := rfl
  obtain ⟨refcounts, htracked, hcounts⟩ :=
    trackCodePage_spec (cache.pushPageLink (entry, slot) page) page
  obtain ⟨buckets, hshares, hheads⟩ := h.buckets
  have hplace : (cache.slotPage (entry, slot)).map pageBucket = none := by
    rw [hunlinked]
    rfl
  have hhead : cache.pageBucketHeads (pageBucket page) = (buckets (pageBucket page)).head? :=
    congrFun hheads _
  let buckets' := Function.update buckets (pageBucket page)
    ((entry, slot) :: buckets (pageBucket page))
  refine ⟨⟨buckets', ?_, ?_⟩, fun htracks index hindex => ?_, ?_, fun other page' hother => ?_,
    fun entry' page' h0 h1 => ?_⟩
  · have hpushed := hshares.pushFront (pageBucket page) hplace
    have hpages : (fun other => ((cache.linkEntryPage (entry, slot) page).slotPage other).map
        pageBucket) = Function.update (fun other => (cache.slotPage other).map pageBucket)
          (entry, slot) (some (pageBucket page)) := by
      rw [hslots]
      funext other
      by_cases hother : other = (entry, slot)
      · simp [hother]
      · simp [hother]
    rw [hpages, linkEntryPage_eq, htracked]
    simpa [pushPageLink, hhead] using hpushed
  · rw [linkEntryPage_eq, htracked]
    funext bucket
    by_cases hbucket : bucket = pageBucket page
    · simp [pushPageLink, buckets', hbucket]
    · simp [pushPageLink, buckets', hbucket, hheads]
  · rw [hrelinks.tracksPages] at htracks
    rw [hrelinks.trackedPageCount] at hindex
    have hrefcount : (cache.linkEntryPage (entry, slot) page).codePageRefcounts = refcounts := by
      rw [linkEntryPage_eq, htracked]
    have hbefore := h.refcounts htracks index hindex
    have hsmall := h.card_linksOf_le index
    have hkept : (cache.pushPageLink (entry, slot) page).codePageRefcounts =
      cache.codePageRefcounts := rfl
    have hout : (entry, slot) ∉ cache.linksOf index := by
      simp [mem_linksOf, hunlinked]
    have hlt : cache.codePageRefcounts index < 0xffff#16 := by
      rw [BitVec.lt_def, hbefore]
      exact lt_of_le_of_lt hsmall (by decide)
    rw [hrefcount, hcounts, hsame, hkept, hrelinks.linksOf_link index hunlinked]
    by_cases hpage : cache.trackedPageIndex page = some index
    · rw [if_pos ⟨hpage, hlt⟩, if_pos hpage, Finset.card_insert_of_notMem hout, ← hbefore]
      bv_omega
    · rw [if_neg (fun hand => hpage hand.1), if_neg hpage, hbefore]
  · rw [hrelinks.trackedFirstPage]
    exact h.firstPage
  · rw [hslots] at hother
    by_cases hne : other = (entry, slot)
    · simp only [hne, Function.update_self, Option.some.injEq] at hother
      rw [← hother]
      exact haligned
    · exact h.aligned other page' (by simpa [hne] using hother)
  · rw [hslots] at h0 h1
    have hboth : ∀ first second : Fin 2, first ≠ second →
        Function.update cache.slotPage (entry, slot) (some page) (entry', first) = some page' →
        Function.update cache.slotPage (entry, slot) (some page) (entry', second) = some page' →
        (entry', first) ≠ (entry, slot) := by
      intro first second hne hfirst hsecond heq
      have hother : (entry', second) ≠ (entry, slot) := by
        intro hsecond'
        exact hne (congrArg Prod.snd (heq.trans hsecond'.symm))
      simp only [heq, Function.update_self, Option.some.injEq] at hfirst
      rw [Function.update_of_ne hother, ← hfirst] at hsecond
      obtain ⟨rfl, -⟩ := Prod.mk.inj heq
      exact hdistinct second hsecond
    have hne0 := hboth 0 1 (by decide) h0 h1
    have hne1 := hboth 1 0 (by decide) h1 h0
    rw [Function.update_of_ne hne0] at h0
    rw [Function.update_of_ne hne1] at h1
    exact h.distinct entry' page' h0 h1

theorem PageIndex.unindexEntry (h : cache.PageIndex) : (cache.unindexEntry entry).PageIndex :=
  h.unlinkPageLink.unlinkPageLink

theorem unlinkPageLink_slotPage (link : PageLink) :
    (cache.unlinkPageLink link).slotPage = Function.update cache.slotPage link none := by
  rcases hpage : cache.slotPage link with _ | page
  · rw [unlinkPageLink_of_unlinked hpage, ← hpage, Function.update_eq_self]
  · exact (unlinkPageLink_relinks hpage).slots

theorem unindexEntry_slotPage (link : PageLink) : (cache.unindexEntry entry).slotPage link =
    if link.1 = entry then none else cache.slotPage link := by
  obtain ⟨index, slot⟩ := link
  rw [unindexEntry, unlinkPageLink_slotPage, unlinkPageLink_slotPage]
  by_cases hindex : index = entry
  · subst hindex
    have hslots : slot = 0 ∨ slot = 1 := by omega
    obtain rfl | rfl := hslots
    · simp [Function.update_apply]
    · simp [Function.update_apply]
  · simp [Function.update_apply, hindex]

end BlockCache

end Pinecone
