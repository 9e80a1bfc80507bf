import Pinecone.TwinLinks

/-! The walk of a bucket by `avz_native_block_cache_invalidate_physical_range`. It reads the successor
of a link before it invalidates the entry, and stops where that unlinks the successor too. -/

namespace Pinecone

namespace BlockCache

variable {cache cache' cache'' : BlockCache} {buckets : Fin 16384 → List PageLink}
  {link : PageLink} {index : BlockIndex} {page physicalAddress lastAddress : U64}

section retired

/-- The entries that were invalidated are gone, with their links, and the others are left alone. -/
structure Retired (cache' cache : BlockCache) (retired : List BlockIndex) : Prop where
  slots : ∀ link, cache'.slotPage link = if link.1 ∈ retired then none else cache.slotPage link
  valid : ∀ i, (cache'.entries i).valid = true ↔ (cache.entries i).valid = true ∧ i ∉ retired
  instructions : ∀ i, (cache'.entries i).block.instructions = (cache.entries i).block.instructions
  buckets : ∀ buckets, cache.Bucketed buckets →
    cache'.Bucketed fun bucket => (buckets bucket).filter fun link => link.1 ∉ retired

/-- Only valid entries have links. -/
def LinkedValid (cache : BlockCache) : Prop :=
  ∀ link page, cache.slotPage link = some page → (cache.entries link.1).valid = true

theorem Kept.linkedValid {bound : ℕ} (h : cache.Kept none bound) : cache.LinkedValid := by
  intro link page hpage
  rw [h.index.slots link (by simp), entrySlot] at hpage
  by_contra hinvalid
  simp [hinvalid] at hpage

theorem Retired.refl : cache.Retired cache [] := by
  refine ⟨fun link => by simp, fun i => by simp, fun _ => rfl, fun buckets h => ?_⟩
  simpa using h

theorem Retired.trans {later earlier : List BlockIndex} (h : cache''.Retired cache' later)
    (h' : cache'.Retired cache earlier) : cache''.Retired cache (earlier ++ later) := by
  refine ⟨fun link => ?_, fun i => ?_, fun i => ?_, fun buckets hbucketed => ?_⟩
  · rw [h.slots, h'.slots]
    by_cases hlater : link.1 ∈ later
    · simp [hlater]
    · by_cases hearlier : link.1 ∈ earlier
      · simp [hearlier]
      · simp [hlater, hearlier]
  · rw [h.valid, h'.valid, List.mem_append, not_or, and_assoc]
  · rw [h.instructions, h'.instructions]
  · have hfiltered := h.buckets _ (h'.buckets buckets hbucketed)
    simp only [List.filter_filter] at hfiltered
    simpa [List.mem_append, not_or, and_comm] using hfiltered

theorem Retired.linkedValid {retired : List BlockIndex} (h : cache'.Retired cache retired)
    (hvalid : cache.LinkedValid) : cache'.LinkedValid := by
  intro link page hpage
  rw [h.slots] at hpage
  by_cases hretired : link.1 ∈ retired
  · simp [hretired] at hpage
  · rw [if_neg hretired] at hpage
    exact (h.valid link.1).mpr ⟨hvalid link page hpage, hretired⟩

theorem Retired.entryOverlaps {retired : List BlockIndex} (h : cache'.Retired cache retired)
    (i : BlockIndex) : cache'.entryOverlaps i physicalAddress lastAddress =
      cache.entryOverlaps i physicalAddress lastAddress := by
  rw [BlockCache.entryOverlaps, BlockCache.entryOverlaps, h.instructions]

theorem SameIndex.retired (h : cache'.SameIndex cache) : cache'.Retired cache [] := by
  refine ⟨fun link => by simp [h.slotPage], fun i => by simp [h.valid], h.instructions,
    fun buckets hbucketed => ?_⟩
  have hlinks : cache'.pageLinks = cache.pageLinks := congrArg IndexView.pageLinks h.view
  have hheads : cache'.pageBucketHeads = cache.pageBucketHeads :=
    congrArg IndexView.pageBucketHeads h.view
  refine ⟨?_, ?_⟩
  · rw [hlinks, h.slotPage]
    simpa using hbucketed.shares
  · rw [hheads]
    simpa using hbucketed.heads

theorem Bucketed.unindexEntry (h : cache.Bucketed buckets) (index : BlockIndex) :
    (cache.unindexEntry index).Bucketed
      (fun bucket => (buckets bucket).filter fun link => link.1 ≠ index) := by
  have hunlinked := (h.unlinkPageLink (index, 0)).unlinkPageLink (index, 1)
  have hkept : ∀ other : PageLink, (other ≠ (index, 1) ∧ other ≠ (index, 0)) ↔ other.1 ≠ index := by
    rintro ⟨i, slot⟩
    have hslot : slot = 0 ∨ slot = 1 := by omega
    obtain rfl | rfl := hslot <;> simp
  have hfilters : (fun bucket => ((buckets bucket).filter fun other => other ≠ (index, 0)).filter
      fun other => other ≠ (index, 1)) =
      fun bucket => (buckets bucket).filter fun other => other.1 ≠ index := by
    funext bucket
    rw [List.filter_filter]
    refine List.filter_congr fun other _ => ?_
    rw [← Bool.decide_and]
    exact decide_eq_decide.mpr (hkept other)
  exact hfilters ▸ hunlinked

theorem dropEntry_retired (hvalid : (cache.entries index).valid = true) (epoch : U64) :
    (cache.dropEntry index epoch).Retired cache [index] := by
  let unused := cache.retireUnusedPrefetch index
  have hsame : unused.SameIndex cache := retireUnusedPrefetch_same cache index
  have hentries : (unused.unindexEntry index).entries = unused.entries :=
    (unindexEntry_frame unused index).1
  have hslots : (cache.dropEntry index epoch).slotPage = (unused.unindexEntry index).slotPage := rfl
  refine ⟨fun link => ?_, fun i => ?_, fun i => ?_, fun buckets hbucketed => ?_⟩
  · rw [hslots, unindexEntry_slotPage, hsame.slotPage]
    simp
  · by_cases hi : i = index
    · subst hi
      simp [dropEntry_invalid]
    · have hentry : (cache.dropEntry index epoch).entries i = unused.entries i := by
        rw [← hentries]
        simp [dropEntry, BlockCache.setEntry, hi, unused]
      rw [hentry, hsame.valid]
      simp [hi]
  · by_cases hi : i = index
    · subst hi
      have hentry : ((cache.dropEntry i epoch).entries i).block =
          ((unused.unindexEntry i).entries i).block := by
        simp [dropEntry, BlockCache.setEntry, unused]
      rw [hentry, hentries, hsame.instructions]
    · have hentry : (cache.dropEntry index epoch).entries i = unused.entries i := by
        rw [← hentries]
        simp [dropEntry, BlockCache.setEntry, hi, unused]
      rw [hentry, hsame.instructions]
  · have hunused : unused.Bucketed buckets := by
      simpa using hsame.retired.buckets buckets hbucketed
    have hunindexed := hunused.unindexEntry index
    have hbuckets : (fun bucket => (buckets bucket).filter fun link => link.1 ∉ [index]) =
        fun bucket => (buckets bucket).filter fun link => link.1 ≠ index := by
      simp
    rw [hbuckets]
    exact ⟨hunindexed.shares, hunindexed.heads⟩

theorem invalidateEntry_retired (hvalid : (cache.entries index).valid = true) :
    (cache.invalidateEntry index).Retired cache [index] := by
  obtain ⟨epoch, hsame⟩ := invalidateEntry_same hvalid
  simpa using hsame.retired.trans (dropEntry_retired hvalid epoch)

theorem invalidateEntry_next (h : cache.Bucketed buckets)
    (hvalid : (cache.entries index).valid = true) (hpage : cache.slotPage (index, 0) = some page) :
    (cache.invalidateEntry index).pageLinks.next (index, 0) = none := by
  let unused := cache.retireUnusedPrefetch index
  have hsame : unused.SameIndex cache := retireUnusedPrefetch_same cache index
  have hunused : unused.Bucketed buckets := by
    simpa using hsame.retired.buckets buckets h
  have hlinked : unused.linked (index, 0) = true :=
    (linked_of_slotPage (hsame.slotPage ▸ hpage)).1
  let first := unused.unlinkPageLink (index, 0)
  have hfirst : first.pageLinks.next (index, 0) = none := by
    obtain ⟨refcounts, htracked, -⟩ := untrackCodePage_spec unused (unused.linkPage (index, 0))
    simp [first, BlockCache.unlinkPageLink, hlinked, htracked, NodeLinks.setLinks]
  have hsecond : (first.unlinkPageLink (index, 1)).pageLinks.next (index, 0) = none := by
    rcases hother : first.slotPage (index, 1) with _ | other
    · rw [unlinkPageLink_of_unlinked hother]
      exact hfirst
    · have hbucketed := hunused.unlinkPageLink (index, 0)
      have hmem := hbucketed.mem.mpr ⟨other, hother, rfl⟩
      have hprevious : first.pageLinks.previous (index, 1) ≠ some (index, 0) := by
        intro hprevious
        have hin := (hbucketed.shares.chains _).mem_of_previous hmem hprevious
        simp at hin
      obtain ⟨refcounts, htracked, -⟩ := untrackCodePage_spec first (first.linkPage (index, 1))
      have hlinked' := (linked_of_slotPage hother).1
      have hbypass := NodeLinks.bypass_next_of_ne hprevious
      simp [BlockCache.unlinkPageLink, hlinked', htracked, NodeLinks.setLinks, hbypass, hfirst]
  have hlinks : (cache.invalidateEntry index).pageLinks =
      (first.unlinkPageLink (index, 1)).pageLinks := by
    rw [BlockCache.invalidateEntry, if_pos hvalid]
    rfl
  rw [hlinks]
  exact hsecond

end retired

section walk

/-- The entries that the walk over a bucket's links invalidates. -/
def retiredOf (matched : PageLink → Bool) : List PageLink → List BlockIndex
  | [] => []
  | link :: rest =>
    if matched link then
      link.1 :: (if rest.head? = some (link.1, 0) then [] else retiredOf matched rest)
    else retiredOf matched rest

theorem retiredOf_congr {matched matched' : PageLink → Bool} {links : List PageLink}
    (h : ∀ link ∈ links, matched link = matched' link) :
    retiredOf matched links = retiredOf matched' links := by
  induction links with
  | nil => rfl
  | cons link rest ih =>
    have hrest := ih fun other hother => h other (List.mem_cons_of_mem _ hother)
    rw [retiredOf, retiredOf, h link (List.mem_cons_self ..), hrest]

theorem TwinsTogether.head? (h : TwinsTogether buckets) {bucket : Fin 16384}
    (hnodup : (buckets bucket).Nodup) {before after : List PageLink}
    (hsplit : buckets bucket = before ++ (index, 1) :: after)
    (hfirst : (index, 0) ∈ buckets bucket) : after.head? = some (index, 0) := by
  obtain ⟨left, right, hinfix⟩ := h bucket index hfirst (by simp [hsplit])
  rw [hsplit, List.nodup_middle, List.nodup_cons, List.mem_append, not_or] at hnodup
  have hboth : before ++ (index, 1) :: after = left ++ (index, 1) :: (index, 0) :: right := by
    rw [← hsplit, ← hinfix]
    simp
  rw [List.append_cons_inj_of_notMem hnodup.1.1 hnodup.1.2] at hboth
  rw [hboth.2.2]
  rfl

theorem TwinsTogether.notMem (h : TwinsTogether buckets) {bucket : Fin 16384}
    (hnodup : (buckets bucket).Nodup) {before after : List PageLink}
    (hsplit : buckets bucket = before ++ (index, 0) :: after) : (index, 1) ∉ after := by
  intro hmem
  obtain ⟨middle, last, rfl⟩ := List.append_of_mem hmem
  have hfirst : (index, 0) ∈ buckets bucket := by simp [hsplit]
  have hsplit' : buckets bucket = (before ++ (index, 0) :: middle) ++ (index, 1) :: last := by
    rw [hsplit, List.append_assoc, List.cons_append]
  have hhead := List.mem_of_mem_head? (h.head? hnodup hsplit' hfirst)
  rw [hsplit, List.nodup_middle, List.nodup_cons] at hnodup
  exact hnodup.1 (by simp [hhead])

theorem TwinsTogether.notMem_rest (h : TwinsTogether buckets) {bucket : Fin 16384}
    (hnodup : (buckets bucket).Nodup) {before rest : List PageLink}
    (hsplit : buckets bucket = before ++ link :: rest) (hgo : rest.head? ≠ some (link.1, 0)) :
    ∀ other ∈ rest, other.1 ≠ link.1 := by
  rintro ⟨i, slot⟩ hother rfl
  obtain ⟨i, slot'⟩ := link
  have hslots : ∀ slot : Fin 2, slot = 0 ∨ slot = 1 := by omega
  have hself : (i, slot') ∉ rest := by
    rw [hsplit, List.nodup_middle, List.nodup_cons] at hnodup
    intro hmem
    exact hnodup.1 (List.mem_append_right _ hmem)
  obtain rfl | rfl := hslots slot' <;> obtain rfl | rfl := hslots slot
  · exact hself hother
  · exact h.notMem hnodup hsplit hother
  · exact hgo (h.head? hnodup hsplit (by simp [hsplit, hother]))
  · exact hself hother

/-- The links of the page whose entries overlap the addresses. -/
def matchesPage (cache : BlockCache) (physicalAddress lastAddress page : U64) (link : PageLink) :
    Bool :=
  cache.slotPage link = some page && cache.entryOverlaps link.1 physicalAddress lastAddress

theorem invalidateBucket_of_unlinked (fuel : ℕ) (hunlinked : cache.slotPage link = none)
    (hnext : cache.pageLinks.next link = none) :
    invalidateBucket physicalAddress lastAddress page fuel (some link) cache = cache := by
  cases fuel with
  | zero => rfl
  | succ fuel =>
    have hlinked : ¬ cache.linked link = true := by
      intro hlinked
      rw [slotPage_of_linked hlinked] at hunlinked
      simp at hunlinked
    rw [invalidateBucket, if_neg (fun h => hlinked h.1), hnext]
    cases fuel <;> rfl

theorem invalidateBucket_retired (physicalAddress lastAddress : U64) (fuel : ℕ)
    (before links : List PageLink)
    (h : cache.Bucketed buckets) (htwins : TwinsTogether buckets) (hvalid : cache.LinkedValid)
    (hsplit : buckets (pageBucket page) = before ++ links) (hfuel : links.length ≤ fuel) :
    (invalidateBucket physicalAddress lastAddress page fuel links.head? cache).Retired cache
      (retiredOf (cache.matchesPage physicalAddress lastAddress page) links) := by
  induction links generalizing fuel before cache buckets with
  | nil =>
    cases fuel <;> exact .refl
  | cons link rest ih =>
    obtain ⟨fuel, rfl⟩ : ∃ rounds, fuel = rounds + 1 := ⟨fuel - 1, by simp at hfuel; omega⟩
    have hroom : rest.length ≤ fuel := Nat.le_of_succ_le_succ hfuel
    have hnodup := h.nodup (pageBucket page)
    have hnext : cache.pageLinks.next link = rest.head? :=
      ((h.shares.chains _).links before link rest hsplit).1
    have hcondition : (cache.linked link ∧ cache.linkPage link = page ∧
        cache.entryOverlaps link.1 physicalAddress lastAddress) ↔
        cache.matchesPage physicalAddress lastAddress page link = true := by
      rw [matchesPage, Bool.and_eq_true, decide_eq_true_iff, slotPage_eq_some, and_assoc]
    rw [List.head?_cons, invalidateBucket, hnext]
    by_cases hmatched : cache.matchesPage physicalAddress lastAddress page link = true
    · rw [if_pos (hcondition.mpr hmatched), retiredOf, if_pos hmatched]
      have hpage : cache.slotPage link = some page := by
        rw [matchesPage, Bool.and_eq_true, decide_eq_true_iff] at hmatched
        exact hmatched.1
      have hentry := hvalid link page hpage
      have hretired : (cache.invalidateEntry link.1).Retired cache [link.1] :=
        invalidateEntry_retired hentry
      by_cases hstop : rest.head? = some (link.1, 0)
      · -- the successor went with the entry, and has none itself
        rw [if_pos hstop, hstop]
        have hmem : (link.1, (0 : Fin 2)) ∈ buckets (pageBucket page) := by
          rw [hsplit]
          exact List.mem_append_right _ (List.mem_cons_of_mem _ (List.mem_of_mem_head? hstop))
        obtain ⟨other, hother, -⟩ := h.mem.mp hmem
        rw [invalidateBucket_of_unlinked fuel (by simp [hretired.slots])
          (invalidateEntry_next h hentry hother)]
        exact hretired
      · rw [if_neg hstop]
        have hothers := htwins.notMem_rest hnodup hsplit hstop
        have hbucketed := hretired.buckets buckets h
        have hkept : rest.filter (fun other => other.1 ∉ [link.1]) = rest := by
          rw [List.filter_eq_self]
          intro other hother
          simpa using hothers other hother
        have hsplit' : (buckets (pageBucket page)).filter (fun other => other.1 ∉ [link.1]) =
            before.filter (fun other => other.1 ∉ [link.1]) ++ rest := by
          rw [hsplit, List.filter_append, List.filter_cons_of_neg (by simp), hkept]
        have hrest := ih fuel _ hbucketed (htwins.filter _) (hretired.linkedValid hvalid) hsplit'
          hroom
        have hsame : retiredOf ((cache.invalidateEntry link.1).matchesPage physicalAddress
            lastAddress page) rest =
            retiredOf (cache.matchesPage physicalAddress lastAddress page) rest := by
          refine retiredOf_congr fun other hother => ?_
          have hne := hothers other hother
          rw [matchesPage, matchesPage, hretired.slots, hretired.entryOverlaps]
          simp [hne]
        rw [hsame] at hrest
        exact hrest.trans hretired
    · rw [if_neg (fun hlink => hmatched (hcondition.mp hlink)), retiredOf, if_neg hmatched]
      refine ih fuel (before ++ [link]) h htwins hvalid ?_ hroom
      rw [hsplit, List.append_assoc]
      rfl

theorem mem_retiredOf (htwins : TwinsTogether buckets) {bucket : Fin 16384}
    (hnodup : (buckets bucket).Nodup) {matched : PageLink → Bool} :
    index ∈ retiredOf matched (buckets bucket) ↔
      ∃ slot, (index, slot) ∈ buckets bucket ∧ matched (index, slot) = true ∧
        ∀ blocker, matched (blocker, 1) = true → (blocker, 0) ∈ buckets bucket →
          ¬ [(blocker, 1), (index, slot)].Sublist (buckets bucket) := by
  have hwalk : ∀ links before, buckets bucket = before ++ links →
      (index ∈ retiredOf matched links ↔ ∃ slot, (index, slot) ∈ links ∧
        matched (index, slot) = true ∧ ∀ blocker, matched (blocker, 1) = true →
          (blocker, 0) ∈ buckets bucket → ¬ [(blocker, 1), (index, slot)].Sublist links) := by
    intro links
    induction links with
    | nil => simp [retiredOf]
    | cons link rest ih =>
      intro before hsplit
      have hrest := ih (before ++ [link]) (by rw [hsplit]; simp)
      have hunique : link ∉ rest := by
        rw [hsplit, List.nodup_middle, List.nodup_cons] at hnodup
        intro hmem
        exact hnodup.1 (List.mem_append_right _ hmem)
      have hdrop : ∀ (blocker : BlockIndex) (other : PageLink),
          [(blocker, (1 : Fin 2)), other].Sublist (link :: rest) ↔
            [(blocker, 1), other].Sublist rest ∨ (blocker, 1) = link ∧ other ∈ rest := by
        intro blocker other
        rw [List.sublist_cons_iff]
        simp [List.singleton_sublist]
      have hfirst : ∀ blocker : BlockIndex, ¬ [(blocker, (1 : Fin 2)), link].Sublist (link :: rest) := by
        intro blocker hsub
        rw [hdrop] at hsub
        obtain hsub | ⟨-, hmem⟩ := hsub
        · exact hunique (hsub.subset (by simp))
        · exact hunique hmem
      rw [retiredOf]
      by_cases hmatched : matched link = true
      · rw [if_pos hmatched, List.mem_cons]
        by_cases hstop : rest.head? = some (link.1, 0)
        · rw [if_pos hstop]
          have hhead := List.mem_of_mem_head? hstop
          constructor
          · rintro (rfl | hnone)
            · exact ⟨link.2, List.mem_cons_self .., hmatched, fun blocker _ _ => hfirst blocker⟩
            · simp at hnone
          · rintro ⟨slot, hmem, -, hblockers⟩
            rcases List.mem_cons.mp hmem with rfl | hmem
            · exact .inl rfl
            · -- the walk stops at this link, which is thus the second of its entry
              have hsecond : link = (link.1, 1) := by
                obtain ⟨i, slot'⟩ := link
                have hslot : slot' = 0 ∨ slot' = 1 := by omega
                obtain rfl | rfl := hslot
                · exact absurd hhead hunique
                · rfl
              have hbucket : (link.1, (0 : Fin 2)) ∈ buckets bucket := by
                rw [hsplit]
                exact List.mem_append_right _ (List.mem_cons_of_mem _ hhead)
              refine absurd ?_ (hblockers link.1 (hsecond ▸ hmatched) hbucket)
              exact (hdrop link.1 _).mpr (.inr ⟨hsecond.symm, hmem⟩)
        · rw [if_neg hstop, hrest]
          constructor
          · rintro (rfl | ⟨slot, hmem, hmatches, hblockers⟩)
            · exact ⟨link.2, List.mem_cons_self .., hmatched, fun blocker _ _ => hfirst blocker⟩
            · refine ⟨slot, List.mem_cons_of_mem _ hmem, hmatches, fun blocker hblocker hzero => ?_⟩
              rw [hdrop]
              rintro (hsub | ⟨rfl, -⟩)
              · exact hblockers blocker hblocker hzero hsub
              · exact hstop (htwins.head? hnodup hsplit hzero)
          · rintro ⟨slot, hmem, hmatches, hblockers⟩
            rcases List.mem_cons.mp hmem with rfl | hmem
            · exact .inl rfl
            · refine .inr ⟨slot, hmem, hmatches, fun blocker hblocker hzero hsub => ?_⟩
              exact hblockers blocker hblocker hzero ((hdrop blocker _).mpr (.inl hsub))
      · rw [if_neg hmatched, hrest]
        constructor
        · rintro ⟨slot, hmem, hmatches, hblockers⟩
          refine ⟨slot, List.mem_cons_of_mem _ hmem, hmatches, fun blocker hblocker hzero => ?_⟩
          rw [hdrop]
          rintro (hsub | ⟨rfl, -⟩)
          · exact hblockers blocker hblocker hzero hsub
          · exact hmatched hblocker
        · rintro ⟨slot, hmem, hmatches, hblockers⟩
          rcases List.mem_cons.mp hmem with rfl | hmem
          · exact absurd hmatches hmatched
          · refine ⟨slot, hmem, hmatches, fun blocker hblocker hzero hsub => ?_⟩
            exact hblockers blocker hblocker hzero ((hdrop blocker _).mpr (.inl hsub))
  exact hwalk _ [] rfl

end walk

end BlockCache

end Pinecone
