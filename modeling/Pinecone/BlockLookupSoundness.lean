import Pinecone.BlockInstall

/-! Every sequence of lookups, invalidations and rebindings keeps the index of the block cache. -/

namespace Pinecone

namespace BlockWorld

open BlockCache

variable {σ : Type} (source : CodeSource σ) (w : BlockWorld σ) {bound : ℕ} {index : BlockIndex}
  {key : BlockKey} {hash : U64}

section callbacks

theorem remap_same (remapped : Bool) : (w.remap remapped).SameIndex w.cache := by
  cases remapped
  · exact .refl
  · exact .invalidateTranslationMappings

variable {w} in
theorem modifyEntry_same {change : BlockCacheEntry → BlockCacheEntry}
    (h : ∀ entry, (change entry).view = entry.view) :
    (w.modifyEntry index change).cache.SameIndex w.cache :=
  .setEntry (h _)

theorem validateMappings_same (validator : ℕ) (pc previousPage : U64)
    (instructions : List BlockInstruction) :
    (validateMappings source validator pc previousPage instructions w).2.cache.SameIndex w.cache := by
  induction instructions generalizing pc previousPage w with
  | nil => exact .refl
  | cons i rest ih =>
    unfold validateMappings
    dsimp only
    split
    · exact ih _ _ _
    · split
      · exact (ih _ _ _).trans (w.remap_same _)
      · exact w.remap_same _

theorem sharedCodeIsCurrent_same (index : BlockIndex) :
    (w.sharedCodeIsCurrent source index).2.cache.SameIndex w.cache := by
  unfold sharedCodeIsCurrent
  dsimp only
  split
  · split
    · exact modifyEntry_same fun _ => rfl
    · exact .refl
  · exact .refl

theorem translationIsCurrent_same (index : BlockIndex) :
    (w.translationIsCurrent source index).2.cache.SameIndex w.cache := by
  unfold translationIsCurrent
  dsimp only
  split
  · split
    · exact .refl
    · rename_i validator _
      have hsame := w.validateMappings_same source validator
        (w.cache.entries index).block.key.pc 0xffffffffffffffff#64
        (w.cache.entries index).block.instructions
      split
      · rename_i hvalidated
        rw [hvalidated] at hsame
        exact hsame
      · rename_i hvalidated
        rw [hvalidated] at hsame
        split
        · exact hsame
        · refine SameIndex.trans (modifyEntry_same ?_) hsame
          exact fun _ => rfl
  · exact .refl

theorem entryCodeIsCurrent_same (index : BlockIndex) :
    (w.entryCodeIsCurrent source index).2.cache.SameIndex w.cache := by
  have hshared := w.sharedCodeIsCurrent_same source index
  unfold entryCodeIsCurrent
  split
  · rename_i hcurrent
    rw [hcurrent] at hshared
    exact hshared
  · rename_i w' hcurrent
    rw [hcurrent] at hshared
    split
    · exact hshared
    · have htranslation := w'.translationIsCurrent_same source index
      split
      · rename_i hcurrent'
        rw [hcurrent'] at htranslation
        exact htranslation.trans hshared
      · rename_i hcurrent'
        rw [hcurrent'] at htranslation
        split
        · refine SameIndex.trans (modifyEntry_same ?_) (htranslation.trans hshared)
          exact fun _ => rfl
        · exact htranslation.trans hshared

end callbacks

section decode

theorem openDecodeWindow_same (key : BlockKey) :
    (w.openDecodeWindow key).2.cache.SameIndex w.cache := by
  unfold openDecodeWindow
  split
  · exact .refl
  · dsimp only
    split_ifs
    · exact .refl
    · exact .invalidateDecodeWindow
    · exact .refl

theorem fetchWord_same (direct : DirectFetch) (pc : U64) :
    (w.fetchWord source direct pc).2.cache.SameIndex w.cache := by
  unfold fetchWord
  split
  · exact .refl
  · exact w.remap_same _

theorem followDirectly_same (key : BlockKey) (pc physicalAddress : U64) :
    (w.followDirectly key pc physicalAddress).2.cache.SameIndex w.cache := by
  unfold followDirectly
  split
  · exact ⟨rfl, id⟩
  · exact .refl

theorem decodeLoop_same (key : BlockKey) (left : ℕ) (direct : DirectFetch) (pc : U64)
    (decoded : List BlockInstruction) :
    (decodeLoop source key left direct pc decoded w).2.cache.SameIndex w.cache := by
  induction left generalizing direct pc decoded w with
  | zero => exact .refl
  | succ left ih =>
    have hfetched := w.fetchWord_same source direct pc
    unfold decodeLoop
    split
    · rename_i hfetch
      rw [hfetch] at hfetched
      exact hfetched
    · rename_i physicalAddress raw w' hfetch
      rw [hfetch] at hfetched
      have hfollowed := (w'.followDirectly_same key pc physicalAddress).trans hfetched
      dsimp only
      split
      · exact hfollowed
      · split
        · exact hfollowed
        · exact (ih _ _ _ _).trans hfollowed

theorem decodeBlock_same (key : BlockKey) :
    (w.decodeBlock source key).2.cache.SameIndex w.cache :=
  (decodeLoop_same source _ key blockMaxInstructions _ key.pc []).trans (w.openDecodeWindow_same key)

theorem decodeBlock_key (key : BlockKey) : (w.decodeBlock source key).1.2.key = key := rfl

end decode

section probe

variable {w}

/-- The entries of other keys, and the current ones of this key, are what a probe leaves. -/
structure Probed (cache' cache : BlockCache) (bound : ℕ) : Prop where
  kept : cache'.Kept none bound
  shrinks : cache'.Shrinks cache

theorem Probed.trans {cache cache' cache'' : BlockCache} (h : Probed cache'' cache' bound)
    (h' : Probed cache' cache bound) : Probed cache'' cache bound :=
  ⟨h.kept, h.shrinks.trans h'.shrinks⟩

theorem Probed.same {cache cache' : BlockCache} (hsame : cache'.SameIndex cache)
    (h : cache.Kept none bound) : Probed cache' cache bound :=
  ⟨hsame.kept h, hsame.shrinks⟩

theorem discardStaleEntry_probed {cache : BlockCache} (h : cache.Kept none bound)
    (hvalid : (cache.entries index).valid = true) :
    Probed (cache.discardStaleEntry index) cache bound ∧
      ((cache.discardStaleEntry index).entries index).valid = false := by
  have hsame := discardStaleEntry_same hvalid
  refine ⟨⟨hsame.kept (h.dropEntry 0), hsame.shrinks.trans (dropEntry_shrinks 0)⟩, ?_⟩
  rw [hsame.valid]
  exact dropEntry_invalid 0

theorem probeEntry_probed (h : w.cache.Kept none bound) (key : BlockKey) (index : BlockIndex) :
    Probed (w.probeEntry source key index).2.cache w.cache bound ∧
      ((w.probeEntry source key index).1 = false →
        ((w.probeEntry source key index).2.cache.entries index).valid = true →
          ((w.probeEntry source key index).2.cache.entries index).block.key ≠ key) := by
  unfold probeEntry
  dsimp only
  split
  · rename_i hentry
    have hcurrent := w.entryCodeIsCurrent_same source index
    split
    · rename_i w' hstale
      rw [hstale] at hcurrent
      have hvalid : (w'.cache.entries index).valid = true := (hcurrent.valid index).trans hentry.1
      obtain ⟨hprobed, hinvalid⟩ := discardStaleEntry_probed (hcurrent.kept h) hvalid
      refine ⟨hprobed.trans (.same hcurrent h), fun _ hleft => ?_⟩
      exact absurd hleft (by simp [hinvalid])
    · rename_i w' hfresh
      rw [hfresh] at hcurrent
      refine ⟨.same ?_ h, fun hmiss => absurd hmiss (by simp)⟩
      exact SameIndex.touchEntry.trans (SameIndex.recordPrefetchHit.trans hcurrent)
  · rename_i hentry
    exact ⟨.same .refl h, fun _ hvalid hkey => hentry ⟨hvalid, hkey⟩⟩

theorem probeFront_probed (h : w.cache.Kept none bound) (key : BlockKey) (hash : U64) :
    Probed (w.probeFront source key hash).2.cache w.cache bound := by
  unfold probeFront
  split
  · rename_i known index _
    split
    · have hprobed := (probeEntry_probed source h key index).1
      split
      · rename_i hhit
        rw [hhit] at hprobed
        exact hprobed
      · rename_i hmiss
        rw [hmiss] at hprobed
        exact hprobed
    · exact .same .refl h
  · exact .same .refl h

theorem probeSet_probed (key : BlockKey) (hash : U64) (ways : List (Fin 4))
    (firstInvalid : Option BlockIndex) (w : BlockWorld σ) (h : w.cache.Kept none bound)
    (hfree : ∀ index ∈ firstInvalid,
      index.1 = blockSetIndex hash ∧ (w.cache.entries index).valid = false) :
    let result := probeSet source key hash ways firstInvalid w
    Probed result.2.cache w.cache bound ∧
      (result.1.1 = none →
        (∀ way ∈ ways, (result.2.cache.entries (blockSetIndex hash, way)).valid = true →
          (result.2.cache.entries (blockSetIndex hash, way)).block.key ≠ key) ∧
        ∀ index ∈ result.1.2,
          index.1 = blockSetIndex hash ∧ (result.2.cache.entries index).valid = false) := by
  induction ways generalizing firstInvalid w with
  | nil => exact ⟨.same .refl h, fun _ => ⟨by simp, hfree⟩⟩
  | cons way ways ih =>
    obtain ⟨hprobed, hmissed⟩ := probeEntry_probed source h key (blockSetIndex hash, way)
    unfold probeSet
    dsimp only
    split
    · rename_i w' hhit
      rw [hhit] at hprobed
      refine ⟨?_, fun hnone => absurd hnone (by simp)⟩
      exact Probed.trans (.same (.updateFrontCache hash) hprobed.kept) hprobed
    · rename_i w' hmiss
      rw [hmiss] at hprobed hmissed
      have hinvalid : ∀ index, (w.cache.entries index).valid = false →
          (w'.cache.entries index).valid = false := by
        intro index hindex
        by_contra hvalid
        rw [Bool.not_eq_false] at hvalid
        exact absurd (hprobed.shrinks.valid hvalid) (by simp [hindex])
      have hfree' : ∀ index ∈ firstInvalid.or (if (w'.cache.entries (blockSetIndex hash, way)).valid
          then none else some (blockSetIndex hash, way)),
          index.1 = blockSetIndex hash ∧ (w'.cache.entries index).valid = false := by
        intro index hindex
        rcases hfirst : firstInvalid with _ | first
        · rw [hfirst, Option.none_or] at hindex
          split at hindex
          · simp at hindex
          · rename_i hnot
            obtain rfl := Option.some.inj hindex
            exact ⟨rfl, Bool.eq_false_iff.mpr hnot⟩
        · rw [hfirst, Option.some_or] at hindex
          obtain ⟨hset, hwas⟩ := hfree index (hfirst ▸ hindex)
          exact ⟨hset, hinvalid index hwas⟩
      obtain ⟨hrest, hmisses⟩ := ih _ w' hprobed.kept hfree'
      refine ⟨hrest.trans hprobed, fun hnone => ?_⟩
      obtain ⟨hways, hfound⟩ := hmisses hnone
      refine ⟨fun other hother hvalid => ?_, hfound⟩
      rcases List.mem_cons.mp hother with rfl | hother
      · rw [hrest.shrinks.key hvalid]
        exact hmissed rfl (hrest.shrinks.valid hvalid)
      · exact hways other hother hvalid

end probe

section install

variable {w}

theorem victimWay_fst (cache : BlockCache) (set : Fin 8192) : (cache.victimWay set).1 = set := by
  have hfold : ∀ (ways : List (Fin 4)) (victim : BlockIndex), victim.1 = set →
      (ways.foldl (fun victim way =>
        if evictsFirst (cache.entries (set, way)) (cache.entries victim) then (set, way)
        else victim) victim).1 = set := by
    intro ways
    induction ways with
    | nil => exact fun _ h => h
    | cons way ways ih =>
      intro victim h
      rw [List.foldl_cons]
      refine ih _ ?_
      split
      · rfl
      · exact h
  exact hfold _ _ rfl

theorem installBlock_kept {block : DecodedBlock} {firstInvalid : Option BlockIndex}
    (h : w.cache.Kept none bound) (hhash : block.key.hash = hash)
    (habsent : ∀ i, (w.cache.entries i).valid = true → (w.cache.entries i).block.key ≠ block.key)
    (hfree : ∀ index ∈ firstInvalid,
      index.1 = blockSetIndex hash ∧ (w.cache.entries index).valid = false) :
    (w.installBlock source block hash firstInvalid).2.cache.Kept none (bound + 1) := by
  have hindexed : ∀ (cache : BlockCache) (index : BlockIndex), cache.Kept (some index) bound →
      (∀ slot, cache.slotPage (index, slot) = none) →
      (∀ i, i ≠ index → (cache.entries i).view = (w.cache.entries i).view) →
      index.1 = blockSetIndex hash →
      ((BlockWorld.mk cache w.outside).writeEntry source block index |>.indexEntry source
        index).cache.Kept none (bound + 1) := by
    intro cache index hkept hunlinked hothers hset
    refine fill_kept hkept hunlinked (fun i hi => ?_) (by rw [hhash, hset])
    have hview := hothers i hi.ne
    have hvalid : (w.cache.entries i).valid = true :=
      (congrArg EntryView.valid hview).symm.trans hi.1
    rw [show (cache.entries i).block.key = _ from congrArg EntryView.key hview]
    exact habsent i hvalid
  rcases firstInvalid with _ | index
  · have hset := victimWay_fst w.cache (blockSetIndex hash)
    exact (SameIndex.updateFrontCache hash).kept
      (hindexed _ _ h.evictEntry evictEntry_slotPage (fun i hi => evictEntry_entry hi) hset)
  · obtain ⟨hset, hinvalid⟩ := hfree index rfl
    refine (SameIndex.updateFrontCache hash).kept
      (hindexed w.cache index h.opened (fun slot => ?_) (fun _ _ => rfl) hset)
    rw [h.index.slots _ (by simp), entrySlot, hinvalid]
    rfl

theorem decodeMiss_kept {firstInvalid : Option BlockIndex} (h : w.cache.Kept none bound)
    (hhash : key.hash = hash)
    (habsent : ∀ i, (w.cache.entries i).valid = true → (w.cache.entries i).block.key ≠ key)
    (hfree : ∀ index ∈ firstInvalid,
      index.1 = blockSetIndex hash ∧ (w.cache.entries index).valid = false) :
    (w.decodeMiss source key hash firstInvalid).2.cache.Kept none (bound + 1) := by
  have hsame := w.decodeBlock_same source key
  have hkey := w.decodeBlock_key source key
  unfold decodeMiss
  split
  · rename_i block w' hdecoded
    rw [hdecoded] at hsame hkey
    have hkept : w'.cache.Kept none bound := hsame.kept h
    split
    · exact hkept.mono (Nat.le_succ _)
    · refine installBlock_kept source hkept (by rw [← hhash]; exact congrArg BlockKey.hash hkey)
        (fun i hi => ?_) fun index hindex => ?_
      · have hblock : block.key = key := hkey
        rw [hblock, hsame.key]
        exact habsent i ((hsame.valid i).symm.trans hi)
      · obtain ⟨hset, hinvalid⟩ := hfree index hindex
        exact ⟨hset, (hsame.valid index).trans hinvalid⟩
  · rename_i status block w' hdecoded
    rw [hdecoded] at hsame
    exact (hsame.kept h).mono (Nat.le_succ _)

theorem absent_of_set {cache : BlockCache} (h : cache.Kept none bound)
    (hset : ∀ way, (cache.entries (blockSetIndex key.hash, way)).valid = true →
      (cache.entries (blockSetIndex key.hash, way)).block.key ≠ key) :
    ∀ i, (cache.entries i).valid = true → (cache.entries i).block.key ≠ key := by
  rintro ⟨set, way⟩ hvalid hkey
  have hsets := h.index.sets (set, way) ⟨hvalid, by simp⟩
  rw [hkey] at hsets
  subst hsets
  exact hset way hvalid hkey

theorem lookupOrDecode_kept (h : w.cache.Kept none bound) (key : BlockKey) :
    (w.lookupOrDecode source key).2.cache.Kept none (bound + 1) := by
  obtain ⟨hhash, hhashed⟩ := keyHash_spec h.context key
  have hkept : (w.cache.keyHash key).2.Kept none bound := hhashed.kept h
  unfold lookupOrDecode
  dsimp only
  rw [hhash]
  have hfront := probeFront_probed source (w := { w with cache := (w.cache.keyHash key).2 }) hkept
    key key.hash
  split
  · rename_i index w' hhit
    rw [hhit] at hfront
    exact hfront.kept.mono (Nat.le_succ _)
  · rename_i w' hmiss
    rw [hmiss] at hfront
    obtain ⟨hprobed, hmissed⟩ := probeSet_probed source key key.hash [0, 1, 2, 3] none w'
      hfront.kept (by simp)
    split
    · rename_i index first w'' hhit
      rw [hhit] at hprobed
      exact hprobed.kept.mono (Nat.le_succ _)
    · rename_i firstInvalid w'' hnone
      rw [hnone] at hprobed hmissed
      obtain ⟨hways, hfree⟩ := hmissed rfl
      have hall : ∀ way : Fin 4, way ∈ [0, 1, 2, 3] := by decide
      exact decodeMiss_kept source hprobed.kept rfl
        (absent_of_set hprobed.kept fun way => hways way (hall way)) hfree

theorem batchPrefetch_kept (first : BlockKey) (protectedSet : Fin 8192) (batch : List ℕ)
    (current : BlockIndex) (w : BlockWorld σ) (h : w.cache.Kept none bound) :
    (batchPrefetch source first protectedSet batch current w).cache.Kept none
      (bound + batch.length) := by
  induction batch generalizing current w bound with
  | nil => exact h
  | cons batchIndex rest ih =>
    have hle : bound ≤ bound + (batchIndex :: rest).length := Nat.le_add_right _ _
    unfold batchPrefetch
    split
    · exact h.mono hle
    · split
      · exact h.mono hle
      · rename_i key _
        have hkept : (w.cache.keyHash key).2.Kept none bound := (keyHash_spec h.context key).2.kept h
        dsimp only
        split
        · exact hkept.mono hle
        · have hlooked := lookupOrDecode_kept source (w := { w with cache := (w.cache.keyHash key).2 })
            hkept key.canonical
          split
          · rename_i next w' hnext
            rw [hnext] at hlooked
            have hrest := ih next.index w' hlooked
            rw [List.length_cons, Nat.add_comm rest.length, ← Nat.add_assoc]
            exact hrest
          · rename_i w' _ hnext
            rw [hnext] at hlooked
            have hle' : bound + 1 ≤ bound + (batchIndex :: rest).length := by
              rw [List.length_cons]
              omega
            exact hlooked.mono hle'

theorem getOrDecode_kept (h : w.cache.Kept none bound) (key : BlockKey) :
    (w.getOrDecode source key).2.cache.Kept none (bound + 4) := by
  have hlooked := lookupOrDecode_kept source h key.canonical
  unfold getOrDecode
  dsimp only
  split
  · rename_i status w' hmiss
    rw [hmiss] at hlooked
    exact hlooked.mono (by omega)
  · rename_i result status w' hfound
    rw [hfound] at hlooked
    split
    · have hactive : ∀ (cache : BlockCache) (active : Bool),
          SameIndex { cache with batchPrefetchActive := active } cache := fun _ _ => ⟨rfl, id⟩
      have hprefetched := batchPrefetch_kept source key.canonical result.index.1 [0, 1, 2]
        result.index { w' with cache := { w'.cache with batchPrefetchActive := true } }
        ((hactive _ _).kept hlooked)
      exact (hactive _ _).kept hprefetched
    · exact hlooked.mono (by omega)

end install

end BlockWorld

namespace BlockCache

variable {cache : BlockCache} {bound : ℕ}

section clear

theorem chains_empty : ∀ bucket : Fin 16384, NodeLinks.Chains
    (⟨fun _ => none, fun _ => none⟩ : NodeLinks PageLink) ((fun _ => []) bucket) :=
  fun _ => NodeLinks.chains_nil _

theorem kept_of_empty (hentries : cache.entries = fun _ => .zero)
    (hlinks : cache.pageLinks = ⟨fun _ => none, fun _ => none⟩)
    (hlinked : cache.linked = fun _ => false) (hheads : cache.pageBucketHeads = fun _ => none)
    (hrefcounts : cache.tracksPages = true → ∀ index, cache.codePageRefcounts index = 0#16)
    (hfirst : cache.trackedFirstPage &&& 0xfff#64 = 0#64) (hcontext : cache.lastContext = none)
    (hbound : bound < 2 ^ 64 → cache.nextSerial.toNat ≤ bound) : cache.Kept none bound := by
  have hslots : cache.slotPage = fun _ => none := by
    funext link
    simp [slotPage, hlinked]
  have hlinksOf : ∀ index, cache.linksOf index = ∅ := by
    intro index
    ext link
    simp [mem_linksOf, hslots]
  have hlive : ∀ i, ¬ cache.Live none i := by
    intro i hi
    rw [Live, hentries] at hi
    exact absurd hi.1 (by simp [BlockCacheEntry.zero])
  refine ⟨⟨⟨⟨fun _ => [], ⟨?_, ?_⟩, ?_⟩, fun htracks index _ => ?_, hfirst, ?_, ?_⟩,
    fun link _ => ?_, fun i _ hi => absurd hi (hlive i), fun i hi => absurd hi (hlive i),
    fun i hi => absurd hi (hlive i)⟩, ?_, fun hsmall => ⟨hbound hsmall,
      fun i hi => absurd hi (hlive i), fun i _ hi => absurd hi (hlive i)⟩⟩
  · rw [hlinks]
    exact chains_empty
  · simp [hslots]
  · rw [hheads]
    rfl
  · rw [hlinksOf, hrefcounts htracks]
    rfl
  · simp [hslots]
  · simp [hslots]
  · rw [hslots, entrySlot, hentries]
    rfl
  · intro key hash hlast
    simp [hcontext] at hlast

theorem kept_create : create.Kept none 0 :=
  kept_of_empty rfl rfl rfl rfl (by simp [create]) rfl rfl (by simp [create])

theorem Kept.nextSerial_le (h : cache.Kept none bound) :
    bound < 2 ^ 64 → cache.nextSerial.toNat ≤ bound :=
  fun hbound => (h.numbered hbound).bounded

theorem Kept.clear (h : cache.Kept none bound) : cache.clear.Kept none bound :=
  kept_of_empty rfl rfl rfl rfl (fun htracks index => by
    have htracks' : cache.tracksPages = true := htracks
    simp [BlockCache.clear, htracks']) h.index.pages.firstPage rfl h.nextSerial_le

theorem Kept.configurePhysicalRange (h : cache.Kept none bound) (physicalAddress byteCount : U64) :
    (cache.configurePhysicalRange physicalAddress byteCount).2.Kept none bound := by
  unfold BlockCache.configurePhysicalRange
  dsimp only
  split
  · exact h
  · split
    · exact h
    · exact kept_of_empty rfl rfl rfl rfl (fun _ _ => rfl) (BlockWorld.pageOf_aligned _) rfl
        h.nextSerial_le

theorem Kept.withRam (h : cache.Kept none bound) (ram : Option BoundRam) :
    Kept { cache with ram := ram } none bound := by
  have hsame : SameIndex { cache with ram := ram } cache := ⟨rfl, id⟩
  exact hsame.kept h

theorem Kept.bindPhysicalMemory (h : cache.Kept none bound) (ram : BoundRam) :
    (cache.bindPhysicalMemory ram).2.Kept none bound := by
  have hconfigured := h.configurePhysicalRange ram.base ram.size
  unfold BlockCache.bindPhysicalMemory
  dsimp only
  split
  · exact h
  · split
    · split
      · exact h
      · exact h.clear.withRam _
    · split
      · rename_i cache' hdeclined
        rw [hdeclined] at hconfigured
        exact hconfigured
      · rename_i cache' haccepted
        rw [haccepted] at hconfigured
        exact hconfigured.withRam _

theorem Kept.setGuestMemory (h : cache.Kept none bound) (memory : Option ℕ) :
    (cache.setGuestMemory memory).Kept none bound := by
  unfold BlockCache.setGuestMemory
  split
  · exact h
  · have hmemory : SameIndex { cache with guestMemory := memory } cache := ⟨rfl, id⟩
    exact (hmemory.kept h).clear

end clear

section invalidate

theorem Kept.invalidateBucket (physicalAddress lastAddress page : U64) (fuel : ℕ)
    (link : Option PageLink) (h : cache.Kept none bound) :
    (invalidateBucket physicalAddress lastAddress page fuel link cache).Kept none bound := by
  induction fuel generalizing link cache with
  | zero => cases link <;> exact h
  | succ fuel ih =>
    cases link with
    | none => exact h
    | some link =>
      unfold BlockCache.invalidateBucket
      refine ih _ ?_
      split
      · exact h.invalidateEntry
      · exact h

theorem Kept.invalidatePages (physicalAddress lastAddress : U64) (fuel : ℕ) (page : U64)
    (h : cache.Kept none bound) :
    (invalidatePages physicalAddress lastAddress fuel page cache).Kept none bound := by
  induction fuel generalizing page cache with
  | zero => exact h
  | succ fuel ih =>
    have hbucket := h.invalidateBucket physicalAddress lastAddress page 65536
      (cache.pageBucketHeads (pageBucket page))
    unfold BlockCache.invalidatePages
    dsimp only
    split
    · exact hbucket
    · exact ih _ hbucket

theorem bumpCodePage_same (bumped : Bool × BlockCache) (index : ℕ) :
    (bumpCodePage bumped index).2.SameIndex bumped.2 := by
  unfold bumpCodePage
  dsimp only
  split
  · exact ⟨rfl, id⟩
  · exact .refl

theorem bumpCodePages_same (pages : List ℕ) (bumped : Bool × BlockCache) :
    (pages.foldl bumpCodePage bumped).2.SameIndex bumped.2 := by
  induction pages generalizing bumped with
  | nil => exact .refl
  | cons page pages ih => exact (ih _).trans (bumpCodePage_same bumped page)

theorem Kept.invalidatePhysicalRange (physicalAddress byteCount : U64) (h : cache.Kept none bound) :
    (cache.invalidatePhysicalRange physicalAddress byteCount).Kept none bound := by
  unfold BlockCache.invalidatePhysicalRange
  split
  · exact h
  · dsimp only
    generalize (if physicalAddress + (byteCount - 1) < physicalAddress then
      0xffffffffffffffff#64 else physicalAddress + (byteCount - 1)) = lastAddress
    generalize (if cache.trackedPageCount = 0 then 0 else cache.trackedFirstPage +
      (BitVec.ofNat 64 (cache.trackedPageCount - 1) <<< 12) : U64) = trackedLastPage
    split
    · exact h
    · split
      · have hbumped := bumpCodePages_same (List.range'
          ((pageOf physicalAddress - cache.trackedFirstPage) >>> 12).toNat
          (((pageOf lastAddress - pageOf physicalAddress) >>> 12).toNat + 1)) (false, cache)
        split
        · rename_i cache' hfolded
          rw [hfolded] at hbumped
          have hepoch : SameIndex { cache' with
            codeMutationEpoch := advanceNonzeroCounter cache'.codeMutationEpoch } cache' := ⟨rfl, id⟩
          exact (hepoch.trans hbumped).kept h
        · rename_i cache' hfolded
          rw [hfolded] at hbumped
          exact hbumped.kept h
      · exact h.invalidatePages physicalAddress lastAddress _ _

end invalidate

end BlockCache

end Pinecone
