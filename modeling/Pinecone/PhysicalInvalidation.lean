import Pinecone.BucketWalks

/-! Which entries the invalidation of an untracked physical range leaves behind. -/

namespace Pinecone

/-- The bytes of a physical range, which ends with the address space. -/
def rangeBytes (physicalAddress byteCount : U64) : Set ℕ :=
  {a | physicalAddress.toNat ≤ a ∧ a < physicalAddress.toNat + byteCount.toNat ∧ a < 2 ^ 64}

/-- The four bytes of an instruction. -/
def BlockInstruction.bytes (i : BlockInstruction) : Set ℕ :=
  {a | i.physicalAddress.toNat ≤ a ∧ a < i.physicalAddress.toNat + 4 ∧ a < 2 ^ 64}

/-- The block contains an instruction with bytes in the range. -/
def DecodedBlock.Touches (block : DecodedBlock) (physicalAddress byteCount : U64) : Prop :=
  ∃ i ∈ block.instructions, (i.bytes ∩ rangeBytes physicalAddress byteCount).Nonempty

/-- The last address of a range, as the source computes it. -/
def lastAddress (physicalAddress byteCount : U64) : U64 :=
  if physicalAddress + (byteCount - 1) < physicalAddress then 0xffffffffffffffff#64
  else physicalAddress + (byteCount - 1)

theorem lastAddress_toNat (physicalAddress : U64) {byteCount : U64} (h : byteCount ≠ 0#64) :
    (lastAddress physicalAddress byteCount).toNat =
      min (physicalAddress.toNat + byteCount.toNat - 1) (2 ^ 64 - 1) := by
  have hpositive : 0 < byteCount.toNat := by
    rcases Nat.eq_zero_or_pos byteCount.toNat with hzero | hpos
    · exact absurd (BitVec.eq_of_toNat_eq hzero) h
    · exact hpos
  have hcount := byteCount.isLt
  have haddress := physicalAddress.isLt
  have hless : (byteCount - 1).toNat = byteCount.toNat - 1 := by bv_omega
  unfold lastAddress
  split
  · rename_i hwraps
    rw [BitVec.lt_def, BitVec.toNat_add, hless] at hwraps
    have hmax : (0xffffffffffffffff#64).toNat = 2 ^ 64 - 1 := rfl
    rw [hmax]
    omega
  · rename_i hfits
    rw [BitVec.lt_def, BitVec.toNat_add, hless] at hfits
    rw [BitVec.toNat_add, hless]
    omega

theorem getLsbD_pageMask : ∀ i : Fin 64, (~~~0xfff#64).getLsbD i = decide (12 ≤ i.val) := by
  decide

theorem pageOf_toNat (address : U64) : (pageOf address).toNat = address.toNat / 4096 * 4096 := by
  have hshift : pageOf address = (address >>> 12) <<< 12 := by
    refine BitVec.eq_of_getLsbD_eq fun i hi => ?_
    have hmask := getLsbD_pageMask ⟨i, hi⟩
    rw [pageOf, BitVec.getLsbD_and, hmask, BitVec.getLsbD_shiftLeft, BitVec.getLsbD_ushiftRight]
    by_cases hlow : i < 12
    · have hnot : ¬ 12 ≤ i := Nat.not_le_of_lt hlow
      simp [hlow, hnot]
    · have hback : 12 + (i - 12) = i := by omega
      simp [hi, hlow, Nat.le_of_not_lt hlow, hback]
  have hlt := address.isLt
  rw [hshift, BitVec.toNat_shiftLeft, BitVec.toNat_ushiftRight, Nat.shiftRight_eq_div_pow,
    Nat.shiftLeft_eq]
  omega

namespace BlockCache

variable {cache cache' : BlockCache} {physicalAddress byteCount : U64} {index : BlockIndex}

theorem entryOverlaps_iff (h : byteCount ≠ 0#64) (i : BlockIndex) :
    cache.entryOverlaps i physicalAddress (lastAddress physicalAddress byteCount) = true ↔
      (cache.entries i).block.Touches physicalAddress byteCount := by
  have hlast := lastAddress_toNat physicalAddress h
  have hpositive : 0 < byteCount.toNat := by
    rcases Nat.eq_zero_or_pos byteCount.toNat with hzero | hpos
    · exact absurd (BitVec.eq_of_toNat_eq hzero) h
    · exact hpos
  have haddress := physicalAddress.isLt
  rw [entryOverlaps, List.any_eq_true, DecodedBlock.Touches]
  refine exists_congr fun instruction => and_congr_right fun _ => ?_
  have hinstruction := instruction.physicalAddress.isLt
  have hend : (if 0xffffffffffffffff#64 - 3 < instruction.physicalAddress then
      0xffffffffffffffff#64 else instruction.physicalAddress + 3).toNat =
      min (instruction.physicalAddress.toNat + 3) (2 ^ 64 - 1) := by
    have hmax : (0xffffffffffffffff#64 - 3).toNat = 2 ^ 64 - 4 := rfl
    have hmax' : (0xffffffffffffffff#64).toNat = 2 ^ 64 - 1 := rfl
    split
    · rename_i hwraps
      rw [BitVec.lt_def, hmax] at hwraps
      rw [hmax']
      omega
    · rename_i hfits
      rw [BitVec.lt_def, hmax] at hfits
      bv_omega
  dsimp only
  rw [Bool.and_eq_true, decide_eq_true_iff, decide_eq_true_iff, BitVec.le_def, BitVec.le_def, hend,
    hlast]
  constructor
  · rintro ⟨hbefore, hafter⟩
    refine ⟨max instruction.physicalAddress.toNat physicalAddress.toNat, ⟨?_, ?_, ?_⟩, ?_, ?_, ?_⟩
    all_goals omega
  · rintro ⟨a, ⟨hleft, hright, hsmall⟩, hlow, hhigh, -⟩
    constructor <;> omega

/-- The link is further back in the bucket. -/
def Behind (cache : BlockCache) (earlier later : PageLink) : Prop :=
  Relation.TransGen (fun link next => cache.pageLinks.next link = some next) earlier later

/-- The walk of a page's bucket ends before it comes to the entry: at a block whose two pages share
the bucket, which has the page in its second slot and is in the range too. Such a block does not end
the walk if it went with its first page before, unless it was itself missed there. -/
inductive Hidden (cache : BlockCache) (physicalAddress byteCount : U64) : BlockIndex → U64 → Prop
  | behind {blocker entry : BlockIndex} {slot : Fin 2} {page other : U64}
    (htouches : (cache.entries blocker).block.Touches physicalAddress byteCount)
    (hsecond : cache.slotPage (blocker, 1) = some page)
    (hfirst : cache.slotPage (blocker, 0) = some other)
    (hbucket : pageBucket other = pageBucket page)
    (hentry : cache.slotPage (entry, slot) = some page)
    (hbehind : cache.Behind (blocker, 1) (entry, slot))
    (hearlier : pageOf physicalAddress ≤ other → other < page →
      Hidden cache physicalAddress byteCount blocker other) :
    Hidden cache physicalAddress byteCount entry page

/-- No page of the range that has the entry leads to it. -/
structure Missed (cache : BlockCache) (physicalAddress byteCount : U64) (i : BlockIndex) : Prop where
  valid : (cache.entries i).valid = true
  touches : (cache.entries i).block.Touches physicalAddress byteCount
  hidden : ∀ slot page, cache.slotPage (i, slot) = some page → pageOf physicalAddress ≤ page →
    page ≤ pageOf (lastAddress physicalAddress byteCount) →
    cache.Hidden physicalAddress byteCount i page

/-- The entries with an instruction in the range are invalid, and the others are left alone. -/
structure InvalidatesExactly (cache' cache : BlockCache) (physicalAddress byteCount : U64) :
    Prop where
  complete : ∀ i, (cache'.entries i).valid = true →
    ¬ (cache'.entries i).block.Touches physicalAddress byteCount
  sound : ∀ i, (cache.entries i).valid = true →
    ¬ (cache.entries i).block.Touches physicalAddress byteCount → (cache'.entries i).valid = true

section reached

variable {buckets : Fin 16384 → List PageLink} {bound : ℕ} {limit : ℕ} {page : U64}

/-- The walk over the pages below the limit comes to the entry. -/
def Reached (cache : BlockCache) (physicalAddress byteCount : U64) (limit : ℕ) (i : BlockIndex) :
    Prop :=
  (cache.entries i).block.Touches physicalAddress byteCount ∧
    ∃ slot page, cache.slotPage (i, slot) = some page ∧ pageOf physicalAddress ≤ page ∧
      page.toNat < limit ∧ ¬ cache.Hidden physicalAddress byteCount i page

theorem aligned_toNat {address : U64} (h : address &&& 0xfff#64 = 0#64) :
    address.toNat % 4096 = 0 := by
  have hand := congrArg BitVec.toNat h
  rw [BitVec.toNat_and] at hand
  exact (Nat.and_two_pow_sub_one_eq_mod address.toNat 12).symm.trans hand

theorem missed_iff (hkept : cache.Kept none bound) (hvalid : (cache.entries index).valid = true) :
    cache.Missed physicalAddress byteCount index ↔
      (cache.entries index).block.Touches physicalAddress byteCount ∧
        ¬ cache.Reached physicalAddress byteCount
          ((pageOf (lastAddress physicalAddress byteCount)).toNat + 4096) index := by
  constructor
  · rintro ⟨-, htouches, hhidden⟩
    refine ⟨htouches, ?_⟩
    rintro ⟨-, slot, page, hpage, hfirst, hlast, hseen⟩
    have haligned := aligned_toNat (hkept.index.pages.aligned _ _ hpage)
    have haligned' := pageOf_toNat (lastAddress physicalAddress byteCount)
    refine hseen (hhidden slot page hpage hfirst ?_)
    rw [BitVec.le_def]
    omega
  · rintro ⟨htouches, hunreached⟩
    refine ⟨hvalid, htouches, fun slot page hpage hfirst hlast => ?_⟩
    by_contra hseen
    exact hunreached ⟨htouches, slot, page, hpage, hfirst,
      Nat.lt_of_le_of_lt hlast (Nat.lt_add_of_pos_right (by omega)), hseen⟩

theorem mem_bucket (hkept : cache.Kept none bound) (hbucketed : cache.Bucketed buckets)
    (htwins : TwinsTogether buckets) (hcount : byteCount ≠ 0#64) {retired : List BlockIndex}
    (hretired : cache'.Retired cache retired)
    (hreached : ∀ i, i ∈ retired ↔ cache.Reached physicalAddress byteCount page.toNat i) :
    index ∈ retiredOf (cache'.matchesPage physicalAddress
        (lastAddress physicalAddress byteCount) page)
      ((buckets (pageBucket page)).filter fun link => link.1 ∉ retired) ↔
      index ∉ retired ∧ (cache.entries index).block.Touches physicalAddress byteCount ∧
        ∃ slot, cache.slotPage (index, slot) = some page ∧
          ¬ cache.Hidden physicalAddress byteCount index page := by
  have hbucketed' := hretired.buckets buckets hbucketed
  have hmatches : ∀ link : PageLink, cache'.matchesPage physicalAddress
      (lastAddress physicalAddress byteCount) page link = true ↔ link.1 ∉ retired ∧
        cache.slotPage link = some page ∧
        (cache.entries link.1).block.Touches physicalAddress byteCount := by
    intro link
    rw [matchesPage, Bool.and_eq_true, decide_eq_true_iff, hretired.slots, hretired.entryOverlaps,
      entryOverlaps_iff hcount]
    by_cases hlink : link.1 ∈ retired
    · simp [hlink]
    · simp [hlink]
  have hsub : ∀ first second : PageLink, first.1 ∉ retired → second.1 ∉ retired →
      ([first, second].Sublist ((buckets (pageBucket page)).filter fun link => link.1 ∉ retired) ↔
        [first, second].Sublist (buckets (pageBucket page))) := by
    intro first second hfirst hsecond
    constructor
    · exact fun hsublist => hsublist.trans List.filter_sublist
    · intro hsublist
      have hfiltered := hsublist.filter fun link => link.1 ∉ retired
      simpa [hfirst, hsecond] using hfiltered
  have hbehind : ∀ first second : PageLink, cache.slotPage first = some page →
      ([first, second].Sublist (buckets (pageBucket page)) ↔ cache.Behind first second) := by
    intro first second hfirst
    exact ((hbucketed.shares.chains _).reaches_iff (hbucketed.mem.mpr ⟨page, hfirst, rfl⟩)).symm
  rw [mem_retiredOf (htwins.filter _) (hbucketed'.nodup _)]
  constructor
  · rintro ⟨slot, -, hmatched, hblockers⟩
    obtain ⟨hout, hpage, htouches⟩ := (hmatches _).mp hmatched
    refine ⟨hout, htouches, slot, hpage, ?_⟩
    rintro ⟨hblocks, hsecond, hfirst, hbucket, hentry, horder, hearlier⟩
    rename_i blocker slot' other
    obtain rfl : slot' = slot := hkept.index.pages.slot_unique hentry hpage
    -- a block that went with its first page was not hidden there
    have hstays : blocker ∉ retired := by
      intro hgone
      obtain ⟨-, slot'', page', hpage', hlow, hhigh, hseen⟩ := (hreached blocker).mp hgone
      have hslots : slot'' = 0 ∨ slot'' = 1 := by omega
      obtain rfl | rfl := hslots
      · obtain rfl := Option.some.inj (hfirst.symm.trans hpage')
        exact hseen (hearlier hlow hhigh)
      · obtain rfl := Option.some.inj (hsecond.symm.trans hpage')
        exact absurd hhigh (lt_irrefl _)
    refine hblockers blocker ((hmatches _).mpr ⟨hstays, hsecond, hblocks⟩) ?_ ?_
    · rw [List.mem_filter]
      exact ⟨hbucketed.mem.mpr ⟨other, hfirst, hbucket⟩, by simpa using hstays⟩
    · exact (hsub _ _ hstays hout).mpr ((hbehind _ _ hsecond).mpr horder)
  · rintro ⟨hout, htouches, slot, hpage, hseen⟩
    refine ⟨slot, ?_, (hmatches _).mpr ⟨hout, hpage, htouches⟩, fun blocker hblocker hzero horder => ?_⟩
    · rw [List.mem_filter]
      exact ⟨hbucketed.mem.mpr ⟨page, hpage, rfl⟩, by simpa using hout⟩
    · obtain ⟨hstays, hsecond, hblocks⟩ := (hmatches _).mp hblocker
      obtain ⟨other, hfirst, hbucket⟩ := hbucketed.mem.mp (List.mem_of_mem_filter hzero)
      refine hseen (.behind hblocks hsecond hfirst hbucket hpage
        ((hbehind _ _ hsecond).mp ((hsub _ _ hstays hout).mp horder)) fun hlow hhigh => ?_)
      by_contra hseen'
      exact hstays ((hreached blocker).mpr ⟨hblocks, 0, other, hfirst, hlow, hhigh, hseen'⟩)

theorem Reached.next (hkept : cache.Kept none bound) (haligned : page.toNat % 4096 = 0)
    (hfirst : pageOf physicalAddress ≤ page) :
    cache.Reached physicalAddress byteCount (page.toNat + 4096) index ↔
      cache.Reached physicalAddress byteCount page.toNat index ∨
        (cache.entries index).block.Touches physicalAddress byteCount ∧
          ∃ slot, cache.slotPage (index, slot) = some page ∧
            ¬ cache.Hidden physicalAddress byteCount index page := by
  constructor
  · rintro ⟨htouches, slot, page', hpage, hlow, hhigh, hseen⟩
    have haligned' := aligned_toNat (hkept.index.pages.aligned _ _ hpage)
    by_cases hbefore : page'.toNat < page.toNat
    · exact .inl ⟨htouches, slot, page', hpage, hlow, hbefore, hseen⟩
    · obtain rfl : page' = page := BitVec.eq_of_toNat_eq (by omega)
      exact .inr ⟨htouches, slot, hpage, hseen⟩
  · rintro (⟨htouches, slot, page', hpage, hlow, hhigh, hseen⟩ | ⟨htouches, slot, hpage, hseen⟩)
    · exact ⟨htouches, slot, page', hpage, hlow, by omega, hseen⟩
    · exact ⟨htouches, slot, page, hpage, hfirst, by omega, hseen⟩

theorem card_pageLink : Fintype.card PageLink = 65536 := by
  rw [Fintype.card_prod, Fintype.card_prod, Fintype.card_fin, Fintype.card_fin, Fintype.card_fin]

theorem invalidatePages_retired (hkept : cache.Kept none bound) (hbucketed : cache.Bucketed buckets)
    (htwins : TwinsTogether buckets) (hcount : byteCount ≠ 0#64) (fuel : ℕ)
    {retired : List BlockIndex} (hretired : cache'.Retired cache retired)
    (hreached : ∀ i, i ∈ retired ↔ cache.Reached physicalAddress byteCount page.toNat i)
    (haligned : page.toNat % 4096 = 0) (hfirst : pageOf physicalAddress ≤ page)
    (hlast : page.toNat + 4096 * fuel =
      (pageOf (lastAddress physicalAddress byteCount)).toNat + 4096) :
    ∃ all, (invalidatePages physicalAddress (lastAddress physicalAddress byteCount) fuel page
        cache').Retired cache all ∧ ∀ i, i ∈ all ↔ cache.Reached physicalAddress byteCount
          ((pageOf (lastAddress physicalAddress byteCount)).toNat + 4096) i := by
  induction fuel generalizing cache' page retired with
  | zero =>
    have hend : page.toNat = (pageOf (lastAddress physicalAddress byteCount)).toNat + 4096 := hlast
    refine ⟨retired, hretired, ?_⟩
    rwa [← hend]
  | succ fuel ih =>
    have hbucketed' := hretired.buckets buckets hbucketed
    have hfuel := (hbucketed'.nodup (pageBucket page)).length_le_card
    rw [card_pageLink] at hfuel
    have hwalk := invalidateBucket_retired physicalAddress (lastAddress physicalAddress byteCount)
      65536 [] _ hbucketed' (htwins.filter _) (hretired.linkedValid hkept.linkedValid) rfl hfuel
    rw [← congrFun hbucketed'.heads (pageBucket page)] at hwalk
    have hnext := hwalk.trans hretired
    have hmem : ∀ i, i ∈ retired ++ retiredOf (cache'.matchesPage physicalAddress
        (lastAddress physicalAddress byteCount) page)
        ((buckets (pageBucket page)).filter fun link => link.1 ∉ retired) ↔
        cache.Reached physicalAddress byteCount (page.toNat + 4096) i := by
      intro i
      rw [List.mem_append, mem_bucket hkept hbucketed htwins hcount hretired hreached,
        Reached.next hkept haligned hfirst, ← hreached i]
      tauto
    unfold invalidatePages
    dsimp only
    split
    · rename_i hstop
      have hmax : (0xffffffffffffffff#64 - 0x1000).toNat = 2 ^ 64 - 1 - 4096 := rfl
      have hbound := (pageOf (lastAddress physicalAddress byteCount)).isLt
      have hend : page.toNat = (pageOf (lastAddress physicalAddress byteCount)).toNat := by
        obtain rfl | hstop := hstop
        · rfl
        · rw [BitVec.lt_def, hmax] at hstop
          omega
      rw [← hend]
      exact ⟨_, hnext, hmem⟩
    · rename_i hgo
      have hmax : (0xffffffffffffffff#64 - 0x1000).toNat = 2 ^ 64 - 1 - 4096 := rfl
      have hroom : page.toNat + 4096 < 2 ^ 64 := by
        rw [not_or, BitVec.lt_def, hmax] at hgo
        omega
      have hadd : (page + 0x1000 : U64).toNat = page.toNat + 4096 := by
        rw [BitVec.toNat_add]
        exact Nat.mod_eq_of_lt hroom
      refine ih hnext ?_ ?_ ?_ ?_
      · rw [hadd]
        exact hmem
      · rw [hadd]
        omega
      · rw [BitVec.le_def, hadd]
        exact (BitVec.le_def.mp hfirst).trans (Nat.le_add_right _ _)
      · rw [hadd]
        omega

theorem invalidateAll_retired (hkept : cache.Kept none bound) (htwins : cache.Twins)
    (hcount : byteCount ≠ 0#64) :
    ∃ all, (invalidatePages physicalAddress (lastAddress physicalAddress byteCount)
        (((pageOf (lastAddress physicalAddress byteCount) - pageOf physicalAddress) >>> 12).toNat + 1)
        (pageOf physicalAddress) cache).Retired cache all ∧
      ∀ i, i ∈ all ↔ cache.Reached physicalAddress byteCount
        ((pageOf (lastAddress physicalAddress byteCount)).toNat + 4096) i := by
  obtain ⟨buckets, hbucketed, htogether⟩ := htwins
  have hlast := lastAddress_toNat physicalAddress hcount
  have hfirstPage := pageOf_toNat physicalAddress
  have hlastPage := pageOf_toNat (lastAddress physicalAddress byteCount)
  have haddress := physicalAddress.isLt
  have hpositive : 0 < byteCount.toNat := by
    rcases Nat.eq_zero_or_pos byteCount.toNat with hzero | hpos
    · exact absurd (BitVec.eq_of_toNat_eq hzero) hcount
    · exact hpos
  have hle : (pageOf physicalAddress).toNat ≤
      (pageOf (lastAddress physicalAddress byteCount)).toNat := by
    rw [hfirstPage, hlastPage]
    exact Nat.mul_le_mul_right _ (Nat.div_le_div_right (by omega))
  refine invalidatePages_retired hkept hbucketed htogether hcount _ .refl (fun i => ?_) ?_ ?_ ?_
  · constructor
    · intro hmem
      simp at hmem
    · rintro ⟨-, slot, page, -, hfirst, hbefore, -⟩
      exact absurd hfirst (Nat.not_le_of_lt hbefore)
  · omega
  · exact Nat.le_refl _
  · rw [BitVec.toNat_ushiftRight, BitVec.toNat_sub_of_le hle, Nat.shiftRight_eq_div_pow]
    omega

end reached

/-- The last page of the generation table, as the source computes it. -/
def trackedLastPage (cache : BlockCache) : U64 :=
  if cache.trackedPageCount = 0 then 0
  else cache.trackedFirstPage + (BitVec.ofNat 64 (cache.trackedPageCount - 1) <<< 12)

/-- The generation table covers the pages from one to another. -/
def Covers (cache : BlockCache) (firstPage lastPage : U64) : Prop :=
  cache.tracksPages = true ∧ cache.trackedFirstPage ≤ firstPage ∧ lastPage ≤ cache.trackedLastPage

/-- The generation table covers no code page, or at least not all pages of the range. -/
def Untracked (cache : BlockCache) (physicalAddress byteCount : U64) : Prop :=
  (∀ link page, cache.slotPage link = some page → ¬ cache.Covers page page) ∨
    ¬ cache.Covers (pageOf physicalAddress) (pageOf (lastAddress physicalAddress byteCount))

theorem covers_of_rangeMayContainCode {last : U64}
    (h : cache.rangeMayContainCode physicalAddress last = false) :
    cache.Covers (pageOf physicalAddress) (pageOf last) := by
  unfold rangeMayContainCode at h
  split at h
  · simp at h
  · rename_i htracks
    dsimp only at h
    split at h
    · simp at h
    · rename_i hinside
      rw [not_or, Bool.not_eq_false] at htracks
      rw [not_or, BitVec.not_lt, BitVec.not_lt] at hinside
      refine ⟨htracks.1, hinside.1, ?_⟩
      rw [trackedLastPage, if_neg htracks.2]
      exact hinside.2

theorem invalidatePhysicalRange_retired {bound : ℕ} (hkept : cache.Kept none bound)
    (htwins : cache.Twins) (hcount : byteCount ≠ 0#64)
    (huntracked : cache.Untracked physicalAddress byteCount) :
    ∃ all, (cache.invalidatePhysicalRange physicalAddress byteCount).Retired cache all ∧
      ∀ i, i ∈ all ↔ cache.Reached physicalAddress byteCount
        ((pageOf (lastAddress physicalAddress byteCount)).toNat + 4096) i := by
  have hnone : cache.Covers (pageOf physicalAddress)
      (pageOf (lastAddress physicalAddress byteCount)) → ∀ i, i ∈ [] ↔
      cache.Reached physicalAddress byteCount
        ((pageOf (lastAddress physicalAddress byteCount)).toNat + 4096) i := by
    intro hcovers i
    refine ⟨fun hmem => absurd hmem (by simp), ?_⟩
    rintro ⟨-, slot, page, hpage, hfirst, hlast, -⟩
    obtain hpages | hrange := huntracked
    · have haligned := aligned_toNat (hkept.index.pages.aligned _ _ hpage)
      have haligned' := pageOf_toNat (lastAddress physicalAddress byteCount)
      have hle : page ≤ pageOf (lastAddress physicalAddress byteCount) := by
        rw [BitVec.le_def]
        omega
      exact absurd ⟨hcovers.1, BitVec.le_trans hcovers.2.1 hfirst, BitVec.le_trans hle hcovers.2.2⟩
        (hpages _ _ hpage)
    · exact absurd hcovers hrange
  have hsome : ¬ byteCount = 0 := hcount
  unfold invalidatePhysicalRange
  rw [if_neg hsome]
  dsimp only
  rw [← lastAddress, ← trackedLastPage]
  split
  · rename_i hmay
    exact ⟨[], .refl, hnone (covers_of_rangeMayContainCode hmay)⟩
  · split
    · rename_i hcovers
      refine ⟨[], ?_, hnone hcovers⟩
      have hbumped := (bumpCodePages_same (List.range'
          ((pageOf physicalAddress - cache.trackedFirstPage) >>> 12).toNat
          (((pageOf (lastAddress physicalAddress byteCount) - pageOf physicalAddress) >>>
            12).toNat + 1)) (false, cache))
      split
      · rename_i cache' hfolded
        rw [hfolded] at hbumped
        have hepoch : SameIndex { cache' with
          codeMutationEpoch := advanceNonzeroCounter cache'.codeMutationEpoch } cache' := ⟨rfl, id⟩
        exact (hepoch.trans hbumped).retired
      · rename_i cache' hfolded
        rw [hfolded] at hbumped
        exact hbumped.retired
    · exact invalidateAll_retired hkept htwins hcount

theorem not_touches_zero {block : DecodedBlock} : ¬ block.Touches physicalAddress 0#64 := by
  rintro ⟨i, -, a, -, hlow, hhigh, -⟩
  simp only [BitVec.toNat_zero] at hhigh
  omega

theorem invalidatesExactly_iff {bound : ℕ} (hkept : cache.Kept none bound) (htwins : cache.Twins)
    (huntracked : cache.Untracked physicalAddress byteCount) :
    InvalidatesExactly (cache.invalidatePhysicalRange physicalAddress byteCount) cache
      physicalAddress byteCount ↔ ¬ ∃ i, cache.Missed physicalAddress byteCount i := by
  by_cases hcount : byteCount = 0#64
  · subst hcount
    constructor
    · rintro - ⟨i, hmissed⟩
      exact not_touches_zero hmissed.touches
    · intro _
      exact ⟨fun i _ => not_touches_zero, fun i hvalid _ => hvalid⟩
  · obtain ⟨all, hretired, hall⟩ := invalidatePhysicalRange_retired hkept htwins hcount huntracked
    have htouches : ∀ i, ((cache.invalidatePhysicalRange physicalAddress byteCount).entries
        i).block.Touches physicalAddress byteCount ↔
        (cache.entries i).block.Touches physicalAddress byteCount := by
      intro i
      rw [DecodedBlock.Touches, hretired.instructions]
      rfl
    constructor
    · rintro hexact ⟨i, hmissed⟩
      obtain ⟨hi, hunreached⟩ := (missed_iff hkept hmissed.valid).mp hmissed
      have hleft := (hretired.valid i).mpr ⟨hmissed.valid, fun hmem => hunreached ((hall i).mp hmem)⟩
      exact hexact.complete i hleft ((htouches i).mpr hi)
    · intro hfound
      refine ⟨fun i hleft => ?_, fun i hvalid hout => ?_⟩
      · obtain ⟨hvalid, hstays⟩ := (hretired.valid i).mp hleft
        rw [htouches]
        intro hi
        exact hfound ⟨i, (missed_iff hkept hvalid).mpr ⟨hi, fun h => hstays ((hall i).mpr h)⟩⟩
      · refine (hretired.valid i).mpr ⟨hvalid, fun hmem => ?_⟩
        exact hout ((hall i).mp hmem).1

end BlockCache

open BlockCache in
/-- In every reachable state, the invalidation of an untracked range is exact unless an entry is
missed. -/
theorem invalidatePhysicalRange_exact {σ : Type} (source : CodeSource σ) (s : σ)
    (events : List (BlockCacheEvent σ)) (physicalAddress byteCount : U64)
    (huntracked : (BlockWorld.run source ⟨.create, s⟩ events).cache.Untracked physicalAddress
      byteCount) :
    InvalidatesExactly
        ((BlockWorld.run source ⟨.create, s⟩ events).cache.invalidatePhysicalRange physicalAddress
          byteCount)
        (BlockWorld.run source ⟨.create, s⟩ events).cache physicalAddress byteCount ↔
      ¬ ∃ i, (BlockWorld.run source ⟨.create, s⟩ events).cache.Missed physicalAddress byteCount i := by
  have hkept : (BlockWorld.run source ⟨.create, s⟩ events).cache.Kept none
    (0 + 4 * events.length) := BlockWorld.run_kept events kept_create
  exact invalidatesExactly_iff hkept (run_twins source s events) huntracked

/-- A fetch callback over two code pages whose physical pages share a bucket. -/
def collidingSource : CodeSource ℕ where
  vector := .silent
  fetchInstruction pc n :=
    (⟨some (if pc < 0x1000#64 then 0x40002000#64 ||| pc else 0x40483000#64 ||| pc &&& 0xfff#64,
      if pc < 0x1000#64 then 0xd503201f#32 else 0x14000000#32), false⟩, n)
  validateMapping _ _ _ n := (⟨true, false⟩, n)
  ramWord _ _ _ := 0
  codeMutationEpoch _ _ := 0
  pageWriteGeneration _ _ _ _ := none
  markCodePage _ _ _ n := n

/-- A block at the start of the second page, and then one that runs into it from the first. -/
def collidingEvents : List (BlockCacheEvent ℕ) :=
  [.getOrDecode { BlockKey.zero with pc := 0x1000#64 },
    .getOrDecode { BlockKey.zero with pc := 0xffc#64 }]

/-- The entry of the first of them. -/
def collidingEntry : BlockIndex :=
  (blockSetIndex (BlockKey.hash { BlockKey.zero with pc := 0x1000#64 }), 0)

theorem collidingEntry_stays :
    ((BlockWorld.run collidingSource ⟨.create, 0⟩ collidingEvents).cache.invalidatePhysicalRange
        0x40483000#64 4#64 |>.entries collidingEntry).valid = true ∧
      ((BlockWorld.run collidingSource ⟨.create, 0⟩ collidingEvents).cache.invalidatePhysicalRange
        0x40483000#64 4#64).entryOverlaps collidingEntry 0x40483000#64
          (lastAddress 0x40483000#64 4#64) = true := by
  decide

open BlockCache in
theorem collidingRun_untracked :
    (BlockWorld.run collidingSource ⟨.create, 0⟩ collidingEvents).cache.Untracked 0x40483000#64
      4#64 := by
  have htracks : (BlockWorld.run collidingSource ⟨.create, 0⟩ collidingEvents).cache.tracksPages =
      false := by
    decide
  refine .inl fun link page _ hcovers => ?_
  rw [Covers, htracks] at hcovers
  simp at hcovers

open BlockCache in
/-- The older block stays, with the instruction that was written to. -/
theorem collidingRun_inexact :
    (BlockWorld.run collidingSource ⟨.create, 0⟩ collidingEvents).cache.Untracked 0x40483000#64
        4#64 ∧
      ¬ InvalidatesExactly
        ((BlockWorld.run collidingSource ⟨.create, 0⟩ collidingEvents).cache.invalidatePhysicalRange
          0x40483000#64 4#64)
        (BlockWorld.run collidingSource ⟨.create, 0⟩ collidingEvents).cache 0x40483000#64 4#64 := by
  refine ⟨collidingRun_untracked, fun hexact => ?_⟩
  obtain ⟨hvalid, hoverlaps⟩ := collidingEntry_stays
  exact hexact.complete _ hvalid ((entryOverlaps_iff (by decide) _).mp hoverlaps)

open BlockCache in
/-- The walk ends at the newer of the two blocks, and misses the older one. -/
theorem collidingRun_missed :
    ∃ i, (BlockWorld.run collidingSource ⟨.create, 0⟩ collidingEvents).cache.Missed 0x40483000#64
      4#64 i := by
  by_contra hnone
  have hexact := (invalidatePhysicalRange_exact collidingSource 0 collidingEvents 0x40483000#64 4#64
    collidingRun_untracked).mpr hnone
  obtain ⟨hvalid, hoverlaps⟩ := collidingEntry_stays
  exact hexact.complete _ hvalid ((entryOverlaps_iff (by decide) _).mp hoverlaps)

end Pinecone
