import Pinecone.BlockLookupSoundness

/-! The index of the block cache over whole runs. -/

namespace Pinecone

/-- What may happen to a block cache. Anything may change outside of it between two events. -/
inductive BlockCacheEvent (σ : Type)
  | getOrDecode (key : BlockKey)
  | codeIsCurrent (index : BlockIndex)
  | invalidatePhysicalRange (physicalAddress byteCount : U64)
  | clear
  | configurePhysicalRange (physicalAddress byteCount : U64)
  | bindPhysicalMemory (ram : BoundRam)
  | setGuestMemory (memory : Option ℕ)
  | setMappingValidator (validator : Option ℕ)
  | invalidateTranslationMappings
  | invalidateDecodeWindow
  | registerTraceCodePage (page : U64)
  | outside (change : σ → σ)

namespace BlockWorld

variable {σ : Type} (source : CodeSource σ) (w : BlockWorld σ)

/-- `avz_native_decoded_block_code_is_current`. -/
def codeIsCurrent (index : BlockIndex) : Bool × BlockWorld σ :=
  if (w.cache.entries index).valid then w.entryCodeIsCurrent source index else (false, w)

def step : BlockCacheEvent σ → BlockWorld σ
  | .getOrDecode key => (w.getOrDecode source key).2
  | .codeIsCurrent index => (w.codeIsCurrent source index).2
  | .invalidatePhysicalRange physicalAddress byteCount =>
    { w with cache := w.cache.invalidatePhysicalRange physicalAddress byteCount }
  | .clear => { w with cache := w.cache.clear }
  | .configurePhysicalRange physicalAddress byteCount =>
    { w with cache := (w.cache.configurePhysicalRange physicalAddress byteCount).2 }
  | .bindPhysicalMemory ram => { w with cache := (w.cache.bindPhysicalMemory ram).2 }
  | .setGuestMemory memory => { w with cache := w.cache.setGuestMemory memory }
  | .setMappingValidator validator => { w with cache := w.cache.setMappingValidator validator }
  | .invalidateTranslationMappings => { w with cache := w.cache.invalidateTranslationMappings }
  | .invalidateDecodeWindow => { w with cache := w.cache.invalidateDecodeWindow }
  | .registerTraceCodePage page => { w with cache := (w.cache.registerTraceCodePage page).2 }
  | .outside change => { w with outside := change w.outside }

def run (events : List (BlockCacheEvent σ)) : BlockWorld σ := events.foldl (step source) w

open BlockCache

variable {source w} {bound : ℕ}

theorem codeIsCurrent_same (index : BlockIndex) :
    (w.codeIsCurrent source index).2.cache.SameIndex w.cache := by
  unfold codeIsCurrent
  split
  · exact w.entryCodeIsCurrent_same source index
  · exact .refl

theorem step_kept (h : w.cache.Kept none bound) (event : BlockCacheEvent σ) :
    (w.step source event).cache.Kept none (bound + 4) := by
  have hle : bound ≤ bound + 4 := Nat.le_add_right _ _
  cases event with
  | getOrDecode key => exact getOrDecode_kept source h key
  | codeIsCurrent index => exact ((codeIsCurrent_same index).kept h).mono hle
  | invalidatePhysicalRange physicalAddress byteCount =>
    exact (h.invalidatePhysicalRange physicalAddress byteCount).mono hle
  | clear => exact h.clear.mono hle
  | configurePhysicalRange physicalAddress byteCount =>
    exact (h.configurePhysicalRange physicalAddress byteCount).mono hle
  | bindPhysicalMemory ram => exact (h.bindPhysicalMemory ram).mono hle
  | setGuestMemory memory => exact (h.setGuestMemory memory).mono hle
  | setMappingValidator validator => exact ((SameIndex.setMappingValidator validator).kept h).mono hle
  | invalidateTranslationMappings => exact (SameIndex.invalidateTranslationMappings.kept h).mono hle
  | invalidateDecodeWindow => exact (SameIndex.invalidateDecodeWindow.kept h).mono hle
  | registerTraceCodePage page => exact ((SameIndex.registerTraceCodePage page).kept h).mono hle
  | outside change => exact h.mono hle

theorem run_kept (events : List (BlockCacheEvent σ)) (h : w.cache.Kept none bound) :
    (w.run source events).cache.Kept none (bound + 4 * events.length) := by
  induction events generalizing w bound with
  | nil => exact h
  | cons event events ih =>
    have hnext : (w.step source event).cache.Kept none (bound + 4) := step_kept h event
    have hrest := ih hnext
    rw [List.length_cons, Nat.mul_succ, Nat.add_comm _ 4, ← Nat.add_assoc]
    exact hrest

end BlockWorld

namespace BlockCache

variable {cache : BlockCache}

/-- The links of a page. -/
@[irreducible] def linksFor (cache : BlockCache) (page : U64) : Finset PageLink :=
  Finset.univ.filter fun link => cache.linked link ∧ cache.linkPage link = page

theorem mem_linksFor {page : U64} {link : PageLink} :
    link ∈ cache.linksFor page ↔ cache.linked link ∧ cache.linkPage link = page := by
  unfold linksFor
  simp

/-- The index of the block cache, in terms of its links, entries and counts. -/
structure WellIndexed (cache : BlockCache) : Prop where
  buckets : ∃ buckets : Fin 16384 → List PageLink,
    (∀ bucket, cache.pageLinks.Chains (buckets bucket)) ∧
    (∀ bucket, cache.pageBucketHeads bucket = (buckets bucket).head?) ∧
    ∀ bucket link, link ∈ buckets bucket ↔
      cache.linked link ∧ pageBucket (cache.linkPage link) = bucket
  linkedPages : ∀ i, (cache.entries i).valid = true → ∀ slot,
    (if cache.linked (i, slot) then some (cache.linkPage (i, slot)) else none) =
      (BlockWorld.entryPages (cache.entries i).block.instructions)[slot.val]?
  linkedOnce : ∀ i, (cache.entries i).valid = true →
    (∃ all : List U64, all.length ≤ 2 ∧
      ∀ instruction ∈ (cache.entries i).block.instructions,
        pageOf instruction.physicalAddress ∈ all) →
    ∀ page, (∃ instruction ∈ (cache.entries i).block.instructions,
        pageOf instruction.physicalAddress = page) ↔
      ∃! slot, cache.linked (i, slot) ∧ cache.linkPage (i, slot) = page
  unlinked : ∀ i, (cache.entries i).valid = false → ∀ slot, cache.linked (i, slot) = false
  refcounts : ∀ page index, page &&& 0xfff#64 = 0#64 → cache.trackedPageIndex page = some index →
    (cache.codePageRefcounts index).toNat = (cache.linksFor page).card
  unique : ∀ i j, (cache.entries i).valid = true → (cache.entries j).valid = true →
    (cache.entries i).block.key = (cache.entries j).block.key → i = j
  sets : ∀ i, (cache.entries i).valid = true →
    blockSetIndex (cache.entries i).block.key.hash = i.1
  serials : ∀ i, (cache.entries i).valid = true → (cache.entries i).serial ≠ 0#64

def SerialsDistinct (cache : BlockCache) : Prop :=
  ∀ i j, (cache.entries i).valid = true → (cache.entries j).valid = true →
    (cache.entries i).serial = (cache.entries j).serial → i = j

theorem slotPage_eq_some {link : PageLink} {page : U64} :
    cache.slotPage link = some page ↔ cache.linked link ∧ cache.linkPage link = page := by
  unfold slotPage
  split
  · rename_i hlinked
    simp [hlinked]
  · rename_i hlinked
    simp [hlinked]

theorem trackedPageIndex_tracks {page : U64} {index : ℕ}
    (h : cache.trackedPageIndex page = some index) :
    cache.tracksPages = true ∧ index < cache.trackedPageCount := by
  unfold trackedPageIndex at h
  split at h
  · simp at h
  · rename_i htracks
    dsimp only at h
    split at h
    · simp at h
    · rename_i hindex
      obtain rfl := Option.some.inj h
      simp only [not_or, Bool.not_eq_false, not_le] at htracks hindex
      exact ⟨htracks.1, hindex⟩

theorem PageIndex.linksFor_eq (h : cache.PageIndex) {page : U64} {index : ℕ}
    (hpage : page &&& 0xfff#64 = 0#64) (hindex : cache.trackedPageIndex page = some index) :
    cache.linksFor page = cache.linksOf index := by
  ext link
  rw [mem_linksFor, mem_linksOf, ← slotPage_eq_some, Option.bind_eq_some_iff]
  constructor
  · exact fun hslot => ⟨page, hslot, hindex⟩
  · rintro ⟨other, hother, hother_index⟩
    rw [hother, trackedPageIndex_injective h.firstPage (h.aligned _ _ hother) hpage hother_index
      hindex]

theorem live_of_valid {i : BlockIndex} (h : (cache.entries i).valid = true) : cache.Live none i :=
  ⟨h, by simp⟩

theorem Kept.linkedOnce {bound : ℕ} (h : cache.Kept none bound) {i : BlockIndex}
    (hvalid : (cache.entries i).valid = true) {all : List U64} (hlength : all.length ≤ 2)
    (hall : ∀ instruction ∈ (cache.entries i).block.instructions,
      pageOf instruction.physicalAddress ∈ all) (page : U64) :
    (∃ instruction ∈ (cache.entries i).block.instructions,
        pageOf instruction.physicalAddress = page) ↔
      ∃! slot, cache.linked (i, slot) ∧ cache.linkPage (i, slot) = page := by
  have hpages := BlockWorld.entryPages_ok (cache.entries i).block.instructions
  have hslots : ∀ slot, cache.slotPage (i, slot) =
      (BlockWorld.entryPages (cache.entries i).block.instructions)[slot.val]? := by
    intro slot
    rw [h.index.slots (i, slot) (by simp), entrySlot, if_pos hvalid]
  rw [← BlockWorld.mem_entryPages hall hlength page]
  simp only [← slotPage_eq_some]
  constructor
  · intro hmem
    obtain ⟨n, hn, hget⟩ := List.getElem_of_mem hmem
    have hslot : cache.slotPage (i, ⟨n, Nat.lt_of_lt_of_le hn hpages.length⟩) = some page := by
      rw [hslots, ← hget]
      exact List.getElem?_eq_getElem hn
    exact ⟨_, hslot, fun slot hother => h.index.pages.slot_unique hother hslot⟩
  · rintro ⟨slot, hslot, -⟩
    rw [hslots] at hslot
    exact List.mem_of_getElem? hslot

theorem Kept.wellIndexed {bound : ℕ} (h : cache.Kept none bound) : cache.WellIndexed where
  buckets := by
    obtain ⟨buckets, hshares, hheads⟩ := h.index.pages.buckets
    refine ⟨buckets, hshares.chains, fun bucket => congrFun hheads bucket, fun bucket link => ?_⟩
    rw [hshares.mem, Option.map_eq_some_iff]
    simp only [slotPage_eq_some]
    constructor
    · rintro ⟨page, ⟨hlinked, rfl⟩, hbucket⟩
      exact ⟨hlinked, hbucket⟩
    · rintro ⟨hlinked, hbucket⟩
      exact ⟨_, ⟨hlinked, rfl⟩, hbucket⟩
  linkedPages i hvalid slot := by
    have hslot := h.index.slots (i, slot) (by simp)
    rwa [entrySlot, if_pos hvalid] at hslot
  linkedOnce i hvalid := fun ⟨_, hlength, hall⟩ => h.linkedOnce hvalid hlength hall
  unlinked i hinvalid slot := by
    have hslot := h.index.slots (i, slot) (by simp)
    rw [entrySlot, hinvalid] at hslot
    by_contra hlinked
    rw [Bool.not_eq_false] at hlinked
    rw [slotPage_of_linked hlinked] at hslot
    simp at hslot
  refcounts page index hpage hindex := by
    obtain ⟨htracks, hcount⟩ := trackedPageIndex_tracks hindex
    rw [h.index.pages.linksFor_eq hpage hindex]
    exact h.index.pages.refcounts htracks index hcount
  unique i j hi hj := h.index.unique i j (live_of_valid hi) (live_of_valid hj)
  sets i hi := h.index.sets i (live_of_valid hi)
  serials i hi := h.index.serials i (live_of_valid hi)

end BlockCache

open BlockWorld in
/-- The index holds in every reachable state, and the serials are distinct as long as fewer than
2^62 events happened, each of which issues four at most. -/
theorem blockCache_wellIndexed {σ : Type} (source : CodeSource σ) (s : σ)
    (events : List (BlockCacheEvent σ)) :
    (run source ⟨.create, s⟩ events).cache.WellIndexed ∧
      (events.length < 2 ^ 62 → (run source ⟨.create, s⟩ events).cache.SerialsDistinct) := by
  have hkept : (run source ⟨.create, s⟩ events).cache.Kept none (0 + 4 * events.length) :=
    run_kept events BlockCache.kept_create
  refine ⟨hkept.wellIndexed, fun hshort i j hi hj => ?_⟩
  exact (hkept.numbered (by omega)).distinct i j (BlockCache.live_of_valid hi)
    (BlockCache.live_of_valid hj)

/-- A fetch callback under which every word lies on a page of its own. -/
def scatteredSource : CodeSource ℕ where
  vector := .silent
  fetchInstruction pc n :=
    (⟨some (BitVec.ofNat 64 (n + 1) <<< 12 ||| pc &&& 0xfff#64,
      if n < 2 then 0xd503201f#32 else 0x14000000#32), false⟩, n + 1)
  validateMapping _ _ _ n := (⟨true, false⟩, n)
  ramWord _ _ _ := 0
  codeMutationEpoch _ _ := 0
  pageWriteGeneration _ _ _ _ := none
  markCodePage _ _ _ n := n

open BlockWorld in
/-- The third page of a block has no slot. -/
theorem thirdPage_unlinked :
    ∃ i, ((run scatteredSource ⟨.create, 0⟩ [.getOrDecode .zero]).cache.entries i).valid = true ∧
      ∃ page, (∃ instruction ∈
          ((run scatteredSource ⟨.create, 0⟩ [.getOrDecode .zero]).cache.entries i).block.instructions,
        pageOf instruction.physicalAddress = page) ∧
      ∀ slot, ¬((run scatteredSource ⟨.create, 0⟩ [.getOrDecode .zero]).cache.linked (i, slot) ∧
        (run scatteredSource ⟨.create, 0⟩ [.getOrDecode .zero]).cache.linkPage (i, slot) = page) :=
  ⟨(blockSetIndex BlockKey.zero.hash, 0), by decide, 0x3000#64, by decide,
    by decide⟩

end Pinecone
