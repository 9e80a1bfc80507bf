import Pinecone.Stage1Walk
import Pinecone.Runs

/-! The translation caches of `AVZNativeMemoryFastPath`: the hot arrays, the
four-way TLBs, and the lazy invalidation by generations and TLBI epochs. -/

namespace Pinecone

/-- The `AVZ_TLBI_*` kinds, kept as the byte the source stores. -/
def tlbiAll : BitVec 8 := 0
def tlbiVaAsid : BitVec 8 := 1
def tlbiAsid : BitVec 8 := 2
def tlbiVaAllAsids : BitVec 8 := 3

/-- `AVZNativeTLBI`. The broadcast flag is only read by the instruction's executor. -/
structure Tlbi where
  virtualAddress : U64
  asid : BitVec 16
  kind : BitVec 8
  deriving DecidableEq, Repr

/-- `AVZNativeFastTLBEntry`; `hostPage` is the RAM offset of `host_page`, if not NULL. -/
structure FastTlbEntry where
  virtualPage : U64
  physicalPage : U64
  hostPage : Option U64
  contiguousSpan : BitVec 16
  contextTag : U64
  generation : U64
  tlbiEpoch : U64
  asid : BitVec 16
  isGlobal : Bool
  leafShift : BitVec 8
  valid : Bool
  deriving DecidableEq, Repr

/-- An entry cleared by `calloc` or `memset`. -/
def FastTlbEntry.zero : FastTlbEntry := ⟨0, 0, none, 0, 0, 0, 0, 0, false, 0, false⟩

/-- The translation part of `AVZNativeMemoryFastPath`. `tlb` holds the three
four-way arrays, `dataHot` the two direct-mapped ones (`true` for writes). -/
structure MemoryFastPath where
  ram : GuestRam
  translateInstructionRam : Bool
  nativeTranslationEnabled : Bool
  translationState : Stage1TranslationState
  translationAsid : BitVec 16
  lowTranslationContextTag : U64
  highTranslationContextTag : U64
  lowTranslationContextHash : U64
  highTranslationContextHash : U64
  translationGeneration : U64
  hotTranslationGeneration : U64
  tlbiEpoch : U64
  asidTlbiEpochs : BitVec 16 → U64
  vaAsidTlbiEpochs : BitVec 12 → U64
  vaAllTlbiEpochs : BitVec 12 → U64
  vaGlobalTlbiEpochs : BitVec 12 → U64
  observedSharedTranslationEpoch : U64
  tlb : MemoryAccess → BitVec 12 → Fin 4 → FastTlbEntry
  replacement : MemoryAccess → BitVec 12 → Fin 4
  dataHot : Bool → BitVec 10 → FastTlbEntry
  instructionHot : BitVec 4 → FastTlbEntry
  instructionHotReplacement : BitVec 4

/-- `AVZGuestMemory`'s TLBI journal; a slot is an epoch modulo 64. -/
structure TranslationJournal where
  translationEpoch : U64
  translationJournal : BitVec 6 → Tlbi

def fastMixU64 (value : U64) : U64 :=
  let value := value ^^^ (value >>> 30)
  let value := value * 0xbf58476d1ce4e5b9#64
  let value := value ^^^ (value >>> 27)
  let value := value * 0x94d049bb133111eb#64
  value ^^^ (value >>> 31)

/-- `avz_stage1_asid`. -/
def stage1Asid (state : Stage1TranslationState) : BitVec 16 :=
  let ttbr := if state.tcrEl1 &&& (1#64 <<< 22) ≠ 0#64 then state.ttbr1El1 else state.ttbr0El1
  let asid := (ttbr >>> 48).setWidth 16
  if state.tcrEl1 &&& (1#64 <<< 36) ≠ 0#64 then asid else asid &&& 0xff#16

/-- The translation context a walk runs in: the registers and the table base of
the address half. -/
structure TranslationContext where
  sctlrEl1 : U64
  tcrEl1 : U64
  ttbrBase : U64
  currentEl : BitVec 8
  deriving DecidableEq, Repr

def translationContextForTtbr (state : Stage1TranslationState) (ttbr : U64) : TranslationContext :=
  ⟨state.sctlrEl1, state.tcrEl1, ttbr &&& stage1OutputAddressMask, state.currentEl⟩

/-- `avz_fast_translation_context_tag_for_ttbr`, on the fields it reads. -/
def TranslationContext.tag (context : TranslationContext) : U64 :=
  let hash := fastMixU64 context.sctlrEl1
  let hash := hash ^^^ fastMixU64 context.tcrEl1
  let hash := hash ^^^ fastMixU64 context.ttbrBase
  let hash := hash ^^^ fastMixU64 (context.currentEl.setWidth 64)
  fastMixU64 hash

namespace MemoryFastPath

/-- `avz_fast_clear_hot_tlbs`. -/
def clearHotTlbs (fp : MemoryFastPath) : MemoryFastPath :=
  if fp.hotTranslationGeneration + 1 = 0#64 then
    { fp with
      dataHot := fun _ _ => .zero
      instructionHot := fun _ => .zero
      hotTranslationGeneration := 1 }
  else { fp with hotTranslationGeneration := fp.hotTranslationGeneration + 1 }

/-- `avz_fast_clear_tlbs`. -/
def clearTlbs (fp : MemoryFastPath) : MemoryFastPath :=
  let fp := fp.clearHotTlbs
  if fp.translationGeneration + 1 = 0#64 then
    { fp with
      tlb := fun _ _ _ => .zero
      translationGeneration := 1
      dataHot := fun _ _ => .zero
      instructionHot := fun _ => .zero }
  else { fp with translationGeneration := fp.translationGeneration + 1 }

end MemoryFastPath

/-- `avz_tlbi_va_slot`. -/
def tlbiVaSlot (address : U64) (shift : BitVec 8) (asid : BitVec 16) : BitVec 12 :=
  let key := (address &&& 0x00ffffffffffffff#64) >>> shift.toNat
  let key := key ^^^ (asid.setWidth 64 * 0x9e3779b97f4a7c15#64)
  let key := key ^^^ (shift.setWidth 64 * 0xbf58476d1ce4e5b9#64)
  let key := key ^^^ (key >>> 23)
  let key := key ^^^ (key >>> 12)
  key.setWidth 12

/-- The extents a VA invalidation records. -/
def tlbiShifts : List (BitVec 8) := [12, 16, 21, 25, 30, 34, 39, 43]

namespace MemoryFastPath

/-- The staleness test of `avz_native_fast_revalidate_tlb_entry`. -/
def entryIsStale (fp : MemoryFastPath) (entry : FastTlbEntry) : Bool :=
  let epoch := entry.tlbiEpoch
  let address := entry.virtualPage <<< 12
  let vaSlot := tlbiVaSlot address entry.leafShift 0
  let stale := decide (entry.leafShift = 0#8) || decide (epoch < fp.vaAllTlbiEpochs vaSlot)
  if entry.isGlobal then stale || decide (epoch < fp.vaGlobalTlbiEpochs vaSlot)
  else
    let asidSlot := tlbiVaSlot address entry.leafShift entry.asid
    stale || decide (epoch < fp.asidTlbiEpochs entry.asid) ||
      decide (epoch < fp.vaAsidTlbiEpochs asidSlot)

/-- `avz_native_fast_revalidate_tlb_entry`: the verdict and the entry it leaves. -/
def revalidateTlbEntry (fp : MemoryFastPath) (entry : FastTlbEntry) : Bool × FastTlbEntry :=
  if fp.entryIsStale entry then (false, { entry with valid := false })
  else (true, { entry with tlbiEpoch := fp.tlbiEpoch })

/-- `avz_native_fast_tlb_entry_is_current`. -/
def tlbEntryIsCurrent (fp : MemoryFastPath) (entry : FastTlbEntry) : Bool × FastTlbEntry :=
  if !entry.isGlobal && entry.asid ≠ fp.translationAsid then (false, entry)
  else if entry.tlbiEpoch = fp.tlbiEpoch then (true, entry)
  else fp.revalidateTlbEntry entry

/-- One extent of a VA invalidation. -/
def recordVaInvalidation (invalidation : Tlbi) (epoch : U64) (fp : MemoryFastPath)
    (shift : BitVec 8) : MemoryFastPath :=
  let slot := tlbiVaSlot invalidation.virtualAddress shift 0
  if invalidation.kind = tlbiVaAllAsids then
    { fp with vaAllTlbiEpochs := Function.update fp.vaAllTlbiEpochs slot epoch }
  else
    let asidSlot := tlbiVaSlot invalidation.virtualAddress shift invalidation.asid
    { fp with
      vaGlobalTlbiEpochs := Function.update fp.vaGlobalTlbiEpochs slot epoch
      vaAsidTlbiEpochs := Function.update fp.vaAsidTlbiEpochs asidSlot epoch }

/-- The epoch increment of `avz_fast_apply_tlbi_entries`, with its wrap. -/
def advanceTlbiEpoch (fp : MemoryFastPath) : MemoryFastPath :=
  if fp.tlbiEpoch + 1 = 0#64 then
    { fp.clearTlbs with
      asidTlbiEpochs := fun _ => 0
      vaAsidTlbiEpochs := fun _ => 0
      vaAllTlbiEpochs := fun _ => 0
      vaGlobalTlbiEpochs := fun _ => 0
      tlbiEpoch := 1 }
  else { fp with tlbiEpoch := fp.tlbiEpoch + 1 }

/-- The records an ASID or VA invalidation leaves at the current epoch. -/
def recordTlbi (fp : MemoryFastPath) (invalidation : Tlbi) : MemoryFastPath :=
  let epoch := fp.tlbiEpoch
  if invalidation.kind = tlbiAsid then
    { fp with asidTlbiEpochs := Function.update fp.asidTlbiEpochs invalidation.asid epoch }
  else tlbiShifts.foldl (recordVaInvalidation invalidation epoch) fp

/-- `avz_fast_apply_tlbi_entries`. -/
def applyTlbiEntries (fp : MemoryFastPath) (invalidation : Tlbi) : MemoryFastPath :=
  if invalidation.kind = tlbiAll ∨ tlbiVaAllAsids < invalidation.kind then fp.clearTlbs
  else fp.clearHotTlbs.advanceTlbiEpoch.recordTlbi invalidation

/-- The application loop of the synchronisation, which stops after an ALL record. -/
def applyPending (fp : MemoryFastPath) : List Tlbi → MemoryFastPath
  | [] => fp
  | invalidation :: pending =>
    let fp := fp.applyTlbiEntries invalidation
    if invalidation.kind = tlbiAll then fp else applyPending fp pending

/-- The records the synchronisation copies under the publication lock. -/
def pendingTlbis (memory : TranslationJournal) (observed : U64) : List Tlbi :=
  let epoch := memory.translationEpoch
  if epoch < observed ∨ 64 < epoch - observed then [{ virtualAddress := 0, asid := 0, kind := tlbiAll }]
  else (List.range (epoch - observed).toNat).map fun index =>
    memory.translationJournal ((observed + BitVec.ofNat 64 (index + 1)).setWidth 6)

/-- `avz_fast_synchronize_shared_translation_epoch`. -/
def synchronizeSharedTranslationEpoch (fp : MemoryFastPath) (memory : TranslationJournal) :
    MemoryFastPath :=
  if memory.translationEpoch = fp.observedSharedTranslationEpoch then fp
  else
    { fp.applyPending (pendingTlbis memory fp.observedSharedTranslationEpoch) with
      observedSharedTranslationEpoch := memory.translationEpoch }

/-- The stores of `avz_fast_refresh_translation_context_tags`. -/
def setTranslationTags (fp : MemoryFastPath) : MemoryFastPath :=
  let state := fp.translationState
  let low := (translationContextForTtbr state state.ttbr0El1).tag
  let high := (translationContextForTtbr state state.ttbr1El1).tag
  { fp with
    translationAsid := stage1Asid state
    lowTranslationContextTag := low
    highTranslationContextTag := high
    lowTranslationContextHash := fastMixU64 low
    highTranslationContextHash := fastMixU64 high }

def refreshTranslationContextTags (fp : MemoryFastPath) : MemoryFastPath :=
  if stage1Asid fp.translationState ≠ fp.translationAsid then fp.clearHotTlbs.setTranslationTags
  else fp.setTranslationTags

/-- `avz_fast_translation_context_tag`. -/
def translationContextTag (fp : MemoryFastPath) (virtualAddress : U64) : U64 :=
  if !fp.nativeTranslationEnabled then 0
  else if virtualAddress.msb then fp.highTranslationContextTag else fp.lowTranslationContextTag

/-- `avz_fast_translation_context_hash`. -/
def translationContextHash (fp : MemoryFastPath) (virtualAddress : U64) : U64 :=
  if !fp.nativeTranslationEnabled then 0
  else if virtualAddress.msb then fp.highTranslationContextHash else fp.lowTranslationContextHash

/-- `avz_native_memory_fast_path_set_stage1_translation`. -/
def setStage1Translation (fp : MemoryFastPath) : Option Stage1TranslationState → MemoryFastPath
  | none =>
    if fp.nativeTranslationEnabled then
      { fp with nativeTranslationEnabled := false }.clearTlbs
    else fp
  | some state =>
    let wasEnabled := fp.nativeTranslationEnabled
    if !wasEnabled || fp.translationState ≠ state then
      let geometryChanged := !wasEnabled || fp.translationState.sctlrEl1 ≠ state.sctlrEl1 ||
        fp.translationState.tcrEl1 ≠ state.tcrEl1
      let fp := { fp with
        translationState := state
        nativeTranslationEnabled := true }.refreshTranslationContextTags
      if geometryChanged then fp.clearTlbs else fp
    else fp

/-- `avz_native_fast_set_current_el`. -/
def setCurrentEl (fp : MemoryFastPath) (pstate : U64) : MemoryFastPath :=
  let currentEl := ((pstate >>> 2) &&& 3#64).setWidth 8
  if fp.translationState.currentEl = currentEl then fp
  else
    { { fp with translationState := { fp.translationState with currentEl := currentEl }
        }.refreshTranslationContextTags with
      instructionHot := fun _ => .zero }

/-- `avz_native_memory_fast_path_set_instruction_translator`. -/
def setInstructionTranslator (fp : MemoryFastPath) (translator : Bool) : MemoryFastPath :=
  { fp with
    translateInstructionRam := translator
    tlb := Function.update fp.tlb .instruction fun _ _ => .zero
    instructionHot := fun _ => .zero
    replacement := Function.update fp.replacement .instruction fun _ => 0 }

end MemoryFastPath

end Pinecone
