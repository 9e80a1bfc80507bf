import Pinecone.BlockOutside
import Pinecone.TranslationSoundness

/-! Instruction fetches of the memory fast path on behalf of the block decoder, and the translation
faults that they leave behind. -/

namespace Pinecone

/-- The memory fast path while blocks are decoded. `reports` are the faults put on record, whether
by `report_translation_fault` or by the translation callback, and `unmapped` is ghost state: the
fetches that hit an unmapped or non-executable page. `rest` is everything else. -/
structure FetchState (τ : Type) where
  fastPath : MemoryFastPath
  journal : TranslationJournal
  reportsTranslationFault : Bool
  translationFaultPending : Bool
  reports : List TranslationFaultReport
  unmapped : List U64
  rest : τ

/-- The instruction translation callback, which answers with an address in RAM, with none, or with
the fault it hit. `recordsFaults` tells whether it puts that fault on record. -/
structure InstructionTranslator (τ : Type) where
  translate : U64 → τ → Except TranslationFaultReport (Option U64)
  recordsFaults : Bool

/-- What the callback returns to the fast path. -/
def fallbackAddress : Except TranslationFaultReport (Option U64) → Option U64
  | .ok address => address
  | .error _ => none

/-- `*instruction = *(const uint32_t *)host_address`. -/
def GuestRam.load32 (ram : GuestRam) (offset : ℕ) : U32 :=
  (List.range 4).foldl
    (fun value index => value ||| (ram.bytes (offset + index)).setWidth 32 <<< (8 * index)) 0

/-- The lookup of `avz_fast_translate_instruction` finds no entry, and so translates afresh. -/
def MemoryFastPath.missesInstruction (fp : MemoryFastPath) (virtualAddress : U64) : Bool :=
  let limit := MemoryFastPath.fastPageOffset virtualAddress + 4#64
  (MemoryFastPath.instructionHotSlots.find? fun slot =>
      fp.hotMatches (fp.instructionHot slot) virtualAddress limit).isNone &&
    (fp.lookupWays .instruction virtualAddress limit).hit.isNone

namespace FetchState

variable {τ : Type} (translator : InstructionTranslator τ) (s : FetchState τ)

/-- `avz_stage1_fault`. -/
def stage1Fault (report : TranslationFaultReport) : FetchState τ :=
  { s with
    translationFaultPending := true
    reports := if s.reportsTranslationFault then s.reports ++ [report] else s.reports
    unmapped := s.unmapped ++ [report.virtualAddress] }

/-- A fault that the translation callback hits itself. -/
def callbackFault (report : TranslationFaultReport) : FetchState τ :=
  { s with
    reports := if translator.recordsFaults then s.reports ++ [report] else s.reports
    unmapped := s.unmapped ++ [report.virtualAddress] }

/-- The faults of `avz_resolve_translation` on a miss. -/
def resolutionFault (virtualAddress : U64) : FetchState τ :=
  if s.fastPath.nativeTranslationEnabled then
    match stage1Translate s.fastPath.ram s.fastPath.translationState virtualAddress .instruction with
    | .ok _ => s
    | .error report => s.stage1Fault report
  else
    match translator.translate virtualAddress s.rest with
    | .ok _ => s
    | .error report => s.callbackFault translator report

/-- The synchronisation invalidates the decoded mappings. -/
def synchronizes : Bool :=
  s.journal.translationEpoch ≠ s.fastPath.observedSharedTranslationEpoch

/-- The fast path cannot translate the address at all. -/
def refusesInstruction (virtualAddress : U64) : Bool :=
  (!s.fastPath.nativeTranslationEnabled && !s.fastPath.translateInstructionRam) ||
    virtualAddress &&& 3#64 ≠ 0#64

/-- `avz_fast_translate_instruction`: the physical address and the RAM offset of the word. -/
def translateInstruction (virtualAddress : U64) : Option (U64 × U64) × FetchState τ :=
  if s.refusesInstruction virtualAddress then (none, s)
  else
    let fp := s.fastPath.synchronizeSharedTranslationEpoch s.journal
    let answer := fallbackAddress (translator.translate virtualAddress s.rest)
    let s := { s with fastPath := fp }
    let s := if fp.missesInstruction virtualAddress then s.resolutionFault translator virtualAddress
      else s
    let translated := fp.translateInstruction virtualAddress answer
    (translated.2.1, { s with fastPath := translated.1 })

/-- `avz_native_fast_fetch_instruction`. -/
def fetchInstruction (virtualAddress : U64) : FetchReply × FetchState τ :=
  let remapped := !s.refusesInstruction virtualAddress && s.synchronizes
  let (translated, s) := s.translateInstruction translator virtualAddress
  (⟨translated.map fun (physicalAddress, offset) =>
      (physicalAddress, s.fastPath.ram.load32 offset.toNat), remapped⟩, s)

/-- `avz_fast_instruction_mapping_is_current`, which delivers no guest fault. -/
def instructionMappingIsCurrent (virtualAddress expectedPhysicalAddress : U64) :
    MappingReply × FetchState τ :=
  if !s.fastPath.nativeTranslationEnabled then (⟨false, false⟩, s)
  else
    let remapped := !s.refusesInstruction virtualAddress && s.synchronizes
    let quiet := { s with reportsTranslationFault := false }
    let (translated, after) := quiet.translateInstruction translator virtualAddress
    (⟨(translated.map Prod.fst) = some expectedPhysicalAddress, remapped⟩,
      { after with
        reportsTranslationFault := s.reportsTranslationFault
        translationFaultPending := s.translationFaultPending
        unmapped := s.unmapped })

/-- The end of `avz_native_fast_memory_read` and `avz_native_fast_memory_write`, for an access
that the translation leaves to the slow callback. -/
def slowAccess {α : Type} (slow : Option α) : Option α :=
  if s.translationFaultPending then none else slow

/-- No pending fault and none on record, and slow accesses do what their callback does. -/
structure Faultless : Prop where
  notPending : s.translationFaultPending = false
  noReports : s.reports = []
  slowAccess : ∀ {α : Type} (slow : Option α), s.slowAccess slow = slow

end FetchState

/-- The guest memory's code epochs and page generations, over the rest of the emulator. -/
structure SharedCodePages (τ : Type) where
  codeMutationEpoch : Option ℕ → τ → U64
  pageWriteGeneration : Option ℕ → U64 → U64 → τ → Option U64
  markCodePage : Option ℕ → U64 → U64 → τ → τ

/-- The block cache's callbacks in the native execution loop. -/
def fastPathSource {τ : Type} (vector : VectorDecoder) (translator : InstructionTranslator τ)
    (pages : SharedCodePages τ) : CodeSource (FetchState τ) where
  vector := vector
  fetchInstruction pc s := s.fetchInstruction translator pc
  validateMapping _ pc physicalAddress s :=
    s.instructionMappingIsCurrent translator pc physicalAddress
  ramWord _ offset s := s.fastPath.ram.load32 offset.toNat
  codeMutationEpoch memory s := pages.codeMutationEpoch memory s.rest
  pageWriteGeneration memory page ramBase s := pages.pageWriteGeneration memory page ramBase s.rest
  markCodePage memory page ramBase s := { s with rest := pages.markCodePage memory page ramBase s.rest }

namespace MemoryFastPath

variable {fp fp' : MemoryFastPath}

theorem Records.enabled {epoch : U64} (h : Records epoch fp fp') :
    fp'.nativeTranslationEnabled = fp.nativeTranslationEnabled := by
  rw [h.frame]

theorem clearHotTlbs_enabled (fp : MemoryFastPath) :
    fp.clearHotTlbs.nativeTranslationEnabled = fp.nativeTranslationEnabled := by
  obtain ⟨_, _, _, hframe⟩ := clearHotTlbs_frame fp
  rw [hframe]

theorem clearTlbs_enabled (fp : MemoryFastPath) :
    fp.clearTlbs.nativeTranslationEnabled = fp.nativeTranslationEnabled := by
  obtain ⟨_, _, _, _, _, hframe⟩ := clearTlbs_frame fp
  rw [hframe]

theorem applyTlbiEntries_enabled (fp : MemoryFastPath) (invalidation : Tlbi) :
    (fp.applyTlbiEntries invalidation).nativeTranslationEnabled = fp.nativeTranslationEnabled := by
  unfold applyTlbiEntries
  split
  · exact clearTlbs_enabled fp
  · have hrecord := (records_recordTlbi fp.clearHotTlbs.advanceTlbiEpoch invalidation).enabled
    refine hrecord.trans (Eq.trans ?_ (clearHotTlbs_enabled fp))
    unfold advanceTlbiEpoch
    split
    · exact clearTlbs_enabled fp.clearHotTlbs
    · rfl

theorem applyPending_enabled (fp : MemoryFastPath) (pending : List Tlbi) :
    (fp.applyPending pending).nativeTranslationEnabled = fp.nativeTranslationEnabled := by
  induction pending generalizing fp with
  | nil => rfl
  | cons invalidation pending ih =>
    have happlied := applyTlbiEntries_enabled fp invalidation
    unfold applyPending
    dsimp only
    split
    · exact happlied
    · exact (ih _).trans happlied

theorem synchronizeSharedTranslationEpoch_enabled (fp : MemoryFastPath)
    (memory : TranslationJournal) :
    (fp.synchronizeSharedTranslationEpoch memory).nativeTranslationEnabled =
      fp.nativeTranslationEnabled := by
  unfold synchronizeSharedTranslationEpoch
  split
  · rfl
  · exact applyPending_enabled fp _

theorem lookupOrFill_enabled (fp : MemoryFastPath) (access : MemoryAccess)
    (virtualAddress limit : U64) (fallback : Option U64) :
    (fp.lookupOrFill access virtualAddress limit fallback).1.nativeTranslationEnabled =
      fp.nativeTranslationEnabled := by
  unfold lookupOrFill
  dsimp only
  split
  · rfl
  · split
    · rfl
    · split
      · rfl
      · obtain ⟨tlb, replacement, hframe⟩ := fillWay_frame fp access (fp.tlbSet virtualAddress)
          (fp.lookupWays access virtualAddress limit) (fp.filledEntry access virtualAddress _ _)
        rw [hframe]

theorem translateInstruction_enabled (fp : MemoryFastPath) (virtualAddress : U64)
    (fallback : Option U64) :
    (fp.translateInstruction virtualAddress fallback).1.nativeTranslationEnabled =
      fp.nativeTranslationEnabled := by
  have hfilled := fp.lookupOrFill_enabled .instruction virtualAddress
    (fastPageOffset virtualAddress + 4#64) fallback
  unfold translateInstruction
  dsimp only
  split
  · rfl
  · split
    · rename_i hnone
      rw [hnone] at hfilled
      exact hfilled
    · rename_i hsome
      rw [hsome] at hfilled
      exact hfilled

end MemoryFastPath

namespace FetchState

variable {τ : Type} {translator : InstructionTranslator τ} {native : Bool} {s : FetchState τ}

/-- What the faults of the fetches so far have left. -/
structure Accounts (translator : InstructionTranslator τ) (native : Bool) (s : FetchState τ) :
    Prop where
  enabled : s.fastPath.nativeTranslationEnabled = native
  quiet : s.unmapped = [] → s.translationFaultPending = false ∧ s.reports = []
  pending : s.unmapped ≠ [] → native = true → s.translationFaultPending = true
  recorded : s.unmapped ≠ [] → native = false → translator.recordsFaults = true → s.reports ≠ []
  unrecorded : native = false → translator.recordsFaults = false →
    s.translationFaultPending = false ∧ s.reports = []

theorem Accounts.withFastPath (h : s.Accounts translator native) {fp : MemoryFastPath}
    (henabled : fp.nativeTranslationEnabled = native) :
    Accounts translator native { s with fastPath := fp } :=
  ⟨henabled, h.quiet, h.pending, h.recorded, h.unrecorded⟩

theorem Accounts.withRest (h : s.Accounts translator native) (rest : τ) :
    Accounts translator native { s with rest := rest } :=
  ⟨h.enabled, h.quiet, h.pending, h.recorded, h.unrecorded⟩

theorem Accounts.resolutionFault (h : s.Accounts translator native) (virtualAddress : U64) :
    (s.resolutionFault translator virtualAddress).Accounts translator native := by
  have henabled := h.enabled
  unfold FetchState.resolutionFault
  split
  · rename_i hnative
    rw [henabled] at hnative
    subst hnative
    split
    · exact h
    · exact ⟨henabled, by simp [stage1Fault], fun _ _ => rfl, by simp, by simp⟩
  · rename_i hcallback
    rw [henabled, Bool.not_eq_true] at hcallback
    subst hcallback
    split
    · exact h
    · refine ⟨henabled, by simp [callbackFault], by simp, fun _ _ hrecords => ?_, ?_⟩
      · simp [callbackFault, hrecords]
      · intro _ hrecords
        simpa [callbackFault, hrecords] using h.unrecorded rfl hrecords

theorem Accounts.translateInstruction (h : s.Accounts translator native) (virtualAddress : U64) :
    (s.translateInstruction translator virtualAddress).2.Accounts translator native := by
  unfold FetchState.translateInstruction
  split
  · exact h
  · dsimp only
    have hfp : (s.fastPath.synchronizeSharedTranslationEpoch
        s.journal).nativeTranslationEnabled = native :=
      (MemoryFastPath.synchronizeSharedTranslationEpoch_enabled _ _).trans h.enabled
    have hsync := h.withFastPath hfp
    refine Accounts.withFastPath ?_ ((MemoryFastPath.translateInstruction_enabled _ _ _).trans hfp)
    split
    · exact hsync.resolutionFault virtualAddress
    · exact hsync

theorem resolutionFault_quiet (virtualAddress : U64) (hquiet : s.reportsTranslationFault = false)
    (henabled : s.fastPath.nativeTranslationEnabled = true) :
    (s.resolutionFault translator virtualAddress).reports = s.reports := by
  unfold resolutionFault
  rw [if_pos henabled]
  split
  · rfl
  · simp [stage1Fault, hquiet]

theorem resolutionFault_fastPath (virtualAddress : U64) :
    (s.resolutionFault translator virtualAddress).fastPath = s.fastPath := by
  unfold resolutionFault
  split
  · split <;> rfl
  · split <;> rfl

theorem translateInstruction_quiet (virtualAddress : U64)
    (hquiet : s.reportsTranslationFault = false)
    (henabled : s.fastPath.nativeTranslationEnabled = true) :
    (s.translateInstruction translator virtualAddress).2.reports = s.reports := by
  unfold FetchState.translateInstruction
  split
  · rfl
  · dsimp only
    split
    · exact resolutionFault_quiet virtualAddress hquiet
        ((MemoryFastPath.synchronizeSharedTranslationEpoch_enabled _ _).trans henabled)
    · rfl

theorem Accounts.instructionMappingIsCurrent (h : s.Accounts translator native)
    (virtualAddress expectedPhysicalAddress : U64) :
    (s.instructionMappingIsCurrent translator virtualAddress
      expectedPhysicalAddress).2.Accounts translator native := by
  unfold FetchState.instructionMappingIsCurrent
  split
  · exact h
  · rename_i hnative
    rw [Bool.not_eq_true', Bool.not_eq_false] at hnative
    have hquiet : Accounts translator native { s with reportsTranslationFault := false } :=
      ⟨h.enabled, h.quiet, h.pending, h.recorded, h.unrecorded⟩
    have hafter := hquiet.translateInstruction virtualAddress
    have hreports : (FetchState.translateInstruction translator
        { s with reportsTranslationFault := false } virtualAddress).2.reports = s.reports :=
      translateInstruction_quiet virtualAddress rfl hnative
    refine ⟨hafter.enabled, fun hnone => ?_, h.pending, ?_, ?_⟩
    · exact ⟨(h.quiet hnone).1, hreports.trans (h.quiet hnone).2⟩
    · intro hsome hoff hrecords hnil
      exact h.recorded hsome hoff hrecords (hreports.symm.trans hnil)
    · intro hoff hrecords
      exact ⟨(h.unrecorded hoff hrecords).1, hreports.trans (h.unrecorded hoff hrecords).2⟩

theorem accounts_keep (vector : VectorDecoder) (pages : SharedCodePages τ) :
    BlockWorld.CallbacksKeep (fastPathSource vector translator pages)
      (Accounts translator native) where
  fetch pc _ h := h.translateInstruction pc
  validate _ pc physicalAddress _ h := h.instructionMappingIsCurrent pc physicalAddress
  mark _ _ _ _ h := h.withRest _

theorem Accounts.faultless_iff (h : s.Accounts translator native) (hhit : s.unmapped ≠ []) :
    s.Faultless ↔ native = false ∧ translator.recordsFaults = false := by
  constructor
  · intro hfaultless
    have hnative : native = false := by
      by_contra hon
      have hpending := h.pending hhit (by simpa using hon)
      rw [hfaultless.notPending] at hpending
      simp at hpending
    refine ⟨hnative, ?_⟩
    by_contra hrecords
    exact h.recorded hhit hnative (by simpa using hrecords) hfaultless.noReports
  · rintro ⟨hnative, hrecords⟩
    obtain ⟨hpending, hreports⟩ := h.unrecorded hnative hrecords
    exact ⟨hpending, hreports, fun slow => by simp [FetchState.slowAccess, hpending]⟩

end FetchState

/-- A lookup that succeeds although a fetch of it hit an unmapped or non-executable page leaves
no fault behind exactly if translation goes to a callback that puts no fault on record. -/
theorem speculativeFetch_faultless_iff {τ : Type} (vector : VectorDecoder)
    (translator : InstructionTranslator τ) (pages : SharedCodePages τ)
    (w : BlockWorld (FetchState τ)) (key : BlockKey) (index : BlockIndex)
    (hstart : w.outside.translationFaultPending = false ∧ w.outside.reports = [] ∧
      w.outside.unmapped = []) :
    let found := w.getOrDecode (fastPathSource vector translator pages) key
    found.1 = (some index, .ok) → found.2.outside.unmapped ≠ [] →
      (found.2.outside.Faultless ↔ w.outside.fastPath.nativeTranslationEnabled = false ∧
        translator.recordsFaults = false) := by
  intro found _ hhit
  obtain ⟨hpending, hreports, hunmapped⟩ := hstart
  have haccounts : w.outside.Accounts translator w.outside.fastPath.nativeTranslationEnabled :=
    ⟨rfl, fun _ => ⟨hpending, hreports⟩, fun hsome => absurd hunmapped hsome,
      fun hsome => absurd hunmapped hsome, fun _ _ => ⟨hpending, hreports⟩⟩
  have hafter := BlockWorld.getOrDecode_outside (FetchState.accounts_keep vector pages) key haccounts
  exact hafter.faultless_iff hhit

section pageEdge

theorem pageEdge_noWrap : (0 : U64).toNat + (0x10000 : U64).toNat < 2 ^ 64 := by decide

/-- RAM whose tables map the page at 0x5000 alone, to itself; its last word is a NOP. -/
def pageEdgeRam : GuestRam where
  base := 0
  size := 0x10000
  bytes n := match n with
    | 0x1000 => 0x03
    | 0x1001 => 0x20
    | 0x2000 => 0x03
    | 0x2001 => 0x30
    | 0x3000 => 0x03
    | 0x3001 => 0x40
    | 0x4028 => 0x03
    | 0x4029 => 0x54
    | 0x5ffc => 0x1f
    | 0x5ffd => 0x20
    | 0x5ffe => 0x03
    | 0x5fff => 0xd5
    | _ => 0
  noWrap := pageEdge_noWrap

def pageEdgeTranslator : InstructionTranslator Unit :=
  ⟨fun virtualAddress _ => .error ⟨virtualAddress, .instruction, 3, 7⟩, true⟩

def pageEdgeSource : CodeSource (FetchState Unit) :=
  fastPathSource .silent pageEdgeTranslator
    ⟨fun _ _ => 0, fun _ _ _ _ => none, fun _ _ _ s => s⟩

def pageEdgeWorld : BlockWorld (FetchState Unit) where
  cache := (BlockCache.create.bindPhysicalMemory ⟨0, 0, 0x10000⟩).2
  outside :=
    { fastPath := (TranslationSystem.freshFastPath pageEdgeRam 1).setStage1Translation
        (some ⟨1, 16, 0x1000, 0, 1⟩)
      journal := ⟨1, fun _ => ⟨0, 0, 0⟩⟩
      reportsTranslationFault := true
      translationFaultPending := false
      reports := []
      unmapped := []
      rest := () }

/-- The block at the end of the page, and the entry it gets. -/
def pageEdgeKey : BlockKey := ⟨0x5ffc, 1, 16, 0x1000, 0, 1⟩

def pageEdgeIndex : BlockIndex := (blockSetIndex (BlockCache.create.keyHash pageEdgeKey).1, 0)

theorem pageEdge_found : (pageEdgeWorld.getOrDecode pageEdgeSource pageEdgeKey).1 =
    (some pageEdgeIndex, .ok) := by
  decide

theorem pageEdge_unmapped : (pageEdgeWorld.getOrDecode pageEdgeSource
    pageEdgeKey).2.outside.unmapped = [0x6000#64] := by
  decide

theorem speculativeFetch_pageEdge :
    (pageEdgeWorld.getOrDecode pageEdgeSource pageEdgeKey).2.outside.Faultless ↔
      pageEdgeWorld.outside.fastPath.nativeTranslationEnabled = false ∧
        pageEdgeTranslator.recordsFaults = false :=
  speculativeFetch_faultless_iff ⟨fun _ => none, by simp⟩ pageEdgeTranslator
    ⟨fun _ _ => 0, fun _ _ _ _ => none, fun _ _ _ s => s⟩ pageEdgeWorld pageEdgeKey pageEdgeIndex
    ⟨rfl, rfl, rfl⟩ pageEdge_found
    (fun hnone => List.cons_ne_nil _ _ (pageEdge_unmapped.symm.trans hnone))

/-- The block of one NOP is decoded, and the fault of the page after it is pending. -/
theorem pageEdge_faults :
    (pageEdgeWorld.getOrDecode pageEdgeSource pageEdgeKey).1 = (some pageEdgeIndex, .ok) ∧
      (pageEdgeWorld.getOrDecode pageEdgeSource pageEdgeKey).2.outside.reports =
        [⟨0x6000, .instruction, 3, 7⟩] ∧
      ¬(pageEdgeWorld.getOrDecode pageEdgeSource pageEdgeKey).2.outside.Faultless := by
  have hreports : (pageEdgeWorld.getOrDecode pageEdgeSource pageEdgeKey).2.outside.reports =
      [⟨0x6000, .instruction, 3, 7⟩] := by
    decide
  refine ⟨pageEdge_found, hreports, fun hfaultless => ?_⟩
  exact List.cons_ne_nil _ _ (hreports.symm.trans hfaultless.noReports)

end pageEdge

end Pinecone
