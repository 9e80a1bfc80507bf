import Pinecone.TranslationCache

/-! Lookups, refills and the run model of the translation caches. -/

namespace Pinecone

/-- What a fill keeps of `AVZNativeFastTLBEntry`'s walk metadata. -/
structure WalkMetadata where
  asid : BitVec 16
  isGlobal : Bool
  leafShift : BitVec 8
  deriving DecidableEq, Repr

/-- `avz_resolve_translation`. `fallback` is what the translation callback
answers, `none` when it is missing or fails. -/
def resolveTranslation (enabled : Bool) (ram : GuestRam) (state : Stage1TranslationState)
    (virtualAddress : U64) (access : MemoryAccess) (fallback : Option U64) :
    Option (U64 × WalkMetadata) :=
  if enabled then
    match stage1Translate ram state virtualAddress access with
    | .ok mapping => some (mapping.physicalAddress,
        ⟨stage1Asid state, mapping.isGlobal, mapping.leafShift⟩)
    | .error _ => none
  else fallback.map fun physicalAddress => (physicalAddress, ⟨stage1Asid state, false, 0⟩)

/-- A walk made on a TLB miss, with everything that determined it. -/
structure Walk where
  enabled : Bool
  ram : GuestRam
  state : Stage1TranslationState
  virtualAddress : U64
  access : MemoryAccess
  fallback : Option U64
  translated : U64
  metadata : WalkMetadata

/-- What a step of the fast path did, as far as coherence is concerned. -/
inductive CacheEntry
  | walked (walk : Walk)
  | applied (invalidation : Tlbi)

/-- The outcome codes `AVZ_FAST_TRANSLATION_*` with their output addresses. -/
inductive FastTranslation
  | failed
  | ram (physicalAddress hostOffset : U64)
  | physical (physicalAddress : U64)
  deriving DecidableEq, Repr

namespace MemoryFastPath

def fastPageOffset (virtualAddress : U64) : U64 := virtualAddress &&& 0xfff#64

def fastVirtualPage (virtualAddress : U64) : U64 := virtualAddress >>> 12

def fastWidthSupported (width : U64) : Bool :=
  width = 1#64 || width = 2#64 || width = 4#64 || width = 8#64

def hotIndex (fp : MemoryFastPath) (virtualAddress : U64) : BitVec 10 :=
  (fastVirtualPage virtualAddress ^^^ (fp.translationContextTag virtualAddress >>> 12)).setWidth 10

def tlbSet (fp : MemoryFastPath) (virtualAddress : U64) : BitVec 12 :=
  let virtualPage := fastVirtualPage virtualAddress
  (virtualPage ^^^ (virtualPage >>> 11) ^^^ (virtualPage >>> 23) ^^^
    fp.translationContextHash virtualAddress).setWidth 12

def entryMatchesAddress (fp : MemoryFastPath) (entry : FastTlbEntry) (virtualAddress : U64) :
    Bool :=
  entry.virtualPage = fastVirtualPage virtualAddress &&
    entry.contextTag = fp.translationContextTag virtualAddress

/-- The hot-array test; `limit` is the page offset past the access. -/
def hotMatches (fp : MemoryFastPath) (entry : FastTlbEntry) (virtualAddress limit : U64) : Bool :=
  entry.valid && entry.generation = fp.hotTranslationGeneration &&
    limit ≤ entry.contiguousSpan.setWidth 64 && fp.entryMatchesAddress entry virtualAddress

/-- The four-way test short of currency. Only the data arrays look at the span. -/
def wayMatches (fp : MemoryFastPath) (access : MemoryAccess) (entry : FastTlbEntry)
    (virtualAddress limit : U64) : Bool :=
  entry.valid && entry.generation = fp.translationGeneration &&
    (access = .instruction || limit ≤ entry.contiguousSpan.setWidth 64) &&
    fp.entryMatchesAddress entry virtualAddress

/-- The ways a refill may take first. The data loops skip stale generations. -/
def wayIsFree (fp : MemoryFastPath) (access : MemoryAccess) (entry : FastTlbEntry) : Bool :=
  !entry.valid || (access = .instruction && entry.generation ≠ fp.translationGeneration)

/-- The ways as the search leaves them, the way hit, and the first free way. -/
structure WaySearch where
  ways : Fin 4 → FastTlbEntry
  hit : Option (Fin 4)
  firstInvalid : Option (Fin 4)

/-- The way loop shared by `avz_fast_translate_cold` and
`avz_fast_translate_instruction`. A stale candidate is invalidated in passing. -/
def searchWays (fp : MemoryFastPath) (access : MemoryAccess) (virtualAddress limit : U64) :
    List (Fin 4) → WaySearch → WaySearch
  | [], found => found
  | way :: rest, found =>
    let candidate := found.ways way
    if fp.wayMatches access candidate virtualAddress limit then
      let (current, candidate) := fp.tlbEntryIsCurrent candidate
      let ways := Function.update found.ways way candidate
      if current then { found with ways := ways, hit := some way }
      else searchWays fp access virtualAddress limit rest
        { found with
          ways := ways
          firstInvalid := found.firstInvalid.or
            (if fp.wayIsFree access candidate then some way else none) }
    else searchWays fp access virtualAddress limit rest
      { found with
        firstInvalid := found.firstInvalid.or
          (if fp.wayIsFree access candidate then some way else none) }

def lookupWays (fp : MemoryFastPath) (access : MemoryAccess) (virtualAddress limit : U64) :
    WaySearch :=
  fp.searchWays access virtualAddress limit [0, 1, 2, 3]
    ⟨fp.tlb access (fp.tlbSet virtualAddress), none, none⟩

/-- `ram + (physical_page - ram_base)` when the page starts in RAM. -/
def hostPageOf (fp : MemoryFastPath) (physicalPage : U64) : Option U64 :=
  if fp.ram.base ≤ physicalPage ∧ physicalPage - fp.ram.base < fp.ram.size then
    some (physicalPage - fp.ram.base)
  else none

/-- The bytes of a data page that lie in RAM; a whole page for devices. -/
def contiguousSpanOf (fp : MemoryFastPath) (physicalPage : U64) : BitVec 16 :=
  match fp.hostPageOf physicalPage with
  | none => 4096
  | some ramOffset =>
    let remaining := fp.ram.size - ramOffset
    if remaining < 4096#64 then remaining.setWidth 16 else 4096

/-- The entry a refill writes. -/
def filledEntry (fp : MemoryFastPath) (access : MemoryAccess) (virtualAddress physicalPage : U64)
    (metadata : WalkMetadata) : FastTlbEntry where
  virtualPage := fastVirtualPage virtualAddress
  physicalPage := physicalPage
  hostPage := fp.hostPageOf physicalPage
  contiguousSpan := if access = .instruction then 4096 else fp.contiguousSpanOf physicalPage
  contextTag := fp.translationContextTag virtualAddress
  generation := fp.translationGeneration
  tlbiEpoch := fp.tlbiEpoch
  asid := metadata.asid
  isGlobal := metadata.isGlobal
  leafShift := metadata.leafShift
  valid := true

def setWays (fp : MemoryFastPath) (access : MemoryAccess) (set : BitVec 12)
    (ways : Fin 4 → FastTlbEntry) : MemoryFastPath :=
  { fp with tlb := Function.update fp.tlb access (Function.update (fp.tlb access) set ways) }

/-- Writes a refill to the first free way, else to the next one in turn. -/
def fillWay (fp : MemoryFastPath) (access : MemoryAccess) (set : BitVec 12)
    (found : WaySearch) (entry : FastTlbEntry) : MemoryFastPath :=
  match found.firstInvalid with
  | some way => fp.setWays access set (Function.update found.ways way entry)
  | none =>
    let way := fp.replacement access set
    { fp.setWays access set (Function.update found.ways way entry) with
      replacement := Function.update fp.replacement access
        (Function.update (fp.replacement access) set (way + 1)) }

/-- The entry the four-way arrays deliver for an access: a current way, or the
refill from a walk. Instruction refills must land in RAM. -/
def lookupOrFill (fp : MemoryFastPath) (access : MemoryAccess) (virtualAddress limit : U64)
    (fallback : Option U64) : MemoryFastPath × Option FastTlbEntry × List CacheEntry :=
  let set := fp.tlbSet virtualAddress
  let found := fp.lookupWays access virtualAddress limit
  match found.hit with
  | some way => (fp.setWays access set found.ways, some (found.ways way), [])
  | none =>
    match resolveTranslation fp.nativeTranslationEnabled fp.ram fp.translationState virtualAddress
        access fallback with
    | none => (fp.setWays access set found.ways, none, [])
    | some (translated, metadata) =>
      let pageOffset := fastPageOffset virtualAddress
      let physicalPage := translated - pageOffset
      if translated < pageOffset ∨
          (access = .instruction ∧ fp.hostPageOf physicalPage = none) then
        (fp.setWays access set found.ways, none, [])
      else
        let entry := fp.filledEntry access virtualAddress physicalPage metadata
        (fp.fillWay access set found entry, some entry, [.walked {
          enabled := fp.nativeTranslationEnabled
          ram := fp.ram
          state := fp.translationState
          virtualAddress := virtualAddress
          access := access
          fallback := fallback
          translated := translated
          metadata := metadata }])

def dataAccess (isWrite : Bool) : MemoryAccess := if isWrite then .write else .read

/-- The copy of a delivered entry that goes into a hot array. -/
def hotCopy (fp : MemoryFastPath) (entry : FastTlbEntry) : FastTlbEntry :=
  { entry with generation := fp.hotTranslationGeneration }

/-- `avz_fast_translate_cold` past its checks: the entry it delivers. -/
def translateCold (fp : MemoryFastPath) (virtualAddress limit : U64) (isWrite : Bool)
    (fallback : Option U64) : MemoryFastPath × Option FastTlbEntry × List CacheEntry :=
  let index := fp.hotIndex virtualAddress
  let hot := fp.dataHot isWrite index
  if fp.hotMatches hot virtualAddress limit then (fp, some hot, [])
  else
    match fp.lookupOrFill (dataAccess isWrite) virtualAddress limit fallback with
    | (fp, none, log) => (fp, none, log)
    | (fp, some entry, log) =>
      ({ fp with
          dataHot := Function.update fp.dataHot isWrite
            (Function.update (fp.dataHot isWrite) index (fp.hotCopy entry)) }, some entry, log)

/-- The `translated:` tail of `avz_fast_translate_cold`. -/
def coldResult (fp : MemoryFastPath) (entry : FastTlbEntry) (pageOffset width : U64) :
    FastTranslation :=
  if 0xffffffffffffffff#64 - pageOffset < entry.physicalPage then .failed
  else
    let physicalAddress := entry.physicalPage + pageOffset
    match entry.hostPage with
    | none => .physical physicalAddress
    | some hostPage =>
      let offset := entry.physicalPage - fp.ram.base + pageOffset
      if entry.physicalPage < fp.ram.base ∨ fp.ram.size < offset ∨ fp.ram.size - offset < width then
        .physical physicalAddress
      else .ram physicalAddress (hostPage + pageOffset)

/-- `avz_fast_translate` after the synchronisation: the hot probe, then the cold path. -/
def translateData (fp : MemoryFastPath) (virtualAddress width : U64) (isWrite : Bool)
    (fallback : Option U64) : MemoryFastPath × FastTranslation × List CacheEntry :=
  let pageOffset := fastPageOffset virtualAddress
  if 4096#64 < pageOffset + width then (fp, .failed, [])
  else
    let hot := fp.dataHot isWrite (fp.hotIndex virtualAddress)
    if fp.hotMatches hot virtualAddress (pageOffset + width) then
      match hot.hostPage with
      | some hostPage =>
        (fp, .ram (hot.physicalPage + pageOffset) (hostPage + pageOffset), [])
      | none =>
        if 0xffffffffffffffff#64 - pageOffset < hot.physicalPage then (fp, .failed, [])
        else (fp, .physical (hot.physicalPage + pageOffset), [])
    else
      match fp.translateCold virtualAddress (pageOffset + width) isWrite fallback with
      | (fp, none, log) => (fp, .failed, log)
      | (fp, some entry, log) => (fp, fp.coldResult entry pageOffset width, log)

/-- The slots of `instruction_hot` in the order the loop probes them. -/
def instructionHotSlots : List (BitVec 4) := (List.range 16).map (BitVec.ofNat 4)

/-- `avz_fast_translate_instruction` after the synchronisation: the physical
address and the RAM offset of the word. -/
def translateInstruction (fp : MemoryFastPath) (virtualAddress : U64) (fallback : Option U64) :
    MemoryFastPath × Option (U64 × U64) × List CacheEntry :=
  let pageOffset := fastPageOffset virtualAddress
  let output := fun entry : FastTlbEntry =>
    let offset := entry.physicalPage - fp.ram.base + pageOffset
    if entry.physicalPage < fp.ram.base ∨ fp.ram.size < offset ∨ fp.ram.size - offset < 4#64 then none
    else entry.hostPage.map fun hostPage => (fp.ram.base + offset, hostPage + pageOffset)
  match instructionHotSlots.find? fun slot =>
      fp.hotMatches (fp.instructionHot slot) virtualAddress (pageOffset + 4#64) with
  | some slot => (fp, output (fp.instructionHot slot), [])
  | none =>
    match fp.lookupOrFill .instruction virtualAddress (pageOffset + 4#64) fallback with
    | (fp, none, log) => (fp, none, log)
    | (fp, some entry, log) =>
      let slot := fp.instructionHotReplacement
      ({ fp with
          instructionHotReplacement := slot + 1
          instructionHot := Function.update fp.instructionHot slot (fp.hotCopy entry) },
        output entry, log)

end MemoryFastPath

/-- One fast path on a shared guest memory. `published` and `pickedUp` are ghost
state: every TLBI published so far, and how many of them were synchronised. -/
structure TranslationSystem where
  fastPath : MemoryFastPath
  memory : TranslationJournal
  published : List Tlbi
  pickedUp : Nat

inductive TranslationEvent
  | translate (virtualAddress width : U64) (isWrite : Bool) (fallback : Option U64)
  | translateInstruction (virtualAddress : U64) (fallback : Option U64)
  | setStage1Translation (state : Option Stage1TranslationState)
  | setCurrentEl (pstate : U64)
  | setInstructionTranslator (translator : Bool)
  | invalidateTranslation
  | applyTlbi (invalidation : Tlbi)
  | publishTlbi (invalidation : Tlbi)
  | synchronizeTranslations
  | guestWrite (bytes : Nat → BitVec 8)

/-- `avz_guest_memory_publish_tlbi`. -/
def TranslationJournal.publishTlbi (memory : TranslationJournal) (invalidation : Tlbi) :
    TranslationJournal :=
  let epoch := memory.translationEpoch + 1
  let (epoch, invalidation) :=
    if epoch = 0#64 then (1, { invalidation with kind := tlbiAll }) else (epoch, invalidation)
  { translationEpoch := epoch
    translationJournal :=
      Function.update memory.translationJournal (epoch.setWidth 6) invalidation }

namespace TranslationSystem

/-- The synchronisation picks up every TLBI published since the last one. -/
def synchronize (s : TranslationSystem) : TranslationSystem × List CacheEntry :=
  ({ s with
      fastPath := s.fastPath.synchronizeSharedTranslationEpoch s.memory
      pickedUp := s.published.length },
    ((s.published.drop s.pickedUp).map .applied).reverse)

def run (s : TranslationSystem) : TranslationEvent → TranslationSystem × List CacheEntry
  | .translate virtualAddress width isWrite fallback =>
    if !MemoryFastPath.fastWidthSupported width then (s, [])
    else
      let (s, applied) := s.synchronize
      let (fp, _, log) := s.fastPath.translateData virtualAddress width isWrite fallback
      ({ s with fastPath := fp }, log ++ applied)
  | .translateInstruction virtualAddress fallback =>
    if (!s.fastPath.nativeTranslationEnabled && !s.fastPath.translateInstructionRam) ||
        virtualAddress &&& 3#64 ≠ 0#64 then (s, [])
    else
      let (s, applied) := s.synchronize
      let (fp, _, log) := s.fastPath.translateInstruction virtualAddress fallback
      ({ s with fastPath := fp }, log ++ applied)
  | .setStage1Translation state =>
    ({ s with fastPath := s.fastPath.setStage1Translation state }, [])
  | .setCurrentEl pstate => ({ s with fastPath := s.fastPath.setCurrentEl pstate }, [])
  | .setInstructionTranslator translator =>
    ({ s with fastPath := s.fastPath.setInstructionTranslator translator }, [])
  | .invalidateTranslation => ({ s with fastPath := s.fastPath.clearTlbs }, [])
  | .applyTlbi invalidation =>
    ({ s with fastPath := s.fastPath.applyTlbiEntries invalidation }, [.applied invalidation])
  | .publishTlbi invalidation =>
    ({ s with
        memory := s.memory.publishTlbi invalidation
        published := s.published ++ [invalidation] }, [])
  | .synchronizeTranslations => s.synchronize
  | .guestWrite bytes =>
    ({ s with
        fastPath := { s.fastPath with ram := { s.fastPath.ram with bytes := bytes } } }, [])

/-- The journal holds the last 64 published TLBIs under their epochs; the first
one has epoch 2. -/
structure JournalOk (memory : TranslationJournal) (published : List Tlbi) : Prop where
  epoch : memory.translationEpoch.toNat = published.length + 1
  slot : ∀ index invalidation, published[index]? = some invalidation →
    published.length ≤ index + 64 →
    memory.translationJournal (BitVec.ofNat 6 (index + 2)) = invalidation

/-- `calloc` of a fast path, bound to a guest memory by `set_guest_memory`. -/
def freshFastPath (ram : GuestRam) (observed : U64) : MemoryFastPath where
  ram := ram
  translateInstructionRam := false
  nativeTranslationEnabled := false
  translationState := ⟨0, 0, 0, 0, 0⟩
  translationAsid := 0
  lowTranslationContextTag := 0
  highTranslationContextTag := 0
  lowTranslationContextHash := 0
  highTranslationContextHash := 0
  translationGeneration := 1
  hotTranslationGeneration := 1
  tlbiEpoch := 0
  asidTlbiEpochs := fun _ => 0
  vaAsidTlbiEpochs := fun _ => 0
  vaAllTlbiEpochs := fun _ => 0
  vaGlobalTlbiEpochs := fun _ => 0
  observedSharedTranslationEpoch := observed
  tlb := fun _ _ _ => .zero
  replacement := fun _ _ => 0
  dataHot := fun _ _ => .zero
  instructionHot := fun _ => .zero
  instructionHotReplacement := 0

def Initial (s : TranslationSystem) : Prop :=
  JournalOk s.memory s.published ∧ s.pickedUp = s.published.length ∧
    ∃ ram, s.fastPath = freshFastPath ram s.memory.translationEpoch

end TranslationSystem

def translationSystem : LoggedSystem TranslationSystem TranslationEvent CacheEntry where
  initial := TranslationSystem.Initial
  step s event s' log := s.run event = (s', log)

end Pinecone
