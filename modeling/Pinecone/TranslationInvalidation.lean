import Pinecone.TranslationLookup

/-! How the generations and the TLBI epochs retire entries: what an invalidation
leaves of the entries that were live before it. -/

namespace Pinecone

def Walk.physicalPage (walk : Walk) : U64 :=
  walk.translated - MemoryFastPath.fastPageOffset walk.virtualAddress

/-- The context of the walk; `none` for callback translations. -/
def Walk.context (walk : Walk) : Option TranslationContext :=
  if walk.enabled then
    some (translationContextForTtbr walk.state
      (if walk.virtualAddress.msb then walk.state.ttbr1El1 else walk.state.ttbr0El1))
  else none

/-- The logged walk is one that `avz_resolve_translation` made. -/
def Walk.Genuine (walk : Walk) : Prop :=
  resolveTranslation walk.enabled walk.ram walk.state walk.virtualAddress walk.access
    walk.fallback = some (walk.translated, walk.metadata)

/-- VA and leaf extent agree on bits 55 down to the extent. A callback mapping
has no known extent, so every address is in it. -/
def Walk.InExtent (walk : Walk) (virtualAddress : U64) : Prop :=
  walk.metadata.leafShift = 0#8 ∨
    (virtualAddress &&& 0x00ffffffffffffff#64) >>> walk.metadata.leafShift.toNat =
      (walk.virtualAddress &&& 0x00ffffffffffffff#64) >>> walk.metadata.leafShift.toNat

/-- The scope of a TLBI takes in the mapping the walk found. -/
def Tlbi.Covers (invalidation : Tlbi) (walk : Walk) : Prop :=
  (invalidation.kind = tlbiAll ∨ tlbiVaAllAsids < invalidation.kind) ∨
  (invalidation.kind = tlbiAsid ∧ walk.metadata.isGlobal = false ∧
    invalidation.asid = walk.metadata.asid) ∨
  (invalidation.kind = tlbiVaAsid ∧ walk.InExtent invalidation.virtualAddress ∧
    (walk.metadata.isGlobal = true ∨ invalidation.asid = walk.metadata.asid)) ∨
  (invalidation.kind = tlbiVaAllAsids ∧ walk.InExtent invalidation.virtualAddress)

/-- The entry still carries what the walk found. -/
structure Walk.Fills (walk : Walk) (access : MemoryAccess) (entry : FastTlbEntry) : Prop where
  access : walk.access = access
  virtualPage : entry.virtualPage = MemoryFastPath.fastVirtualPage walk.virtualAddress
  physicalPage : entry.physicalPage = walk.physicalPage
  contextTag : entry.contextTag = (walk.context.map TranslationContext.tag).getD 0
  asid : entry.asid = walk.metadata.asid
  isGlobal : entry.isGlobal = walk.metadata.isGlobal
  leafShift : entry.leafShift = walk.metadata.leafShift

/-- A TLBI covering the walk was applied; `retired` says whether it told. -/
def CoveredUnless (walk : Walk) (retired : Prop) (logged : CacheEntry) : Prop :=
  ∃ invalidation, logged = .applied invalidation ∧ invalidation.Covers walk ∧ ¬ retired

namespace MemoryFastPath

/-- A live four-way entry: what it holds was walked, and any covering TLBI since
then is recorded against it. -/
structure LiveWay (log : List CacheEntry) (fp : MemoryFastPath) (access : MemoryAccess)
    (entry : FastTlbEntry) : Prop where
  epoch_le : entry.tlbiEpoch ≤ fp.tlbiEpoch
  walked : ∃ walk : Walk, walk.Genuine ∧ walk.Fills access entry ∧
    walk.enabled = fp.nativeTranslationEnabled ∧
    LoggedSince (.walked walk)
      (CoveredUnless walk (entry.tlbiEpoch < fp.tlbiEpoch ∧ fp.entryIsStale entry = true)) log

/-- A live hot entry: no covering TLBI since its walk, and it serves the current ASID. -/
def LiveHot (log : List CacheEntry) (fp : MemoryFastPath) (access : MemoryAccess)
    (entry : FastTlbEntry) : Prop :=
  ∃ walk : Walk, walk.Genuine ∧ walk.Fills access entry ∧
    walk.enabled = fp.nativeTranslationEnabled ∧
    (walk.metadata.isGlobal = true ∨ walk.metadata.asid = fp.translationAsid) ∧
    LoggedSince (.walked walk) (CoveredUnless walk False) log

/-- Generations only ever go up, except where everything is cleared. -/
structure GenerationsBounded (fp : MemoryFastPath) : Prop where
  ways : ∀ access set way, (fp.tlb access set way).valid = true →
    (fp.tlb access set way).generation ≤ fp.translationGeneration
  data : ∀ isWrite index, (fp.dataHot isWrite index).valid = true →
    (fp.dataHot isWrite index).generation ≤ fp.hotTranslationGeneration
  instruction : ∀ slot, (fp.instructionHot slot).valid = true →
    (fp.instructionHot slot).generation ≤ fp.hotTranslationGeneration

structure WaysLive (log : List CacheEntry) (fp : MemoryFastPath) : Prop where
  ways : ∀ access set way, (fp.tlb access set way).valid = true →
    (fp.tlb access set way).generation = fp.translationGeneration →
    LiveWay log fp access (fp.tlb access set way)

structure HotLive (log : List CacheEntry) (fp : MemoryFastPath) : Prop where
  data : ∀ isWrite index, (fp.dataHot isWrite index).valid = true →
    (fp.dataHot isWrite index).generation = fp.hotTranslationGeneration →
    LiveHot log fp (dataAccess isWrite) (fp.dataHot isWrite index)
  instruction : ∀ slot, (fp.instructionHot slot).valid = true →
    (fp.instructionHot slot).generation = fp.hotTranslationGeneration →
    LiveHot log fp .instruction (fp.instructionHot slot)

/-- ASID and tags are those of the translation state. -/
structure ContextOk (fp : MemoryFastPath) : Prop where
  asid : fp.translationAsid = stage1Asid fp.translationState
  low : fp.nativeTranslationEnabled = true → fp.lowTranslationContextTag =
    (translationContextForTtbr fp.translationState fp.translationState.ttbr0El1).tag
  high : fp.nativeTranslationEnabled = true → fp.highTranslationContextTag =
    (translationContextForTtbr fp.translationState fp.translationState.ttbr1El1).tag

/-- The fast path's invariant, relative to what was logged. -/
structure Coherent (log : List CacheEntry) (fp : MemoryFastPath) : Prop where
  bounded : fp.GenerationsBounded
  ways : fp.WaysLive log
  hot : fp.HotLive log
  context : fp.ContextOk

variable {log new : List CacheEntry} {fp fp' : MemoryFastPath} {access : MemoryAccess}
  {entry : FastTlbEntry}

theorem LiveWay.append (h : LiveWay log fp access entry)
    (hnew : ∀ invalidation, CacheEntry.applied invalidation ∉ new) :
    LiveWay (new ++ log) fp access entry := by
  obtain ⟨walk, hg, hf, he, hlog⟩ := h.walked
  refine ⟨h.epoch_le, walk, hg, hf, he, hlog.append ?_⟩
  rintro e hmem ⟨invalidation, rfl, _⟩
  exact hnew invalidation hmem

theorem LiveHot.append (h : LiveHot log fp access entry)
    (hnew : ∀ invalidation, CacheEntry.applied invalidation ∉ new) :
    LiveHot (new ++ log) fp access entry := by
  obtain ⟨walk, hg, hf, he, hasid, hlog⟩ := h
  refine ⟨walk, hg, hf, he, hasid, hlog.append ?_⟩
  rintro e hmem ⟨invalidation, rfl, _⟩
  exact hnew invalidation hmem

theorem LiveWay.congr (h : LiveWay log fp access entry) (hepoch : fp'.tlbiEpoch = fp.tlbiEpoch)
    (henabled : fp'.nativeTranslationEnabled = fp.nativeTranslationEnabled)
    (hstale : fp'.entryIsStale entry = fp.entryIsStale entry) :
    LiveWay log fp' access entry := by
  obtain ⟨walk, hg, hf, he, hlog⟩ := h.walked
  refine ⟨hepoch ▸ h.epoch_le, walk, hg, hf, he.trans henabled.symm, ?_⟩
  rw [hepoch, hstale]
  exact hlog

theorem LiveHot.congr (h : LiveHot log fp access entry)
    (henabled : fp'.nativeTranslationEnabled = fp.nativeTranslationEnabled)
    (hasid : fp'.translationAsid = fp.translationAsid) : LiveHot log fp' access entry := by
  obtain ⟨walk, hg, hf, he, ha, hlog⟩ := h
  exact ⟨walk, hg, hf, he.trans henabled.symm, hasid ▸ ha, hlog⟩

/-- No hot entry can match: all valid ones are of an earlier generation. -/
structure NoLiveHot (fp : MemoryFastPath) : Prop where
  data : ∀ isWrite index, (fp.dataHot isWrite index).valid = true →
    (fp.dataHot isWrite index).generation < fp.hotTranslationGeneration
  instruction : ∀ slot, (fp.instructionHot slot).valid = true →
    (fp.instructionHot slot).generation < fp.hotTranslationGeneration

def NoLiveWay (fp : MemoryFastPath) : Prop :=
  ∀ access set way, (fp.tlb access set way).valid = true →
    (fp.tlb access set way).generation < fp.translationGeneration

theorem NoLiveHot.hotLive (h : fp.NoLiveHot) (log : List CacheEntry) : fp.HotLive log where
  data isWrite index hv hg := absurd hg (BitVec.ne_of_lt (h.data isWrite index hv))
  instruction slot hv hg := absurd hg (BitVec.ne_of_lt (h.instruction slot hv))

theorem NoLiveWay.waysLive (h : fp.NoLiveWay) (log : List CacheEntry) : fp.WaysLive log where
  ways access set way hv hg := absurd hg (BitVec.ne_of_lt (h access set way hv))

theorem lt_succ_of_le {a b : U64} (h : a ≤ b) (hb : b + 1 ≠ 0#64) : a < b + 1 := by
  have : b.toNat + 1 ≠ 2 ^ 64 := fun he => hb (by bv_omega)
  bv_omega

theorem clearHotTlbs_noLiveHot (h : fp.GenerationsBounded) : fp.clearHotTlbs.NoLiveHot := by
  unfold clearHotTlbs
  split
  · exact ⟨fun _ _ hv => by simp [FastTlbEntry.zero] at hv,
      fun _ hv => by simp [FastTlbEntry.zero] at hv⟩
  · rename_i hwrap
    exact ⟨fun isWrite index hv => lt_succ_of_le (h.data isWrite index hv) hwrap,
      fun slot hv => lt_succ_of_le (h.instruction slot hv) hwrap⟩

theorem clearHotTlbs_frame (fp : MemoryFastPath) : ∃ data instruction generation,
    fp.clearHotTlbs = { fp with
      dataHot := data
      instructionHot := instruction
      hotTranslationGeneration := generation } := by
  unfold clearHotTlbs
  split
  · exact ⟨_, _, _, rfl⟩
  · exact ⟨_, _, _, rfl⟩

theorem NoLiveHot.bounded (h : fp.NoLiveHot)
    (hways : ∀ access set way, (fp.tlb access set way).valid = true →
      (fp.tlb access set way).generation ≤ fp.translationGeneration) : fp.GenerationsBounded :=
  ⟨hways, fun isWrite index hv => BitVec.le_of_lt (h.data isWrite index hv),
    fun slot hv => BitVec.le_of_lt (h.instruction slot hv)⟩

theorem Coherent.clearHotTlbs (h : Coherent log fp) :
    fp.clearHotTlbs.Coherent log ∧ fp.clearHotTlbs.NoLiveHot := by
  have hno := clearHotTlbs_noLiveHot h.bounded
  obtain ⟨data, instruction, generation, hfp⟩ := clearHotTlbs_frame fp
  rw [hfp] at hno ⊢
  refine ⟨⟨hno.bounded h.bounded.ways, ⟨?_⟩, hno.hotLive log, ?_⟩, hno⟩
  · intro access set way hv hg
    exact (h.ways.ways access set way hv hg).congr rfl rfl rfl
  · exact ⟨h.context.asid, h.context.low, h.context.high⟩

theorem clearTlbs_frame (fp : MemoryFastPath) : ∃ tlb data instruction generation hot,
    fp.clearTlbs = { fp with
      tlb := tlb
      dataHot := data
      instructionHot := instruction
      translationGeneration := generation
      hotTranslationGeneration := hot } := by
  obtain ⟨data, instruction, generation, hfp⟩ := clearHotTlbs_frame fp
  unfold MemoryFastPath.clearTlbs
  rw [hfp]
  dsimp only
  split
  · exact ⟨_, _, _, _, _, rfl⟩
  · exact ⟨_, _, _, _, _, rfl⟩

theorem clearTlbs_noLive (h : fp.GenerationsBounded) :
    fp.clearTlbs.NoLiveHot ∧ fp.clearTlbs.NoLiveWay := by
  have hno := clearHotTlbs_noLiveHot h
  obtain ⟨data, instruction, generation, hfp⟩ := clearHotTlbs_frame fp
  unfold MemoryFastPath.clearTlbs
  rw [hfp] at hno ⊢
  dsimp only
  split
  · exact ⟨⟨fun _ _ hv => by simp [FastTlbEntry.zero] at hv,
      fun _ hv => by simp [FastTlbEntry.zero] at hv⟩,
      fun _ _ _ hv => by simp [FastTlbEntry.zero] at hv⟩
  · rename_i hwrap
    exact ⟨⟨hno.data, hno.instruction⟩,
      fun access set way hv => lt_succ_of_le (h.ways access set way hv) hwrap⟩

theorem clearTlbs_coherent (hb : fp.GenerationsBounded) (hc : fp.ContextOk)
    (log : List CacheEntry) : fp.clearTlbs.Coherent log := by
  obtain ⟨hhot, hway⟩ := clearTlbs_noLive hb
  refine ⟨hhot.bounded fun access set way hv => BitVec.le_of_lt (hway access set way hv),
    hway.waysLive log, hhot.hotLive log, ?_⟩
  obtain ⟨tlb, data, instruction, generation, hot, hfp⟩ := clearTlbs_frame fp
  rw [hfp]
  exact ⟨hc.asid, hc.low, hc.high⟩

theorem entryIsStale_iff : fp.entryIsStale entry = true ↔
    entry.leafShift = 0#8 ∨
    entry.tlbiEpoch < fp.vaAllTlbiEpochs (tlbiVaSlot (entry.virtualPage <<< 12) entry.leafShift 0) ∨
    (entry.isGlobal = true ∧ entry.tlbiEpoch <
      fp.vaGlobalTlbiEpochs (tlbiVaSlot (entry.virtualPage <<< 12) entry.leafShift 0)) ∨
    (entry.isGlobal = false ∧ (entry.tlbiEpoch < fp.asidTlbiEpochs entry.asid ∨
      entry.tlbiEpoch < fp.vaAsidTlbiEpochs
        (tlbiVaSlot (entry.virtualPage <<< 12) entry.leafShift entry.asid))) := by
  cases hg : entry.isGlobal <;> simp [entryIsStale, hg, or_assoc]

/-- `fp'` is `fp` with some slots of the epoch tables set to `epoch`. -/
structure Records (epoch : U64) (fp fp' : MemoryFastPath) : Prop where
  frame : fp' = { fp with
    asidTlbiEpochs := fp'.asidTlbiEpochs
    vaAsidTlbiEpochs := fp'.vaAsidTlbiEpochs
    vaAllTlbiEpochs := fp'.vaAllTlbiEpochs
    vaGlobalTlbiEpochs := fp'.vaGlobalTlbiEpochs }
  asid : ∀ slot, fp'.asidTlbiEpochs slot = fp.asidTlbiEpochs slot ∨ fp'.asidTlbiEpochs slot = epoch
  vaAsid : ∀ slot,
    fp'.vaAsidTlbiEpochs slot = fp.vaAsidTlbiEpochs slot ∨ fp'.vaAsidTlbiEpochs slot = epoch
  vaAll : ∀ slot,
    fp'.vaAllTlbiEpochs slot = fp.vaAllTlbiEpochs slot ∨ fp'.vaAllTlbiEpochs slot = epoch
  vaGlobal : ∀ slot,
    fp'.vaGlobalTlbiEpochs slot = fp.vaGlobalTlbiEpochs slot ∨ fp'.vaGlobalTlbiEpochs slot = epoch

theorem Records.refl (epoch : U64) (fp : MemoryFastPath) : Records epoch fp fp :=
  ⟨rfl, fun _ => .inl rfl, fun _ => .inl rfl, fun _ => .inl rfl, fun _ => .inl rfl⟩

theorem Records.trans {epoch : U64} {fp'' : MemoryFastPath} (h : Records epoch fp fp')
    (h' : Records epoch fp' fp'') : Records epoch fp fp'' where
  frame := by rw [h'.frame, h.frame]
  asid slot := (h'.asid slot).elim (fun he => he ▸ h.asid slot) .inr
  vaAsid slot := (h'.vaAsid slot).elim (fun he => he ▸ h.vaAsid slot) .inr
  vaAll slot := (h'.vaAll slot).elim (fun he => he ▸ h.vaAll slot) .inr
  vaGlobal slot := (h'.vaGlobal slot).elim (fun he => he ▸ h.vaGlobal slot) .inr

theorem update_eq_or {α : Type*} [DecidableEq α] (f : α → U64) (key slot : α) (epoch : U64) :
    Function.update f key epoch slot = f slot ∨ Function.update f key epoch slot = epoch := by
  by_cases h : slot = key
  · exact .inr (by rw [h, Function.update_self])
  · exact .inl (Function.update_of_ne h _ _)

theorem records_recordVaInvalidation (invalidation : Tlbi) (epoch : U64) (fp : MemoryFastPath)
    (shift : BitVec 8) : Records epoch fp (recordVaInvalidation invalidation epoch fp shift) := by
  unfold recordVaInvalidation
  dsimp only
  split
  · exact ⟨rfl, fun _ => .inl rfl, fun _ => .inl rfl, fun slot => update_eq_or _ _ slot _,
      fun _ => .inl rfl⟩
  · exact ⟨rfl, fun _ => .inl rfl, fun slot => update_eq_or _ _ slot _, fun _ => .inl rfl,
      fun slot => update_eq_or _ _ slot _⟩

/-- A slot once set to the epoch stays set through later records of that epoch. -/
structure RecordsVa (invalidation : Tlbi) (epoch : U64) (shift : BitVec 8)
    (fp : MemoryFastPath) : Prop where
  all : invalidation.kind = tlbiVaAllAsids →
    fp.vaAllTlbiEpochs (tlbiVaSlot invalidation.virtualAddress shift 0) = epoch
  global : invalidation.kind ≠ tlbiVaAllAsids →
    fp.vaGlobalTlbiEpochs (tlbiVaSlot invalidation.virtualAddress shift 0) = epoch
  asid : invalidation.kind ≠ tlbiVaAllAsids →
    fp.vaAsidTlbiEpochs (tlbiVaSlot invalidation.virtualAddress shift invalidation.asid) = epoch

theorem RecordsVa.mono {invalidation : Tlbi} {epoch : U64} {shift : BitVec 8}
    (h : RecordsVa invalidation epoch shift fp) (hr : Records epoch fp fp') :
    RecordsVa invalidation epoch shift fp' where
  all hk := (hr.vaAll _).elim (fun he => he.trans (h.all hk)) id
  global hk := (hr.vaGlobal _).elim (fun he => he.trans (h.global hk)) id
  asid hk := (hr.vaAsid _).elim (fun he => he.trans (h.asid hk)) id

theorem recordsVa_recordVaInvalidation (invalidation : Tlbi) (epoch : U64) (fp : MemoryFastPath)
    (shift : BitVec 8) :
    RecordsVa invalidation epoch shift (recordVaInvalidation invalidation epoch fp shift) := by
  by_cases hk : invalidation.kind = tlbiVaAllAsids
  · exact ⟨fun _ => by simp [recordVaInvalidation, hk], fun h => absurd hk h, fun h => absurd hk h⟩
  · exact ⟨fun h => absurd h hk, fun _ => by simp [recordVaInvalidation, hk],
      fun _ => by simp [recordVaInvalidation, hk]⟩

theorem recordVa_foldl (invalidation : Tlbi) (epoch : U64) (shifts : List (BitVec 8))
    (fp : MemoryFastPath) :
    Records epoch fp (shifts.foldl (recordVaInvalidation invalidation epoch) fp) ∧
      ∀ shift ∈ shifts, RecordsVa invalidation epoch shift
        (shifts.foldl (recordVaInvalidation invalidation epoch) fp) := by
  induction shifts generalizing fp with
  | nil => exact ⟨.refl epoch fp, by simp⟩
  | cons shift shifts ih =>
    obtain ⟨hr, hs⟩ := ih (recordVaInvalidation invalidation epoch fp shift)
    refine ⟨(records_recordVaInvalidation invalidation epoch fp shift).trans hr, ?_⟩
    intro extent hmem
    rcases List.mem_cons.mp hmem with rfl | hmem
    · exact (recordsVa_recordVaInvalidation invalidation epoch fp extent).mono hr
    · exact hs extent hmem

end MemoryFastPath

end Pinecone
