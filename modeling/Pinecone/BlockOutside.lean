import Pinecone.BlockLookup

/-! What a lookup does to the rest of the emulator: no more than its callbacks do. -/

namespace Pinecone

namespace BlockWorld

variable {σ : Type} {source : CodeSource σ} {P : σ → Prop} {w : BlockWorld σ}

/-- The callbacks keep a property of what is outside of the block cache. -/
structure CallbacksKeep (source : CodeSource σ) (P : σ → Prop) : Prop where
  fetch : ∀ pc s, P s → P (source.fetchInstruction pc s).2
  validate : ∀ validator pc physicalAddress s, P s →
    P (source.validateMapping validator pc physicalAddress s).2
  mark : ∀ memory page ramBase s, P s → P (source.markCodePage memory page ramBase s)

theorem validateMappings_outside (hkeep : CallbacksKeep source P) (validator : ℕ)
    (pc previousPage : U64) (instructions : List BlockInstruction) (h : P w.outside) :
    P (validateMappings source validator pc previousPage instructions w).2.outside := by
  induction instructions generalizing pc previousPage w with
  | nil => exact h
  | cons i rest ih =>
    have hvalidated := hkeep.validate validator pc i.physicalAddress w.outside h
    unfold validateMappings
    dsimp only
    split
    · exact ih _ _ h
    · split
      · exact ih _ _ hvalidated
      · exact hvalidated

theorem sharedCodeIsCurrent_outside (index : BlockIndex) :
    (w.sharedCodeIsCurrent source index).2.outside = w.outside := by
  unfold sharedCodeIsCurrent
  dsimp only
  split
  · split <;> rfl
  · rfl

theorem translationIsCurrent_outside (hkeep : CallbacksKeep source P) (index : BlockIndex)
    (h : P w.outside) : P (w.translationIsCurrent source index).2.outside := by
  unfold translationIsCurrent
  dsimp only
  split
  · split
    · exact h
    · rename_i validator _
      have hvalidated := validateMappings_outside hkeep validator
        (w.cache.entries index).block.key.pc 0xffffffffffffffff#64
        (w.cache.entries index).block.instructions h
      split
      · rename_i hstale
        rw [hstale] at hvalidated
        exact hvalidated
      · rename_i hcurrent
        rw [hcurrent] at hvalidated
        split
        · exact hvalidated
        · exact hvalidated
  · exact h

theorem entryCodeIsCurrent_outside (hkeep : CallbacksKeep source P) (index : BlockIndex)
    (h : P w.outside) : P (w.entryCodeIsCurrent source index).2.outside := by
  have hshared : (w.sharedCodeIsCurrent source index).2.outside = w.outside :=
    sharedCodeIsCurrent_outside index
  unfold entryCodeIsCurrent
  split
  · rename_i hstale
    rw [hstale] at hshared
    exact hshared ▸ h
  · rename_i w' hcurrent
    rw [hcurrent] at hshared
    have h' : P w'.outside := hshared ▸ h
    split
    · exact h'
    · have htranslated := translationIsCurrent_outside hkeep index h'
      split
      · rename_i hstale
        rw [hstale] at htranslated
        exact htranslated
      · rename_i hcurrent
        rw [hcurrent] at htranslated
        split
        · exact htranslated
        · exact htranslated

theorem openDecodeWindow_outside (key : BlockKey) :
    (w.openDecodeWindow key).2.outside = w.outside := by
  unfold openDecodeWindow
  split
  · rfl
  · split
    · dsimp only
      split <;> rfl
    · rfl

theorem fetchWord_outside (hkeep : CallbacksKeep source P) (direct : DirectFetch) (pc : U64)
    (h : P w.outside) : P (w.fetchWord source direct pc).2.outside := by
  unfold fetchWord
  split
  · exact h
  · exact hkeep.fetch pc w.outside h

theorem followDirectly_outside (key : BlockKey) (pc physicalAddress : U64) :
    (w.followDirectly key pc physicalAddress).2.outside = w.outside := by
  unfold followDirectly
  split <;> rfl

theorem decodeLoop_outside (hkeep : CallbacksKeep source P) (key : BlockKey) (left : ℕ)
    (direct : DirectFetch) (pc : U64) (decoded : List BlockInstruction) (h : P w.outside) :
    P (decodeLoop source key left direct pc decoded w).2.outside := by
  induction left generalizing direct pc decoded w with
  | zero => exact h
  | succ left ih =>
    have hfetched := fetchWord_outside hkeep direct pc h
    unfold decodeLoop
    split
    · rename_i hfault
      rw [hfault] at hfetched
      exact hfetched
    · rename_i physicalAddress raw w' hword
      rw [hword] at hfetched
      have hfollowed := followDirectly_outside (w := w') key pc physicalAddress
      have h' : P (w'.followDirectly key pc physicalAddress).2.outside := hfollowed ▸ hfetched
      dsimp only
      split
      · exact h'
      · split
        · exact h'
        · exact ih _ _ _ h'

theorem decodeBlock_outside (hkeep : CallbacksKeep source P) (key : BlockKey) (h : P w.outside) :
    P (w.decodeBlock source key).2.outside := by
  have hopened : P (w.openDecodeWindow key).2.outside := openDecodeWindow_outside (w := w) key ▸ h
  exact decodeLoop_outside hkeep key blockMaxInstructions (w.openDecodeWindow key).1 key.pc [] hopened

theorem indexPages_outside (hkeep : CallbacksKeep source P) (index : BlockIndex)
    (slots : List (Fin 2)) (pages : List U64) (h : P w.outside) :
    P (indexPages source index slots pages w).2.outside := by
  induction slots generalizing pages w with
  | nil => exact h
  | cons slot slots ih =>
    cases pages with
    | nil => exact h
    | cons page pages =>
      exact ih (w := ⟨w.cache.linkEntryPage (index, slot) page,
        source.markCodePage w.cache.guestMemory page w.ramBase w.outside⟩) pages
          (hkeep.mark _ _ _ _ h)

theorem installBlock_outside (hkeep : CallbacksKeep source P) (block : DecodedBlock) (hash : U64)
    (firstInvalid : Option BlockIndex) (h : P w.outside) :
    P (w.installBlock source block hash firstInvalid).2.outside := by
  cases firstInvalid with
  | some index => exact indexPages_outside hkeep index _ _ h
  | none => exact indexPages_outside hkeep (w.cache.victimWay (blockSetIndex hash)) _ _ h

theorem probeEntry_outside (hkeep : CallbacksKeep source P) (key : BlockKey) (index : BlockIndex)
    (h : P w.outside) : P (w.probeEntry source key index).2.outside := by
  have hcurrent := entryCodeIsCurrent_outside hkeep index h
  unfold probeEntry
  dsimp only
  split
  · split
    · rename_i hstale
      rw [hstale] at hcurrent
      exact hcurrent
    · rename_i hvalidated
      rw [hvalidated] at hcurrent
      exact hcurrent
  · exact h

theorem probeFront_outside (hkeep : CallbacksKeep source P) (key : BlockKey) (hash : U64)
    (h : P w.outside) : P (w.probeFront source key hash).2.outside := by
  unfold probeFront
  split
  · rename_i known index _
    have hprobed := probeEntry_outside hkeep key index h
    split
    · split
      · rename_i hhit
        rw [hhit] at hprobed
        exact hprobed
      · rename_i hmiss
        rw [hmiss] at hprobed
        exact hprobed
    · exact h
  · exact h

theorem probeSet_outside (hkeep : CallbacksKeep source P) (key : BlockKey) (hash : U64)
    (ways : List (Fin 4)) (firstInvalid : Option BlockIndex) (h : P w.outside) :
    P (probeSet source key hash ways firstInvalid w).2.outside := by
  induction ways generalizing firstInvalid w with
  | nil => exact h
  | cons way ways ih =>
    have hprobed := probeEntry_outside hkeep key (blockSetIndex hash, way) h
    unfold probeSet
    dsimp only
    split
    · rename_i hhit
      rw [hhit] at hprobed
      exact hprobed
    · rename_i hmiss
      rw [hmiss] at hprobed
      exact ih _ hprobed

theorem decodeMiss_outside (hkeep : CallbacksKeep source P) (key : BlockKey) (hash : U64)
    (firstInvalid : Option BlockIndex) (h : P w.outside) :
    P (w.decodeMiss source key hash firstInvalid).2.outside := by
  have hdecoded := decodeBlock_outside hkeep key h
  unfold decodeMiss
  split
  · rename_i block w' hblock
    rw [hblock] at hdecoded
    split
    · exact hdecoded
    · exact installBlock_outside hkeep block hash firstInvalid hdecoded
  · rename_i hblock
    rw [hblock] at hdecoded
    exact hdecoded

theorem lookupOrDecode_outside (hkeep : CallbacksKeep source P) (key : BlockKey)
    (h : P w.outside) : P (w.lookupOrDecode source key).2.outside := by
  unfold lookupOrDecode
  dsimp only
  have hfront := probeFront_outside (w := { w with cache := (w.cache.keyHash key).2 }) hkeep key
    (w.cache.keyHash key).1 h
  split
  · rename_i hhit
    rw [hhit] at hfront
    exact hfront
  · rename_i w' hmiss
    rw [hmiss] at hfront
    have hset := probeSet_outside hkeep key (w.cache.keyHash key).1 [0, 1, 2, 3] none hfront
    split
    · rename_i hhit
      rw [hhit] at hset
      exact hset
    · rename_i hnone
      rw [hnone] at hset
      exact decodeMiss_outside hkeep key _ _ hset

theorem batchPrefetch_outside (hkeep : CallbacksKeep source P) (first : BlockKey)
    (protectedSet : Fin 8192) (batch : List ℕ) (current : BlockIndex) (h : P w.outside) :
    P (batchPrefetch source first protectedSet batch current w).outside := by
  induction batch generalizing current w with
  | nil => exact h
  | cons batchIndex rest ih =>
    unfold batchPrefetch
    split
    · exact h
    · split
      · exact h
      · rename_i key _
        dsimp only
        split
        · exact h
        · have hlooked := lookupOrDecode_outside
            (w := { w with cache := (w.cache.keyHash key).2 }) hkeep key.canonical h
          split
          · rename_i next w' hnext
            rw [hnext] at hlooked
            exact ih next.index hlooked
          · rename_i w' _ hnext
            rw [hnext] at hlooked
            exact hlooked

theorem getOrDecode_outside (hkeep : CallbacksKeep source P) (key : BlockKey) (h : P w.outside) :
    P (w.getOrDecode source key).2.outside := by
  have hlooked := lookupOrDecode_outside hkeep key.canonical h
  unfold getOrDecode
  dsimp only
  split
  · rename_i hmiss
    rw [hmiss] at hlooked
    exact hlooked
  · rename_i result status w' hfound
    rw [hfound] at hlooked
    split
    · exact batchPrefetch_outside
        (w := { w' with cache := { w'.cache with batchPrefetchActive := true } }) hkeep
        key.canonical result.index.1 [0, 1, 2] result.index hlooked
    · exact hlooked

end BlockWorld

end Pinecone
