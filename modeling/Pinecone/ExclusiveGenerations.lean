import Pinecone.ExclusiveMonitor

/-! What an operation may do to the write generations: they grow, the counter with
them, and a noted write to an observed granule draws a generation newer than every
one before it. -/

namespace Pinecone

namespace GuestMemory

variable {memory memory' : GuestMemory} {offset byteCount granule slot byte : ℕ}

/-- A load-exclusive has watched the granule, or one that shares its slot. -/
def GranuleObserved (memory : GuestMemory) (granule : ℕ) : Prop :=
  memory.pageExclusiveObservationEpochs (granule / exclusiveGranulesPerPage) ≠ 0#64 ∧
    memory.exclusiveObservations (memory.exclusiveSlot granule) ≠ 0#8

/-- The generation under which a byte was last noted as written. -/
def byteGeneration (memory : GuestMemory) (byte : ℕ) : ℕ :=
  (memory.exclusiveWriteGenerations (memory.exclusiveSlot (byte / 16))).toNat

def counter (memory : GuestMemory) : ℕ := memory.currentWriteGeneration.toNat

/-- What holds of the monitor's tables in every run. -/
structure MonitorTablesOk (memory : GuestMemory) : Prop where
  bounded : ∀ slot, (memory.exclusiveWriteGenerations slot).toNat ≤ memory.counter
  flagged : ∀ page, memory.pageExclusiveObservationEpochs page ≠ 0#64 →
    memory.pageObservationFlags page &&& observationExclusive ≠ 0#8

/-- The step from `memory` to `memory'` notes every byte of `Touched` and draws at most
`draws` generations. -/
structure GenerationsGrow (memory memory' : GuestMemory) (Touched : ℕ → Prop) (draws : ℕ) : Prop where
  size : memory'.size = memory.size
  mask : memory'.exclusiveSlotMask = memory.exclusiveSlotMask
  counter_le : memory.counter ≤ memory'.counter
  counter_bound : memory'.counter ≤ memory.counter + draws
  tables : MonitorTablesOk memory → MonitorTablesOk memory'
  observed : ∀ granule, memory.GranuleObserved granule → memory'.GranuleObserved granule
  slots : ∀ slot, memory'.exclusiveWriteGenerations slot = memory.exclusiveWriteGenerations slot ∨
    memory.counter < (memory'.exclusiveWriteGenerations slot).toNat
  touched : MonitorTablesOk memory → ∀ byte, Touched byte → memory.GranuleObserved (byte / 16) →
    memory.counter < memory'.byteGeneration byte

/-- Unless the counter would wrap. -/
def Grows (memory memory' : GuestMemory) (Touched : ℕ → Prop) (draws : ℕ) : Prop :=
  memory.counter + draws < 2 ^ 64 → GenerationsGrow memory memory' Touched draws

def Nothing : ℕ → Prop := fun _ => False

theorem exclusiveSlot_congr (h : memory'.exclusiveSlotMask = memory.exclusiveSlotMask) (granule : ℕ) :
    memory'.exclusiveSlot granule = memory.exclusiveSlot granule := by
  simp only [exclusiveSlot, h]

theorem GenerationsGrow.byteGeneration_grows {Touched : ℕ → Prop} {draws : ℕ}
    (h : GenerationsGrow memory memory' Touched draws) (byte : ℕ) :
    memory'.byteGeneration byte = memory.byteGeneration byte ∨
      memory.counter < memory'.byteGeneration byte := by
  unfold byteGeneration
  rw [exclusiveSlot_congr h.mask]
  rcases h.slots (memory.exclusiveSlot (byte / 16)) with heq | hlt
  · exact .inl (by rw [heq])
  · exact .inr hlt

theorem Grows.trans {middle : GuestMemory} {Touched Touched' : ℕ → Prop} {draws draws' : ℕ}
    (h : Grows memory middle Touched draws) (h' : Grows middle memory' Touched' draws') :
    Grows memory memory' (fun byte => Touched byte ∨ Touched' byte) (draws + draws') := by
  intro hbound
  have h := h (by omega)
  have h' := h' (by have := h.counter_bound; omega)
  have hle := h.counter_le
  have hle' := h'.counter_le
  refine
    { size := h'.size.trans h.size
      mask := h'.mask.trans h.mask
      counter_le := by omega
      counter_bound := by have := h.counter_bound; have := h'.counter_bound; omega
      tables := fun ht => h'.tables (h.tables ht)
      observed := fun granule ho => h'.observed granule (h.observed granule ho)
      slots := ?_
      touched := ?_ }
  · intro slot
    rcases h'.slots slot with heq | hlt
    · rw [heq]
      exact h.slots slot
    · exact .inr (by omega)
  · intro htables byte ht ho
    rcases ht with ht | ht
    · have hnew := h.touched htables byte ht ho
      rcases h'.byteGeneration_grows byte with heq | hlt
      · omega
      · omega
    · have := h'.touched (h.tables htables) byte ht (h.observed _ ho)
      omega

theorem Grows.mono {Touched Touched' : ℕ → Prop} {draws draws' : ℕ}
    (h : Grows memory memory' Touched draws) (ht : ∀ byte, Touched' byte → Touched byte)
    (hd : draws ≤ draws') : Grows memory memory' Touched' draws' := by
  intro hbound
  have h := h (by omega)
  exact { h with
    counter_bound := by have := h.counter_bound; omega
    touched := fun htables byte hb ho => h.touched htables byte (ht byte hb) ho }

theorem Grows.of_eq (hsize : memory'.size = memory.size)
    (hmask : memory'.exclusiveSlotMask = memory.exclusiveSlotMask)
    (hcounter : memory'.currentWriteGeneration = memory.currentWriteGeneration)
    (hpages : memory'.pageExclusiveObservationEpochs = memory.pageExclusiveObservationEpochs)
    (hobs : memory'.exclusiveObservations = memory.exclusiveObservations)
    (hgens : memory'.exclusiveWriteGenerations = memory.exclusiveWriteGenerations)
    (hflags : ∀ page, memory.pageObservationFlags page &&& observationExclusive ≠ 0#8 →
      memory'.pageObservationFlags page &&& observationExclusive ≠ 0#8) :
    Grows memory memory' Nothing 0 := by
  intro _
  have hc : memory'.counter = memory.counter := by rw [counter, counter, hcounter]
  exact
    { size := hsize
      mask := hmask
      counter_le := hc.ge
      counter_bound := hc.le
      tables := fun ht =>
        ⟨fun slot => by rw [hgens, hc]; exact ht.bounded slot,
          fun page hp => hflags page (ht.flagged page (by rwa [hpages] at hp))⟩
      observed := fun granule ho => by
        unfold GranuleObserved
        rw [hpages, hobs, exclusiveSlot_congr hmask]
        exact ho
      slots := fun slot => .inl (by rw [hgens])
      touched := fun _ _ ht _ => ht.elim }

/-! ## The primitives that draw no generation -/

theorem grows_refl (memory : GuestMemory) : Grows memory memory Nothing 0 :=
  Grows.of_eq rfl rfl rfl rfl rfl rfl fun _ h => h

theorem grows_writeBytes (memory : GuestMemory) (offset : ℕ) (data : List (BitVec 8)) :
    Grows memory (memory.writeBytes offset data) Nothing 0 :=
  Grows.of_eq rfl rfl rfl rfl rfl rfl fun _ h => h

theorem grows_storeValue (memory : GuestMemory) (offset width : ℕ) (value : U64) :
    Grows memory (memory.storeValue offset width value) Nothing 0 :=
  grows_writeBytes _ _ _

theorem grows_pageEpochs (memory : GuestMemory) (epochs : ℕ → U64) :
    Grows memory { memory with pageEpochs := epochs } Nothing 0 :=
  Grows.of_eq rfl rfl rfl rfl rfl rfl fun _ h => h

theorem grows_markDirty (memory : GuestMemory) (offset byteCount : ℕ) :
    Grows memory (memory.markDirty offset byteCount) Nothing 0 := by
  unfold markDirty
  split
  · exact grows_pageEpochs _ _
  · exact grows_refl _

theorem grows_advanceCodeMutationEpoch (memory : GuestMemory) :
    Grows memory memory.advanceCodeMutationEpoch Nothing 0 :=
  Grows.of_eq rfl rfl rfl rfl rfl rfl fun _ h => h

theorem grows_advanceDirtyEpoch (memory : GuestMemory) :
    Grows memory memory.advanceDirtyEpoch Nothing 0 := by
  unfold advanceDirtyEpoch
  split
  · exact grows_refl _
  · exact Grows.of_eq rfl rfl rfl rfl rfl rfl fun _ h => h

theorem grows_markCodePage (memory : GuestMemory) (offset : ℕ) :
    Grows memory (memory.markCodePage offset) Nothing 0 := by
  unfold markCodePage
  split
  · exact Grows.of_eq rfl rfl rfl rfl rfl rfl fun _ h => h
  · exact grows_refl _

theorem or_exclusive_ne_zero (flags bits : BitVec 8) (h : flags &&& observationExclusive ≠ 0#8) :
    (flags ||| bits) &&& observationExclusive ≠ 0#8 := by
  intro hzero
  apply h
  rw [BitVec.and_or_distrib_right] at hzero
  exact (BitVec.or_eq_zero_iff.mp hzero).1

theorem grows_noteHostObservation (memory : GuestMemory) (offset byteCount : ℕ) :
    Grows memory (memory.noteHostObservation offset byteCount) Nothing 0 := by
  unfold noteHostObservation
  split
  · refine Grows.of_eq rfl rfl rfl rfl rfl rfl fun page h => ?_
    dsimp only
    split
    · exact or_exclusive_ne_zero _ _ h
    · exact h
  · exact grows_refl _

theorem grows_noteBulkRead (memory : GuestMemory) (offset byteCount : ℕ) :
    Grows memory (memory.noteBulkRead offset byteCount) Nothing 0 := by
  unfold noteBulkRead
  split
  · refine Grows.of_eq rfl rfl rfl rfl rfl rfl fun page h => ?_
    dsimp only
    split
    · exact or_exclusive_ne_zero _ _ h
    · exact h
  · exact grows_refl _

theorem grows_clearHostObservations (memory : GuestMemory) :
    Grows memory memory.clearHostObservations Nothing 0 := by
  refine Grows.of_eq rfl rfl rfl rfl rfl rfl fun page h => ?_
  have hmask : ~~~(observationHost ||| observationBulkReader) &&& observationExclusive =
      observationExclusive := by decide
  simpa only [clearHostObservations, BitVec.and_assoc, hmask] using h

/-! ## Observation -/

theorem foldl_observe_ne_zero (slotOf : ℕ → ℕ) (granules : List ℕ) (table : ℕ → BitVec 8) (slot : ℕ)
    (h : table slot ≠ 0#8 ∨ slot ∈ granules.map slotOf) :
    granules.foldl (fun observations granule => Function.update observations (slotOf granule) 1#8)
      table slot ≠ 0#8 := by
  induction granules generalizing table with
  | nil => simpa using h
  | cons granule rest ih =>
    rw [List.foldl_cons]
    apply ih
    by_cases hs : slot = slotOf granule
    · subst hs
      exact .inl (by simp)
    · rw [Function.update_of_ne hs]
      rcases h with h | h
      · exact .inl h
      · rw [List.map_cons, List.mem_cons] at h
        exact .inr (h.resolve_left hs)

theorem noteExclusiveObservation_observes (h : memory.HasRange offset byteCount)
    (hb : offset ≤ byte ∧ byte < offset + byteCount) :
    (memory.noteExclusiveObservation offset byteCount).GranuleObserved (byte / 16) := by
  have hpage : firstPage offset ≤ byte / 16 / exclusiveGranulesPerPage ∧
      byte / 16 / exclusiveGranulesPerPage ≤ lastPage offset byteCount := by
    simp only [firstPage, lastPage, fastPageSize, exclusiveGranulesPerPage]
    omega
  have hgranule : byte / 16 ∈ indexRange (firstGranule offset) (lastGranule offset byteCount) := by
    rw [mem_indexRange]
    simp only [firstGranule, lastGranule]
    omega
  constructor
  · simp only [noteExclusiveObservation, if_pos h, storeRange, if_pos hpage]
    decide
  · have hmask : (memory.noteExclusiveObservation offset byteCount).exclusiveSlotMask =
        memory.exclusiveSlotMask := by rw [noteExclusiveObservation, if_pos h]
    rw [exclusiveSlot_congr hmask]
    simp only [noteExclusiveObservation, if_pos h]
    exact foldl_observe_ne_zero _ _ _ _ (.inr (List.mem_map_of_mem hgranule))

theorem grows_noteExclusiveObservation (memory : GuestMemory) (offset byteCount : ℕ) :
    Grows memory (memory.noteExclusiveObservation offset byteCount) Nothing 0 := by
  by_cases h : memory.HasRange offset byteCount
  · rw [noteExclusiveObservation, if_pos h]
    intro _
    refine
      { size := rfl
        mask := rfl
        counter_le := Nat.le_refl _
        counter_bound := Nat.le_refl _
        tables := fun ht => ⟨ht.bounded, ?_⟩
        observed := ?_
        slots := fun slot => .inl rfl
        touched := fun _ _ ht _ => ht.elim }
    · intro page hp
      dsimp only at hp ⊢
      by_cases hin : firstPage offset ≤ page ∧ page ≤ lastPage offset byteCount
      · rw [if_pos hin, BitVec.and_or_distrib_right]
        intro hzero
        have := (BitVec.or_eq_zero_iff.mp hzero).2
        revert this
        decide
      · rw [if_neg hin]
        rw [storeRange, if_neg hin] at hp
        exact ht.flagged page hp
    · rintro granule ⟨hpage, hslot⟩
      refine ⟨?_, foldl_observe_ne_zero _ _ _ _ (.inl hslot)⟩
      dsimp only [storeRange]
      split
      · decide
      · exact hpage
  · rw [noteExclusiveObservation, if_neg h]
    exact grows_refl _

/-! ## Drawing generations -/

theorem nextWriteGeneration_ne_zero (memory : GuestMemory) :
    memory.nextWriteGeneration.currentWriteGeneration ≠ 0#64 := by
  simp only [nextWriteGeneration]
  split
  · decide
  · assumption

theorem nextWriteGeneration_counter (h : memory.counter + 1 < 2 ^ 64) :
    memory.nextWriteGeneration.counter = memory.counter + 1 := by
  have hadd : (memory.currentWriteGeneration + 1#64).toNat = memory.counter + 1 := by
    rw [BitVec.toNat_add]
    exact Nat.mod_eq_of_lt h
  have hne : memory.currentWriteGeneration + 1#64 ≠ 0#64 := by
    intro heq
    rw [heq] at hadd
    simp at hadd
  simp only [counter, nextWriteGeneration, if_neg hne]
  exact hadd

theorem grows_notePageWriteGeneration (memory : GuestMemory) (offset byteCount : ℕ) :
    Grows memory (memory.notePageWriteGeneration offset byteCount) Nothing 1 := by
  unfold notePageWriteGeneration
  split
  · intro hbound
    have hc := nextWriteGeneration_counter hbound
    refine
      { size := rfl
        mask := rfl
        counter_le := ?_
        counter_bound := ?_
        tables := fun ht => ⟨fun slot => ?_, ht.flagged⟩
        observed := fun granule ho => ho
        slots := fun slot => .inl rfl
        touched := fun _ _ ht _ => ht.elim }
    · change memory.counter ≤ memory.nextWriteGeneration.counter
      omega
    · change memory.nextWriteGeneration.counter ≤ memory.counter + 1
      omega
    · change _ ≤ memory.nextWriteGeneration.counter
      have := ht.bounded slot
      simp only [nextWriteGeneration] at *
      omega
  · exact (grows_refl _).mono (fun _ h => h) (by omega)

/-- The walk over the granules of a write, in the middle: those of `Done` are noted, and
a generation was drawn if one of them needed it. -/
structure Noted (memory : GuestMemory) (Done : ℕ → Prop) (noted : GuestMemory × U64) : Prop where
  frame : ∃ counter generations, noted.1 = { memory with
    currentWriteGeneration := counter
    exclusiveWriteGenerations := generations }
  drawn : (noted.2 = 0#64 ∧ noted.1 = memory) ∨
    (noted.2 = memory.nextWriteGeneration.currentWriteGeneration ∧
      noted.1.currentWriteGeneration = noted.2)
  slots : ∀ slot, noted.1.exclusiveWriteGenerations slot = memory.exclusiveWriteGenerations slot ∨
    (noted.2 ≠ 0#64 ∧ noted.1.exclusiveWriteGenerations slot = noted.2)
  done : ∀ granule, Done granule → memory.GranuleObserved granule → noted.2 ≠ 0#64 ∧
    noted.1.exclusiveWriteGenerations (memory.exclusiveSlot granule) = noted.2

theorem Noted.mono {Done Done' : ℕ → Prop} {noted : GuestMemory × U64} (h : Noted memory Done noted)
    (hd : ∀ granule, Done' granule → memory.GranuleObserved granule → Done granule) :
    Noted memory Done' noted :=
  { h with done := fun granule hg ho => h.done granule (hd granule hg ho) ho }

theorem Noted.noteGranule {Done : ℕ → Prop} {noted : GuestMemory × U64} (h : Noted memory Done noted)
    (granule : ℕ) : Noted memory (fun other => Done other ∨ other = granule)
      (GuestMemory.noteGranule noted granule) := by
  obtain ⟨current, generations, hframe⟩ := h.frame
  have hslot : noted.1.exclusiveSlot granule = memory.exclusiveSlot granule := by rw [hframe]; rfl
  unfold GuestMemory.noteGranule
  by_cases hobs : noted.1.exclusiveObservations (noted.1.exclusiveSlot granule) = 0#8
  · rw [if_pos hobs]
    refine h.mono fun other hother ho => ?_
    rcases hother with hother | rfl
    · exact hother
    · rw [hslot, hframe] at hobs
      exact absurd hobs ho.2
  · rw [if_neg hobs, hslot]
    by_cases hzero : noted.2 = 0#64
    · have hmem : noted.1 = memory := by
        rcases h.drawn with hd | hd
        · exact hd.2
        · exact absurd (hd.1.symm.trans hzero) (nextWriteGeneration_ne_zero memory)
      simp only [if_pos hzero, hmem]
      have hne := nextWriteGeneration_ne_zero memory
      refine ⟨⟨_, _, rfl⟩, .inr ⟨rfl, rfl⟩, fun slot => ?_, fun other hother ho => ⟨hne, ?_⟩⟩
      · by_cases hs : slot = memory.exclusiveSlot granule
        · subst hs
          exact .inr ⟨hne, by simp⟩
        · exact .inl (Function.update_of_ne hs _ _)
      · rcases hother with hother | rfl
        · exact absurd hzero (h.done other hother ho).1
        · simp
    · simp only [if_neg hzero]
      have hdrawn : noted.2 = memory.nextWriteGeneration.currentWriteGeneration ∧
          noted.1.currentWriteGeneration = noted.2 := h.drawn.resolve_left fun hd => hzero hd.1
      refine ⟨⟨current, _, by rw [hframe]⟩, .inr hdrawn, fun slot => ?_, fun other hother ho => ⟨hzero, ?_⟩⟩
      · by_cases hs : slot = memory.exclusiveSlot granule
        · subst hs
          exact .inr ⟨hzero, by simp⟩
        · dsimp only
          rw [Function.update_of_ne hs]
          exact h.slots slot
      · by_cases hs : memory.exclusiveSlot other = memory.exclusiveSlot granule
        · simp [hs]
        · dsimp only
          rw [Function.update_of_ne hs]
          rcases hother with hother | rfl
          · exact (h.done other hother ho).2
          · exact absurd rfl hs

theorem Noted.foldl {Adds : ℕ → ℕ → Prop} {body : GuestMemory × U64 → ℕ → GuestMemory × U64}
    (hbody : ∀ Done noted x, Noted memory Done noted →
      Noted memory (fun granule => Done granule ∨ Adds x granule) (body noted x))
    {Done : ℕ → Prop} {noted : GuestMemory × U64} (h : Noted memory Done noted) (xs : List ℕ) :
    Noted memory (fun granule => Done granule ∨ ∃ x ∈ xs, Adds x granule) (xs.foldl body noted) := by
  induction xs generalizing Done noted with
  | nil => exact h.mono fun granule hg _ => by simpa using hg
  | cons x xs ih =>
    refine (ih (hbody Done noted x h)).mono fun granule hg _ => ?_
    rcases hg with hg | ⟨y, hy, ha⟩
    · exact .inl (.inl hg)
    · rcases List.mem_cons.mp hy with rfl | hy
      · exact .inl (.inr ha)
      · exact .inr ⟨y, hy, ha⟩

theorem Noted.noteGranulesOfPage {Done : ℕ → Prop} {noted : GuestMemory × U64}
    (h : Noted memory Done noted) (first last page : ℕ) :
    Noted memory (fun granule => Done granule ∨
        ((first ≤ granule ∧ granule ≤ last) ∧ granule / exclusiveGranulesPerPage = page))
      (GuestMemory.noteGranulesOfPage first last noted page) := by
  obtain ⟨current, generations, hframe⟩ := h.frame
  unfold GuestMemory.noteGranulesOfPage
  split
  · rename_i hpage
    refine h.mono fun granule hg ho => ?_
    rcases hg with hg | ⟨_, rfl⟩
    · exact hg
    · rw [hframe] at hpage
      exact absurd hpage ho.1
  · refine (h.foldl (fun _ _ granule hn => hn.noteGranule granule)
      (indexRange (max first (page * exclusiveGranulesPerPage))
        (min last (page * exclusiveGranulesPerPage + exclusiveGranulesPerPage - 1)))).mono
      fun granule hg _ => ?_
    rcases hg with hg | ⟨hin, hpage⟩
    · exact .inl hg
    · refine .inr ⟨granule, mem_indexRange.mpr ?_, rfl⟩
      simp only [exclusiveGranulesPerPage] at *
      omega

theorem noted_noteExclusiveWriteGeneration (h : memory.HasRange offset byteCount) :
    ∃ generation, Noted memory
      (fun granule => firstGranule offset ≤ granule ∧ granule ≤ lastGranule offset byteCount)
      (memory.noteExclusiveWriteGeneration offset byteCount, generation) := by
  have hstart : Noted memory (fun _ => False) (memory, 0#64) :=
    ⟨⟨_, _, rfl⟩, .inl ⟨rfl, rfl⟩, fun slot => .inl rfl, fun _ hg => hg.elim⟩
  have hloop := hstart.foldl
    (fun _ _ page hn => hn.noteGranulesOfPage (firstGranule offset) (lastGranule offset byteCount) page)
    (indexRange (firstGranule offset / exclusiveGranulesPerPage)
      (lastGranule offset byteCount / exclusiveGranulesPerPage))
  simp only [noteExclusiveWriteGeneration, if_pos h]
  refine ⟨_, hloop.mono fun granule hg _ => .inr ⟨_, mem_indexRange.mpr ?_, hg, rfl⟩⟩
  exact ⟨Nat.div_le_div_right hg.1, Nat.div_le_div_right hg.2⟩

theorem grows_noteExclusiveWriteGeneration (h : memory.HasRange offset byteCount) :
    Grows memory (memory.noteExclusiveWriteGeneration offset byteCount)
      (GuestMemorySpan.Contains ⟨offset, byteCount⟩) 1 := by
  intro hbound
  obtain ⟨generation, hn⟩ := noted_noteExclusiveWriteGeneration h
  obtain ⟨current, generations, hframe⟩ := hn.frame
  dsimp only at hframe
  have hnext := nextWriteGeneration_counter hbound
  have hcounter : (memory.noteExclusiveWriteGeneration offset byteCount = memory ∧ generation = 0#64) ∨
      ((memory.noteExclusiveWriteGeneration offset byteCount).counter = memory.counter + 1 ∧
        generation.toNat = memory.counter + 1) := by
    rcases hn.drawn with ⟨hg, hm⟩ | ⟨hg, hc⟩
    · exact .inl ⟨hm, hg⟩
    · have hgen : generation.toNat = memory.counter + 1 := by rw [← hnext, counter, ← hg]
      exact .inr ⟨by rw [← hgen, counter, hc], hgen⟩
  have hne : generation ≠ 0#64 → generation.toNat = memory.counter + 1 ∧
      (memory.noteExclusiveWriteGeneration offset byteCount).counter = memory.counter + 1 := by
    intro hg
    rcases hcounter with ⟨_, hz⟩ | ⟨hc, hgen⟩
    · exact absurd hz hg
    · exact ⟨hgen, hc⟩
  have hle : memory.counter ≤ (memory.noteExclusiveWriteGeneration offset byteCount).counter ∧
      (memory.noteExclusiveWriteGeneration offset byteCount).counter ≤ memory.counter + 1 := by
    rcases hcounter with ⟨hm, _⟩ | ⟨hc, _⟩
    · rw [hm]; omega
    · omega
  refine
    { size := by rw [hframe]
      mask := by rw [hframe]
      counter_le := hle.1
      counter_bound := hle.2
      tables := fun ht => ⟨fun slot => ?_, fun page hp => ?_⟩
      observed := fun granule ho => by rw [hframe]; exact ho
      slots := fun slot => ?_
      touched := fun _ byte hb ho => ?_ }
  · rcases hn.slots slot with heq | ⟨hg, heq⟩
    · dsimp only at heq
      have := ht.bounded slot
      rw [heq]
      omega
    · dsimp only at heq
      have := hne hg
      rw [heq]
      omega
  · rw [hframe] at hp ⊢
    exact ht.flagged page hp
  · rcases hn.slots slot with heq | ⟨hg, heq⟩
    · exact .inl heq
    · dsimp only at heq
      have := hne hg
      rw [heq]
      omega
  · have hin : firstGranule offset ≤ byte / 16 ∧ byte / 16 ≤ lastGranule offset byteCount := by
      simp only [GuestMemorySpan.Contains, firstGranule, lastGranule] at *
      omega
    obtain ⟨hg, heq⟩ := hn.done (byte / 16) hin ho
    dsimp only at heq
    have := hne hg
    have hmask : (memory.noteExclusiveWriteGeneration offset byteCount).exclusiveSlotMask =
        memory.exclusiveSlotMask := by rw [hframe]
    rw [byteGeneration, exclusiveSlot_congr hmask, heq]
    omega

theorem grows_noteCodeWrite (memory : GuestMemory) (touchesCode : Bool) (offset byteCount : ℕ) :
    Grows memory (memory.noteCodeWrite touchesCode offset byteCount) Nothing 1 := by
  unfold noteCodeWrite
  split
  · exact ((grows_notePageWriteGeneration _ _ _).trans (grows_advanceCodeMutationEpoch _)).mono
      (fun _ h => h.elim) (by omega)
  · exact (grows_refl _).mono (fun _ h => h) (by omega)

end GuestMemory

end Pinecone
