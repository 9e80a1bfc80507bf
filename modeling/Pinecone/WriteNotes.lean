import Pinecone.BulkAccesses
import Pinecone.ExclusiveWrites

/-! What a write leaves in the tables of the guest memory: generations that it drew, for the pages
with code and for the watched granules among those that it wrote. -/

namespace Pinecone

namespace GuestMemory

variable {memory memory' memory'' : GuestMemory} {Written Written' : ℕ → Prop}
  {offset byteCount page slot draws : ℕ}

/-- The counter after another draw. -/
def nextCounter (counter : U64) : U64 := if counter + 1#64 = 0#64 then 1#64 else counter + 1#64

theorem nextCounter_ne (counter : U64) : nextCounter counter ≠ 0#64 := by
  unfold nextCounter
  split
  · simp
  · assumption

theorem nextWriteGeneration_eq (memory : GuestMemory) : memory.nextWriteGeneration =
    { memory with currentWriteGeneration := nextCounter memory.currentWriteGeneration } := rfl

theorem advanceCodeMutationEpoch_eq (memory : GuestMemory) : memory.advanceCodeMutationEpoch =
    { memory with codeMutationEpoch := nextCounter memory.codeMutationEpoch } := rfl

/-- A page with code was written. -/
def CodeWritten (memory : GuestMemory) (Written : ℕ → Prop) (page : ℕ) : Prop :=
  memory.codePageBits page = true ∧ ∃ byte, Written byte ∧ firstPage byte = page

/-- A watched granule of the slot was written. -/
def SlotWritten (memory : GuestMemory) (Written : ℕ → Prop) (slot : ℕ) : Prop :=
  ∃ byte, Written byte ∧ memory.GranuleObserved (byte / 16) ∧ memory.exclusiveSlot (byte / 16) = slot

/-- The entry was drawn as one of the counter's next values if it is noted, and is unchanged if
it is not. -/
def DrawnIf (noted : Prop) (counter : U64) (draws : ℕ) (before after : U64) : Prop :=
  (noted → ∃ k, 0 < k ∧ k ≤ draws ∧ after = nextCounter^[k] counter) ∧ (¬ noted → after = before)

/-- The notes of a write: of the watched granules that it wrote, and of the pages `Noted`. -/
structure WriteNotes (memory memory' : GuestMemory) (Written Noted : ℕ → Prop) : Prop where
  frame : memory' = { memory with
    bytes := memory'.bytes
    pageEpochs := memory'.pageEpochs
    currentWriteGeneration := memory'.currentWriteGeneration
    exclusiveWriteGenerations := memory'.exclusiveWriteGenerations
    pageWriteGenerations := memory'.pageWriteGenerations
    codeMutationEpoch := memory'.codeMutationEpoch }
  generations : ∃ draws,
    memory'.currentWriteGeneration = nextCounter^[draws] memory.currentWriteGeneration ∧
    (∀ page, DrawnIf (Noted page) memory.currentWriteGeneration draws
      (memory.pageWriteGenerations page) (memory'.pageWriteGenerations page)) ∧
    ∀ slot, DrawnIf (memory.SlotWritten Written slot) memory.currentWriteGeneration draws
      (memory.exclusiveWriteGenerations slot) (memory'.exclusiveWriteGenerations slot)
  epoch : ∃ advances, memory'.codeMutationEpoch = nextCounter^[advances] memory.codeMutationEpoch ∧
    (0 < advances ↔ ∃ page, Noted page)

/-- The notes of what was written, and of nothing else. -/
abbrev NotesWrite (memory memory' : GuestMemory) (Written : ℕ → Prop) : Prop :=
  WriteNotes memory memory' Written (memory.CodeWritten Written)

section compose

variable {Noted Noted' : ℕ → Prop}

theorem WriteNotes.codePageBits (h : WriteNotes memory memory' Written Noted) :
    memory'.codePageBits = memory.codePageBits := by
  rw [h.frame]

theorem WriteNotes.size (h : WriteNotes memory memory' Written Noted) :
    memory'.size = memory.size := by
  rw [h.frame]

theorem WriteNotes.currentEpoch (h : WriteNotes memory memory' Written Noted) :
    memory'.currentEpoch = memory.currentEpoch := by
  rw [h.frame]

theorem WriteNotes.exclusiveSlot (h : WriteNotes memory memory' Written Noted) (granule : ℕ) :
    memory'.exclusiveSlot granule = memory.exclusiveSlot granule :=
  exclusiveSlot_congr (by rw [h.frame]) granule

theorem WriteNotes.granuleObserved (h : WriteNotes memory memory' Written Noted) (granule : ℕ) :
    memory'.GranuleObserved granule ↔ memory.GranuleObserved granule := by
  unfold GranuleObserved
  rw [h.exclusiveSlot, h.frame]

theorem WriteNotes.codeWritten (h : WriteNotes memory memory' Written Noted) :
    memory'.CodeWritten Written' page ↔ memory.CodeWritten Written' page := by
  unfold CodeWritten
  rw [h.codePageBits]

theorem WriteNotes.slotWritten (h : WriteNotes memory memory' Written Noted) :
    memory'.SlotWritten Written' slot ↔ memory.SlotWritten Written' slot := by
  unfold SlotWritten
  simp only [h.granuleObserved, h.exclusiveSlot]

theorem codeWritten_or : memory.CodeWritten (fun byte => Written byte ∨ Written' byte) page ↔
    memory.CodeWritten Written page ∨ memory.CodeWritten Written' page := by
  constructor
  · rintro ⟨hcode, byte, hwritten | hwritten, hpage⟩
    · exact .inl ⟨hcode, byte, hwritten, hpage⟩
    · exact .inr ⟨hcode, byte, hwritten, hpage⟩
  · rintro (⟨hcode, byte, hwritten, hpage⟩ | ⟨hcode, byte, hwritten, hpage⟩)
    · exact ⟨hcode, byte, .inl hwritten, hpage⟩
    · exact ⟨hcode, byte, .inr hwritten, hpage⟩

theorem slotWritten_or : memory.SlotWritten (fun byte => Written byte ∨ Written' byte) slot ↔
    memory.SlotWritten Written slot ∨ memory.SlotWritten Written' slot := by
  constructor
  · rintro ⟨byte, hwritten | hwritten, hobserved⟩
    · exact .inl ⟨byte, hwritten, hobserved⟩
    · exact .inr ⟨byte, hwritten, hobserved⟩
  · rintro (⟨byte, hwritten, hobserved⟩ | ⟨byte, hwritten, hobserved⟩)
    · exact ⟨byte, .inl hwritten, hobserved⟩
    · exact ⟨byte, .inr hwritten, hobserved⟩

theorem DrawnIf.trans {noted noted' : Prop} {counter before middle after : U64} {draws draws' : ℕ}
    (h : DrawnIf noted counter draws before middle)
    (h' : DrawnIf noted' (nextCounter^[draws] counter) draws' middle after) :
    DrawnIf (noted ∨ noted') counter (draws + draws') before after := by
  by_cases hlater : noted'
  · obtain ⟨k, hpositive, hle, hafter⟩ := h'.1 hlater
    refine ⟨fun _ => ⟨draws + k, by omega, by omega, ?_⟩, fun hneither => absurd (.inr hlater) hneither⟩
    rw [hafter, Nat.add_comm draws k, Function.iterate_add_apply]
  · have hkept := h'.2 hlater
    refine ⟨fun heither => ?_, fun hneither => ?_⟩
    · obtain ⟨k, hpositive, hle, hmiddle⟩ := h.1 (heither.resolve_right hlater)
      exact ⟨k, hpositive, by omega, hkept.trans hmiddle⟩
    · exact hkept.trans (h.2 fun hearlier => hneither (.inl hearlier))

theorem WriteNotes.trans (h : WriteNotes memory memory' Written Noted)
    (h' : WriteNotes memory' memory'' Written' Noted') :
    WriteNotes memory memory'' (fun byte => Written byte ∨ Written' byte)
      (fun page => Noted page ∨ Noted' page) := by
  obtain ⟨draws, hcounter, hpages, hslots⟩ := h.generations
  obtain ⟨draws', hcounter', hpages', hslots'⟩ := h'.generations
  obtain ⟨advances, hepoch, hadvanced⟩ := h.epoch
  obtain ⟨advances', hepoch', hadvanced'⟩ := h'.epoch
  refine ⟨?_, ⟨draws + draws', ?_, fun page => ?_, fun slot => ?_⟩, advances + advances', ?_, ?_⟩
  · have hframe := h'.frame
    rw [h.frame] at hframe
    exact hframe
  · rw [hcounter', hcounter, Nat.add_comm draws draws', Function.iterate_add_apply]
  · have hlater := hpages' page
    rw [hcounter] at hlater
    exact (hpages page).trans hlater
  · have hlater := hslots' slot
    rw [hcounter, h.slotWritten] at hlater
    rw [slotWritten_or]
    exact (hslots slot).trans hlater
  · rw [hepoch', hepoch, Nat.add_comm advances advances', Function.iterate_add_apply]
  · rw [exists_or, ← hadvanced, ← hadvanced']
    omega

theorem WriteNotes.congr (h : WriteNotes memory memory' Written Noted)
    (hbytes : ∀ byte, Written byte ↔ Written' byte) (hpages : ∀ page, Noted page ↔ Noted' page) :
    WriteNotes memory memory' Written' Noted' := by
  obtain rfl : Written = Written' := funext fun byte => propext (hbytes byte)
  obtain rfl : Noted = Noted' := funext fun page => propext (hpages page)
  exact h

theorem NotesWrite.trans (h : NotesWrite memory memory' Written)
    (h' : NotesWrite memory' memory'' Written') :
    NotesWrite memory memory'' (fun byte => Written byte ∨ Written' byte) :=
  (WriteNotes.trans h h').congr (fun _ => Iff.rfl) fun page => by
    rw [h.codeWritten, codeWritten_or]

theorem NotesWrite.congr (h : NotesWrite memory memory' Written)
    (hsame : ∀ byte, Written byte ↔ Written' byte) : NotesWrite memory memory' Written' := by
  obtain rfl : Written = Written' := funext fun byte => propext (hsame byte)
  exact h

theorem NotesWrite.plain (memory : GuestMemory) (bytes : ℕ → BitVec 8) (epochs : ℕ → U64) :
    NotesWrite memory { memory with bytes := bytes, pageEpochs := epochs } (fun _ => False) := by
  have hcode : ∀ page, ¬ memory.CodeWritten (fun _ => False) page := by
    rintro page ⟨-, byte, hfalse, -⟩
    exact hfalse
  have hslot : ∀ slot, ¬ memory.SlotWritten (fun _ => False) slot := by
    rintro slot ⟨byte, hfalse, -⟩
    exact hfalse
  refine ⟨rfl, ⟨0, rfl, fun page => ?_, fun slot => ?_⟩, 0, rfl, ?_⟩
  · exact ⟨fun hnoted => absurd hnoted (hcode page), fun _ => rfl⟩
  · exact ⟨fun hnoted => absurd hnoted (hslot slot), fun _ => rfl⟩
  · simp [hcode]

end compose

section exclusive

theorem noteGranules_drawn (granules : List ℕ) (generation : U64) (hgeneration : generation ≠ 0#64)
    (memory : GuestMemory) :
    granules.foldl noteGranule (memory, generation) =
      ({ memory with exclusiveWriteGenerations :=
          (granules.foldl noteGranule (memory, generation)).1.exclusiveWriteGenerations },
        generation) ∧
    ∀ slot, ((∃ granule ∈ granules, memory.exclusiveObservations (memory.exclusiveSlot granule) ≠ 0#8 ∧
        memory.exclusiveSlot granule = slot) →
      (granules.foldl noteGranule (memory, generation)).1.exclusiveWriteGenerations slot =
        generation) ∧
      ((¬ ∃ granule ∈ granules, memory.exclusiveObservations (memory.exclusiveSlot granule) ≠ 0#8 ∧
        memory.exclusiveSlot granule = slot) →
      (granules.foldl noteGranule (memory, generation)).1.exclusiveWriteGenerations slot =
        memory.exclusiveWriteGenerations slot) := by
  induction granules generalizing memory with
  | nil => exact ⟨rfl, fun slot => ⟨by simp, fun _ => rfl⟩⟩
  | cons granule rest ih =>
    rw [List.foldl_cons]
    by_cases hobserved : memory.exclusiveObservations (memory.exclusiveSlot granule) = 0#8
    · have hskip : noteGranule (memory, generation) granule = (memory, generation) := by
        simp [noteGranule, hobserved]
      rw [hskip]
      obtain ⟨hframe, hslots⟩ := ih memory
      refine ⟨hframe, fun slot => ?_⟩
      simpa [hobserved] using hslots slot
    · let next : GuestMemory := { memory with
        exclusiveWriteGenerations := Function.update memory.exclusiveWriteGenerations
          (memory.exclusiveSlot granule) generation }
      have hnote : noteGranule (memory, generation) granule = (next, generation) := by
        simp [noteGranule, hobserved, hgeneration, next]
      rw [hnote]
      obtain ⟨hframe, hslots⟩ := ih next
      refine ⟨by rw [hframe], fun slot => ?_⟩
      have hslot := hslots slot
      by_cases hlater : ∃ granule ∈ rest, next.exclusiveObservations (next.exclusiveSlot granule) ≠
          0#8 ∧ next.exclusiveSlot granule = slot
      · obtain ⟨other, hother, hnoted, rfl⟩ := hlater
        refine ⟨fun _ => hslot.1 ⟨other, hother, hnoted, rfl⟩, fun hnone => absurd ?_ hnone⟩
        exact ⟨other, List.mem_cons_of_mem _ hother, hnoted, rfl⟩
      · have hkept := hslot.2 hlater
        rw [hkept]
        by_cases hself : memory.exclusiveSlot granule = slot
        · subst hself
          refine ⟨fun _ => by simp [next], fun hnone => absurd ?_ hnone⟩
          exact ⟨granule, List.mem_cons_self .., hobserved, rfl⟩
        · have hvalue : next.exclusiveWriteGenerations slot = memory.exclusiveWriteGenerations slot :=
            Function.update_of_ne (Ne.symm hself) _ _
          rw [hvalue]
          refine ⟨?_, fun _ => rfl⟩
          rintro ⟨other, hother, hnoted, hsame⟩
          rcases List.mem_cons.mp hother with rfl | hother
          · exact absurd hsame hself
          · exact absurd ⟨other, hother, hnoted, hsame⟩ hlater

theorem noteGranules_spec (granules : List ℕ) (memory : GuestMemory) :
    ∃ draws tables, (granules.foldl noteGranule (memory, 0#64)).1 =
        { memory with
          currentWriteGeneration := nextCounter^[draws] memory.currentWriteGeneration
          exclusiveWriteGenerations := tables } ∧
      ∀ slot, DrawnIf (∃ granule ∈ granules,
          memory.exclusiveObservations (memory.exclusiveSlot granule) ≠ 0#8 ∧
            memory.exclusiveSlot granule = slot)
        memory.currentWriteGeneration draws (memory.exclusiveWriteGenerations slot) (tables slot) := by
  induction granules with
  | nil => exact ⟨0, memory.exclusiveWriteGenerations, rfl, fun slot => ⟨by simp, fun _ => rfl⟩⟩
  | cons granule rest ih =>
    rw [List.foldl_cons]
    by_cases hobserved : memory.exclusiveObservations (memory.exclusiveSlot granule) = 0#8
    · have hskip : noteGranule (memory, 0#64) granule = (memory, 0#64) := by
        simp [noteGranule, hobserved]
      rw [hskip]
      obtain ⟨draws, tables, hframe, hslots⟩ := ih
      refine ⟨draws, tables, hframe, fun slot => ?_⟩
      simpa [hobserved] using hslots slot
    · let generation := nextCounter memory.currentWriteGeneration
      let drawn : GuestMemory := { memory with currentWriteGeneration := generation }
      have hfirst : noteGranule (memory, 0#64) granule = noteGranule (drawn, generation) granule := by
        have hne : generation ≠ 0#64 := nextCounter_ne _
        have hslot : drawn.exclusiveSlot granule = memory.exclusiveSlot granule := rfl
        simp only [noteGranule, hslot, hobserved, if_false, hne, drawn]
        rfl
      have hwhole := noteGranules_drawn (granule :: rest) generation (nextCounter_ne _) drawn
      rw [List.foldl_cons, ← hfirst] at hwhole
      obtain ⟨hframe, hslots⟩ := hwhole
      refine ⟨1, _, by rw [hframe]; rfl, fun slot => ⟨fun hnoted => ⟨1, by omega, by omega, ?_⟩,
        fun hnone => ?_⟩⟩
      · exact (hslots slot).1 hnoted
      · exact (hslots slot).2 hnone

end exclusive

section range

/-- The granules that a write of `[first, last]` looks at in a page. -/
def granulesOfPage (memory : GuestMemory) (first last page : ℕ) : List ℕ :=
  if memory.pageExclusiveObservationEpochs page = 0#64 then []
  else indexRange (max first (page * exclusiveGranulesPerPage))
    (min last (page * exclusiveGranulesPerPage + exclusiveGranulesPerPage - 1))

theorem noteGranules_pages (granules : List ℕ) (noted : GuestMemory × U64) :
    (granules.foldl noteGranule noted).1.pageExclusiveObservationEpochs =
      noted.1.pageExclusiveObservationEpochs := by
  induction granules generalizing noted with
  | nil => rfl
  | cons granule rest ih =>
    rw [List.foldl_cons, ih]
    unfold noteGranule
    dsimp only
    split
    · rfl
    · split <;> rfl

theorem noteGranulesOfPages (first last : ℕ) (pages : List ℕ) (noted : GuestMemory × U64) :
    pages.foldl (noteGranulesOfPage first last) noted =
      (pages.flatMap (noted.1.granulesOfPage first last)).foldl noteGranule noted := by
  induction pages generalizing noted with
  | nil => rfl
  | cons page rest ih =>
    have hpage : noteGranulesOfPage first last noted page =
        (noted.1.granulesOfPage first last page).foldl noteGranule noted := by
      unfold noteGranulesOfPage granulesOfPage
      split <;> rfl
    have hsame : (noteGranulesOfPage first last noted page).1.granulesOfPage first last =
        noted.1.granulesOfPage first last := by
      funext other
      unfold granulesOfPage
      rw [hpage, noteGranules_pages]
    rw [List.foldl_cons, ih, hsame, List.flatMap_cons, List.foldl_append, hpage]

variable (hrange : memory.HasRange offset byteCount)

include hrange in
theorem granules_slotWritten : (∃ granule ∈ (indexRange
      (firstGranule offset / exclusiveGranulesPerPage)
      (lastGranule offset byteCount / exclusiveGranulesPerPage)).flatMap
        (memory.granulesOfPage (firstGranule offset) (lastGranule offset byteCount)),
      memory.exclusiveObservations (memory.exclusiveSlot granule) ≠ 0#8 ∧
        memory.exclusiveSlot granule = slot) ↔
    memory.SlotWritten (GuestMemorySpan.Contains ⟨offset, byteCount⟩) slot := by
  have hpositive : 0 < byteCount := Nat.pos_of_ne_zero hrange.1
  constructor
  · rintro ⟨granule, hmem, hobserved, hslot⟩
    obtain ⟨page, -, hgranule⟩ := List.mem_flatMap.mp hmem
    unfold granulesOfPage at hgranule
    by_cases hwatched : memory.pageExclusiveObservationEpochs page = 0#64
    · rw [if_pos hwatched] at hgranule
      exact absurd hgranule List.not_mem_nil
    · rw [if_neg hwatched, mem_indexRange] at hgranule
      simp only [firstGranule, lastGranule, exclusiveGranulesPerPage] at hgranule
      have hback : max offset (granule * 16) / 16 = granule := by omega
      have hpage : granule / 256 = page := by omega
      refine ⟨max offset (granule * 16), ⟨Nat.le_max_left _ _, ?_⟩, ⟨?_, ?_⟩, ?_⟩
      · dsimp only
        omega
      · rw [hback]
        simp only [exclusiveGranulesPerPage]
        rw [hpage]
        exact hwatched
      · rw [hback]
        exact hobserved
      · rw [hback]
        exact hslot
  · rintro ⟨byte, ⟨hlow, hhigh⟩, ⟨hwatched, hobserved⟩, hslot⟩
    dsimp only at hlow hhigh
    refine ⟨byte / 16, List.mem_flatMap.mpr ⟨byte / 16 / exclusiveGranulesPerPage, ?_, ?_⟩,
      hobserved, hslot⟩
    · rw [mem_indexRange]
      simp only [firstGranule, lastGranule, exclusiveGranulesPerPage]
      omega
    · unfold granulesOfPage
      rw [if_neg hwatched, mem_indexRange]
      simp only [firstGranule, lastGranule, exclusiveGranulesPerPage]
      omega

include hrange in
theorem noteExclusiveWriteGeneration_spec : ∃ draws tables,
    memory.noteExclusiveWriteGeneration offset byteCount =
        { memory with
          currentWriteGeneration := nextCounter^[draws] memory.currentWriteGeneration
          exclusiveWriteGenerations := tables } ∧
      ∀ slot, DrawnIf (memory.SlotWritten (GuestMemorySpan.Contains ⟨offset, byteCount⟩) slot)
        memory.currentWriteGeneration draws (memory.exclusiveWriteGenerations slot) (tables slot) := by
  rw [noteExclusiveWriteGeneration, if_pos hrange]
  dsimp only
  rw [noteGranulesOfPages]
  obtain ⟨draws, tables, hframe, hslots⟩ := noteGranules_spec ((indexRange
    (firstGranule offset / exclusiveGranulesPerPage)
    (lastGranule offset byteCount / exclusiveGranulesPerPage)).flatMap
      (memory.granulesOfPage (firstGranule offset) (lastGranule offset byteCount))) memory
  refine ⟨draws, tables, hframe, fun slot => ?_⟩
  rw [← granules_slotWritten hrange]
  exact hslots slot

end range

section page

variable (hrange : memory.HasRange offset byteCount)
  (hpage : lastPage offset byteCount = firstPage offset)

theorem indexRange_self (index : ℕ) : indexRange index index = [index] := by
  simp [indexRange]

include hrange hpage in
theorem codeWritten_page : memory.CodeWritten (GuestMemorySpan.Contains ⟨offset, byteCount⟩) page ↔
    memory.codePageBits (firstPage offset) = true ∧ page = firstPage offset := by
  have hpositive : 0 < byteCount := Nat.pos_of_ne_zero hrange.1
  constructor
  · rintro ⟨hcode, byte, ⟨hlow, hhigh⟩, rfl⟩
    have hsame : firstPage byte = firstPage offset := by
      simp only [lastPage, firstPage, fastPageSize] at hpage ⊢
      dsimp only at hlow hhigh
      omega
    rw [hsame] at hcode ⊢
    exact ⟨hcode, rfl⟩
  · rintro ⟨hcode, rfl⟩
    exact ⟨hcode, offset, ⟨Nat.le_refl _, Nat.lt_add_of_pos_right hpositive⟩, rfl⟩

end page

end GuestMemory

namespace FastMemory

open GuestMemory

variable {fast : FastMemory} {offset byteCount : ℕ}

/-- The dirty marks: the epochs of the pages, and the cache before them. -/
def dirtyMarks (fast : FastMemory) : (ℕ → U64) × (ℕ → DirtyHotEntry) :=
  (fast.memory.pageEpochs, fast.dirtyHot)

/-- The pages that a mark of a range notes: all of them, if one holds code. -/
def NotedPages (memory : GuestMemory) (offset byteCount page : ℕ) : Prop :=
  (firstPage offset ≤ page ∧ page ≤ lastPage offset byteCount) ∧
    ∃ code, (firstPage offset ≤ code ∧ code ≤ lastPage offset byteCount) ∧
      memory.codePageBits code = true

theorem markDirty_range (hrange : fast.memory.HasRange offset byteCount) :
    WriteNotes fast.memory (fast.markDirty offset byteCount).memory
        (GuestMemorySpan.Contains ⟨offset, byteCount⟩) (NotedPages fast.memory offset byteCount) ∧
      (fast.markDirty offset byteCount).memory.bytes = fast.memory.bytes ∧
      (fast.markDirty offset byteCount).dirtyMarks =
        ((indexRange (firstPage offset) (lastPage offset byteCount)).foldl
          (markDirtyPage fast.memory.currentEpoch) fast).dirtyMarks := by
  generalize hpages : indexRange (firstPage offset) (lastPage offset byteCount) = pages
  obtain ⟨epochs, hepochs⟩ := markDirtyPages_memory fast.memory.currentEpoch pages fast
  let dirtied : GuestMemory := { fast.memory with pageEpochs := epochs }
  have hdirty : dirtied.HasRange offset byteCount := hrange
  have hdirtied : (pages.foldl (markDirtyPage fast.memory.currentEpoch) fast).memory = dirtied :=
    hepochs
  obtain ⟨draws, tables, hnoted, hslots⟩ := noteExclusiveWriteGeneration_spec hdirty
  have hmarked : fast.markDirty offset byteCount =
      { pages.foldl (markDirtyPage fast.memory.currentEpoch) fast with
        memory := (dirtied.noteExclusiveWriteGeneration offset byteCount).noteCodeWrite
          (pages.any fast.memory.codePageBits) offset byteCount } := by
    rw [markDirty, if_pos hrange]
    dsimp only
    rw [hpages, hdirtied]
  have hcode : pages.any fast.memory.codePageBits = true ↔
      ∃ code, (firstPage offset ≤ code ∧ code ≤ lastPage offset byteCount) ∧
        fast.memory.codePageBits code = true := by
    rw [List.any_eq_true, ← hpages]
    simp only [mem_indexRange]
  rw [hmarked]
  by_cases htouches : pages.any fast.memory.codePageBits = true
  · have hnoted' : (dirtied.noteExclusiveWriteGeneration offset byteCount).HasRange offset byteCount := by
      rw [hnoted]
      exact hdirty
    simp only [htouches, noteCodeWrite, if_true, notePageWriteGeneration, if_pos hnoted']
    rw [hnoted]
    refine ⟨⟨rfl, ⟨draws + 1, ?_, fun page => ?_, fun slot => ?_⟩, 1, rfl, ?_⟩, rfl, ?_⟩
    · exact (Function.iterate_succ_apply' nextCounter draws _).symm
    · constructor
      · rintro ⟨hinside, -⟩
        refine ⟨draws + 1, by omega, by omega, ?_⟩
        rw [Function.iterate_succ_apply']
        simp [advanceCodeMutationEpoch, nextWriteGeneration_eq, storeRange, dirtied, hinside]
      · intro hnone
        have hne : ¬ (firstPage offset ≤ page ∧ page ≤ lastPage offset byteCount) :=
          fun hinside => hnone ⟨hinside, hcode.mp htouches⟩
        simp [advanceCodeMutationEpoch, nextWriteGeneration_eq, storeRange, hne, dirtied]
    · have hslot := hslots slot
      constructor
      · intro hwritten
        obtain ⟨k, hpositive, hle, hvalue⟩ := hslot.1 hwritten
        exact ⟨k, hpositive, by omega, hvalue⟩
      · exact hslot.2
    · obtain ⟨code, hinside, hcode⟩ := hcode.mp htouches
      exact ⟨fun _ => ⟨code, hinside, code, hinside, hcode⟩, fun _ => Nat.zero_lt_one⟩
    · simp [dirtyMarks, advanceCodeMutationEpoch, nextWriteGeneration_eq, hdirtied, dirtied]
  · have hnone : ∀ page, ¬ NotedPages fast.memory offset byteCount page :=
      fun page hnoted => htouches (hcode.mpr hnoted.2)
    rw [Bool.not_eq_true] at htouches
    simp only [htouches, noteCodeWrite, Bool.false_eq_true, if_false]
    rw [hnoted]
    refine ⟨⟨rfl, ⟨draws, rfl, fun page => ?_, hslots⟩, 0, rfl, ?_⟩, rfl, ?_⟩
    · exact ⟨fun hnoted => absurd hnoted (hnone page), fun _ => rfl⟩
    · exact ⟨fun hpositive => absurd hpositive (Nat.lt_irrefl 0),
        fun hsome => hsome.elim fun page hnoted => absurd hnoted (hnone page)⟩
    · simp [dirtyMarks, hdirtied, dirtied]

theorem markDirty_page (hrange : fast.memory.HasRange offset byteCount)
    (hpage : lastPage offset byteCount = firstPage offset) :
    NotesWrite fast.memory (fast.markDirty offset byteCount).memory
        (GuestMemorySpan.Contains ⟨offset, byteCount⟩) ∧
      (fast.markDirty offset byteCount).memory.bytes = fast.memory.bytes ∧
      (fast.markDirty offset byteCount).dirtyMarks =
        (markDirtyPage fast.memory.currentEpoch fast (firstPage offset)).dirtyMarks := by
  obtain ⟨hnotes, hbytes, hmarks⟩ := markDirty_range hrange
  refine ⟨hnotes.congr (fun _ => Iff.rfl) fun page => ?_, hbytes, ?_⟩
  · rw [codeWritten_page hrange hpage, NotedPages, hpage]
    constructor
    · rintro ⟨hinside, code, hcode, hbits⟩
      obtain rfl : code = firstPage offset := by omega
      exact ⟨hbits, by omega⟩
    · rintro ⟨hbits, rfl⟩
      exact ⟨⟨Nat.le_refl _, Nat.le_refl _⟩, _, ⟨Nat.le_refl _, Nat.le_refl _⟩, hbits⟩
  · rw [hmarks, hpage, indexRange_self, List.foldl_cons, List.foldl_nil]

end FastMemory

end Pinecone
