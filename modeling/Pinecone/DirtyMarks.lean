import Pinecone.ExclusiveSteps

/-! What the operations on a guest memory do to its dirty pages: a guest's write stamps the
pages it touches with the current epoch, and everything else leaves the stamps alone. -/

namespace Pinecone

open GuestMemory

variable {memory middle memory' : GuestMemory} {Touched Touched' : ℕ → Prop}
  {offset byteCount width : ℕ}

/-- The step stamps the pages of `Touched` with the current epoch, and no others. -/
structure PagesMarked (memory memory' : GuestMemory) (Touched : ℕ → Prop) : Prop where
  size : memory'.size = memory.size
  epoch : memory'.currentEpoch = memory.currentEpoch
  marked : ∀ page, Touched page → memory'.pageEpochs page = memory.currentEpoch
  kept : ∀ page, ¬ Touched page → memory'.pageEpochs page = memory.pageEpochs page

namespace PagesMarked

theorem of_eq (hsize : memory'.size = memory.size)
    (hepoch : memory'.currentEpoch = memory.currentEpoch)
    (hpages : memory'.pageEpochs = memory.pageEpochs) : PagesMarked memory memory' Nothing :=
  ⟨hsize, hepoch, fun _ ht => ht.elim, fun page _ => by rw [hpages]⟩

theorem refl (memory : GuestMemory) : PagesMarked memory memory Nothing := of_eq rfl rfl rfl

theorem congr (h : PagesMarked memory memory' Touched) (hiff : ∀ page, Touched page ↔ Touched' page) :
    PagesMarked memory memory' Touched' :=
  ⟨h.size, h.epoch, fun page ht => h.marked page ((hiff page).mpr ht),
    fun page ht => h.kept page fun ht' => ht ((hiff page).mp ht')⟩

theorem trans (h : PagesMarked memory middle Touched) (h' : PagesMarked middle memory' Touched') :
    PagesMarked memory memory' fun page => Touched page ∨ Touched' page where
  size := h'.size.trans h.size
  epoch := h'.epoch.trans h.epoch
  marked := fun page ht => by
    by_cases hlast : Touched' page
    · rw [h'.marked page hlast, h.epoch]
    · rw [h'.kept page hlast, h.marked page (ht.resolve_right hlast)]
  kept := fun page ht => by
    rw [h'.kept page fun hlast => ht (.inr hlast), h.kept page fun hfirst => ht (.inl hfirst)]

theorem before (h : PagesMarked memory middle Nothing) (h' : PagesMarked middle memory' Touched) :
    PagesMarked memory memory' Touched :=
  (h.trans h').congr fun _ => or_iff_right fun ht => ht

theorem after (h : PagesMarked memory middle Touched) (h' : PagesMarked middle memory' Nothing) :
    PagesMarked memory memory' Touched :=
  (h.trans h').congr fun _ => or_iff_left fun ht => ht

theorem foldl {State Item : Type} {toMemory : State → GuestMemory} {body : State → Item → State}
    (hbody : ∀ s item, PagesMarked (toMemory s) (toMemory (body s item)) Nothing) (items : List Item)
    (s : State) : PagesMarked (toMemory s) (toMemory (items.foldl body s)) Nothing := by
  induction items generalizing s with
  | nil => exact refl _
  | cons item rest ih => exact (hbody s item).before (ih (body s item))

end PagesMarked

/-! ## Operations that mark nothing -/

theorem unmarked_storeValue (memory : GuestMemory) (offset width : ℕ) (value : U64) :
    PagesMarked memory (memory.storeValue offset width value) Nothing :=
  .of_eq rfl rfl rfl

theorem unmarked_noteHostObservation (memory : GuestMemory) (offset byteCount : ℕ) :
    PagesMarked memory (memory.noteHostObservation offset byteCount) Nothing := by
  unfold noteHostObservation
  split <;> exact .of_eq rfl rfl rfl

theorem unmarked_noteBulkRead (memory : GuestMemory) (offset byteCount : ℕ) :
    PagesMarked memory (memory.noteBulkRead offset byteCount) Nothing := by
  unfold noteBulkRead
  split <;> exact .of_eq rfl rfl rfl

theorem unmarked_markCodePage (memory : GuestMemory) (offset : ℕ) :
    PagesMarked memory (memory.markCodePage offset) Nothing := by
  unfold markCodePage
  split <;> exact .of_eq rfl rfl rfl

theorem unmarked_noteExclusiveObservation (memory : GuestMemory) (offset byteCount : ℕ) :
    PagesMarked memory (memory.noteExclusiveObservation offset byteCount) Nothing := by
  unfold noteExclusiveObservation
  split <;> exact .of_eq rfl rfl rfl

theorem unmarked_noteGranule (noted : GuestMemory × U64) (granule : ℕ) :
    PagesMarked noted.1 (noteGranule noted granule).1 Nothing := by
  unfold noteGranule
  dsimp only
  split
  · exact .refl _
  · split <;> exact .of_eq rfl rfl rfl

theorem unmarked_noteGranulesOfPage (first last : ℕ) (noted : GuestMemory × U64) (page : ℕ) :
    PagesMarked noted.1 (noteGranulesOfPage first last noted page).1 Nothing := by
  unfold noteGranulesOfPage
  split
  · exact .refl _
  · exact .foldl unmarked_noteGranule _ noted

theorem unmarked_noteExclusiveWriteGeneration (memory : GuestMemory) (offset byteCount : ℕ) :
    PagesMarked memory (memory.noteExclusiveWriteGeneration offset byteCount) Nothing := by
  unfold noteExclusiveWriteGeneration
  split
  · exact @PagesMarked.foldl _ _ Prod.fst _ (unmarked_noteGranulesOfPage _ _) _ (memory, 0#64)
  · exact .refl _

theorem unmarked_notePageWriteGeneration (memory : GuestMemory) (offset byteCount : ℕ) :
    PagesMarked memory (memory.notePageWriteGeneration offset byteCount) Nothing := by
  unfold notePageWriteGeneration
  split <;> exact .of_eq rfl rfl rfl

theorem unmarked_noteCodeWrite (memory : GuestMemory) (touchesCode : Bool) (offset byteCount : ℕ) :
    PagesMarked memory (memory.noteCodeWrite touchesCode offset byteCount) Nothing := by
  unfold noteCodeWrite
  split
  · exact (unmarked_notePageWriteGeneration memory offset byteCount).before (.of_eq rfl rfl rfl)
  · exact .refl _

theorem unmarked_noteDmaRange (memory : GuestMemory) (offset byteCount : ℕ) :
    PagesMarked memory (memory.noteDmaRange offset byteCount) Nothing := by
  have hnoted := unmarked_noteExclusiveWriteGeneration memory offset byteCount
  unfold noteDmaRange
  dsimp only
  split
  · exact hnoted.before (unmarked_notePageWriteGeneration _ offset byteCount)
  · exact hnoted

theorem unmarked_dmaWriteOwned (memory : GuestMemory) (offset : ℕ) (data : List (BitVec 8)) :
    PagesMarked memory (memory.dmaWriteOwned offset data) Nothing := by
  unfold dmaWriteOwned dmaWriteOwnedComplete
  split
  · have hnoted := unmarked_noteDmaRange (memory.writeBytes offset data) offset data.length
    have hwritten : PagesMarked memory (memory.writeBytes offset data) Nothing := .of_eq rfl rfl rfl
    split
    · dsimp only
      split
      · exact (hwritten.before hnoted).before (.of_eq rfl rfl rfl)
      · exact hwritten.before hnoted
    · exact hwritten
  · exact .refl _

theorem unmarked_dmaWriteRectOwned (memory : GuestMemory) (rect : DmaRect) :
    PagesMarked memory (memory.dmaWriteRectOwned rect) Nothing := by
  have hcopied := @PagesMarked.foldl _ _ id (copyRectChunk rect.host)
    (fun _ _ => .of_eq rfl rfl rfl) rect.chunks.1 memory
  have hnoted := @PagesMarked.foldl _ _ id
    (fun (memory : GuestMemory) (chunk : RectChunk) =>
      memory.noteDmaRange chunk.guestOffset chunk.byteCount)
    (fun memory chunk => unmarked_noteDmaRange memory _ _) rect.chunks.1
    (rect.chunks.1.foldl (copyRectChunk rect.host) memory)
  unfold dmaWriteRectOwned
  split
  · dsimp only
    split
    · split
      · exact (hcopied.before hnoted).before (.of_eq rfl rfl rfl)
      · exact hcopied.before hnoted
    · exact hcopied
  · exact .refl _

theorem unmarked_deviceWrite (memory : GuestMemory) (offset : ℕ) (data : List (BitVec 8)) :
    PagesMarked memory (memory.deviceWrite offset data) Nothing := by
  unfold deviceWrite noteDeviceWrite
  split
  · have hwritten : PagesMarked memory (memory.writeBytes offset data) Nothing := .of_eq rfl rfl rfl
    split
    · exact ((hwritten.before (unmarked_noteHostObservation _ _ _)).before
        (unmarked_noteExclusiveWriteGeneration _ _ _)).before (unmarked_noteCodeWrite _ _ _ _)
    · exact hwritten
  · exact .refl _

/-! ## Operations that mark -/

/-- The pages of a range. -/
def RangePages (offset byteCount : ℕ) (page : ℕ) : Prop :=
  firstPage offset ≤ page ∧ page ≤ lastPage offset byteCount

theorem pagesMarked_markDirty (h : memory.HasRange offset byteCount) :
    PagesMarked memory (memory.markDirty offset byteCount) (RangePages offset byteCount) := by
  rw [GuestMemory.markDirty, if_pos h]
  exact ⟨rfl, rfl, fun page ht => if_pos ht, fun page ht => if_neg ht⟩

theorem pagesMarked_noteWrite (h : memory.HasRange offset byteCount) :
    PagesMarked memory (memory.noteWrite offset byteCount) (RangePages offset byteCount) := by
  rw [noteWrite, if_pos h]
  exact ((pagesMarked_markDirty h).after (unmarked_noteExclusiveWriteGeneration _ _ _)).after
    (unmarked_noteCodeWrite _ _ _ _)

theorem pagesMarked_hostWrite {data : List (BitVec 8)} (h : memory.HasRange offset data.length) :
    PagesMarked memory (memory.hostWrite offset data) (RangePages offset data.length) := by
  rw [hostWrite, if_pos h]
  have hobserved := unmarked_noteHostObservation memory offset data.length
  have hwritten : PagesMarked memory
      ((memory.noteHostObservation offset data.length).writeBytes offset data) Nothing :=
    hobserved.before (.of_eq rfl rfl rfl)
  exact hwritten.before (pagesMarked_noteWrite (h.of_size hwritten.size))

theorem pagesMarked_storeU16Release {value : U64} (h : memory.HasRange offset 2) (heven : offset % 2 = 0) :
    PagesMarked memory (memory.storeU16Release offset value) (RangePages offset 2) := by
  have hopen : ¬ (memory.size < offset ∨ memory.size - offset < 2 ∨ offset % 2 ≠ 0) := by
    simp only [HasRange] at h
    omega
  rw [storeU16Release, if_neg hopen]
  have hobserved := unmarked_noteHostObservation memory offset 2
  exact (hobserved.before (pagesMarked_noteWrite (h.of_size hobserved.size))).after
    (unmarked_storeValue _ _ _ _)

/-! ## The fast path and its cache -/

def EpochsBounded (memory : GuestMemory) : Prop :=
  ∀ page, memory.pageEpochs page ≤ memory.currentEpoch

/-- No hot entry is ahead of its page's stamp, now or when the current epoch reaches it. -/
def HotAgrees (memory : GuestMemory) (dirtyHot : ℕ → DirtyHotEntry) : Prop :=
  ∀ slot, (dirtyHot slot).valid = true → (dirtyHot slot).epoch < memory.currentEpoch ∨
    (dirtyHot slot).epoch ≤ memory.pageEpochs (dirtyHot slot).page

theorem PagesMarked.bounded (h : PagesMarked memory memory' Touched) (hb : EpochsBounded memory) :
    EpochsBounded memory' := by
  intro page
  rw [h.epoch]
  by_cases ht : Touched page
  · rw [h.marked page ht]
    exact BitVec.le_refl _
  · rw [h.kept page ht]
    exact hb page

theorem PagesMarked.hotAgrees {dirtyHot : ℕ → DirtyHotEntry} (h : PagesMarked memory memory' Touched)
    (hb : EpochsBounded memory) (hh : HotAgrees memory dirtyHot) : HotAgrees memory' dirtyHot := by
  intro slot hvalid
  rw [h.epoch]
  rcases hh slot hvalid with hlt | hle
  · exact .inl hlt
  · refine .inr ?_
    by_cases ht : Touched (dirtyHot slot).page
    · rw [h.marked _ ht]
      exact BitVec.le_trans hle (hb _)
    · rw [h.kept _ ht]
      exact hle

theorem HotAgrees.update {dirtyHot : ℕ → DirtyHotEntry} {slot : ℕ} {entry : DirtyHotEntry}
    (h : HotAgrees memory dirtyHot)
    (hentry : entry.epoch < memory.currentEpoch ∨ entry.epoch ≤ memory.pageEpochs entry.page) :
    HotAgrees memory (Function.update dirtyHot slot entry) := by
  intro other
  by_cases heq : other = slot
  · rw [heq, Function.update_self]
    exact fun _ => hentry
  · rw [Function.update_of_ne heq]
    exact h other

namespace FastMemory

variable {fast fast' fast'' : FastMemory}

def Agrees (fast : FastMemory) : Prop :=
  EpochsBounded fast.memory ∧ HotAgrees fast.memory fast.dirtyHot

/-- The step marks exactly the pages of `Touched`, provided the cache was right before. -/
def Marks (fast fast' : FastMemory) (Touched : ℕ → Prop) : Prop :=
  fast.Agrees → PagesMarked fast.memory fast'.memory Touched ∧ fast'.Agrees

theorem Marks.trans (h : fast.Marks fast' Touched) (h' : fast'.Marks fast'' Touched') :
    fast.Marks fast'' fun page => Touched page ∨ Touched' page := by
  intro hagrees
  obtain ⟨hpages, hagrees⟩ := h hagrees
  obtain ⟨hpages', hagrees⟩ := h' hagrees
  exact ⟨hpages.trans hpages', hagrees⟩

theorem Marks.congr (h : fast.Marks fast' Touched) (hiff : ∀ page, Touched page ↔ Touched' page) :
    fast.Marks fast' Touched' := by
  intro hagrees
  obtain ⟨hpages, hagrees⟩ := h hagrees
  exact ⟨hpages.congr hiff, hagrees⟩

theorem marks_of_pagesMarked (h : PagesMarked fast.memory memory' Touched) :
    fast.Marks ⟨memory', fast.dirtyHot⟩ Touched :=
  fun hagrees => ⟨h, h.bounded hagrees.1, h.hotAgrees hagrees.1 hagrees.2⟩

theorem Marks.before (h : PagesMarked fast.memory middle Nothing)
    (h' : Marks ⟨middle, fast.dirtyHot⟩ fast' Touched) : fast.Marks fast' Touched :=
  ((marks_of_pagesMarked h).trans h').congr fun _ => or_iff_right fun ht => ht

theorem Marks.after (h : fast.Marks fast' Touched) (h' : PagesMarked fast'.memory memory' Nothing) :
    fast.Marks ⟨memory', fast'.dirtyHot⟩ Touched :=
  (h.trans (marks_of_pagesMarked h')).congr fun _ => or_iff_left fun ht => ht

theorem marks_markDirtyPage (fast : FastMemory) (page : ℕ) :
    fast.Marks (markDirtyPage fast.memory.currentEpoch fast page) (· = page) := by
  intro hagrees
  obtain ⟨hbounded, hhot⟩ := hagrees
  unfold markDirtyPage
  dsimp only
  split
  · rename_i hhit
    obtain ⟨hvalid, hpage, hepoch⟩ := hhit
    have hstamp : fast.memory.pageEpochs page = fast.memory.currentEpoch := by
      have hle := hbounded page
      have hentry := hhot _ hvalid
      rw [hpage, hepoch] at hentry
      rcases hentry with hlt | hge
      · exact absurd hlt (BitVec.lt_irrefl _)
      · exact BitVec.le_antisymm hle hge
    refine ⟨⟨rfl, rfl, fun p ht => ?_, fun p ht => rfl⟩, hbounded, hhot⟩
    rw [ht, hstamp]
  · have hpages : PagesMarked fast.memory
        { fast.memory with
          pageEpochs := Function.update fast.memory.pageEpochs page fast.memory.currentEpoch }
        (· = page) := by
      refine ⟨rfl, rfl, fun p ht => ?_, fun p ht => Function.update_of_ne ht _ _⟩
      rw [ht]
      exact Function.update_self _ _ _
    refine ⟨hpages, hpages.bounded hbounded, (hpages.hotAgrees hbounded hhot).update (.inr ?_)⟩
    rw [hpages.marked page rfl]
    exact BitVec.le_refl _

theorem marks_markDirtyPages (pages : List ℕ) (fast : FastMemory) (epoch : U64)
    (hepoch : epoch = fast.memory.currentEpoch) :
    fast.Marks (pages.foldl (markDirtyPage epoch) fast) (· ∈ pages) := by
  induction pages generalizing fast with
  | nil =>
    intro hagrees
    exact ⟨(PagesMarked.refl _).congr fun page => by simp [Nothing], hagrees⟩
  | cons page rest ih =>
    intro hagrees
    have hfirst := marks_markDirtyPage fast page hagrees
    rw [← hepoch] at hfirst
    obtain ⟨hrest, hagrees'⟩ := ih (markDirtyPage epoch fast page)
      (hepoch.trans hfirst.1.epoch.symm) hfirst.2
    exact ⟨(hfirst.1.trans hrest).congr fun p => by simp, hagrees'⟩

theorem marks_markDirty (fast : FastMemory) (h : fast.memory.HasRange offset byteCount) :
    fast.Marks (fast.markDirty offset byteCount) (RangePages offset byteCount) := by
  rw [markDirty, if_pos h]
  have hdirtied := (marks_markDirtyPages (indexRange (firstPage offset) (lastPage offset byteCount))
    fast _ rfl).congr fun page => mem_indexRange
  exact (hdirtied.after (unmarked_noteExclusiveWriteGeneration _ _ _)).after
    (unmarked_noteCodeWrite _ _ _ _)

theorem marks_store (fast : FastMemory) (h : fast.memory.HasRange offset width) (value : U64) :
    fast.Marks (fast.store offset width value) (RangePages offset width) :=
  .before (unmarked_storeValue _ _ _ _)
    (marks_markDirty (fast.storeValue offset width value) (h.of_size rfl))

theorem marks_markDirty_twice (fast : FastMemory) {first second : ℕ}
    (hfirst : fast.memory.HasRange first width) (hsecond : fast.memory.HasRange second width) :
    fast.Marks ((fast.markDirty first width).markDirty second width)
      fun page => RangePages first width page ∨ RangePages second width page :=
  (marks_markDirty fast hfirst).trans
    (marks_markDirty _ (hsecond.of_size (markDirty_size _ _ _)))

theorem marks_storePair (fast : FastMemory) {first second : ℕ} (hfirst : fast.memory.HasRange first width)
    (hsecond : fast.memory.HasRange second width) (firstValue secondValue : U64) :
    fast.Marks (fast.storePair first second width firstValue secondValue)
      fun page => RangePages first width page ∨ RangePages second width page := by
  have hstored : PagesMarked fast.memory ((fast.storeValue first width firstValue).storeValue second
      width secondValue).memory Nothing := .of_eq rfl rfl rfl
  unfold storePair
  dsimp only
  split
  · rename_i hnext
    simp only [HasRange] at hfirst hsecond
    have hwhole : fast.memory.HasRange first (2 * width) := by
      simp only [HasRange]
      omega
    refine (Marks.before hstored (marks_markDirty _ (hwhole.of_size rfl))).congr fun page => ?_
    simp only [RangePages, firstPage, lastPage, fastPageSize]
    omega
  · exact .before hstored (marks_markDirty_twice _ (hfirst.of_size rfl) (hsecond.of_size rfl))

theorem marks_writeSpans (data : ℕ → ℕ → List (BitVec 8)) (spans : List WriteSpan) (fast : FastMemory)
    (h : ∀ span ∈ spans, fast.memory.HasRange span.offset span.byteCount) :
    fast.Marks (writeSpans data fast spans)
      fun page => ∃ span ∈ spans, RangePages span.offset span.byteCount page := by
  induction spans generalizing fast with
  | nil =>
    intro hagrees
    exact ⟨(PagesMarked.refl _).congr fun page => by simp [Nothing], hagrees⟩
  | cons span rest ih =>
    have hspan := h span (by simp)
    have hwritten : PagesMarked fast.memory (fast.writeBytes span.offset
        (data span.sourceOffset span.byteCount)).memory Nothing := .of_eq rfl rfl rfl
    have hhead := FastMemory.Marks.before hwritten (marks_markDirty (fast.writeBytes span.offset
      (data span.sourceOffset span.byteCount)) (hspan.of_size rfl))
    have hrest := ih ((fast.writeBytes span.offset
      (data span.sourceOffset span.byteCount)).markDirty span.offset span.byteCount)
      fun other ho => (h other (by simp [ho])).of_size (markDirty_size _ _ _)
    exact (hhead.trans hrest).congr fun page => by simp

theorem marks_commitUnobservedWriteHot (fast : FastMemory) (h : fast.memory.HasRange offset width)
    (hwidth : fastWidthSupported width = true) (haligned : offset % width = 0) (value : U64) :
    fast.Marks ((fast.storeValue offset width value).commitUnobservedWriteHot (firstPage offset) offset
      width) (RangePages offset width) := by
  refine .before (unmarked_storeValue _ offset width value) ?_
  change Marks (fast.storeValue offset width value) _ _
  unfold commitUnobservedWriteHot
  split
  · exact marks_markDirty _ (h.of_size rfl)
  · refine (marks_markDirtyPage _ (firstPage offset)).congr fun page => ?_
    simp only [fastWidthSupported, Bool.or_eq_true, beq_iff_eq] at hwidth
    simp only [RangePages, firstPage, lastPage, fastPageSize]
    rcases hwidth with ((rfl | rfl) | rfl) | rfl <;> omega

end FastMemory

end Pinecone
