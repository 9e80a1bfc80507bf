import Pinecone.WriteNotes

/-! A write of a piece inside one page, at once and byte by byte. -/

namespace Pinecone

open GuestMemory FastMemory

namespace FastMemory

variable {fast fast' : FastMemory} {epoch : U64} {page : ℕ}

theorem markDirtyPage_congr (h : fast.dirtyMarks = fast'.dirtyMarks) :
    (markDirtyPage epoch fast page).dirtyMarks = (markDirtyPage epoch fast' page).dirtyMarks := by
  obtain ⟨hepochs, hcache⟩ := Prod.mk.inj h
  unfold markDirtyPage
  dsimp only
  rw [hcache]
  split
  · exact h
  · simp only [dirtyMarks, hepochs]

theorem markDirtyPage_of_hit (h : fast.dirtyHot (page % fastDirtyHotCount) = ⟨page, epoch, true⟩) :
    markDirtyPage epoch fast page = fast := by
  unfold markDirtyPage
  dsimp only
  rw [h, if_pos ⟨rfl, rfl, rfl⟩]

theorem markDirtyPage_twice : (markDirtyPage epoch (markDirtyPage epoch fast page) page).dirtyMarks =
    (markDirtyPage epoch fast page).dirtyMarks := by
  have hentry : (markDirtyPage epoch fast page).dirtyHot (page % fastDirtyHotCount) =
      ⟨page, epoch, true⟩ ∨ markDirtyPage epoch fast page = fast := by
    unfold markDirtyPage
    dsimp only
    split
    · exact .inr rfl
    · exact .inl (by simp)
  rcases hentry with hentry | hsame
  · rw [markDirtyPage_of_hit hentry]
  · rw [hsame, hsame]

end FastMemory

namespace FastWrites

variable {w w' left right left' right' start : FastWrites} {offset : ℕ} {data : List (BitVec 8)}

/-- What a write inside one page comes to. -/
structure PageWrite (w w' : FastWrites) (offset : ℕ) (data : List (BitVec 8)) : Prop where
  bytes : w'.memory.bytes = (w.memory.writeBytes offset data).bytes
  notes : NotesWrite w.memory w'.memory (GuestMemorySpan.Contains ⟨offset, data.length⟩)
  marks : w'.fast.dirtyMarks =
    (markDirtyPage w.memory.currentEpoch w.fast (firstPage offset)).dirtyMarks
  invalidated : ∃ spans, w'.invalidated = w.invalidated ++ spans ∧ ∀ byte,
    (∃ span ∈ spans, span.Contains byte) ↔ w.memory.codePageBits (firstPage offset) = true ∧
      GuestMemorySpan.Contains ⟨offset, data.length⟩ byte

theorem writeSpan_pageWrite (hrange : w.memory.HasRange offset data.length)
    (hpage : lastPage offset data.length = firstPage offset) :
    PageWrite w (w.writeSpan offset data) offset data := by
  let written := w.writeBytes offset data
  have hwritten : written.memory.HasRange offset data.length := hrange
  obtain ⟨hnotes, hbytes, hmarks⟩ := @markDirty_page written.fast _ _ hwritten hpage
  have hplain : NotesWrite w.memory written.memory (fun _ => False) :=
    .plain w.memory (w.memory.writeBytes offset data).bytes w.memory.pageEpochs
  refine ⟨hbytes, (hplain.trans hnotes).congr fun byte => by simp, hmarks.trans ?_, ?_⟩
  · exact markDirtyPage_congr rfl
  · have hcode : written.memory.rangeMayContainCode offset data.length =
        w.memory.codePageBits (firstPage offset) := by
      rw [rangeMayContainCode, if_pos hwritten, hpage, indexRange_self]
      simp only [List.any_cons, List.any_nil, Bool.or_false]
      rfl
    by_cases htouches : w.memory.codePageBits (firstPage offset) = true
    · refine ⟨[⟨offset, data.length⟩], ?_, fun byte => by simp [htouches]⟩
      have hmay : written.memory.rangeMayContainCode offset data.length = true := hcode.trans htouches
      exact if_pos hmay
    · refine ⟨[], ?_, fun byte => by simp [htouches]⟩
      have hmay : ¬ written.memory.rangeMayContainCode offset data.length = true := by
        rw [hcode]
        exact htouches
      rw [List.append_nil]
      exact if_neg hmay

theorem store_byte (offset : ℕ) (byte : BitVec 8) :
    w.store offset 1 (byte.setWidth 64) = w.writeSpan offset [byte] := by
  have hvalue : littleEndian 1 (byte.setWidth 64) = [byte] := by
    simp [littleEndian, BitVec.setWidth_setWidth_of_le]
  rw [store, writeSpan, writeBytes, FastMemory.storeValue, GuestMemory.storeValue, hvalue]
  rfl

/-- The bytes of a piece, one by one. -/
def storeBytes : ℕ → List (BitVec 8) → FastWrites → FastWrites
  | _, [], w => w
  | offset, byte :: rest, w => storeBytes (offset + 1) rest (w.store offset 1 (byte.setWidth 64))

theorem writeBytes_cons (memory : GuestMemory) (offset : ℕ) (byte : BitVec 8)
    (rest : List (BitVec 8)) :
    ((memory.writeBytes offset [byte]).writeBytes (offset + 1) rest).bytes =
      (memory.writeBytes offset (byte :: rest)).bytes := by
  funext index
  simp only [GuestMemory.writeBytes, List.length_cons, List.length_nil]
  by_cases hself : index = offset
  · subst hself
    have hin : index ≤ index ∧ index < index + (rest.length + 1) := by omega
    have hout : ¬ (index + 1 ≤ index ∧ index < index + 1 + rest.length) := by omega
    rw [if_neg hout, if_pos hin, if_pos (by omega)]
    simp
  · by_cases hrest : offset + 1 ≤ index ∧ index < offset + 1 + rest.length
    · have hin : offset ≤ index ∧ index < offset + (rest.length + 1) := by omega
      have hindex : index - offset = index - (offset + 1) + 1 := by omega
      rw [if_pos hrest, if_pos hin, hindex, List.getD_cons_succ]
    · have hout : ¬ (offset ≤ index ∧ index < offset + (rest.length + 1)) := by omega
      rw [if_neg hrest, if_neg hout, if_neg (by omega)]

theorem PageWrite.cons {byte : BitVec 8} {rest : List (BitVec 8)}
    (h : PageWrite w left offset [byte]) (h' : PageWrite left right (offset + 1) rest)
    (hpage : firstPage (offset + 1) = firstPage offset) :
    PageWrite w right offset (byte :: rest) := by
  have hcontains : ∀ index, (GuestMemorySpan.Contains ⟨offset, [byte].length⟩ index ∨
      GuestMemorySpan.Contains ⟨offset + 1, rest.length⟩ index) ↔
      GuestMemorySpan.Contains ⟨offset, (byte :: rest).length⟩ index := by
    intro index
    simp only [GuestMemorySpan.Contains, List.length_cons, List.length_nil]
    omega
  refine ⟨?_, (h.notes.trans h'.notes).congr hcontains, ?_, ?_⟩
  · rw [h'.bytes, ← writeBytes_cons]
    simp only [GuestMemory.writeBytes, h.bytes]
  · rw [h'.marks, hpage, h.notes.currentEpoch, markDirtyPage_congr h.marks, markDirtyPage_twice]
  · obtain ⟨spans, hspans, hcover⟩ := h.invalidated
    obtain ⟨spans', hspans', hcover'⟩ := h'.invalidated
    refine ⟨spans ++ spans', by rw [hspans', hspans, List.append_assoc], fun index => ?_⟩
    rw [h.notes.codePageBits, hpage] at hcover'
    have hboth : (∃ span ∈ spans ++ spans', span.Contains index) ↔
        (∃ span ∈ spans, span.Contains index) ∨ ∃ span ∈ spans', span.Contains index := by
      simp only [List.mem_append, or_and_right, exists_or]
    rw [hboth, hcover, hcover', ← and_or_left, hcontains]

theorem storeBytes_pageWrite (hne : data ≠ []) (hrange : w.memory.HasRange offset data.length)
    (hpage : lastPage offset data.length = firstPage offset) :
    PageWrite w (storeBytes offset data w) offset data := by
  induction data generalizing offset w with
  | nil => exact absurd rfl hne
  | cons byte rest ih =>
    have hfirst : w.memory.HasRange offset [byte].length := ⟨by simp, hrange.2.1, by
      have hlt := hrange.2.1
      simp only [List.length_cons, List.length_nil]
      omega⟩
    have hsingle : lastPage offset [byte].length = firstPage offset := by
      simp [lastPage, firstPage]
    have hwritten : PageWrite w (w.store offset 1 (byte.setWidth 64)) offset [byte] := by
      rw [store_byte]
      exact writeSpan_pageWrite hfirst hsingle
    cases rest with
    | nil => exact hwritten
    | cons next rest =>
      have hnext : firstPage (offset + 1) = firstPage offset := by
        simp only [lastPage, firstPage, fastPageSize, List.length_cons] at hpage ⊢
        omega
      refine hwritten.cons (ih (by simp) ?_ ?_) hnext
      · obtain ⟨-, hlt, hle⟩ := hrange
        simp only [List.length_cons] at hle
        refine HasRange.of_size hwritten.notes.size ⟨by simp, ?_, ?_⟩
        · omega
        · simp only [List.length_cons]
          omega
      · rw [hnext, ← hpage]
        simp only [lastPage, List.length_cons]
        congr 1
        omega

/-- Two ways to the same bytes, dirty pages and notes: those generations that one draws for pages
with code and for watched granules are drawn by the other too, and the block cache is told of the
same bytes. -/
structure SameWrites (start left right : FastWrites) : Prop where
  bytes : left.memory.bytes = right.memory.bytes
  marks : left.fast.dirtyMarks = right.fast.dirtyMarks
  notes : ∃ Written, NotesWrite start.memory left.memory Written ∧
    NotesWrite start.memory right.memory Written
  invalidated : ∃ spans spans', left.invalidated = start.invalidated ++ spans ∧
    right.invalidated = start.invalidated ++ spans' ∧
    ∀ byte, (∃ span ∈ spans, span.Contains byte) ↔ ∃ span ∈ spans', span.Contains byte

theorem SameWrites.refl : SameWrites start start start := by
  have hplain : NotesWrite start.memory start.memory (fun _ => False) :=
    .plain start.memory start.memory.bytes start.memory.pageEpochs
  exact ⟨rfl, rfl, ⟨_, hplain, hplain⟩, [], [], by simp, by simp, by simp⟩

theorem SameWrites.step (h : SameWrites start left right) (hleft : PageWrite left left' offset data)
    (hright : PageWrite right right' offset data) : SameWrites start left' right' := by
  obtain ⟨Written, hnotes, hnotes'⟩ := h.notes
  obtain ⟨spans, spans', hspans, hspans', hsame⟩ := h.invalidated
  obtain ⟨more, hmore, hcover⟩ := hleft.invalidated
  obtain ⟨more', hmore', hcover'⟩ := hright.invalidated
  have hcode : left.memory.codePageBits = right.memory.codePageBits :=
    hnotes.codePageBits.trans hnotes'.codePageBits.symm
  have hepoch : left.memory.currentEpoch = right.memory.currentEpoch :=
    hnotes.currentEpoch.trans hnotes'.currentEpoch.symm
  refine ⟨?_, ?_, ⟨_, hnotes.trans hleft.notes, hnotes'.trans hright.notes⟩, spans ++ more,
    spans' ++ more', ?_, ?_, fun byte => ?_⟩
  · rw [hleft.bytes, hright.bytes]
    simp only [GuestMemory.writeBytes, h.bytes]
  · rw [hleft.marks, hright.marks, hepoch, markDirtyPage_congr h.marks]
  · rw [hmore, hspans, List.append_assoc]
  · rw [hmore', hspans', List.append_assoc]
  · have hsplit : ∀ a b : List GuestMemorySpan, (∃ span ∈ a ++ b, span.Contains byte) ↔
        (∃ span ∈ a, span.Contains byte) ∨ ∃ span ∈ b, span.Contains byte := by
      intro a b
      simp only [List.mem_append, or_and_right, exists_or]
    rw [hsplit, hsplit, hsame, hcover, hcover', hcode]

end FastWrites

end Pinecone
