import Pinecone.ExclusiveWrites

/-! `avz_guest_memory_dma_rect_owned` with its `size_t` arithmetic: a step is `none` where a sum, a
difference or a product would wrap. -/

namespace Pinecone

/-- `SIZE_MAX`. -/
def sizeMax : ℕ := 2 ^ 64 - 1

def sizeAdd (a b : ℕ) : Option ℕ := if a + b ≤ sizeMax then some (a + b) else none

def sizeSub (a b : ℕ) : Option ℕ := if b ≤ a then some (a - b) else none

def sizeMul (a b : ℕ) : Option ℕ := if a * b ≤ sizeMax then some (a * b) else none

theorem sizeAdd_of_le {a b : ℕ} (h : a + b ≤ sizeMax) : sizeAdd a b = some (a + b) := if_pos h

theorem sizeSub_of_le {a b : ℕ} (h : b ≤ a) : sizeSub a b = some (a - b) := if_pos h

theorem sizeMul_of_le {a b : ℕ} (h : a * b ≤ sizeMax) : sizeMul a b = some (a * b) := if_pos h

/-- The search for the span that holds `rowOffset`. -/
def seekSpan (rowOffset : ℕ) : List GuestMemorySpan → ℕ → Option (List GuestMemorySpan × ℕ)
  | [], start => some ([], start)
  | span :: rest, start => do
    let stop ← sizeAdd start span.byteCount
    if stop ≤ rowOffset then seekSpan rowOffset rest stop else some (span :: rest, start)

section Loops

variable {σ : Type} (visit : σ → RectChunk → σ)

/-- The loop over the pieces of a row, which copies them or notes them. -/
def rowLoop (rowOffset rowByteCount : ℕ) : ℕ → List GuestMemorySpan → ℕ → ℕ → σ → Option (ℕ × σ)
  | 0, _, _, _, _ => none
  | _ + 1, [], _, copied, state => some (copied, state)
  | fuel + 1, span :: rest, start, copied, state =>
    if copied < rowByteCount then do
      let position ← sizeAdd rowOffset copied
      let withinSpan ← sizeSub position start
      let available ← sizeSub span.byteCount withinSpan
      let left ← sizeSub rowByteCount copied
      let byteCount := if available < left then available else left
      let guestOffset ← sizeAdd span.offset withinSpan
      let copied ← sizeAdd copied byteCount
      let reached ← sizeAdd withinSpan byteCount
      if reached = span.byteCount then
        let start ← sizeAdd start span.byteCount
        rowLoop rowOffset rowByteCount fuel rest start copied (visit state ⟨guestOffset, position, byteCount⟩)
      else
        rowLoop rowOffset rowByteCount fuel (span :: rest) start copied
          (visit state ⟨guestOffset, position, byteCount⟩)
    else some (copied, state)

/-- The loop over the rows. The one that copies ends at a row that comes up short. -/
def rowsLoop (copies : Bool) (logicalOffset rowByteCount rowStride : ℕ) :
    List ℕ → List GuestMemorySpan → ℕ → σ → Option (Bool × σ)
  | [], _, _, state => some (true, state)
  | row :: rows, spans, start, state => do
    let rowStart ← sizeMul row rowStride
    let rowOffset ← sizeAdd logicalOffset rowStart
    let (spans, start) ← seekSpan rowOffset spans start
    let (copied, state) ← rowLoop visit rowOffset rowByteCount (spans.length + 1) spans start 0 state
    if copies ∧ copied ≠ rowByteCount then some (false, state)
    else rowsLoop copies logicalOffset rowByteCount rowStride rows spans start state

end Loops

/-- The loop that adds up the spans, `none` inside when one of them is refused. -/
def spansByteCount (memory : GuestMemory) : List GuestMemorySpan → ℕ → Option (Option ℕ)
  | [], total => some (some total)
  | span :: rest, total =>
    if span.byteCount = 0 ∨ memory.size ≤ span.offset then some none
    else do
      let available ← sizeSub memory.size span.offset
      if available < span.byteCount then some none
      else
        let room ← sizeSub sizeMax span.byteCount
        if room < total then some none
        else
          let total ← sizeAdd total span.byteCount
          spansByteCount memory rest total

/-- The checks that open the routine. -/
def DmaRect.checks (rect : DmaRect) (memory : GuestMemory) : Option Bool :=
  if rect.spans = [] ∨ rect.rowByteCount = 0 ∨ rect.rowCount = 0 ∨ rect.rowStride < rect.rowByteCount then
    some false
  else do
    let rows ← sizeSub rect.rowCount 1
    let room ← sizeSub sizeMax rect.logicalOffset
    if room / rect.rowStride < rows then some false
    else
      let rowsByteCount ← sizeMul rows rect.rowStride
      let finalRowOffset ← sizeAdd rect.logicalOffset rowsByteCount
      let room ← sizeSub sizeMax finalRowOffset
      if room < rect.rowByteCount then some false
      else
        let required ← sizeAdd finalRowOffset rect.rowByteCount
        if rect.host.length < required then some false
        else
          match ← spansByteCount memory rect.spans 0 with
          | none => some false
          | some logical => some (decide (required ≤ logical))

/-- `memcpy` of a piece to the host. -/
def GuestMemory.copyToHost (memory : GuestMemory) (host : List (BitVec 8)) (chunk : RectChunk) :
    List (BitVec 8) :=
  host.take chunk.hostOffset ++ (List.range' chunk.guestOffset chunk.byteCount).map memory.bytes ++
    host.drop (chunk.hostOffset + chunk.byteCount)

/-- The notes of a piece, and whether one of them has touched code. -/
def GuestMemory.noteRectChunk (noted : GuestMemory × Bool) (chunk : RectChunk) : GuestMemory × Bool :=
  let memory := noted.1.noteExclusiveWriteGeneration chunk.guestOffset chunk.byteCount
  if memory.rangeMayContainCode chunk.guestOffset chunk.byteCount then
    (memory.notePageWriteGeneration chunk.guestOffset chunk.byteCount, true)
  else (memory, noted.2)

/-- `avz_guest_memory_dma_rect_owned`: what it returns, and the memory and the host's bytes after it. -/
def GuestMemory.dmaRectOwned (memory : GuestMemory) (rect : DmaRect) (writeToGuest : Bool) :
    Option (Bool × GuestMemory × List (BitVec 8)) := do
  let accepted ← rect.checks memory
  if accepted = false then some (false, memory, rect.host)
  else if writeToGuest then
    let (copied, written) ← rowsLoop (copyRectChunk rect.host) true rect.logicalOffset rect.rowByteCount
      rect.rowStride (List.range rect.rowCount) rect.spans 0 memory
    if copied = false then some (false, written, rect.host)
    else
      let (_, noted) ← rowsLoop noteRectChunk false rect.logicalOffset rect.rowByteCount rect.rowStride
        (List.range rect.rowCount) rect.spans 0 (written, false)
      if noted.2 then some (true, noted.1.advanceCodeMutationEpoch, rect.host)
      else some (true, noted.1, rect.host)
  else
    let (copied, host) ← rowsLoop memory.copyToHost true rect.logicalOffset rect.rowByteCount rect.rowStride
      (List.range rect.rowCount) rect.spans 0 rect.host
    some (copied, memory, host)

/-! ## No step wraps -/

theorem seekSpan_eq (rowOffset : ℕ) (spans : List GuestMemorySpan) (start : ℕ)
    (hfits : start + totalByteCount spans ≤ sizeMax) :
    seekSpan rowOffset spans start = some (rectSeek rowOffset spans start) := by
  induction spans generalizing start with
  | nil => rfl
  | cons span rest ih =>
    rw [totalByteCount_cons] at hfits
    rw [seekSpan, rectSeek, sizeAdd_of_le (by omega), Option.bind_eq_bind, Option.bind_some]
    split
    · exact ih _ (by omega)
    · rfl

section Loops

variable {σ : Type} {visit : σ → RectChunk → σ} {memory : GuestMemory}

theorem rowLoop_done (rowOffset rowByteCount fuel : ℕ) (spans : List GuestMemorySpan) (start : ℕ) (state : σ) :
    rowLoop visit rowOffset rowByteCount (fuel + 1) spans start rowByteCount state = some (rowByteCount, state) := by
  cases spans with
  | nil => rfl
  | cons span rest => rw [rowLoop, if_neg (Nat.lt_irrefl _)]

theorem rectRow_done (rowOffset rowByteCount : ℕ) (spans : List GuestMemorySpan) (start : ℕ) :
    rectRow rowOffset rowByteCount spans start rowByteCount = ([], rowByteCount) := by
  cases spans with
  | nil => rfl
  | cons span rest => rw [rectRow, if_neg (Nat.lt_irrefl _)]

theorem rowLoop_eq (hsize : memory.size ≤ sizeMax) (rowOffset rowByteCount : ℕ) (spans : List GuestMemorySpan)
    (start copied fuel : ℕ) (state : σ) (hfuel : spans.length < fuel)
    (hspans : ∀ span ∈ spans, memory.HasRange span.offset span.byteCount) (hcopied : copied ≤ rowByteCount)
    (hstart : start ≤ rowOffset + copied)
    (hhead : ∀ span rest, spans = span :: rest → rowOffset + copied < start + span.byteCount)
    (htotal : rowOffset + rowByteCount ≤ start + totalByteCount spans)
    (hfits : start + totalByteCount spans ≤ sizeMax) :
    rowLoop visit rowOffset rowByteCount fuel spans start copied state =
      some (rowByteCount, (rectRow rowOffset rowByteCount spans start copied).1.foldl visit state) := by
  induction spans generalizing start copied fuel state with
  | nil =>
    have hnil : totalByteCount [] = 0 := rfl
    obtain ⟨fuel, rfl⟩ := Nat.exists_eq_add_of_lt hfuel
    have hdone : copied = rowByteCount := by omega
    subst hdone
    rw [rectRow_done]
    exact rowLoop_done _ _ _ _ _ _
  | cons span rest ih =>
    obtain ⟨fuel, rfl⟩ : ∃ more, fuel = more + 1 := ⟨fuel - 1, by omega⟩
    have hspan : memory.HasRange span.offset span.byteCount := hspans span List.mem_cons_self
    have hin := hhead span rest rfl
    rw [totalByteCount_cons] at htotal hfits
    by_cases hmore : copied < rowByteCount
    · obtain ⟨hcount, hoffset, hbytes⟩ := hspan
      rw [rowLoop, if_pos hmore, sizeAdd_of_le (by omega), Option.bind_eq_bind, Option.bind_some,
        sizeSub_of_le hstart, Option.bind_some, sizeSub_of_le (by omega), Option.bind_some,
        sizeSub_of_le hcopied, Option.bind_some, sizeAdd_of_le (by omega), Option.bind_some, rectRow,
        if_pos hmore]
      dsimp only
      generalize hpiece : (if span.byteCount - (rowOffset + copied - start) < rowByteCount - copied then
        span.byteCount - (rowOffset + copied - start) else rowByteCount - copied) = count
      have hle : count ≤ rowByteCount - copied ∧ rowOffset + copied - start + count ≤ span.byteCount ∧
          (count = rowByteCount - copied ∨ rowOffset + copied - start + count = span.byteCount) := by
        split at hpiece <;> omega
      rw [sizeAdd_of_le (by omega), Option.bind_some, sizeAdd_of_le (by omega), Option.bind_some]
      by_cases hend : rowOffset + copied - start + count = span.byteCount
      · rw [if_pos hend, if_pos hend, sizeAdd_of_le (by omega), Option.bind_some]
        refine ih (start + span.byteCount) (copied + count) fuel _ ?_ ?_ (by omega) (by omega) ?_ (by omega)
          (by omega)
        · rw [List.length_cons] at hfuel
          omega
        · exact fun other ho => hspans other (List.mem_cons_of_mem _ ho)
        · intro other tail heq
          have hother := (hspans other (by simp [heq])).1
          omega
      · rw [if_neg hend, if_neg hend]
        have hdone : copied + count = rowByteCount := by omega
        obtain ⟨fuel, rfl⟩ : ∃ more, fuel = more + 1 := ⟨fuel - 1, by
          rw [List.length_cons] at hfuel
          omega⟩
        rw [hdone, rowLoop_done]
        rfl
    · have hdone : copied = rowByteCount := by omega
      subst hdone
      rw [rectRow_done]
      exact rowLoop_done _ _ _ _ _ _

theorem rowsLoop_eq (hsize : memory.size ≤ sizeMax) (copies : Bool) (logicalOffset rowByteCount rowStride : ℕ)
    (rows : List ℕ) (spans : List GuestMemorySpan) (start : ℕ) (state : σ)
    (hspans : ∀ span ∈ spans, memory.HasRange span.offset span.byteCount) (hsorted : rows.Pairwise (· ≤ ·))
    (hstart : ∀ row ∈ rows, start ≤ logicalOffset + row * rowStride)
    (htotal : ∀ row ∈ rows, logicalOffset + row * rowStride + rowByteCount ≤ start + totalByteCount spans)
    (hfits : start + totalByteCount spans ≤ sizeMax) :
    rowsLoop visit copies logicalOffset rowByteCount rowStride rows spans start state =
      some (true, (rectRows logicalOffset rowByteCount rowStride rows spans start).1.foldl visit state) := by
  induction rows generalizing spans start state with
  | nil => rfl
  | cons row rows ih =>
    obtain ⟨hfirst, hrest⟩ := List.pairwise_cons.mp hsorted
    have hrow := htotal row List.mem_cons_self
    obtain ⟨hseek, hmem, heq, hhead⟩ := rectSeek_spec (logicalOffset + row * rowStride) spans start
      (hstart row List.mem_cons_self)
    have hsub := fun span hs => hspans span (hmem span hs)
    have hdone := (rectRow_spec memory (logicalOffset + row * rowStride) rowByteCount
      (rectSeek (logicalOffset + row * rowStride) spans start).1
      (rectSeek (logicalOffset + row * rowStride) spans start).2 0 hsub (by omega) (by omega)
      (by simpa using hhead) (by rw [heq]; exact hrow)).2
    have hloop := @rowLoop_eq _ visit _ hsize (logicalOffset + row * rowStride) rowByteCount
      (rectSeek (logicalOffset + row * rowStride) spans start).1
      (rectSeek (logicalOffset + row * rowStride) spans start).2 0
      ((rectSeek (logicalOffset + row * rowStride) spans start).1.length + 1) state (Nat.lt_succ_self _) hsub
      (Nat.zero_le _) (by omega) (by simpa using hhead) (by rw [heq]; exact hrow) (by rw [heq]; exact hfits)
    rw [rowsLoop, sizeMul_of_le (by omega), Option.bind_eq_bind, Option.bind_some, sizeAdd_of_le (by omega),
      Option.bind_some, seekSpan_eq _ _ _ hfits, Option.bind_eq_bind, Option.bind_some, rectRows]
    dsimp only
    rw [hloop, Option.bind_eq_bind, Option.bind_some, hdone,
      if_neg (by simp), if_pos rfl, List.foldl_append]
    refine ih _ _ _ hsub hrest (fun other ho => ?_) (fun other ho => ?_) (by rw [heq]; exact hfits)
    · have hlater := Nat.mul_le_mul_right rowStride (hfirst other ho)
      omega
    · rw [heq]
      exact htotal other (List.mem_cons_of_mem _ ho)

end Loops

theorem spansByteCount_eq {memory : GuestMemory} (hsize : memory.size ≤ sizeMax) (spans : List GuestMemorySpan)
    (total : ℕ) :
    ((∀ span ∈ spans, memory.HasRange span.offset span.byteCount) ∧ total + totalByteCount spans ≤ sizeMax →
      spansByteCount memory spans total = some (some (total + totalByteCount spans))) ∧
    (¬ ((∀ span ∈ spans, memory.HasRange span.offset span.byteCount) ∧ total + totalByteCount spans ≤ sizeMax) →
      total ≤ sizeMax → spansByteCount memory spans total = some none) := by
  induction spans generalizing total with
  | nil =>
    refine ⟨fun _ => rfl, fun h htotal => absurd ⟨by simp, htotal⟩ h⟩
  | cons span rest ih =>
    rw [List.forall_mem_cons, totalByteCount_cons, spansByteCount, ← Nat.add_assoc]
    obtain ⟨haccepts, hdeclines⟩ := ih (total + span.byteCount)
    by_cases hrange : memory.HasRange span.offset span.byteCount
    · have hparts := hrange
      obtain ⟨hcount, hoffset, hbytes⟩ := hparts
      rw [if_neg (by omega), sizeSub_of_le (by omega), Option.bind_eq_bind, Option.bind_some, if_neg (by omega),
        sizeSub_of_le (by omega), Option.bind_some]
      by_cases hroom : sizeMax - span.byteCount < total
      · rw [if_pos hroom]
        refine ⟨fun h => absurd h.2 (by omega), fun _ _ => rfl⟩
      · rw [if_neg hroom, sizeAdd_of_le (by omega), Option.bind_some]
        exact ⟨fun h => haccepts ⟨h.1.2, h.2⟩, fun h _ => hdeclines (fun h' => h ⟨⟨hrange, h'.1⟩, h'.2⟩) (by omega)⟩
    · refine ⟨fun h => absurd h.1.1 hrange, fun _ _ => ?_⟩
      by_cases hbefore : span.byteCount = 0 ∨ memory.size ≤ span.offset
      · rw [if_pos hbefore]
      · rw [if_neg hbefore, sizeSub_of_le (by omega), Option.bind_eq_bind, Option.bind_some, if_pos]
        unfold GuestMemory.HasRange at hrange
        omega

theorem DmaRect.checks_eq {memory : GuestMemory} {rect : DmaRect} (hsize : memory.size ≤ sizeMax)
    (hoffset : rect.logicalOffset ≤ sizeMax) : rect.checks memory = some (decide (rect.Accepted memory)) := by
  have hlogical : rect.logicalByteCount = totalByteCount rect.spans := rfl
  unfold DmaRect.checks
  by_cases hempty : rect.spans = [] ∨ rect.rowByteCount = 0 ∨ rect.rowCount = 0 ∨
      rect.rowStride < rect.rowByteCount
  · rw [if_pos hempty, decide_eq_false]
    rintro ⟨hspans, hbytes, hrows, hstride, -⟩
    rcases hempty with h | h | h | h
    · exact hspans h
    · exact hbytes h
    · exact hrows h
    · omega
  · obtain ⟨hspans, hbytes, hrows, hstride⟩ : rect.spans ≠ [] ∧ rect.rowByteCount ≠ 0 ∧ rect.rowCount ≠ 0 ∧
        rect.rowByteCount ≤ rect.rowStride := by
      refine ⟨fun h => hempty (.inl h), ?_, ?_, ?_⟩ <;> omega
    rw [if_neg hempty, sizeSub_of_le (by omega), Option.bind_eq_bind, Option.bind_some, sizeSub_of_le hoffset,
      Option.bind_some]
    have hdivide : (sizeMax - rect.logicalOffset) / rect.rowStride < rect.rowCount - 1 ↔
        sizeMax - rect.logicalOffset < (rect.rowCount - 1) * rect.rowStride :=
      Nat.div_lt_iff_lt_mul (by omega)
    have hrequired : rect.requiredByteCount =
        rect.logicalOffset + (rect.rowCount - 1) * rect.rowStride + rect.rowByteCount := rfl
    have hmax : sizeMax = 2 ^ 64 - 1 := rfl
    have hmul : sizeMul (rect.rowCount - 1) rect.rowStride =
        if (rect.rowCount - 1) * rect.rowStride ≤ sizeMax then some ((rect.rowCount - 1) * rect.rowStride)
        else none := rfl
    generalize (rect.rowCount - 1) * rect.rowStride = rowsByteCount at hrequired hdivide hmul
    by_cases hproduct : (sizeMax - rect.logicalOffset) / rect.rowStride < rect.rowCount - 1
    · have hlarge := hdivide.mp hproduct
      rw [if_pos hproduct, decide_eq_false]
      rintro ⟨-, -, -, -, hrequired', -⟩
      omega
    · have hsmall : rowsByteCount ≤ sizeMax - rect.logicalOffset := Nat.le_of_not_lt fun h => hproduct (hdivide.mpr h)
      rw [if_neg hproduct, hmul, if_pos (by omega), Option.bind_some, sizeAdd_of_le (by omega), Option.bind_some,
        sizeSub_of_le (by omega), Option.bind_some]
      by_cases hroom : sizeMax - (rect.logicalOffset + rowsByteCount) < rect.rowByteCount
      · rw [if_pos hroom, decide_eq_false]
        rintro ⟨-, -, -, -, hrequired', -⟩
        omega
      · rw [if_neg hroom, sizeAdd_of_le (by omega), Option.bind_some, ← hrequired]
        by_cases hhost : rect.host.length < rect.requiredByteCount
        · rw [if_pos hhost, decide_eq_false]
          rintro ⟨-, -, -, -, -, hhost', -⟩
          omega
        · obtain ⟨haccepts, hdeclines⟩ := spansByteCount_eq hsize rect.spans 0
          rw [Nat.zero_add] at haccepts hdeclines
          rw [if_neg hhost]
          by_cases htotal : (∀ span ∈ rect.spans, memory.HasRange span.offset span.byteCount) ∧
              totalByteCount rect.spans ≤ sizeMax
          · rw [haccepts htotal, Option.bind_eq_bind, Option.bind_some]
            refine congrArg some (decide_eq_decide.mpr ⟨fun henough => ?_, fun h => ?_⟩)
            · exact ⟨hspans, hbytes, hrows, hstride, by omega, by omega, htotal.1, by omega, by omega⟩
            · obtain ⟨-, -, -, -, -, -, -, -, henough⟩ := h
              omega
          · rw [hdeclines htotal (Nat.zero_le _), Option.bind_eq_bind, Option.bind_some, decide_eq_false]
            rintro ⟨-, -, -, -, -, -, hranges, hfits, -⟩
            exact htotal ⟨hranges, by omega⟩

end Pinecone
