import Pinecone.GuestMemory

/-! The ranges of dirty pages that a scan reports. -/

namespace Pinecone

structure GuestDirtyRange where
  offset : ℕ
  length : ℕ
  deriving DecidableEq

def GuestDirtyRange.Contains (range : GuestDirtyRange) (byte : ℕ) : Prop :=
  range.offset ≤ byte ∧ byte < range.offset + range.length

instance (range : GuestDirtyRange) (byte : ℕ) : Decidable (range.Contains byte) :=
  inferInstanceAs (Decidable (_ ∧ _))

/-! ## The scan -/

/-- The inner loop: the first page from `page` on that is clean or past the last. -/
def dirtyRunEnd (dirty : ℕ → Bool) (lastPage : ℕ) : ℕ → ℕ → ℕ
  | 0, page => page
  | fuel + 1, page =>
    if lastPage < page then page
    else if dirty page = false then page
    else dirtyRunEnd dirty lastPage fuel (page + 1)

/-- The range of the pages from `runStart` to before `runEnd`, clipped to the request. -/
def clippedRange (offset byteCount runStart runEnd : ℕ) : GuestDirtyRange :=
  let start := max (runStart * fastPageSize) offset
  ⟨start, min (runEnd * fastPageSize) (offset + byteCount) - start⟩

/-- The outer loop. A run that finds no place ends the scan with the whole request. -/
def dirtyRangesFrom (dirty : ℕ → Bool) (lastPage offset byteCount rangeCapacity : ℕ) :
    ℕ → ℕ → List GuestDirtyRange → List GuestDirtyRange
  | 0, _, ranges => ranges
  | fuel + 1, page, ranges =>
    if lastPage < page then ranges
    else if dirty page = false then
      dirtyRangesFrom dirty lastPage offset byteCount rangeCapacity fuel (page + 1) ranges
    else
      let runEnd := dirtyRunEnd dirty lastPage (lastPage + 1 - page) (page + 1)
      if ranges.length = rangeCapacity then [⟨offset, byteCount⟩]
      else
        dirtyRangesFrom dirty lastPage offset byteCount rangeCapacity fuel runEnd
          (ranges ++ [clippedRange offset byteCount page runEnd])

namespace GuestMemory

def dirtyBetween (memory : GuestMemory) (afterEpoch throughEpoch : U64) (page : ℕ) : Bool :=
  afterEpoch < memory.pageEpochs page && memory.pageEpochs page ≤ throughEpoch

/-- `avz_guest_memory_dirty_ranges`. -/
def dirtyRanges (memory : GuestMemory) (offset byteCount : ℕ) (afterEpoch throughEpoch : U64)
    (rangeCapacity : ℕ) : List GuestDirtyRange :=
  if rangeCapacity = 0 ∨ ¬ memory.HasRange offset byteCount ∨ throughEpoch < afterEpoch then []
  else
    let firstPage := firstPage offset
    let lastPage := lastPage offset byteCount
    dirtyRangesFrom (memory.dirtyBetween afterEpoch throughEpoch) lastPage offset byteCount
      rangeCapacity (lastPage + 1 - firstPage) firstPage []

end GuestMemory

/-! ## Maximal runs of dirty pages -/

/-- `runs` are the maximal runs of dirty pages from `firstPage` to `lastPage`, in order. -/
structure DirtyRuns (dirty : ℕ → Bool) (firstPage lastPage : ℕ) (runs : List (ℕ × ℕ)) : Prop where
  within : ∀ run ∈ runs, firstPage ≤ run.1 ∧ run.1 < run.2 ∧ run.2 ≤ lastPage + 1
  marked : ∀ run ∈ runs, ∀ page, run.1 ≤ page → page < run.2 → dirty page = true
  apart : runs.Pairwise fun run next => run.2 < next.1
  cover : ∀ page, firstPage ≤ page → page ≤ lastPage → dirty page = true →
    ∃ run ∈ runs, run.1 ≤ page ∧ page < run.2

variable {dirty : ℕ → Bool} {firstPage lastPage page : ℕ} {runs : List (ℕ × ℕ)}

theorem dirtyRunEnd_spec {fuel : ℕ} (hpage : page ≤ lastPage + 1) (hfuel : lastPage + 1 - page ≤ fuel) :
    page ≤ dirtyRunEnd dirty lastPage fuel page ∧
      dirtyRunEnd dirty lastPage fuel page ≤ lastPage + 1 ∧
      (∀ p, page ≤ p → p < dirtyRunEnd dirty lastPage fuel page → dirty p = true) ∧
      (dirtyRunEnd dirty lastPage fuel page = lastPage + 1 ∨
        dirty (dirtyRunEnd dirty lastPage fuel page) = false) := by
  induction fuel generalizing page with
  | zero =>
    have heq : dirtyRunEnd dirty lastPage 0 page = page := rfl
    rw [heq]
    exact ⟨Nat.le_refl _, hpage, fun p hle hlt => by omega, .inl (by omega)⟩
  | succ fuel ih =>
    unfold dirtyRunEnd
    by_cases hlast : lastPage < page
    · rw [if_pos hlast]
      exact ⟨Nat.le_refl _, hpage, fun p hle hlt => by omega, .inl (by omega)⟩
    · rw [if_neg hlast]
      by_cases hclean : dirty page = false
      · rw [if_pos hclean]
        exact ⟨Nat.le_refl _, hpage, fun p hle hlt => by omega, .inr hclean⟩
      · rw [if_neg hclean]
        obtain ⟨hle, hend, hrun, hstop⟩ := @ih (page + 1) (by omega) (by omega)
        refine ⟨by omega, hend, fun p hp hlt => ?_, hstop⟩
        rcases Nat.eq_or_lt_of_le hp with rfl | hp
        · simpa using hclean
        · exact hrun p hp hlt

theorem DirtyRuns.skip (hclean : dirty page = false) (h : DirtyRuns dirty (page + 1) lastPage runs) :
    DirtyRuns dirty page lastPage runs where
  within := fun run hr => by
    have := h.within run hr
    omega
  marked := h.marked
  apart := h.apart
  cover := fun p hp hlast hdirty => by
    rcases Nat.eq_or_lt_of_le hp with rfl | hp
    · rw [hclean] at hdirty
      cases hdirty
    · exact h.cover p hp hlast hdirty

theorem DirtyRuns.run {runEnd : ℕ} (hlt : page < runEnd) (hend : runEnd ≤ lastPage + 1)
    (hrun : ∀ p, page ≤ p → p < runEnd → dirty p = true)
    (hstop : runEnd = lastPage + 1 ∨ dirty runEnd = false)
    (h : DirtyRuns dirty runEnd lastPage runs) :
    DirtyRuns dirty page lastPage ((page, runEnd) :: runs) where
  within := fun run hr => by
    rcases List.mem_cons.mp hr with rfl | hr
    · exact ⟨Nat.le_refl _, hlt, hend⟩
    · have := h.within run hr
      omega
  marked := fun run hr => by
    rcases List.mem_cons.mp hr with rfl | hr
    · exact hrun
    · exact h.marked run hr
  apart := by
    refine List.pairwise_cons.mpr ⟨fun next hn => ?_, h.apart⟩
    obtain ⟨hle, hnext, hnextEnd⟩ := h.within next hn
    rcases hstop with hstop | hstop
    · dsimp only
      omega
    · refine Nat.lt_of_le_of_ne hle fun heq => ?_
      have hdirty := h.marked next hn next.1 (Nat.le_refl _) hnext
      rw [← heq] at hdirty
      exact Bool.false_ne_true (hstop.symm.trans hdirty)
  cover := fun p hp hlast hdirty => by
    by_cases hin : p < runEnd
    · exact ⟨(page, runEnd), by simp, hp, hin⟩
    · obtain ⟨run, hr, hle, hlt'⟩ := h.cover p (by omega) hlast hdirty
      exact ⟨run, by simp [hr], hle, hlt'⟩

theorem dirtyRangesFrom_spec {offset byteCount rangeCapacity fuel : ℕ} {ranges : List GuestDirtyRange}
    (hpage : page ≤ lastPage + 1) (hfuel : lastPage + 1 - page ≤ fuel)
    (hroom : ranges.length ≤ rangeCapacity) :
    ∃ runs, DirtyRuns dirty page lastPage runs ∧
      dirtyRangesFrom dirty lastPage offset byteCount rangeCapacity fuel page ranges =
        if ranges.length + runs.length ≤ rangeCapacity then
          ranges ++ runs.map fun run => clippedRange offset byteCount run.1 run.2
        else [⟨offset, byteCount⟩] := by
  have hdone : lastPage < page → DirtyRuns dirty page lastPage [] := fun hlast =>
    ⟨by simp, by simp, .nil, fun p hp hle _ => by omega⟩
  induction fuel generalizing page ranges with
  | zero =>
    refine ⟨[], hdone (by omega), ?_⟩
    simp [dirtyRangesFrom, hroom]
  | succ fuel ih =>
    unfold dirtyRangesFrom
    by_cases hlast : lastPage < page
    · refine ⟨[], hdone hlast, ?_⟩
      simp [hlast, hroom]
    · rw [if_neg hlast]
      by_cases hclean : dirty page = false
      · rw [if_pos hclean]
        obtain ⟨runs, hruns, heq⟩ := @ih (page + 1) ranges (by omega) (by omega) hroom
          fun hlast => ⟨by simp, by simp, .nil, fun p hp hle _ => by omega⟩
        exact ⟨runs, hruns.skip hclean, heq⟩
      · rw [if_neg hclean]
        dsimp only
        generalize hrunEnd : dirtyRunEnd dirty lastPage (lastPage + 1 - page) (page + 1) = runEnd
        obtain ⟨hle, hend, hrun, hstop⟩ :=
          @dirtyRunEnd_spec dirty lastPage (page + 1) (lastPage + 1 - page) (by omega) (by omega)
        rw [hrunEnd] at hle hend hrun hstop
        have hdirty : ∀ p, page ≤ p → p < runEnd → dirty p = true := fun p hp hlt => by
          rcases Nat.eq_or_lt_of_le hp with rfl | hp
          · simpa using hclean
          · exact hrun p hp hlt
        have hbehind : lastPage < runEnd → DirtyRuns dirty runEnd lastPage [] := fun hlast =>
          ⟨by simp, by simp, .nil, fun p hp hle _ => by omega⟩
        by_cases hfull : ranges.length = rangeCapacity
        · rw [if_pos hfull]
          obtain ⟨runs, hruns, _⟩ := @ih runEnd [] (by omega) (by omega) (Nat.zero_le _) hbehind
          refine ⟨(page, runEnd) :: runs, hruns.run (by omega) hend hdirty hstop, ?_⟩
          rw [if_neg]
          simp only [List.length_cons]
          omega
        · rw [if_neg hfull]
          obtain ⟨runs, hruns, heq⟩ := @ih runEnd (ranges ++ [clippedRange offset byteCount page runEnd])
            (by omega) (by omega) (by simp only [List.length_append, List.length_singleton]; omega) hbehind
          refine ⟨(page, runEnd) :: runs, hruns.run (by omega) hend hdirty hstop, ?_⟩
          rw [heq]
          simp only [List.length_append, List.length_cons, List.length_nil, List.map_cons,
            List.append_assoc, List.cons_append, List.nil_append]
          congr 1
          simp only [eq_iff_iff]
          omega

/-! ## What is reported -/

/-- The ranges of a scan are sorted and apart, lie in the request, cover its dirty pages, and
cover nothing else unless there are more dirty runs than places. -/
structure ScanReports (dirty : ℕ → Bool) (offset byteCount rangeCapacity : ℕ)
    (ranges : List GuestDirtyRange) : Prop where
  sorted : ranges.Pairwise fun range next => range.offset + range.length ≤ next.offset
  within : ∀ range ∈ ranges, offset ≤ range.offset ∧ 0 < range.length ∧
    range.offset + range.length ≤ offset + byteCount
  cover : ∀ byte, offset ≤ byte → byte < offset + byteCount → dirty (byte / fastPageSize) = true →
    ∃ range ∈ ranges, range.Contains byte
  clean : (∀ range ∈ ranges, ∀ byte, range.Contains byte → dirty (byte / fastPageSize) = true) ∨
    (ranges = [⟨offset, byteCount⟩] ∧ ∃ runs, rangeCapacity < runs.length ∧
      DirtyRuns dirty (GuestMemory.firstPage offset) (GuestMemory.lastPage offset byteCount) runs)

theorem clippedRange_contains {offset byteCount byte runStart runEnd : ℕ} :
    (clippedRange offset byteCount runStart runEnd).Contains byte ↔
      (offset ≤ byte ∧ byte < offset + byteCount) ∧
        runStart ≤ byte / fastPageSize ∧ byte / fastPageSize < runEnd := by
  simp only [GuestDirtyRange.Contains, clippedRange, fastPageSize]
  omega

theorem scanReports_runs {offset byteCount rangeCapacity : ℕ} (hcount : byteCount ≠ 0)
    (h : DirtyRuns dirty (GuestMemory.firstPage offset) (GuestMemory.lastPage offset byteCount) runs) :
    ScanReports dirty offset byteCount rangeCapacity
      (runs.map fun run => clippedRange offset byteCount run.1 run.2) where
  sorted := by
    refine List.pairwise_map.mpr (h.apart.imp_of_mem fun {run next} hrun hnext hlt => ?_)
    obtain ⟨hfirst, hpos, hlast⟩ := h.within run hrun
    simp only [GuestMemory.firstPage, GuestMemory.lastPage, clippedRange, fastPageSize] at *
    omega
  within := fun range hr => by
    obtain ⟨run, hrun, rfl⟩ := List.mem_map.mp hr
    obtain ⟨hfirst, hlt, hlast⟩ := h.within run hrun
    simp only [GuestMemory.firstPage, GuestMemory.lastPage, clippedRange, fastPageSize] at *
    omega
  cover := fun byte hlow hhigh hdirty => by
    obtain ⟨run, hrun, hle, hlt⟩ := h.cover (byte / fastPageSize)
      (Nat.div_le_div_right hlow) (Nat.div_le_div_right (by omega)) hdirty
    exact ⟨_, List.mem_map.mpr ⟨run, hrun, rfl⟩, clippedRange_contains.mpr ⟨⟨hlow, hhigh⟩, hle, hlt⟩⟩
  clean := .inl fun range hr byte hb => by
    obtain ⟨run, hrun, rfl⟩ := List.mem_map.mp hr
    obtain ⟨_, hle, hlt⟩ := clippedRange_contains.mp hb
    exact h.marked run hrun _ hle hlt

theorem scanReports_dirtyRanges {memory : GuestMemory} {offset byteCount rangeCapacity : ℕ}
    {afterEpoch throughEpoch : U64} (hcapacity : 0 < rangeCapacity)
    (hrange : memory.HasRange offset byteCount) (hepochs : afterEpoch ≤ throughEpoch) :
    ScanReports (memory.dirtyBetween afterEpoch throughEpoch) offset byteCount rangeCapacity
      (memory.dirtyRanges offset byteCount afterEpoch throughEpoch rangeCapacity) := by
  have hcount := hrange.1
  have hpages : GuestMemory.firstPage offset ≤ GuestMemory.lastPage offset byteCount :=
    Nat.div_le_div_right (by omega)
  have hopen : ¬ (rangeCapacity = 0 ∨ ¬ memory.HasRange offset byteCount ∨
      throughEpoch < afterEpoch) := by
    rintro (hzero | hno | hlt)
    · omega
    · exact hno hrange
    · simp only [BitVec.lt_def, BitVec.le_def] at hepochs hlt
      omega
  obtain ⟨runs, hruns, heq⟩ := @dirtyRangesFrom_spec (memory.dirtyBetween afterEpoch throughEpoch)
    (GuestMemory.lastPage offset byteCount) (GuestMemory.firstPage offset) offset byteCount
    rangeCapacity _ [] (by omega) (Nat.le_refl _) (Nat.zero_le _)
  rw [GuestMemory.dirtyRanges, if_neg hopen]
  dsimp only
  rw [heq]
  split
  · exact scanReports_runs hcount hruns
  · rename_i hfull
    refine ⟨List.pairwise_singleton _ _, fun range hr => ?_, fun byte hlow hhigh _ => ?_, .inr ⟨rfl, ?_⟩⟩
    · rw [List.mem_singleton.mp hr]
      dsimp only
      omega
    · exact ⟨_, List.mem_singleton.mpr rfl, hlow, hhigh⟩
    · refine ⟨runs, ?_, hruns⟩
      simp only [List.length_nil] at hfull
      omega

end Pinecone
