import Pinecone.LockStripeOrder

/-! What a request for lock stripes takes and gives back, and the threads that make such requests. -/

namespace Pinecone

open OrderedLocks

namespace StripeRequest

/-- The stripes of the pages that the request's ranges cover. -/
def stripes : StripeRequest → Set ℕ
  | .range span => span.stripes
  | .spans list => ⋃ span ∈ list, span.stripes
  | .physicalSpan ramBase physicalAddress byteCount =>
    GuestMemorySpan.stripes ⟨(physicalAddress - ramBase).toNat, byteCount⟩
  | .physicalSpans ramBase list => ⋃ span ∈ list, GuestMemorySpan.stripes ⟨(span.1 - ramBase).toNat, span.2⟩
  | .smallPair first second _ => first.stripes ∪ second.stripes
  | .smallSet list _ => ⋃ span ∈ list, span.stripes
  | .whole => {stripe | stripe < lockStripeCount}

/-- The ranges are in the memory, and their stripes have room in the caller's array. -/
def Accepted (memory : GuestMemory) : StripeRequest → Prop
  | .range span => memory.HasRange span.offset span.byteCount
  | .spans list => list ≠ [] ∧ ∀ span ∈ list, memory.HasRange span.offset span.byteCount
  | .physicalSpan ramBase physicalAddress byteCount =>
    ramBase ≤ physicalAddress ∧ memory.HasRange (physicalAddress - ramBase).toNat byteCount
  | .physicalSpans ramBase list =>
    list ≠ [] ∧ ∀ span ∈ list, ramBase ≤ span.1 ∧ memory.HasRange (span.1 - ramBase).toNat span.2
  | .smallPair first second stripes =>
    (∀ span ∈ [first, second], memory.HasRange span.offset span.byteCount) ∧
      ¬ Crowded stripes.length (first.stripes ∪ second.stripes)
  | .smallSet list stripes =>
    (∀ span ∈ list, memory.HasRange span.offset span.byteCount) ∧
      ¬ Crowded stripes.length (⋃ span ∈ list, span.stripes)
  | .whole => True

end StripeRequest

/-- Nothing is locked for a request that is not accepted. For one that is, its stripes are locked in
rising order, and just those are unlocked. -/
def StripeOutcome.Disciplined (outcome : StripeOutcome) (accepted : Prop) (stripes : Set ℕ) : Prop :=
  (¬ accepted ∧ outcome = .declined) ∨
    accepted ∧ ∃ plan, outcome = .acquires plan ∧ plan.locks.Pairwise (· < ·) ∧
      (∀ stripe, stripe ∈ plan.locks ↔ stripe ∈ stripes) ∧ plan.locks.Perm plan.unlocks

theorem GuestMemorySpan.stripes_lt {span : GuestMemorySpan} {stripe : ℕ} (hmem : stripe ∈ span.stripes) :
    stripe < lockStripeCount := by
  obtain ⟨byte, -, rfl⟩ := hmem
  exact lockStripe_lt _

theorem rangeOutcome_disciplined (memory : GuestMemory) (span : GuestMemorySpan) :
    (StripeRequest.rangeOutcome memory span).Disciplined (memory.HasRange span.offset span.byteCount)
      span.stripes := by
  unfold StripeRequest.rangeOutcome GuestMemory.pageRange
  by_cases hrange : memory.HasRange span.offset span.byteCount
  · rw [if_pos hrange]
    have hpages : GuestMemory.firstPage span.offset ≤ GuestMemory.lastPage span.offset span.byteCount := by
      have hcount := hrange.1
      unfold GuestMemory.firstPage GuestMemory.lastPage
      exact Nat.div_le_div_right (by omega)
    refine .inr ⟨hrange, _, rfl, pageRangeStripes_rising _ _, fun stripe => ?_, List.Perm.refl _⟩
    rw [GuestMemorySpan.mem_stripes hrange]
    exact mem_pageRangeStripes hpages stripe
  · rw [if_neg hrange]
    exact .inl ⟨hrange, rfl⟩

theorem bitmapOutcome_disciplined {α : Type} {collect : List U64 → α → Option (Bool × List U64)}
    {Ok : α → Prop} {adds : α → Set ℕ} (elements : List α)
    (haccepts : ∀ bitmap stripes element, HoldsBits bitmap stripes → Ok element →
      ∃ next, collect bitmap element = some (true, next) ∧ HoldsBits next (stripes ∪ adds element))
    (hdeclines : ∀ bitmap element, ¬ Ok element → collect bitmap element = some (false, bitmap))
    (hbound : ∀ element, ∀ stripe ∈ adds element, stripe < lockStripeCount) :
    (StripeRequest.bitmapOutcome (if elements = [] then some (false, emptyLockBitmap)
      else collectAll collect elements emptyLockBitmap)).Disciplined
      (elements ≠ [] ∧ ∀ element ∈ elements, Ok element) (⋃ element ∈ elements, adds element) := by
  by_cases hempty : elements = []
  · rw [if_pos hempty]
    exact .inl ⟨fun h => h.1 hempty, rfl⟩
  rw [if_neg hempty]
  rcases collectAll_spec HoldsBits Ok adds (fun _ element => ¬ Ok element) (by
      intro bitmap stripes element hholds
      by_cases hok : Ok element
      · obtain ⟨next, hnext, hholds⟩ := haccepts bitmap stripes element hholds hok
        exact .inl ⟨next, hnext, hok, hholds⟩
      · exact .inr ⟨bitmap, hdeclines bitmap element hok, hok⟩) elements emptyLockBitmap ∅ holdsBits_empty
    with ⟨bitmap, hcollected, hoks, hholds⟩ | ⟨bitmap, before, element, hcollected, hearlier, hrefused⟩
  · rw [hcollected]
    refine .inr ⟨⟨hempty, hoks⟩, _, rfl, lockBitmap_rising bitmap, fun stripe => ?_,
      (lockBitmap_ordered bitmap).balanced⟩
    rw [mem_lockBitmap hholds, Set.empty_union]
    refine and_iff_right_of_imp fun hmem => ?_
    obtain ⟨element, hmem⟩ := Set.mem_iUnion.mp hmem
    obtain ⟨-, hmem⟩ := Set.mem_iUnion.mp hmem
    exact hbound element stripe hmem
  · rw [hcollected]
    refine .inl ⟨fun haccepted => hrefused (haccepted.2 element ?_), rfl⟩
    exact hearlier.subset (by simp)

theorem collectRangeLocks_declines {memory : GuestMemory} (bitmap : List U64) {span : GuestMemorySpan}
    (hrange : ¬ memory.HasRange span.offset span.byteCount) :
    collectRangeLocks memory bitmap span = some (false, bitmap) := by
  unfold collectRangeLocks GuestMemory.pageRange
  rw [if_neg hrange]

theorem physicalSpanOffset_eq {ramBase physicalAddress : U64} :
    physicalSpanOffset ramBase physicalAddress =
      if ramBase ≤ physicalAddress then some (physicalAddress - ramBase).toNat else none := by
  unfold physicalSpanOffset
  by_cases hbelow : physicalAddress < ramBase
  · rw [if_pos hbelow, if_neg (BitVec.not_le.mpr hbelow)]
  · rw [if_neg hbelow, if_pos (BitVec.not_lt.mp hbelow)]

theorem spansOutcome_disciplined (memory : GuestMemory) (list : List GuestMemorySpan) :
    ((StripeRequest.spans list).outcome memory).Disciplined ((StripeRequest.spans list).Accepted memory)
      (StripeRequest.spans list).stripes := by
  refine bitmapOutcome_disciplined list (fun bitmap stripes span hholds hrange => ?_)
    (fun bitmap span hrange => collectRangeLocks_declines bitmap hrange) fun span stripe => ?_
  · exact collectRangeLocks_holds hholds hrange
  · exact GuestMemorySpan.stripes_lt

theorem physicalSpansOutcome_disciplined (memory : GuestMemory) (ramBase : U64) (list : List (U64 × ℕ)) :
    ((StripeRequest.physicalSpans ramBase list).outcome memory).Disciplined
      ((StripeRequest.physicalSpans ramBase list).Accepted memory)
      (StripeRequest.physicalSpans ramBase list).stripes := by
  refine bitmapOutcome_disciplined list (fun bitmap stripes span hholds hok => ?_) (fun bitmap span hok => ?_)
    fun span stripe => ?_
  · unfold collectPhysicalSpan
    rw [physicalSpanOffset_eq, if_pos hok.1]
    exact collectRangeLocks_holds hholds hok.2
  · unfold collectPhysicalSpan
    rw [physicalSpanOffset_eq]
    by_cases hbase : ramBase ≤ span.1
    · rw [if_pos hbase]
      exact collectRangeLocks_declines bitmap fun hrange => hok ⟨hbase, hrange⟩
    · rw [if_neg hbase]
  · exact GuestMemorySpan.stripes_lt

/-! ## Small sets -/

theorem HoldsEntries.not_crowded {capacity : ℕ} {set : StripeSet} {stripes : Set ℕ}
    (hholds : HoldsEntries capacity set stripes) : ¬ Crowded capacity stripes := by
  rintro ⟨list, hnodup, hlength, hmem⟩
  have hsubset : list ⊆ lockSmallSet set := fun stripe hstripe => (hholds.entries stripe).mpr (hmem stripe hstripe)
  have hle := (hnodup.subperm hsubset).length_le
  have hcount := hholds.count
  rw [lockSmallSet, List.length_map, List.length_take] at hle
  omega

theorem HoldsEntries.ordered {capacity : ℕ} {set : StripeSet} {stripes : Set ℕ}
    (hholds : HoldsEntries capacity set stripes) :
    (lockSmallSet set).Pairwise (· < ·) ∧ (lockSmallSet set).Perm (unlockSmallSet set) := by
  refine ⟨List.pairwise_map.mpr (hholds.rising.imp fun hless => BitVec.lt_def.mp hless), ?_⟩
  unfold lockSmallSet unlockSmallSet
  rw [List.map_reverse]
  exact (List.reverse_perm _).symm

theorem collectSmallRangeLocks_holds {memory : GuestMemory} {capacity : ℕ} (set : StripeSet) (stripes : Set ℕ)
    (span : GuestMemorySpan) (hholds : HoldsEntries capacity set stripes) :
    (∃ next, collectSmallRangeLocks memory set span = some (true, next) ∧
      memory.HasRange span.offset span.byteCount ∧ HoldsEntries capacity next (stripes ∪ span.stripes)) ∨
    ∃ next, collectSmallRangeLocks memory set span = some (false, next) ∧
      (¬ memory.HasRange span.offset span.byteCount ∨ Crowded capacity (stripes ∪ span.stripes)) := by
  unfold collectSmallRangeLocks GuestMemory.pageRange
  by_cases hrange : memory.HasRange span.offset span.byteCount
  · rw [if_pos hrange]
    dsimp only
    generalize hpages : indexRange (GuestMemory.firstPage span.offset)
      (GuestMemory.lastPage span.offset span.byteCount) = pages
    have hstripes : span.stripes = ⋃ page ∈ pages, {lockStripe page} := by
      ext stripe
      rw [GuestMemorySpan.mem_stripes hrange, hpages]
      simp only [Set.mem_iUnion, Set.mem_singleton_iff, exists_prop, eq_comm]
    rw [hstripes]
    rcases collectAll_spec (HoldsEntries capacity) (fun _ => True) (fun page => {lockStripe page})
      (fun stripes page => Crowded capacity (stripes ∪ {lockStripe page}))
      (fun set stripes page hholds => insertPage_holds hholds page) pages set stripes hholds
      with ⟨next, hnext, -, hholds⟩ | ⟨next, before, page, hnext, hearlier, hcrowded⟩
    · exact .inl ⟨next, hnext, hrange, hholds⟩
    · refine .inr ⟨next, hnext, .inr (hcrowded.mono ?_)⟩
      rw [Set.union_assoc]
      refine Set.union_subset_union_right _ (Set.union_subset ?_ ?_)
      · refine Set.iUnion₂_subset fun earlier hmem => ?_
        exact Set.subset_biUnion_of_mem (u := fun page => {lockStripe page})
          (hearlier.subset (List.mem_append_left _ hmem))
      · exact Set.subset_biUnion_of_mem (u := fun page => {lockStripe page}) (hearlier.subset (by simp))
  · rw [if_neg hrange]
    exact .inr ⟨set, rfl, .inl hrange⟩

theorem smallSetOutcome_disciplined (memory : GuestMemory) (list : List GuestMemorySpan)
    (stripes : List (BitVec 16)) :
    (StripeRequest.smallSetOutcome (collectAll (collectSmallRangeLocks memory) list ⟨stripes, 0⟩)).Disciplined
      ((∀ span ∈ list, memory.HasRange span.offset span.byteCount) ∧
        ¬ Crowded stripes.length (⋃ span ∈ list, span.stripes)) (⋃ span ∈ list, span.stripes) := by
  have hstart : HoldsEntries stripes.length ⟨stripes, 0⟩ ∅ :=
    ⟨rfl, Nat.zero_le _, List.Pairwise.nil, by simp [lockSmallSet]⟩
  rcases collectAll_spec (HoldsEntries stripes.length)
    (fun span : GuestMemorySpan => memory.HasRange span.offset span.byteCount) GuestMemorySpan.stripes
    (fun collected span => ¬ memory.HasRange span.offset span.byteCount ∨
      Crowded stripes.length (collected ∪ span.stripes))
    collectSmallRangeLocks_holds list ⟨stripes, 0⟩ ∅ hstart
    with ⟨set, hcollected, hranges, hholds⟩ | ⟨set, before, span, hcollected, hearlier, hrefused⟩
  · rw [hcollected]
    rw [Set.empty_union] at hholds
    obtain ⟨hrising, hperm⟩ := hholds.ordered
    exact .inr ⟨⟨hranges, hholds.not_crowded⟩, _, rfl, hrising, hholds.entries, hperm⟩
  · rw [hcollected]
    refine .inl ⟨fun haccepted => ?_, rfl⟩
    rcases hrefused with hrange | hcrowded
    · exact hrange (haccepted.1 span (hearlier.subset (by simp)))
    · refine haccepted.2 (hcrowded.mono ?_)
      rw [Set.empty_union]
      refine Set.union_subset (Set.iUnion₂_subset fun earlier hmem => ?_) ?_
      · exact Set.subset_biUnion_of_mem (u := GuestMemorySpan.stripes)
          (hearlier.subset (List.mem_append_left _ hmem))
      · exact Set.subset_biUnion_of_mem (u := GuestMemorySpan.stripes) (hearlier.subset (by simp))

theorem outcome_disciplined (memory : GuestMemory) (request : StripeRequest) :
    (request.outcome memory).Disciplined (request.Accepted memory) request.stripes := by
  cases request with
  | range span => exact rangeOutcome_disciplined memory span
  | spans list => exact spansOutcome_disciplined memory list
  | physicalSpan ramBase physicalAddress byteCount =>
    simp only [StripeRequest.outcome, StripeRequest.Accepted, physicalSpanOffset_eq]
    by_cases hbase : ramBase ≤ physicalAddress
    · rw [if_pos hbase]
      simp only [hbase, true_and]
      exact rangeOutcome_disciplined memory _
    · rw [if_neg hbase]
      exact .inl ⟨fun haccepted => hbase haccepted.1, rfl⟩
  | physicalSpans ramBase list => exact physicalSpansOutcome_disciplined memory ramBase list
  | smallPair first second stripes =>
    have hboth : first.stripes ∪ second.stripes = ⋃ span ∈ [first, second], span.stripes := by simp
    simp only [StripeRequest.outcome, StripeRequest.Accepted, StripeRequest.stripes, hboth]
    exact smallSetOutcome_disciplined memory [first, second] stripes
  | smallSet list stripes => exact smallSetOutcome_disciplined memory list stripes
  | whole =>
    simp only [StripeRequest.outcome, StripeRequest.Accepted, StripeRequest.stripes]
    generalize lockStripeCount = count
    exact .inr ⟨trivial, _, rfl, List.pairwise_lt_range, fun stripe => List.mem_range, List.Perm.refl _⟩

theorem stripePlan_ordered (memory : GuestMemory) (request : StripeRequest) (plan : LockPlan ℕ)
    (hplan : request.plan memory = some plan) : plan.Ordered := by
  unfold StripeRequest.plan at hplan
  rcases outcome_disciplined memory request with ⟨-, houtcome⟩ | ⟨-, acquired, houtcome, hrising, -, hperm⟩
  · rw [houtcome] at hplan
    cases hplan
  · rw [houtcome] at hplan
    obtain rfl := Option.some.inj hplan
    exact ⟨hrising, hperm⟩

/-- Every request locks just its stripes, in rising order, and unlocks the same, or locks nothing at all;
and however the requests of any threads interleave, a thread that has still to lock or unlock does not keep
all of them waiting: they can run on, and without new requests always come, to where every flag is clear. -/
theorem lockStripes_disciplined (memory : GuestMemory) :
    (∀ request : StripeRequest,
      (request.outcome memory).Disciplined (request.Accepted memory) request.stripes) ∧
    ∀ (τ : Type) [Fintype τ] [DecidableEq τ] (events : List (LockEvent StripeRequest τ))
      (state : LockState ℕ τ),
      events.foldlM (step (StripeRequest.plan memory)) LockState.unlocked = some state →
      (∀ thread, ¬ (state.threads thread).Idle →
        ∃ event : LockEvent StripeRequest τ, ¬ event.IsRequest ∧
          ∃ next, step (StripeRequest.plan memory) state event = some next) ∧
      (∀ more : List (LockEvent StripeRequest τ), (∀ event ∈ more, ¬ event.IsRequest) →
        ∀ final, more.foldlM (step (StripeRequest.plan memory)) state = some final →
        more.length ≤ state.remaining) ∧
      ∃ more : List (LockEvent StripeRequest τ), (∀ event ∈ more, ¬ event.IsRequest) ∧
        ∃ final, more.foldlM (step (StripeRequest.plan memory)) state = some final ∧
          (∀ thread, (final.threads thread).Idle) ∧ ∀ stripe, final.flags stripe = false := by
  refine ⟨outcome_disciplined memory, fun τ _ _ events state hrun => ?_⟩
  have howned := Owned.run (stripePlan_ordered memory) hrun
  refine ⟨fun thread hbusy => howned.progress hbusy, fun more hmore final hfinal => ?_,
    howned.drains (stripePlan_ordered memory)⟩
  have hlength := remaining_run hmore hfinal
  omega

/-- One thread has locked the stripe of a page for which another one asks. -/
theorem lockStripes_disciplined_waiting :
    ∃ state : LockState ℕ Bool,
      [LockEvent.request false (.range ⟨0, 16⟩), .lock false, .request true (.range ⟨8, 4⟩)].foldlM
        (step (StripeRequest.plan pageMemory)) LockState.unlocked = some state ∧
      state.flags 0 = true ∧
      ∃ more : List (LockEvent StripeRequest Bool), (∀ event ∈ more, ¬ event.IsRequest) ∧
        ∃ final, more.foldlM (step (StripeRequest.plan pageMemory)) state = some final ∧
          (∀ thread, (final.threads thread).Idle) ∧ ∀ stripe, final.flags stripe = false := by
  have hrun : ([LockEvent.request false (.range ⟨0, 16⟩), .lock false, .request true (.range ⟨8, 4⟩)].foldlM
      (step (StripeRequest.plan pageMemory)) (LockState.unlocked : LockState ℕ Bool)).any
      (fun state => state.flags 0) = true := by
    decide
  obtain ⟨state, hstate, hflag⟩ := (Option.any_eq_true _ _).mp hrun
  exact ⟨state, hstate, hflag, ((lockStripes_disciplined pageMemory).2 Bool _ state hstate).2.2⟩

end Pinecone
