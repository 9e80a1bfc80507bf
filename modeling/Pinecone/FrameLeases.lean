import Pinecone.FrameSlotSafety

/-! The readers of frames in VirtIOGPU.swift, and what holds of the frame slots after every run. -/

namespace Pinecone

open GpuRectangle DamageLog

namespace FrameDisplay

variable {width height : ℕ} {display next : FrameDisplay width height} {slot : ℕ}
  {damage : List GpuRectangle} {event : DisplayEvent} {events : List DisplayEvent}

theorem SlotsKept.not_isLeased (h : display.SlotsKept) (hcount : (display.slots slot).leaseCount = 0) :
    ¬ display.IsLeased slot := by
  rintro ⟨lease, hlease, hslot⟩
  have hpositive : 0 < display.leases.countP fun lease => lease.slot = slot :=
    List.countP_pos_iff.mpr ⟨lease, hlease, by simpa using hslot⟩
  have hcounted := h.counted slot
  omega

theorem counted_append {lease : FrameLease} {slots : ℕ → PublishedFrameSlot width height}
    {leases : List FrameLease}
    (h : ∀ slot, (leases.countP fun lease => lease.slot = slot : ℕ) ≤ (slots slot).leaseCount)
    (hslots : display.slots = slots) (slot : ℕ) :
    ((leases ++ [lease]).countP fun lease => lease.slot = slot : ℕ) ≤
      ((display.addLease lease.slot 1).slots slot).leaseCount := by
  have hcounted := h slot
  rw [addLease_leaseCount, hslots, List.countP_append, List.countP_singleton]
  by_cases hslot : slot = lease.slot
  · subst hslot
    simp only [decide_true, if_true, Nat.cast_add, Nat.cast_one]
    omega
  · simp only [hslot, Ne.symm hslot, decide_false, Bool.false_eq_true, if_false, add_zero]
    exact hcounted

theorem countP_eraseIdx {leases : List FrameLease} {index : ℕ} {lease : FrameLease}
    (h : leases[index]? = some lease) (slot : ℕ) :
    (leases.eraseIdx index).countP (fun lease => lease.slot = slot) +
      (if slot = lease.slot then 1 else 0) = leases.countP fun lease => lease.slot = slot := by
  obtain ⟨hindex, rfl⟩ := List.getElem?_eq_some_iff.mp h
  rw [← (List.getElem_cons_eraseIdx_perm hindex).countP_eq, List.countP_cons]
  simp only [decide_eq_true_eq, @eq_comm _ slot]

/-! ## Readers -/

/-- The slot of the cursor frame is not one of the frame slots, and nobody has a lease of it. -/
structure CursorFrameTaken (display : FrameDisplay width height) (taken : ℕ × FrameDisplay width height) :
    Prop where
  cursor : taken.2.cursorFrame = some taken.1
  le : display.slotCount ≤ taken.2.slotCount
  lt : taken.1 < taken.2.slotCount
  not_mem : taken.1 ∉ display.frameSlots
  free : (taken.2.slots taken.1).leaseCount = 0
  not_leased : ¬ display.IsLeased taken.1
  others : ∀ other ≠ taken.1, taken.2.slots other = display.slots other
  same : taken.2 = { display with
    slots := taken.2.slots
    slotCount := taken.2.slotCount
    cursorFrame := taken.2.cursorFrame
    cursorFrameGeneration := taken.2.cursorFrameGeneration }

theorem SlotsKept.fresh (h : display.SlotsKept) (published : PublishedFrameSlot width height)
    (hfree : published.leaseCount = 0) : display.CursorFrameTaken (display.slotCount,
      { display with
        slots := Function.update display.slots display.slotCount published
        slotCount := display.slotCount + 1
        cursorFrame := some display.slotCount }) where
  cursor := rfl
  le := Nat.le_succ _
  lt := Nat.lt_succ_self _
  not_mem := fun hmem => (h.made _ hmem).ne rfl
  free := by simpa only [Function.update_self] using hfree
  not_leased := by
    rintro ⟨lease, hlease, hslot⟩
    exact (h.leased lease hlease).ne hslot
  others := fun other hother => Function.update_of_ne hother ..
  same := rfl

theorem SlotsKept.takeCursorFrame (h : display.SlotsKept) :
    display.CursorFrameTaken display.takeCursorFrame := by
  unfold FrameDisplay.takeCursorFrame
  cases hcursor : display.cursorFrame with
  | none => exact h.fresh _ rfl
  | some previous =>
    dsimp only
    split
    · rename_i hfree
      obtain ⟨hlt, hnot⟩ := h.cursor previous hcursor
      exact ⟨hcursor, le_rfl, hlt, hnot, hfree, h.not_isLeased hfree, fun _ _ => rfl, rfl⟩
    · exact h.fresh _ rfl

theorem CursorFrameTaken.draw {taken : ℕ × FrameDisplay width height} (h : display.CursorFrameTaken taken)
    (pixels : GpuFrame width height) (generation : Option ℕ) : display.CursorFrameTaken (taken.1,
      { taken.2.setPixels taken.1 pixels with cursorFrameGeneration := generation }) where
  cursor := h.cursor
  le := h.le
  lt := h.lt
  not_mem := h.not_mem
  free := setPixels_leaseCount.trans h.free
  not_leased := h.not_leased
  others := by
    intro other (hother : other ≠ taken.1)
    change (taken.2.setPixels taken.1 pixels).slots other = _
    rw [setPixels, updateSlot_of_ne hother]
    exact h.others other hother
  same := by
    unfold setPixels updateSlot
    rw [h.same]

theorem SlotsKept.prepareCursorFrame (h : display.SlotsKept) :
    display.CursorFrameTaken display.prepareCursorFrame := by
  unfold FrameDisplay.prepareCursorFrame
  dsimp only
  split
  · exact h.takeCursorFrame
  · exact h.takeCursorFrame.draw _ _

theorem CursorFrameTaken.kept {taken : ℕ × FrameDisplay width height} (htaken : display.CursorFrameTaken taken)
    (h : display.Kept) : taken.2.Kept := by
  have hne : ∀ slot ∈ display.frameSlots, slot ≠ taken.1 := fun slot hmem heq => htaken.not_mem (heq ▸ hmem)
  have hframes : taken.2.frameSlots = display.frameSlots := by rw [htaken.same]
  have hcommitted : taken.2.committedFrame = display.committedFrame := by rw [htaken.same]
  have hleases : taken.2.leases = display.leases := by rw [htaken.same]
  have htask : taken.2.task = display.task := by rw [htaken.same]
  refine ⟨⟨by rw [hcommitted, hframes]; exact h.slots.committed, ?_, ?_, ?_, ?_, ?_⟩,
    h.frames.of_same h.slots hframes hcommitted (by rw [htaken.same]) (by rw [htaken.same])
      (by rw [htaken.same]) htask fun slot hmem => by rw [htaken.others slot (hne slot hmem)]; exact ⟨rfl, rfl⟩⟩
  · rw [hframes]
    exact fun slot hmem => (h.slots.made slot hmem).trans_le htaken.le
  · intro slot hslot
    obtain rfl := Option.some.inj (htaken.cursor.symm.trans hslot)
    rw [hframes]
    exact ⟨htaken.lt, htaken.not_mem⟩
  · rw [hleases]
    exact fun lease hlease => (h.slots.leased lease hlease).trans_le htaken.le
  · intro slot
    rw [hleases]
    by_cases hslot : slot = taken.1
    · have hnone : display.leases.countP (fun lease => lease.slot = slot) = 0 := by
        refine List.countP_eq_zero.mpr fun lease hlease heq => htaken.not_leased ⟨lease, hlease, ?_⟩
        rw [← hslot]
        simpa using heq
      rw [hnone, hslot, htaken.free]
      rfl
    · rw [htaken.others slot hslot]
      exact h.slots.counted slot
  · intro slot hslot
    rw [filledSlot, htask] at hslot
    have hfilled := h.slots.filled slot hslot
    rw [hframes, hcommitted, htaken.others slot (hne slot hfilled.1)]
    exact hfilled

theorem Kept.addLease (h : display.Kept) (lease : FrameLease) (hlt : lease.slot < display.slotCount)
    (hne : display.filledSlot ≠ some lease.slot) :
    ({ display.addLease lease.slot 1 with leases := display.leases ++ [lease] } :
      FrameDisplay width height).Kept where
  slots := by
    refine ⟨h.slots.committed, h.slots.made, h.slots.cursor, ?_, counted_append h.slots.counted rfl, ?_⟩
    · intro other hother
      rcases List.mem_append.mp hother with hother | hother
      · exact h.slots.leased other hother
      · rwa [List.mem_singleton.mp hother]
    · intro slot hslot
      obtain ⟨hmem, hcommitted, hcount⟩ := h.slots.filled slot hslot
      refine ⟨hmem, hcommitted, addLease_leaseCount.trans ?_⟩
      rw [if_neg, add_zero, hcount]
      rintro rfl
      exact hne hslot
  frames := h.frames.of_same h.slots rfl rfl rfl rfl rfl rfl fun _ _ => ⟨addLease_pixels, addLease_generation⟩

theorem Kept.frameLease (h : display.Kept) (previousGeneration : Option ℕ) :
    (display.frameLease previousGeneration).Kept := by
  unfold FrameDisplay.frameLease
  split
  · exact h
  · split
    · refine h.addLease ⟨display.committedFrame, _, _, _⟩ (h.slots.made _ h.slots.committed) fun hfilled => ?_
      exact (h.slots.filled _ hfilled).2.1 rfl
    · have htaken := h.slots.prepareCursorFrame
      have hkept := htaken.kept h
      have hleases : display.prepareCursorFrame.2.leases = display.leases := by rw [htaken.same]
      dsimp only
      rw [← hleases]
      refine hkept.addLease ⟨display.prepareCursorFrame.1, _, _, _⟩ htaken.lt fun hfilled => ?_
      exact (hkept.slots.cursor _ htaken.cursor).2 (hkept.slots.filled _ hfilled).1

theorem Kept.releaseLease (h : display.Kept) {index : ℕ} {lease : FrameLease}
    (hlease : display.leases[index]? = some lease)
    (hrelease : ({ display with leases := display.leases.eraseIdx index } :
      FrameDisplay width height).releaseLease lease = some next) : next.Kept := by
  have hleased : ∀ other ∈ display.leases.eraseIdx index, other.slot < display.slotCount :=
    fun other hother => h.slots.leased other (List.mem_of_mem_eraseIdx hother)
  have hcounted : ∀ slot, ((display.leases.eraseIdx index).countP fun lease => lease.slot = slot : ℕ) ≤
      (display.slots slot).leaseCount - if slot = lease.slot then 1 else 0 := by
    intro slot
    have herase := countP_eraseIdx hlease slot
    have hcount := h.slots.counted slot
    split at herase
    · rw [if_pos ‹_›]
      omega
    · rw [if_neg ‹_›]
      omega
  unfold FrameDisplay.releaseLease at hrelease
  split at hrelease
  · split at hrelease
    · rename_i hpositive
      obtain rfl := Option.some.inj hrelease
      refine ⟨⟨h.slots.committed, h.slots.made, h.slots.cursor, hleased, fun slot => ?_, fun slot hslot => ?_⟩,
        h.frames.of_same h.slots rfl rfl rfl rfl rfl rfl fun _ _ => ⟨addLease_pixels, addLease_generation⟩⟩
      · rw [addLease_leaseCount]
        refine (hcounted slot).trans (le_of_eq ?_)
        change _ = (display.slots slot).leaseCount + _
        split <;> omega
      · obtain ⟨hmem, hcommitted, hcount⟩ := h.slots.filled slot hslot
        refine ⟨hmem, hcommitted, addLease_leaseCount.trans ?_⟩
        rw [if_neg, add_zero]
        · exact hcount
        · rintro rfl
          exact hpositive.ne' hcount
    · cases hrelease
  · obtain rfl := Option.some.inj hrelease
    refine ⟨⟨h.slots.committed, h.slots.made, h.slots.cursor, hleased, fun slot => ?_, h.slots.filled⟩,
      h.frames.of_same h.slots rfl rfl rfl rfl rfl rfl fun _ _ => ⟨rfl, rfl⟩⟩
    refine (hcounted slot).trans ?_
    change _ ≤ (display.slots slot).leaseCount
    split <;> omega

/-! ## Runs -/

theorem Kept.beginFlush (h : display.Kept) (hidle : display.task = none) (resourceID : BitVec 32)
    (resource : GpuResource) (flushRectangle : GpuRectangle) :
    (display.beginFlush resourceID resource flushRectangle).Kept := by
  unfold FrameDisplay.beginFlush
  split
  · exact h
  · dsimp only
    split
    · exact h.begin hidle _
    · exact h

theorem Kept.command (h : display.Kept) (hidle : display.task = none) (event : DisplayEvent) :
    (display.command event).Kept := by
  have hcursor := h.withCursor
  cases event with
  | setScanout scanout =>
    unfold FrameDisplay.command
    dsimp only
    split
    · exact hcursor (some scanout) display.committedScanout display.cursor display.cursorPixels
        display.cursorFrameGeneration
    · exact h
  | disableScanout =>
    exact (hcursor none none display.cursor display.cursorPixels display.cursorFrameGeneration).begin hidle _
  | flush resourceID resource flushRectangle => exact h.beginFlush hidle resourceID resource flushRectangle
  | unref resourceID =>
    unfold FrameDisplay.command
    dsimp only
    split
    · exact (hcursor none none display.cursor display.cursorPixels display.cursorFrameGeneration).begin hidle _
    · exact h.dropCursorOf resourceID
  | reset => exact h.begin hidle _
  | updateCursor cursor image =>
    exact (hcursor display.scanout display.committedScanout (some cursor) (some image) none).displayStateChanged _
  | removeCursor => exact h.dropCursor
  | moveCursor x y =>
    unfold FrameDisplay.command
    dsimp only
    split
    · exact (hcursor display.scanout display.committedScanout _ display.cursorPixels
        display.cursorFrameGeneration).displayStateChanged _
    · exact h
  | refreshCursorPixels resourceID image =>
    unfold FrameDisplay.command
    dsimp only
    split
    · exact hcursor display.scanout display.committedScanout display.cursor (some image) none
    · exact h
  | proceed => exact h
  | lease previousGeneration => exact h
  | release index => exact h

theorem step_eq_command (h : ∀ previousGeneration, event ≠ .lease previousGeneration)
    (hproceed : event ≠ .proceed) (hrelease : ∀ index, event ≠ .release index)
    (hstep : display.step event = some next) : display.task = none ∧ next = display.command event := by
  have hcommand : (if display.task.isNone then some (display.command event) else none) = some next := by
    cases event <;> first | exact hstep | exact absurd rfl hproceed | exact absurd rfl (h _) |
      exact absurd rfl (hrelease _)
  split at hcommand
  · rename_i hidle
    exact ⟨Option.isNone_iff_eq_none.mp hidle, (Option.some.inj hcommand).symm⟩
  · cases hcommand

theorem step_cases (hstep : display.step event = some next) :
    (event = .proceed ∧ display.proceed = some next) ∨
    (∃ previousGeneration, event = .lease previousGeneration ∧ next = display.frameLease previousGeneration) ∨
    (∃ index lease, event = .release index ∧ display.leases[index]? = some lease ∧
      ({ display with leases := display.leases.eraseIdx index } :
        FrameDisplay width height).releaseLease lease = some next) ∨
    (display.task = none ∧ next = display.command event) := by
  by_cases hproceed : event = .proceed
  · rw [hproceed] at hstep
    exact .inl ⟨hproceed, hstep⟩
  · by_cases hlease : ∃ previousGeneration, event = .lease previousGeneration
    · obtain ⟨previousGeneration, rfl⟩ := hlease
      exact .inr (.inl ⟨previousGeneration, rfl, (Option.some.inj hstep).symm⟩)
    · by_cases hrelease : ∃ index, event = .release index
      · obtain ⟨index, rfl⟩ := hrelease
        unfold step at hstep
        dsimp only at hstep
        cases hget : display.leases[index]? with
        | none =>
          rw [hget] at hstep
          cases hstep
        | some lease =>
          rw [hget] at hstep
          exact .inr (.inr (.inl ⟨index, lease, rfl, hget, hstep⟩))
      · exact .inr (.inr (.inr (step_eq_command (not_exists.mp hlease) hproceed (not_exists.mp hrelease) hstep)))

theorem Kept.step (h : display.Kept) (hstep : display.step event = some next) : next.Kept := by
  rcases step_cases hstep with ⟨_, hproceed⟩ | ⟨previousGeneration, _, rfl⟩ |
    ⟨index, lease, _, hlease, hrelease⟩ | ⟨hidle, rfl⟩
  · exact h.proceed hproceed
  · exact h.frameLease previousGeneration
  · exact h.releaseLease hlease hrelease
  · exact h.command hidle event

theorem Kept.run (h : display.Kept) (hrun : display.run events = some next) : next.Kept :=
  ConditionalRun.run_invariant Kept hrun Kept.step h

/-! ## What is published -/

@[simp] theorem displayStateChanged_slots {damage : Option GpuRectangle} :
    (display.displayStateChanged damage).slots = display.slots := by
  unfold FrameDisplay.displayStateChanged
  cases damage with
  | none => rfl
  | some damage =>
    dsimp only
    split
    · exact commit_slots
    · rfl

@[simp] theorem dropCursorOf_slots {resourceID : BitVec 32} :
    (display.dropCursorOf resourceID).slots = display.slots := by
  unfold FrameDisplay.dropCursorOf
  split
  · exact displayStateChanged_slots
  · rfl

@[simp] theorem begin_slots {command : FrameCommand} : (display.begin command).slots = display.slots := by
  unfold FrameDisplay.begin
  split <;> rfl

theorem command_slots (display : FrameDisplay width height) (event : DisplayEvent) :
    (display.command event).slots = display.slots := by
  cases event <;> unfold FrameDisplay.command <;> dsimp only
  case setScanout => split <;> rfl
  case disableScanout => exact begin_slots
  case flush =>
    unfold FrameDisplay.beginFlush
    split
    · rfl
    · dsimp only
      split
      · exact begin_slots
      · rfl
  case unref =>
    split
    · exact begin_slots
    · exact dropCursorOf_slots
  case reset => exact begin_slots
  case updateCursor => exact displayStateChanged_slots
  case removeCursor => exact displayStateChanged_slots
  case moveCursor =>
    split
    · exact displayStateChanged_slots
    · rfl
  case refreshCursorPixels => split <;> rfl

theorem publish_pixels (display : FrameDisplay width height) (filled : ℕ) (damage : List GpuRectangle)
    (command : FrameCommand) :
    ((display.publish filled damage command).slots slot).pixels = (display.slots slot).pixels := by
  cases command <;> unfold publish <;> dsimp only
  case flush => rw [setGeneration_pixels, commit_slots]
  case disable =>
    rw [commit_slots]
    exact setGeneration_pixels
  case unref =>
    rw [dropCursorOf_slots, commit_slots]
    exact setGeneration_pixels
  case reset => exact setGeneration_pixels

/-- The slot is the committed one, or a reader has it. -/
def Published (display : FrameDisplay width height) (slot : ℕ) : Prop :=
  slot = display.committedFrame ∨ display.IsLeased slot

theorem SlotsKept.published_lt (h : display.SlotsKept) (hslot : display.Published slot) :
    slot < display.slotCount := by
  rcases hslot with rfl | ⟨lease, hlease, rfl⟩
  · exact h.made _ h.committed
  · exact h.leased lease hlease

theorem SlotsKept.published_ne (h : display.SlotsKept) (hslot : display.Published slot) {filled : ℕ}
    (hfilled : display.filledSlot = some filled) : slot ≠ filled := by
  obtain ⟨_, hcommitted, hcount⟩ := h.filled filled hfilled
  rintro rfl
  exact hslot.elim hcommitted (h.not_isLeased hcount)

theorem Kept.step_pixels (h : display.Kept) (hstep : display.step event = some next)
    (hslot : display.Published slot) : (next.slots slot).pixels = (display.slots slot).pixels := by
  rcases step_cases hstep with ⟨_, hproceed⟩ | ⟨previousGeneration, _, rfl⟩ |
    ⟨index, lease, _, hlease, hrelease⟩ | ⟨hidle, rfl⟩
  · unfold FrameDisplay.proceed at hproceed
    cases htask : display.task with
    | none =>
      rw [htask] at hproceed
      cases hproceed
    | some task =>
      rw [htask] at hproceed
      have hfilled : display.filledSlot = task.slot := by
        rw [filledSlot, htask]
        rfl
      have hother : ∀ {filled pixels}, display.filledSlot = some filled →
          ((display.setPixels filled pixels).slots slot).pixels = (display.slots slot).pixels := by
        intro filled pixels hfilled
        rw [setPixels, updateSlot_of_ne (h.slots.published_ne hslot hfilled)]
      cases task <;> obtain rfl := Option.some.inj hproceed
      case makeSlot => rfl
      case addSlot =>
        exact congrArg PublishedFrameSlot.pixels
          (Function.update_of_ne (h.slots.published_lt hslot).ne _ display.slots)
      case copyDamage => exact hother hfilled
      case tagSlot => exact setGeneration_pixels
      case drawFrame => exact hother hfilled
      case publish => exact display.publish_pixels ..
  · unfold FrameDisplay.frameLease
    split
    · rfl
    · split
      · exact addLease_pixels
      · have htaken := h.slots.prepareCursorFrame
        refine addLease_pixels.trans (congrArg _ (htaken.others slot ?_))
        rintro rfl
        exact hslot.elim (fun hcommitted => htaken.not_mem (hcommitted ▸ h.slots.committed))
          htaken.not_leased
  · unfold FrameDisplay.releaseLease at hrelease
    split at hrelease
    · split at hrelease
      · obtain rfl := Option.some.inj hrelease
        exact addLease_pixels
      · cases hrelease
    · obtain rfl := Option.some.inj hrelease
      rfl
  · rw [command_slots]

theorem SlotsKept.leaseCount_nonneg (h : display.SlotsKept) (slot : ℕ) :
    0 ≤ (display.slots slot).leaseCount :=
  (Int.natCast_nonneg _).trans (h.counted slot)

theorem SlotsKept.release_isSome (h : display.SlotsKept) {index : ℕ} (hindex : index < display.leases.length) :
    (display.step (.release index)).isSome := by
  have hcounted := h.counted display.leases[index].slot
  have hpositive : 0 < display.leases.countP fun lease => lease.slot = display.leases[index].slot :=
    List.countP_pos_iff.mpr ⟨_, List.getElem_mem hindex, by simp⟩
  unfold FrameDisplay.step
  simp only [List.getElem?_eq_getElem hindex]
  unfold FrameDisplay.releaseLease
  split
  · rw [if_pos]
    · rfl
    · change 0 < (display.slots display.leases[index].slot).leaseCount
      omega
  · rfl

theorem Kept.flush_damaged (h : display.Kept) {flush : FrameFlush} {scanout : GpuScanout}
    {needsFullFrame : Bool} (htask : display.task = some (.publish slot damage (.flush flush scanout needsFullFrame)))
    (hstep : display.step .proceed = some next) {place : Fin width × Fin height}
    (hne : next.committedPixels place ≠ display.committedPixels place) :
    display.committedGeneration < next.committedGeneration ∧
      ∃ record ∈ next.damageHistory, record.1 = next.committedGeneration ∧ FrameCovers record.2 place := by
  have hcovers := h.frames.task
  unfold TaskKept at hcovers
  rw [htask] at hcovers
  unfold FrameDisplay.step FrameDisplay.proceed at hstep
  rw [htask] at hstep
  obtain rfl := Option.some.inj hstep
  refine @commit_recorded _ _ { display with
    committedScanout := some scanout, committedFrame := slot, task := none } damage place (hcovers place ?_)
  have hpixels : (display.publish slot damage (.flush flush scanout needsFullFrame)).committedPixels =
      (display.slots slot).pixels := by
    unfold committedPixels
    rw [publish_pixels]
    congr 2
    exact commit_committedFrame
  rw [hpixels] at hne
  exact hne.symm

end FrameDisplay

end Pinecone
