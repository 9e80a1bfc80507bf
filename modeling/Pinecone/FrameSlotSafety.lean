import Pinecone.ConditionalRuns
import Pinecone.FrameDamage

/-! The frame slots of VirtIOGPU.swift in every interleaving of the commands, their pixel work and the
readers: nothing is written that is committed or leased, and the generation of a slot says which frame it
has. -/

namespace Pinecone

open GpuRectangle DamageLog

namespace FrameDisplay

variable {width height : ℕ} {display next : FrameDisplay width height} {slot other : ℕ} {count : ℤ}
  {pixels : GpuFrame width height} {generation : Option ℕ} {command : FrameCommand}
  {damage : List GpuRectangle}

/-- The slot that the running command fills. -/
def filledSlot (display : FrameDisplay width height) : Option ℕ := display.task.bind FrameTask.slot

/-- What a run keeps of the slots and the leases. -/
structure SlotsKept (display : FrameDisplay width height) : Prop where
  committed : display.committedFrame ∈ display.frameSlots
  made : ∀ slot ∈ display.frameSlots, slot < display.slotCount
  cursor : ∀ slot, display.cursorFrame = some slot → slot < display.slotCount ∧ slot ∉ display.frameSlots
  leased : ∀ lease ∈ display.leases, lease.slot < display.slotCount
  counted : ∀ slot,
    (display.leases.countP fun lease => lease.slot = slot : ℕ) ≤ (display.slots slot).leaseCount
  filled : ∀ slot, display.filledSlot = some slot →
    slot ∈ display.frameSlots ∧ slot ≠ display.committedFrame ∧ (display.slots slot).leaseCount = 0

/-- What the running command has done to the slot that it fills. -/
def TaskKept (display : FrameDisplay width height) : Prop :=
  match display.task with
  | some (.copyDamage slot damage _) => ∀ place,
      (display.slots slot).pixels place ≠ display.committedPixels place → FrameCovers damage place
  | some (.tagSlot slot _) => (display.slots slot).pixels = display.committedPixels
  | some (.drawFrame slot command) =>
      command.copyContents = true → (display.slots slot).pixels = display.committedPixels
  | some (.publish slot damage (.flush ..)) => ∀ place,
      display.committedPixels place ≠ (display.slots slot).pixels place → FrameCovers damage place
  | _ => True

/-- The slot has the frame that was committed as its generation. -/
def Tagged (display : FrameDisplay width height) (slot : ℕ) : Prop :=
  ∀ generation, (display.slots slot).generation = some generation →
    generation ≤ display.committedGeneration ∧
      (display.slots slot).pixels = display.committedAs generation

/-- What a run keeps of the frames. -/
structure FramesKept (display : FrameDisplay width height) : Prop where
  logs : display.Logs display.committedPixels display.committedAs
  tagged : ∀ slot ∈ display.frameSlots, display.filledSlot ≠ some slot → display.Tagged slot
  task : display.TaskKept

/-- A reader has a lease of the slot. -/
def IsLeased (display : FrameDisplay width height) (slot : ℕ) : Prop :=
  ∃ lease ∈ display.leases, lease.slot = slot

/-! ## Changes of one slot -/

theorem updateSlot_self {change : PublishedFrameSlot width height → PublishedFrameSlot width height} :
    (display.updateSlot slot change).slots slot = change (display.slots slot) := Function.update_self ..

theorem updateSlot_of_ne {change : PublishedFrameSlot width height → PublishedFrameSlot width height}
    (h : other ≠ slot) : (display.updateSlot slot change).slots other = display.slots other :=
  Function.update_of_ne h ..

@[simp] theorem setPixels_leaseCount :
    ((display.setPixels slot pixels).slots other).leaseCount = (display.slots other).leaseCount := by
  by_cases h : other = slot
  · rw [h, setPixels, updateSlot_self]
  · rw [setPixels, updateSlot_of_ne h]

@[simp] theorem setPixels_generation :
    ((display.setPixels slot pixels).slots other).generation = (display.slots other).generation := by
  by_cases h : other = slot
  · rw [h, setPixels, updateSlot_self]
  · rw [setPixels, updateSlot_of_ne h]

@[simp] theorem setGeneration_leaseCount :
    ((display.setGeneration slot generation).slots other).leaseCount =
      (display.slots other).leaseCount := by
  by_cases h : other = slot
  · rw [h, setGeneration, updateSlot_self]
  · rw [setGeneration, updateSlot_of_ne h]

@[simp] theorem setGeneration_pixels :
    ((display.setGeneration slot generation).slots other).pixels = (display.slots other).pixels := by
  by_cases h : other = slot
  · rw [h, setGeneration, updateSlot_self]
  · rw [setGeneration, updateSlot_of_ne h]

@[simp] theorem addLease_pixels :
    ((display.addLease slot count).slots other).pixels = (display.slots other).pixels := by
  by_cases h : other = slot
  · rw [h, addLease, updateSlot_self]
  · rw [addLease, updateSlot_of_ne h]

@[simp] theorem addLease_generation :
    ((display.addLease slot count).slots other).generation = (display.slots other).generation := by
  by_cases h : other = slot
  · rw [h, addLease, updateSlot_self]
  · rw [addLease, updateSlot_of_ne h]

theorem addLease_leaseCount : ((display.addLease slot count).slots other).leaseCount =
    (display.slots other).leaseCount + if other = slot then count else 0 := by
  by_cases h : other = slot
  · rw [if_pos h, h, addLease, updateSlot_self]
  · rw [if_neg h, addLease, updateSlot_of_ne h, add_zero]

/-! ## States that have the same slots -/

theorem SlotsKept.of_same (h : display.SlotsKept) (hframes : next.frameSlots = display.frameSlots)
    (hcommitted : next.committedFrame = display.committedFrame) (hcount : next.slotCount = display.slotCount)
    (hcursor : next.cursorFrame = display.cursorFrame) (hleases : next.leases = display.leases)
    (hslots : ∀ slot, (next.slots slot).leaseCount = (display.slots slot).leaseCount)
    (hfilled : ∀ slot, next.filledSlot = some slot → display.filledSlot = some slot) : next.SlotsKept where
  committed := by rw [hcommitted, hframes]; exact h.committed
  made := by rw [hframes, hcount]; exact h.made
  cursor := by rw [hcursor, hcount, hframes]; exact h.cursor
  leased := by rw [hleases, hcount]; exact h.leased
  counted := fun slot => by rw [hleases, hslots]; exact h.counted slot
  filled := fun slot hslot => by rw [hframes, hcommitted, hslots]; exact h.filled slot (hfilled slot hslot)

theorem FramesKept.of_same (h : display.FramesKept) (hkept : display.SlotsKept)
    (hframes : next.frameSlots = display.frameSlots)
    (hcommitted : next.committedFrame = display.committedFrame)
    (hhistory : next.damageHistory = display.damageHistory)
    (hgeneration : next.committedGeneration = display.committedGeneration)
    (himages : next.committedAs = display.committedAs) (htask : next.task = display.task)
    (hslots : ∀ slot ∈ display.frameSlots, (next.slots slot).pixels = (display.slots slot).pixels ∧
      (next.slots slot).generation = (display.slots slot).generation) : next.FramesKept := by
  have hpixels : next.committedPixels = display.committedPixels := by
    rw [committedPixels, hcommitted]
    exact (hslots _ hkept.committed).1
  have hfilled : next.filledSlot = display.filledSlot := by rw [filledSlot, htask, ← filledSlot]
  refine ⟨?_, fun slot hmem hne => ?_, ?_⟩
  · rw [Logs, hhistory, hgeneration, hpixels, himages]
    exact h.logs
  · rw [hframes] at hmem
    rw [hfilled] at hne
    rw [Tagged, (hslots slot hmem).1, (hslots slot hmem).2, hgeneration, himages]
    exact h.tagged slot hmem hne
  · have htaskKept := h.task
    have hslot : ∀ slot, display.filledSlot = some slot →
        (next.slots slot).pixels = (display.slots slot).pixels := fun slot hslot =>
      (hslots slot (hkept.filled slot hslot).1).1
    unfold TaskKept at htaskKept ⊢
    unfold filledSlot at hslot
    rw [htask, hpixels]
    cases hrunning : display.task with
    | none => trivial
    | some task =>
      rw [hrunning] at htaskKept hslot
      cases task with
      | makeSlot command => trivial
      | addSlot command => trivial
      | copyDamage slot damage command =>
        dsimp only
        rwa [hslot slot rfl]
      | tagSlot slot command =>
        dsimp only
        rwa [hslot slot rfl]
      | drawFrame slot command =>
        dsimp only
        rwa [hslot slot rfl]
      | publish slot damage command =>
        cases command with
        | flush flush scanout needsFullFrame =>
          dsimp only
          rwa [hslot slot rfl]
        | disable => trivial
        | unref resourceID => trivial
        | reset => trivial

/-- What a run keeps. -/
structure Kept (display : FrameDisplay width height) : Prop where
  slots : display.SlotsKept
  frames : display.FramesKept

theorem initial_kept (width height : ℕ) : (initial width height).Kept where
  slots := by
    refine ⟨List.mem_singleton.mpr rfl, ?_, ?_, ?_, fun slot => le_rfl, ?_⟩
    · intro slot hmem
      rw [List.mem_singleton.mp hmem]
      exact Nat.one_pos
    · intro slot hcursor
      cases hcursor
    · intro lease hmem
      cases hmem
    · intro slot hfilled
      cases hfilled
  frames := by
    refine ⟨⟨consecutive_nil, rfl, fun older hle => ?_⟩, ?_, trivial⟩
    · obtain rfl := Nat.le_zero.mp hle
      exact Follows.refl ..
    · intro slot hmem hne generation htag
      cases htag

/-! ## Commits and cursors -/

theorem Kept.commit (h : display.Kept) (damage : List GpuRectangle) : (display.commit damage).Kept where
  slots := h.slots.of_same commit_frameSlots commit_committedFrame commit_slotCount commit_cursorFrame
    commit_leases (fun slot => by rw [commit_slots]) fun slot => by
      rw [filledSlot, commit_task]
      exact id
  frames := by
    refine ⟨?_, fun slot hmem hne generation htag => ?_, ?_⟩
    · rw [commit_committedPixels]
      exact logs_commit h.frames.logs fun place hne => absurd rfl hne
    · rw [commit_frameSlots] at hmem
      rw [filledSlot, commit_task] at hne
      rw [commit_slots] at htag ⊢
      obtain ⟨hle, hpixels⟩ := h.frames.tagged slot hmem hne generation htag
      rw [commit_committedAs hle]
      exact ⟨hle.trans le_commit_committedGeneration, hpixels⟩
    · unfold TaskKept
      rw [commit_task, commit_slots, commit_committedPixels]
      exact h.frames.task

theorem Kept.displayStateChanged (h : display.Kept) (damage : Option GpuRectangle) :
    (display.displayStateChanged damage).Kept := by
  unfold FrameDisplay.displayStateChanged
  cases damage with
  | none => exact h
  | some damage =>
    dsimp only
    split
    · exact h.commit [damage]
    · exact h

theorem Kept.withCursor (h : display.Kept) (scanout committedScanout : Option GpuScanout)
    (cursor : Option GpuCursor) (image : Option CursorImage) (cursorFrameGeneration : Option ℕ) :
    ({ display with
        scanout := scanout
        committedScanout := committedScanout
        cursor := cursor
        cursorPixels := image
        cursorFrameGeneration := cursorFrameGeneration } : FrameDisplay width height).Kept where
  slots := h.slots.of_same rfl rfl rfl rfl rfl (fun _ => rfl) fun _ => id
  frames := h.frames.of_same h.slots rfl rfl rfl rfl rfl rfl fun _ _ => ⟨rfl, rfl⟩

theorem Kept.dropCursor (h : display.Kept) : display.dropCursor.Kept :=
  (h.withCursor display.scanout display.committedScanout none none
    display.cursorFrameGeneration).displayStateChanged _

theorem Kept.dropCursorOf (h : display.Kept) (resourceID : BitVec 32) :
    (display.dropCursorOf resourceID).Kept := by
  unfold FrameDisplay.dropCursorOf
  split
  · exact h.dropCursor
  · exact h

/-! ## The start of a command -/

theorem unpublishedDamage_covers (hlogs : display.Logs display.committedPixels display.committedAs)
    (htagged : display.Tagged slot) {place : Fin width × Fin height}
    (hne : (display.slots slot).pixels place ≠ display.committedPixels place) :
    FrameCovers (display.unpublishedDamage slot) place := by
  unfold unpublishedDamage
  dsimp only
  split
  · rename_i hnewest
    refine absurd ?_ hne
    rw [(htagged _ hnewest).2, hlogs.newest]
  · cases hmetadata : display.frameMetadata (display.slots slot).generation with
    | none => exact frameCovers_full
    | some damage =>
      rw [Option.getD_some]
      cases hgeneration : (display.slots slot).generation with
      | none =>
        rw [hgeneration] at hmetadata
        rw [frameMetadata_none hmetadata]
        exact frameCovers_full
      | some generation =>
        rw [hgeneration] at hmetadata
        obtain ⟨hle, hpixels⟩ := htagged generation hgeneration
        rw [hpixels] at hne
        exact frameMetadata_covers hmetadata (hlogs.follows generation hle) hne

theorem Kept.takeSlot (h : display.Kept) (hidle : display.filledSlot = none)
    (hmem : slot ∈ display.frameSlots) (hne : slot ≠ display.committedFrame)
    (hcount : (display.slots slot).leaseCount = 0) (command : FrameCommand) :
    (display.takeSlot slot command).Kept := by
  have hfilled : (display.takeSlot slot command).filledSlot = some slot := by
    unfold FrameDisplay.takeSlot filledSlot
    split <;> rfl
  refine ⟨⟨h.slots.committed, h.slots.made, h.slots.cursor, h.slots.leased, h.slots.counted, ?_⟩,
    h.frames.logs, fun other hother _ => ?_, ?_⟩
  · intro other hother
    obtain rfl := Option.some.inj (hfilled.symm.trans hother)
    exact ⟨hmem, hne, hcount⟩
  · exact h.frames.tagged other hother (by rw [hidle]; exact Option.some_ne_none other |>.symm)
  · have htagged := h.frames.tagged slot hmem (by rw [hidle]; exact (Option.some_ne_none slot).symm)
    unfold FrameDisplay.takeSlot TaskKept
    by_cases hcopy : command.copyContents = true
    · rw [if_pos hcopy]
      exact fun place => unpublishedDamage_covers h.frames.logs htagged
    · rw [if_neg hcopy]
      exact fun hcopies => absurd hcopies hcopy

theorem Kept.begin (h : display.Kept) (hidle : display.task = none) (command : FrameCommand) :
    (display.begin command).Kept := by
  have hfilled : display.filledSlot = none := by rw [filledSlot, hidle]; rfl
  unfold FrameDisplay.begin
  split
  · rename_i available hfind
    have havailable := List.find?_some hfind
    rw [Bool.and_eq_true, decide_eq_true_eq, decide_eq_true_eq] at havailable
    exact h.takeSlot hfilled (List.mem_of_find?_eq_some hfind) havailable.1 havailable.2 command
  · refine ⟨h.slots.of_same rfl rfl rfl rfl rfl (fun _ => rfl) fun slot hslot => (by cases hslot),
      h.frames.logs, fun slot hmem _ => h.frames.tagged slot hmem ?_, trivial⟩
    rw [hfilled]
    exact (Option.some_ne_none slot).symm

/-! ## The pixel work -/

theorem updateSlot_committedPixels {change : PublishedFrameSlot width height → PublishedFrameSlot width height}
    (h : slot ≠ display.committedFrame) :
    (display.updateSlot slot change).committedPixels = display.committedPixels :=
  congrArg PublishedFrameSlot.pixels (updateSlot_of_ne h.symm)

theorem Kept.fill (h : display.Kept) (hfilled : display.filledSlot = some slot) {task : FrameTask}
    (hslot : task.slot = some slot)
    {change : PublishedFrameSlot width height → PublishedFrameSlot width height}
    (hcount : ∀ published, (change published).leaseCount = published.leaseCount)
    (htask : ({ display.updateSlot slot change with task := some task } :
      FrameDisplay width height).TaskKept) :
    ({ display.updateSlot slot change with task := some task } : FrameDisplay width height).Kept where
  slots := by
    refine h.slots.of_same rfl rfl rfl rfl rfl (fun other => ?_) fun other hother => ?_
    · change ((display.updateSlot slot change).slots other).leaseCount = _
      by_cases hother : other = slot
      · rw [hother, updateSlot_self, hcount]
      · rw [updateSlot_of_ne hother]
    · exact hfilled.trans (hslot.symm.trans hother)
  frames := by
    refine ⟨?_, fun other hmem hne => ?_, htask⟩
    · have hpixels : (display.updateSlot slot change).committedPixels = display.committedPixels :=
        updateSlot_committedPixels (h.slots.filled slot hfilled).2.1
      change Versions _ _ _ (display.updateSlot slot change).committedPixels _
      rw [hpixels]
      exact h.frames.logs
    · have hother : other ≠ slot := fun heq => hne (by rw [heq]; exact hslot)
      intro generation htag
      change ((display.updateSlot slot change).slots other).generation = some generation at htag
      change _ ∧ ((display.updateSlot slot change).slots other).pixels = _
      rw [updateSlot_of_ne hother] at htag ⊢
      refine h.frames.tagged other hmem (fun heq => hother ?_) generation htag
      exact Option.some.inj (heq.symm.trans hfilled)

theorem Kept.addSlot (h : display.Kept) (hidle : display.filledSlot = none) :
    ({ display with
        slots := Function.update display.slots display.slotCount ⟨fun _ => 0, 0, none⟩
        slotCount := display.slotCount + 1
        frameSlots := display.frameSlots ++ [display.slotCount] } : FrameDisplay width height).Kept := by
  have hother : ∀ slot ∈ display.frameSlots, slot ≠ display.slotCount := fun slot hmem heq =>
    (h.slots.made slot hmem).ne heq
  have hcommitted := hother _ h.slots.committed
  refine ⟨⟨List.mem_append_left _ h.slots.committed, ?_, ?_, ?_, ?_, ?_⟩, ?_, ?_, ?_⟩
  · intro slot hmem
    rcases List.mem_append.mp hmem with hmem | hmem
    · exact (h.slots.made slot hmem).trans (Nat.lt_succ_self _)
    · rw [List.mem_singleton.mp hmem]
      exact Nat.lt_succ_self _
  · intro slot hcursor
    obtain ⟨hlt, hnot⟩ := h.slots.cursor slot hcursor
    refine ⟨hlt.trans (Nat.lt_succ_self _), fun hmem => ?_⟩
    rcases List.mem_append.mp hmem with hmem | hmem
    · exact hnot hmem
    · exact hlt.ne (List.mem_singleton.mp hmem)
  · exact fun lease hlease => (h.slots.leased lease hlease).trans (Nat.lt_succ_self _)
  · intro slot
    by_cases hslot : slot = display.slotCount
    · have hnone : display.leases.countP (fun lease => lease.slot = slot) = 0 := by
        refine List.countP_eq_zero.mpr fun lease hlease => ?_
        have := h.slots.leased lease hlease
        simp only [decide_eq_true_eq]
        omega
      simp only [hslot, Function.update_self] at hnone ⊢
      rw [hnone]
      rfl
    · simp only [Function.update_of_ne hslot]
      exact h.slots.counted slot
  · intro slot hslot
    cases hidle.symm.trans hslot
  · unfold Logs committedPixels
    simp only [Function.update_of_ne hcommitted]
    exact h.frames.logs
  · intro slot hmem _
    unfold Tagged
    rcases List.mem_append.mp hmem with hmem | hmem
    · simp only [Function.update_of_ne (hother slot hmem)]
      exact h.frames.tagged slot hmem (by rw [hidle]; exact (Option.some_ne_none slot).symm)
    · simp only [List.mem_singleton.mp hmem, Function.update_self]
      intro generation htag
      cases htag
  · unfold TaskKept filledSlot at *
    dsimp only
    cases htask : display.task with
    | none => trivial
    | some task =>
      rw [htask] at hidle
      cases task with
      | makeSlot command => trivial
      | addSlot command => trivial
      | copyDamage slot damage command => cases hidle
      | tagSlot slot command => cases hidle
      | drawFrame slot command => cases hidle
      | publish slot damage command => cases hidle

theorem SlotsKept.publish (h : display.SlotsKept) (hfilled : display.filledSlot = some slot)
    (hframes : next.frameSlots = display.frameSlots) (hcommitted : next.committedFrame = slot)
    (hcount : next.slotCount = display.slotCount)
    (hcursor : next.cursorFrame = display.cursorFrame ∨ next.cursorFrame = none)
    (hleases : next.leases = display.leases)
    (hslots : ∀ slot, (next.slots slot).leaseCount = (display.slots slot).leaseCount)
    (htask : next.task = none) : next.SlotsKept where
  committed := by rw [hcommitted, hframes]; exact (h.filled slot hfilled).1
  made := by rw [hframes, hcount]; exact h.made
  cursor := fun other hother => by
    rcases hcursor with hcursor | hcursor
    · rw [hcount, hframes]
      exact h.cursor other (hcursor ▸ hother)
    · cases hcursor.symm.trans hother
  leased := by rw [hleases, hcount]; exact h.leased
  counted := fun slot => by rw [hleases, hslots]; exact h.counted slot
  filled := fun slot hslot => by
    rw [filledSlot, htask] at hslot
    cases hslot

theorem Kept.commitSlot (h : display.Kept) (hfilled : display.filledSlot = some slot)
    {published : FrameDisplay width height} (hkept : published.SlotsKept)
    (hframes : published.frameSlots = display.frameSlots) (hcommitted : published.committedFrame = slot)
    (hhistory : published.damageHistory = display.damageHistory)
    (hgeneration : published.committedGeneration = display.committedGeneration)
    (himages : published.committedAs = display.committedAs)
    (hpixels : ∀ other, (published.slots other).pixels = (display.slots other).pixels)
    (htags : ∀ other ≠ slot, (published.slots other).generation = (display.slots other).generation)
    (hcovers : ∀ place, display.committedPixels place ≠ (display.slots slot).pixels place →
      FrameCovers damage place) :
    (published.commit damage).SlotsKept ∧
      (published.commit damage).Logs published.committedPixels (published.commit damage).committedAs ∧
      ∀ other ∈ display.frameSlots, other ≠ slot → (published.commit damage).Tagged other := by
  have hnew : published.committedPixels = (display.slots slot).pixels := by
    rw [committedPixels, hcommitted, hpixels]
  refine ⟨hkept.of_same commit_frameSlots commit_committedFrame commit_slotCount commit_cursorFrame
    commit_leases (fun other => by rw [commit_slots]) fun other => ?_, ?_, fun other hmem hne => ?_⟩
  · rw [filledSlot, commit_task]
    exact id
  · have hlogs : published.Logs display.committedPixels published.committedAs := by
      rw [Logs, hhistory, hgeneration, himages]
      exact h.frames.logs
    exact logs_commit hlogs fun place hne => hcovers place (by rwa [← hnew])
  · intro generation htag
    rw [commit_slots, htags other hne] at htag
    obtain ⟨hle, htagged⟩ := h.frames.tagged other hmem (fun heq => hne
      (Option.some.inj (heq.symm.trans hfilled))) generation htag
    rw [← hgeneration] at hle
    rw [commit_slots, hpixels, commit_committedAs hle, himages]
    exact ⟨hle.trans le_commit_committedGeneration, htagged⟩

theorem Kept.publishFlush (h : display.Kept) (hfilled : display.filledSlot = some slot)
    (hcovers : ∀ place, display.committedPixels place ≠ (display.slots slot).pixels place →
      FrameCovers damage place) (flush : FrameFlush) (scanout : GpuScanout) (needsFullFrame : Bool) :
    (display.publish slot damage (.flush flush scanout needsFullFrame)).Kept := by
  unfold publish
  dsimp only
  have hpublished : ({ display with committedScanout := some scanout, committedFrame := slot, task := none } :
      FrameDisplay width height).SlotsKept :=
    h.slots.publish hfilled rfl rfl rfl (.inl rfl) rfl (fun _ => rfl) rfl
  obtain ⟨hkept, hlogs, htagged⟩ := h.commitSlot hfilled hpublished rfl rfl rfl rfl rfl (fun _ => rfl)
    (fun _ _ => rfl) hcovers
  generalize hcommitted : ({ display with
    committedScanout := some scanout, committedFrame := slot, task := none } :
      FrameDisplay width height).commit damage = committed at *
  have hframes : committed.frameSlots = display.frameSlots := by rw [← hcommitted, commit_frameSlots]
  have hslot : committed.committedFrame = slot := by rw [← hcommitted, commit_committedFrame]
  have htask : committed.task = none := by rw [← hcommitted, commit_task]
  have hpixels : committed.committedPixels = (display.slots slot).pixels := by
    rw [← hcommitted, commit_committedPixels]
    rfl
  refine ⟨hkept.of_same rfl rfl rfl rfl rfl (fun other => setGeneration_leaseCount) fun other => id,
    ?_, fun other hmem _ => ?_, ?_⟩
  · change Versions _ _ _ ((committed.setGeneration slot _).slots committed.committedFrame).pixels _
    rw [setGeneration_pixels, ← committedPixels, hpixels]
    exact hlogs
  · by_cases hother : other = slot
    · intro generation htag
      rw [hother, setGeneration, updateSlot_self] at htag
      obtain rfl := Option.some.inj htag
      rw [hother, setGeneration_pixels]
      refine ⟨le_rfl, ?_⟩
      rw [← hslot, ← committedPixels, hpixels]
      exact hlogs.newest.symm
    · intro generation htag
      rw [setGeneration, updateSlot_of_ne hother] at htag
      rw [setGeneration_pixels]
      exact htagged other (hframes ▸ hmem) hother generation htag
  · change TaskKept { committed with slots := _ }
    unfold TaskKept
    dsimp only
    rw [htask]
    trivial

theorem Kept.publishCleared (h : display.Kept) (hfilled : display.filledSlot = some slot) :
    (({ display.setGeneration slot none with committedFrame := slot, task := none } :
      FrameDisplay width height).commit [fullFrame width height]).Kept := by
  have hpublished : ({ display.setGeneration slot none with committedFrame := slot, task := none } :
      FrameDisplay width height).SlotsKept :=
    h.slots.publish hfilled rfl rfl rfl (.inl rfl) rfl (fun _ => setGeneration_leaseCount) rfl
  obtain ⟨hkept, hlogs, htagged⟩ := h.commitSlot hfilled hpublished rfl rfl rfl rfl rfl
    (fun _ => setGeneration_pixels) (fun other hne => by
      change ((display.setGeneration slot none).slots other).generation = _
      rw [setGeneration, updateSlot_of_ne hne])
    fun _ _ => frameCovers_full
  refine ⟨hkept, by rwa [commit_committedPixels], fun other hmem _ => ?_, ?_⟩
  · rw [commit_frameSlots] at hmem
    by_cases hother : other = slot
    · intro generation htag
      rw [commit_slots, hother] at htag
      change ((display.setGeneration slot none).slots slot).generation = some generation at htag
      rw [setGeneration, updateSlot_self] at htag
      cases htag
    · exact htagged other hmem hother
  · unfold TaskKept
    rw [commit_task]
    trivial

theorem Kept.publishReset (h : display.Kept) (hfilled : display.filledSlot = some slot) :
    (display.publish slot damage .reset).Kept := by
  refine ⟨h.slots.publish hfilled rfl rfl rfl (.inr rfl) rfl (fun _ => setGeneration_leaseCount) rfl,
    h.frames.logs.forget _, fun other hmem _ => ?_, trivial⟩
  intro generation htag
  change ((display.setGeneration slot none).slots other).generation = some generation at htag
  change _ ∧ ((display.setGeneration slot none).slots other).pixels = _
  by_cases hother : other = slot
  · rw [hother, setGeneration, updateSlot_self] at htag
    cases htag
  · rw [setGeneration, updateSlot_of_ne hother] at htag ⊢
    obtain ⟨hle, htagged⟩ := h.frames.tagged other hmem (fun heq => hother
      (Option.some.inj (heq.symm.trans hfilled))) generation htag
    refine ⟨hle.trans (Nat.le_succ _), htagged.trans ?_⟩
    exact (Function.update_of_ne (Nat.lt_succ_of_le hle).ne ..).symm

theorem Kept.proceed (h : display.Kept) (hproceed : display.proceed = some next) : next.Kept := by
  unfold FrameDisplay.proceed at hproceed
  have htaskKept := h.frames.task
  unfold TaskKept at htaskKept
  cases htask : display.task with
  | none =>
    rw [htask] at hproceed
    cases hproceed
  | some task =>
    rw [htask] at hproceed htaskKept
    have hfilled : display.filledSlot = task.slot := by
      rw [filledSlot, htask]
      rfl
    cases task with
    | makeSlot command =>
      obtain rfl := Option.some.inj hproceed
      refine ⟨h.slots.of_same rfl rfl rfl rfl rfl (fun _ => rfl) fun slot hslot => (by cases hslot),
        h.frames.logs, fun slot hmem _ => h.frames.tagged slot hmem ?_, trivial⟩
      rw [hfilled]
      exact (Option.some_ne_none slot).symm
    | addSlot command =>
      obtain rfl := Option.some.inj hproceed
      refine (h.addSlot hfilled).takeSlot hfilled (List.mem_append_right _ List.mem_cons_self) ?_ ?_ command
      · exact (h.slots.made _ h.slots.committed).ne'
      · simp only [Function.update_self]
    | copyDamage slot damage command =>
      obtain rfl := Option.some.inj hproceed
      have hslot := (h.slots.filled slot hfilled).2.1
      refine h.fill hfilled rfl (fun _ => rfl) ?_
      let copied := display.copyDamage damage (display.slots slot).pixels
      change ((display.setPixels slot copied).slots slot).pixels = (display.setPixels slot copied).committedPixels
      rw [setPixels, updateSlot_self, updateSlot_committedPixels hslot]
      funext place
      change display.copyDamage damage (display.slots slot).pixels place = _
      rw [copyDamage_apply]
      split
      · rfl
      · rename_i hnot
        by_contra hne
        exact hnot (htaskKept place hne)
    | tagSlot slot command =>
      obtain rfl := Option.some.inj hproceed
      have hslot := (h.slots.filled slot hfilled).2.1
      refine h.fill hfilled rfl (fun _ => rfl) fun _ => ?_
      let tag := some display.committedGeneration
      change ((display.setGeneration slot tag).slots slot).pixels =
        (display.setGeneration slot tag).committedPixels
      rw [setGeneration_pixels, setGeneration, updateSlot_committedPixels hslot]
      exact htaskKept
    | drawFrame slot command =>
      obtain rfl := Option.some.inj hproceed
      have hslot := (h.slots.filled slot hfilled).2.1
      refine h.fill hfilled rfl (fun _ => rfl) ?_
      cases command with
      | flush flush scanout needsFullFrame =>
        intro place hne
        let drawn := (flush.draw needsFullFrame (display.slots slot).pixels).1
        change (display.setPixels slot drawn).committedPixels place ≠
          ((display.setPixels slot drawn).slots slot).pixels place at hne
        rw [setPixels, updateSlot_self, updateSlot_committedPixels hslot] at hne
        cases needsFullFrame with
        | true => exact frameCovers_full
        | false =>
          rw [← htaskKept rfl] at hne
          exact flush.draw_damaged false (display.slots slot).pixels place hne
      | disable => trivial
      | unref resourceID => trivial
      | reset => trivial
    | publish slot damage command =>
      obtain rfl := Option.some.inj hproceed
      cases command with
      | flush flush scanout needsFullFrame => exact h.publishFlush hfilled htaskKept flush scanout needsFullFrame
      | disable => exact h.publishCleared hfilled
      | unref resourceID => exact (h.publishCleared hfilled).dropCursorOf resourceID
      | reset => exact h.publishReset hfilled

end FrameDisplay

end Pinecone
