import Pinecone.DisplayedImages
import Pinecone.PublishedFrames

/-! The damage that VirtIOGPU.swift returns, for readers that keep the image which is displayed. -/

namespace Pinecone

open GpuRectangle DamageLog

namespace FrameDisplay

variable {width height : ℕ} {display next mid : FrameDisplay width height} {damage : List GpuRectangle}
  {event : DisplayEvent} {events : List DisplayEvent} {generation : ℕ} {held frame : GpuFrame width height}
  {place : Fin width × Fin height} {cursor newCursor : Option GpuCursor} {slot : ℕ}

/-- The event does not change the pixels of the cursor's image in place. -/
def KeepsCursorImage (display : FrameDisplay width height) : DisplayEvent → Prop
  | .refreshCursorPixels resourceID image =>
      display.cursor.map GpuCursor.resourceID = some resourceID →
        ∀ x y, 0 ≤ x → x < 64 → 0 ≤ y → y < 64 → display.cursorPixels.map (· x y) = some (image x y)
  | _ => True

theorem overlay_kept {image : CursorImage} {old : Option CursorImage}
    (h : ∀ x y, 0 ≤ x → x < 64 → 0 ≤ y → y < 64 → old.map (· x y) = some (image x y)) :
    overlay cursor (some image) frame = overlay cursor old frame := by
  funext place
  unfold overlay
  cases cursor with
  | none => rfl
  | some cursor =>
    cases old with
    | none => cases h 0 0 le_rfl (by omega) le_rfl (by omega)
    | some old =>
      dsimp only
      split_ifs with hcontains
      · have hpixel := h (place.1 - cursor.bounds.x) (place.2 - cursor.bounds.y)
        simp only [Contains, GpuCursor.bounds] at hcontains hpixel
        have hsame := Option.some.inj (hpixel (by omega) (by omega) (by omega) (by omega))
        exact congrArg (sourceOver · (frame place)) hsame.symm
      · rfl

/-! ## What a step does for those who have an image -/

theorem combinedCursorDamage_contains
    (h : (∃ old, cursor = some old ∧ old.bounds.Contains place.1 place.2) ∨
      ∃ new, newCursor = some new ∧ new.bounds.Contains place.1 place.2) :
    ∃ rectangle, combinedCursorDamage (cursor.bind fun cursor => cursor.rectangle width height)
        (newCursor.bind fun cursor => cursor.rectangle width height) = some rectangle ∧
      rectangle.Contains place.1 place.2 := by
  rcases h with ⟨old, rfl, hcontains⟩ | ⟨new, rfl, hcontains⟩
  · obtain ⟨visible, hvisible, hplace⟩ := (cursorRectangle_contains place).mpr hcontains
    rw [Option.bind_some, hvisible]
    cases newCursor.bind fun cursor => cursor.rectangle width height with
    | none => exact ⟨visible, rfl, hplace⟩
    | some other => exact ⟨_, rfl, contains_union_left hplace⟩
  · obtain ⟨visible, hvisible, hplace⟩ := (cursorRectangle_contains place).mpr hcontains
    rw [Option.bind_some, hvisible]
    cases cursor.bind fun cursor => cursor.rectangle width height with
    | none => exact ⟨visible, rfl, hplace⟩
    | some other => exact ⟨_, rfl, contains_union_right hplace⟩

theorem Advances.begin (display : FrameDisplay width height) (command : FrameCommand) :
    display.Advances (display.begin command) := by
  unfold FrameDisplay.begin
  split <;> exact Advances.of_same rfl rfl rfl rfl

theorem Advances.withCursor (hlog : Consecutive display.damageHistory display.committedGeneration)
    (hempty : display.hasCommittedFrame = false → display.damageHistory = []) (cursor : Option GpuCursor)
    (image : Option CursorImage) (cursorFrameGeneration : Option ℕ) {damage : Option GpuRectangle}
    (hdamage : damage = combinedCursorDamage display.cursorRectangle
      (cursor.bind fun cursor => cursor.rectangle width height)) :
    display.Advances (({ display with
      cursor := cursor, cursorPixels := image, cursorFrameGeneration := cursorFrameGeneration } :
        FrameDisplay width height).displayStateChanged damage) := by
  refine @Advances.displayStateChanged _ _ display { display with
    cursor := cursor, cursorPixels := image, cursorFrameGeneration := cursorFrameGeneration }
    hlog hempty rfl rfl rfl damage fun place hne => ?_
  rw [compositedPixels_eq, compositedPixels_eq] at hne
  rw [hdamage]
  exact combinedCursorDamage_contains (overlay_ne hne)

theorem Advances.dropCursor (hlog : Consecutive display.damageHistory display.committedGeneration)
    (hempty : display.hasCommittedFrame = false → display.damageHistory = []) :
    display.Advances display.dropCursor := by
  refine Advances.withCursor hlog hempty none none display.cursorFrameGeneration ?_
  rw [Option.bind_none]
  cases display.cursorRectangle <;> rfl

theorem Advances.dropCursorOf (hlog : Consecutive display.damageHistory display.committedGeneration)
    (hempty : display.hasCommittedFrame = false → display.damageHistory = []) (resourceID : BitVec 32) :
    display.Advances (display.dropCursorOf resourceID) := by
  unfold FrameDisplay.dropCursorOf
  split
  · exact Advances.dropCursor hlog hempty
  · exact Advances.of_same rfl rfl rfl rfl

theorem command_advances (h : display.Kept) (hbounds : display.BoundsKept)
    (hkeeps : display.KeepsCursorImage event) : display.Advances (display.command event) := by
  have hlog := h.frames.logs.consecutive
  have hsame : ∀ {next : FrameDisplay width height}, next.damageHistory = display.damageHistory →
      next.committedGeneration = display.committedGeneration →
      next.hasCommittedFrame = display.hasCommittedFrame →
      next.compositedPixels = display.compositedPixels → display.Advances next := Advances.of_same
  have hcleared : display.Advances { display with scanout := none, committedScanout := none } :=
    hsame rfl rfl rfl rfl
  cases event <;> unfold FrameDisplay.command <;> dsimp only
  case setScanout => split <;> exact hsame rfl rfl rfl rfl
  case disableScanout => exact hcleared.trans (Advances.begin _ _)
  case flush =>
    unfold FrameDisplay.beginFlush
    split
    · exact hsame rfl rfl rfl rfl
    · dsimp only
      split
      · exact Advances.begin _ _
      · exact hsame rfl rfl rfl rfl
  case unref resourceID =>
    split
    · exact hcleared.trans (Advances.begin _ _)
    · exact Advances.dropCursorOf hlog hbounds.unpublished resourceID
  case reset => exact Advances.begin _ _
  case updateCursor cursor image =>
    exact Advances.withCursor hlog hbounds.unpublished (some cursor) (some image) none rfl
  case removeCursor => exact Advances.dropCursor hlog hbounds.unpublished
  case moveCursor x y =>
    split
    · exact Advances.withCursor hlog hbounds.unpublished (some _) display.cursorPixels
        display.cursorFrameGeneration rfl
    · exact hsame rfl rfl rfl rfl
  case refreshCursorPixels resourceID image =>
    split
    · rename_i hcursor
      refine hsame rfl rfl rfl ?_
      rw [compositedPixels_eq, compositedPixels_eq]
      exact overlay_kept (hkeeps hcursor)
    · exact hsame rfl rfl rfl rfl
  all_goals exact hsame rfl rfl rfl rfl

theorem publish_advances (h : display.Kept) (hbounds : display.BoundsKept) {command : FrameCommand}
    (htask : display.task = some (.publish slot damage command)) :
    display.Advances (display.publish slot damage command) := by
  have hlog := h.frames.logs.consecutive
  have hfilled : display.filledSlot = some slot := by
    rw [filledSlot, htask]
    rfl
  have hcleared : display.Advances (({ display.setGeneration slot none with
      committedFrame := slot, task := none } : FrameDisplay width height).commit
        [fullFrame width height]) :=
    @Advances.commit _ _ display { display.setGeneration slot none with
      committedFrame := slot, task := none } _ hlog rfl rfl rfl fun _ _ => frameCovers_full
  cases command <;> unfold FrameDisplay.publish <;> dsimp only
  case flush flush scanout needsFullFrame =>
    have hcovers := h.frames.task
    unfold TaskKept at hcovers
    rw [htask] at hcovers
    have hcommitted : display.Advances (({ display with
        committedScanout := some scanout, committedFrame := slot, task := none } :
          FrameDisplay width height).commit damage) := by
      refine @Advances.commit _ _ display { display with
        committedScanout := some scanout, committedFrame := slot, task := none } _ hlog rfl rfl rfl
          fun place hne => hcovers place fun heq => hne ?_
      rw [compositedPixels_eq, compositedPixels_eq]
      exact overlay_congr heq
    refine hcommitted.trans (Advances.of_same rfl rfl rfl ?_)
    rw [compositedPixels_eq, compositedPixels_eq]
    refine congrArg (overlay _ _) ?_
    exact setGeneration_pixels
  case disable => exact hcleared
  case unref resourceID =>
    have hkept := h.publishCleared hfilled
    have hpublished := @BoundsKept.publish _ _ display _ slot hbounds inFrame_full .disable
    exact hcleared.trans (Advances.dropCursorOf hkept.frames.logs.consecutive hpublished.unpublished resourceID)
  case reset =>
    intro generation held hholds
    exact ⟨hholds.follows.forget _, fun _ => Nat.lt_succ_of_le hholds.follows.le⟩

theorem Advances.fill (h : display.Kept) (hfilled : display.filledSlot = some slot)
    (change : PublishedFrameSlot width height → PublishedFrameSlot width height) (task : Option FrameTask) :
    display.Advances { display.updateSlot slot change with task := task } := by
  refine Advances.of_same rfl rfl rfl ?_
  rw [compositedPixels_eq, compositedPixels_eq]
  exact congrArg (overlay _ _) (updateSlot_committedPixels (h.slots.filled slot hfilled).2.1)

theorem proceed_advances (h : display.Kept) (hbounds : display.BoundsKept)
    (hproceed : display.proceed = some next) : display.Advances next := by
  unfold FrameDisplay.proceed at hproceed
  cases htask : display.task with
  | none =>
    rw [htask] at hproceed
    cases hproceed
  | some task =>
    rw [htask] at hproceed
    have hfilled : display.filledSlot = task.slot := by
      rw [filledSlot, htask]
      rfl
    cases task <;> obtain rfl := Option.some.inj hproceed
    case makeSlot command => exact Advances.of_same rfl rfl rfl rfl
    case addSlot command =>
      refine Advances.of_same rfl rfl rfl ?_
      rw [compositedPixels_eq, compositedPixels_eq]
      refine congrArg (overlay _ _) (congrArg PublishedFrameSlot.pixels ?_)
      exact Function.update_of_ne (h.slots.made _ h.slots.committed).ne _ display.slots
    case copyDamage slot damage command => exact Advances.fill h hfilled _ _
    case tagSlot slot command => exact Advances.fill h hfilled _ _
    case drawFrame slot command => exact Advances.fill h hfilled _ _
    case publish slot damage command => exact publish_advances h hbounds htask

/-! ## The cursor frame -/

/-- What the cursor frame keeps: it has the image of its generation. -/
structure CursorFrameKept (display : FrameDisplay width height) : Prop where
  made : display.cursorFrame = none → display.cursorFrameGeneration = none
  holds : ∀ slot generation, display.cursorFrame = some slot →
    display.cursorFrameGeneration = some generation → display.Holds generation (display.slots slot).pixels

theorem takeCursorFrame_pixels (hframe : display.cursorFrame = some slot) :
    (display.takeCursorFrame.2.slots display.takeCursorFrame.1).pixels = (display.slots slot).pixels := by
  unfold takeCursorFrame
  rw [hframe]
  dsimp only
  split
  · rfl
  · simp only [Function.update_self]

theorem CursorFrameKept.current (h : display.CursorFrameKept) (hnone : display.cursorFrameDamage = none) :
    (display.takeCursorFrame.2.slots display.takeCursorFrame.1).pixels = display.compositedPixels := by
  unfold cursorFrameDamage at hnone
  cases hgeneration : display.cursorFrameGeneration with
  | none =>
    rw [hgeneration] at hnone
    cases hnone
  | some generation =>
    rw [hgeneration] at hnone
    dsimp only at hnone
    split at hnone
    · rename_i hnewest
      cases hframe : display.cursorFrame with
      | none => cases (h.made hframe).symm.trans hgeneration
      | some slot =>
        rw [takeCursorFrame_pixels hframe]
        exact (h.holds slot generation hframe hgeneration).follows.same hnewest
    · cases hnone

theorem CursorFrameKept.damaged (h : display.CursorFrameKept) (hdamage : display.cursorFrameDamage = some damage)
    (hne : (display.takeCursorFrame.2.slots display.takeCursorFrame.1).pixels place ≠
      display.compositedPixels place) : FrameCovers damage place := by
  unfold cursorFrameDamage at hdamage
  cases hgeneration : display.cursorFrameGeneration with
  | none =>
    rw [hgeneration] at hdamage
    obtain rfl := Option.some.inj hdamage
    exact frameCovers_full
  | some generation =>
    rw [hgeneration] at hdamage
    dsimp only at hdamage
    split at hdamage
    · cases hdamage
    · obtain rfl := Option.some.inj hdamage
      cases hmetadata : display.frameMetadata (some generation) with
      | none => exact frameCovers_full
      | some damage =>
        cases hframe : display.cursorFrame with
        | none => cases (h.made hframe).symm.trans hgeneration
        | some slot =>
          rw [takeCursorFrame_pixels hframe] at hne
          exact frameMetadata_covers hmetadata (h.holds slot generation hframe hgeneration).follows hne

theorem cursorFrameDamage_disjoint (hdamage : display.cursorFrameDamage = some damage) : Disjoint damage := by
  unfold cursorFrameDamage at hdamage
  cases hgeneration : display.cursorFrameGeneration with
  | none =>
    rw [hgeneration] at hdamage
    obtain rfl := Option.some.inj hdamage
    exact List.pairwise_singleton _ _
  | some generation =>
    rw [hgeneration] at hdamage
    dsimp only at hdamage
    split at hdamage
    · cases hdamage
    · obtain rfl := Option.some.inj hdamage
      cases hmetadata : display.frameMetadata (some generation) with
      | none => exact List.pairwise_singleton _ _
      | some damage => exact frameMetadata_disjoint hmetadata

theorem CursorFrameKept.prepared (h : display.CursorFrameKept) :
    (display.prepareCursorFrame.2.slots display.prepareCursorFrame.1).pixels = display.compositedPixels := by
  unfold prepareCursorFrame
  cases hdamage : display.cursorFrameDamage with
  | none => exact h.current hdamage
  | some damage =>
    dsimp only
    change ((display.takeCursorFrame.2.setPixels _ _).slots display.takeCursorFrame.1).pixels = _
    rw [setPixels, updateSlot_self]
    funext place
    dsimp only
    rw [compositeCursor_apply _ (cursorFrameDamage_disjoint hdamage), compositedPixels_eq]
    by_cases hcovers : FrameCovers damage place
    · rw [if_pos hcovers]
      exact overlay_congr (by rw [copyDamage_apply, if_pos hcovers])
    · rw [if_neg hcovers, copyDamage_apply, if_neg hcovers, ← compositedPixels_eq]
      by_contra hne
      exact hcovers (h.damaged hdamage hne)

theorem takeCursorFrame_generation (display : FrameDisplay width height) :
    display.takeCursorFrame.2.cursorFrameGeneration = display.cursorFrameGeneration := by
  unfold takeCursorFrame
  cases display.cursorFrame with
  | none => rfl
  | some previous =>
    dsimp only
    split <;> rfl

theorem prepareCursorFrame_generation (display : FrameDisplay width height) :
    display.prepareCursorFrame.2.cursorFrameGeneration = some display.committedGeneration := by
  unfold prepareCursorFrame
  cases hdamage : display.cursorFrameDamage with
  | some damage => rfl
  | none =>
    refine (takeCursorFrame_generation display).trans ?_
    unfold cursorFrameDamage at hdamage
    cases hgeneration : display.cursorFrameGeneration with
    | none =>
      rw [hgeneration] at hdamage
      cases hdamage
    | some generation =>
      rw [hgeneration] at hdamage
      dsimp only at hdamage
      split at hdamage
      · rename_i hnewest
        rw [hnewest]
      · cases hdamage

/-! ## Steps and runs -/

theorem CursorFrameTaken.compositedPixels {taken : ℕ × FrameDisplay width height}
    (htaken : display.CursorFrameTaken taken) (h : display.SlotsKept) :
    taken.2.compositedPixels = display.compositedPixels := by
  have hcommitted : taken.2.committedPixels = display.committedPixels := by
    have hframe : taken.2.committedFrame = display.committedFrame := by rw [htaken.same]
    unfold committedPixels
    rw [hframe, htaken.others]
    rintro heq
    exact htaken.not_mem (heq ▸ h.committed)
  rw [compositedPixels_eq, compositedPixels_eq, hcommitted, htaken.same]

theorem CursorFrameTaken.advances {taken : ℕ × FrameDisplay width height}
    (htaken : display.CursorFrameTaken taken) (h : display.SlotsKept) : display.Advances taken.2 := by
  refine Advances.of_same ?_ ?_ ?_ (htaken.compositedPixels h) <;> rw [htaken.same]

theorem Advances.addLease (display : FrameDisplay width height) (slot : ℕ) (count : ℤ)
    (leases : List FrameLease) : display.Advances { display.addLease slot count with leases := leases } := by
  refine Advances.of_same rfl rfl rfl ?_
  rw [compositedPixels_eq, compositedPixels_eq]
  exact congrArg (overlay _ _) addLease_pixels

theorem frameLease_advances (h : display.SlotsKept) (previousGeneration : Option ℕ) :
    display.Advances (display.frameLease previousGeneration) := by
  unfold FrameDisplay.frameLease
  split
  · exact fun _ _ => id
  · split
    · exact Advances.addLease display _ _ _
    · exact (h.prepareCursorFrame.advances h).trans (Advances.addLease display.prepareCursorFrame.2 _ _ _)

theorem releaseLease_advances {index : ℕ} {lease : FrameLease}
    (hrelease : ({ display with leases := display.leases.eraseIdx index } :
      FrameDisplay width height).releaseLease lease = some next) : display.Advances next := by
  unfold FrameDisplay.releaseLease at hrelease
  split at hrelease
  · split at hrelease
    · obtain rfl := Option.some.inj hrelease
      exact Advances.addLease display _ _ _
    · cases hrelease
  · obtain rfl := Option.some.inj hrelease
    exact Advances.of_same rfl rfl rfl rfl

theorem step_advances (h : display.Kept) (hbounds : display.BoundsKept)
    (hkeeps : display.KeepsCursorImage event) (hstep : display.step event = some next) :
    display.Advances next := by
  rcases step_cases hstep with ⟨_, hproceed⟩ | ⟨previousGeneration, _, rfl⟩ |
    ⟨index, lease, _, hlease, hrelease⟩ | ⟨hidle, rfl⟩
  · exact proceed_advances h hbounds hproceed
  · exact frameLease_advances h.slots previousGeneration
  · exact releaseLease_advances hrelease
  · exact command_advances h hbounds hkeeps

/-- The cursor frame and its generation are the same ones. -/
def SameCursorFrame (display next : FrameDisplay width height) : Prop :=
  next.cursorFrame = display.cursorFrame ∧ next.cursorFrameGeneration = display.cursorFrameGeneration

namespace SameCursorFrame

theorem commit (display : FrameDisplay width height) (damage : List GpuRectangle) :
    display.SameCursorFrame (display.commit damage) := by
  rcases display.commit_cases damage with ⟨_, h⟩ | ⟨_, _, h⟩ <;> rw [h] <;> exact ⟨rfl, rfl⟩

theorem displayStateChanged (display : FrameDisplay width height) (damage : Option GpuRectangle) :
    display.SameCursorFrame (display.displayStateChanged damage) := by
  unfold FrameDisplay.displayStateChanged
  cases damage with
  | none => exact ⟨rfl, rfl⟩
  | some damage =>
    dsimp only
    split
    · exact commit display [damage]
    · exact ⟨rfl, rfl⟩

theorem dropCursorOf (display : FrameDisplay width height) (resourceID : BitVec 32) :
    display.SameCursorFrame (display.dropCursorOf resourceID) := by
  unfold FrameDisplay.dropCursorOf
  split
  · exact displayStateChanged { display with cursor := none, cursorPixels := none } _
  · exact ⟨rfl, rfl⟩

theorem begin (display : FrameDisplay width height) (command : FrameCommand) :
    display.SameCursorFrame (display.begin command) := by
  unfold FrameDisplay.begin
  split <;> exact ⟨rfl, rfl⟩

end SameCursorFrame

theorem command_cursorFrame (display : FrameDisplay width height) (event : DisplayEvent) :
    ((display.command event).cursorFrame = display.cursorFrame ∧
      (display.command event).cursorFrameGeneration = none) ∨
    (display.SameCursorFrame (display.command event) ∧ display.KeepsCursorImage event) := by
  cases event <;> unfold FrameDisplay.command <;> dsimp only
  case setScanout =>
    refine .inr ⟨?_, trivial⟩
    split <;> exact ⟨rfl, rfl⟩
  case disableScanout =>
    exact .inr ⟨SameCursorFrame.begin { display with scanout := none, committedScanout := none } _, trivial⟩
  case flush =>
    refine .inr ⟨?_, trivial⟩
    unfold FrameDisplay.beginFlush
    split
    · exact ⟨rfl, rfl⟩
    · dsimp only
      split
      · exact SameCursorFrame.begin display _
      · exact ⟨rfl, rfl⟩
  case unref resourceID =>
    refine .inr ⟨?_, trivial⟩
    split
    · exact SameCursorFrame.begin { display with scanout := none, committedScanout := none } _
    · exact SameCursorFrame.dropCursorOf display resourceID
  case reset => exact .inr ⟨SameCursorFrame.begin display _, trivial⟩
  case updateCursor cursor image =>
    exact .inl (SameCursorFrame.displayStateChanged { display with
      cursor := some cursor, cursorPixels := some image, cursorFrameGeneration := none } _)
  case removeCursor =>
    exact .inr ⟨SameCursorFrame.displayStateChanged { display with cursor := none, cursorPixels := none } _,
      trivial⟩
  case moveCursor x y =>
    refine .inr ⟨?_, trivial⟩
    split
    · exact SameCursorFrame.displayStateChanged { display with cursor := some _ } _
    · exact ⟨rfl, rfl⟩
  case refreshCursorPixels resourceID image =>
    split
    · exact .inl ⟨rfl, rfl⟩
    · rename_i hnot
      exact .inr ⟨⟨rfl, rfl⟩, fun hcursor => absurd hcursor hnot⟩
  all_goals exact .inr ⟨⟨rfl, rfl⟩, trivial⟩

theorem CursorFrameKept.of_advances (h : display.CursorFrameKept) (hadvances : display.Advances next)
    (hsame : display.SameCursorFrame next)
    (hpixels : ∀ slot, display.cursorFrame = some slot →
      (next.slots slot).pixels = (display.slots slot).pixels) : next.CursorFrameKept where
  made := by rw [hsame.1, hsame.2]; exact h.made
  holds := by
    intro slot generation hframe hgeneration
    rw [hsame.1] at hframe
    rw [hsame.2] at hgeneration
    rw [hpixels slot hframe]
    exact hadvances generation _ (h.holds slot generation hframe hgeneration)

theorem cursorFrameKept_of_none (hgeneration : next.cursorFrameGeneration = none) : next.CursorFrameKept where
  made := fun _ => hgeneration
  holds := by
    intro slot generation _ hsome
    cases hgeneration.symm.trans hsome

theorem CursorFrameKept.proceed (h : display.CursorFrameKept) (hkept : display.Kept)
    (hbounds : display.BoundsKept) (hproceed : display.proceed = some next) : next.CursorFrameKept := by
  have hadvances := proceed_advances hkept hbounds hproceed
  unfold FrameDisplay.proceed at hproceed
  cases htask : display.task with
  | none =>
    rw [htask] at hproceed
    cases hproceed
  | some task =>
    rw [htask] at hproceed
    have hfilled : display.filledSlot = task.slot := by
      rw [filledSlot, htask]
      rfl
    have hfill : ∀ {filled change task}, display.filledSlot = some filled →
        ({ display.updateSlot filled change with task := task } :
          FrameDisplay width height).CursorFrameKept := by
      intro filled change task hslot
      refine h.of_advances (Advances.fill hkept hslot change task) ⟨rfl, rfl⟩ fun slot hframe => ?_
      refine congrArg PublishedFrameSlot.pixels (updateSlot_of_ne ?_)
      rintro rfl
      exact (hkept.slots.cursor slot hframe).2 (hkept.slots.filled slot hslot).1
    cases task <;> obtain rfl := Option.some.inj hproceed
    case makeSlot command => exact h.of_advances hadvances ⟨rfl, rfl⟩ fun _ _ => rfl
    case addSlot command =>
      refine h.of_advances hadvances ⟨rfl, rfl⟩ fun slot hframe => congrArg PublishedFrameSlot.pixels ?_
      exact Function.update_of_ne (hkept.slots.cursor slot hframe).1.ne _ display.slots
    case copyDamage slot damage command => exact hfill hfilled
    case tagSlot slot command => exact hfill hfilled
    case drawFrame slot command => exact hfill hfilled
    case publish slot damage command =>
      have hpixels : ∀ other, display.cursorFrame = some other →
          ((display.publish slot damage command).slots other).pixels = (display.slots other).pixels :=
        fun _ _ => display.publish_pixels slot damage command
      cases command with
      | flush flush scanout needsFullFrame =>
        exact h.of_advances hadvances (SameCursorFrame.commit { display with
          committedScanout := some scanout, committedFrame := slot, task := none } damage) hpixels
      | disable =>
        exact h.of_advances hadvances (SameCursorFrame.commit { display.setGeneration slot none with
          committedFrame := slot, task := none } _) hpixels
      | unref resourceID =>
        have hcommit := SameCursorFrame.commit { display.setGeneration slot none with
          committedFrame := slot, task := none } [fullFrame width height]
        have hdrop := SameCursorFrame.dropCursorOf (({ display.setGeneration slot none with
          committedFrame := slot, task := none } : FrameDisplay width height).commit
            [fullFrame width height]) resourceID
        exact h.of_advances hadvances ⟨hdrop.1.trans hcommit.1, hdrop.2.trans hcommit.2⟩ hpixels
      | reset => exact cursorFrameKept_of_none rfl

theorem CursorFrameKept.frameLease (h : display.CursorFrameKept) (hkept : display.Kept)
    (previousGeneration : Option ℕ) : (display.frameLease previousGeneration).CursorFrameKept := by
  have hadvances := frameLease_advances hkept.slots previousGeneration
  unfold FrameDisplay.frameLease at hadvances ⊢
  cases hmetadata : display.frameMetadata previousGeneration with
  | none => exact h
  | some damage =>
    rw [hmetadata] at hadvances
    dsimp only at hadvances ⊢
    split
    · exact h.of_advances (Advances.addLease display _ _ _) ⟨rfl, rfl⟩ fun _ _ => addLease_pixels
    · have htaken := hkept.slots.prepareCursorFrame
      have hgeneration := prepareCursorFrame_generation display
      have hcommitted : display.Holds display.committedGeneration display.compositedPixels :=
        ⟨Follows.refl .., fun hfalse => by
          cases hfalse.symm.trans (frameMetadata_cases hmetadata).1⟩
      refine ⟨fun hnone => (by cases hnone.symm.trans htaken.cursor), fun slot generation hframe hsome => ?_⟩
      obtain rfl := Option.some.inj (htaken.cursor.symm.trans hframe)
      obtain rfl := Option.some.inj (hgeneration.symm.trans hsome)
      rw [addLease_pixels, h.prepared]
      exact ((htaken.advances hkept.slots).trans (Advances.addLease display.prepareCursorFrame.2 _ _ _)) _ _
        hcommitted

theorem CursorFrameKept.step (h : display.CursorFrameKept) (hkept : display.Kept)
    (hbounds : display.BoundsKept) (hstep : display.step event = some next) : next.CursorFrameKept := by
  rcases step_cases hstep with ⟨_, hproceed⟩ | ⟨previousGeneration, _, rfl⟩ |
    ⟨index, lease, _, hlease, hrelease⟩ | ⟨hidle, rfl⟩
  · exact h.proceed hkept hbounds hproceed
  · exact h.frameLease hkept previousGeneration
  · have hadvances := releaseLease_advances hrelease
    unfold FrameDisplay.releaseLease at hrelease
    split at hrelease
    · split at hrelease
      · obtain rfl := Option.some.inj hrelease
        exact h.of_advances hadvances ⟨rfl, rfl⟩ fun _ _ => addLease_pixels
      · cases hrelease
    · obtain rfl := Option.some.inj hrelease
      exact h.of_advances hadvances ⟨rfl, rfl⟩ fun _ _ => rfl
  · rcases display.command_cursorFrame event with ⟨_, hnone⟩ | ⟨hsame, hkeeps⟩
    · exact cursorFrameKept_of_none hnone
    · exact h.of_advances (command_advances hkept hbounds hkeeps) hsame fun slot _ => by rw [command_slots]

/-- What every run keeps. -/
structure DisplayKept (display : FrameDisplay width height) : Prop where
  kept : display.Kept
  bounds : display.BoundsKept
  cursorFrame : display.CursorFrameKept

theorem initial_displayKept (width height : ℕ) : (initial width height).DisplayKept where
  kept := initial_kept width height
  bounds := initial_boundsKept width height
  cursorFrame := cursorFrameKept_of_none rfl

theorem DisplayKept.step (h : display.DisplayKept) (hstep : display.step event = some next) :
    next.DisplayKept where
  kept := h.kept.step hstep
  bounds := h.bounds.step h.kept hstep
  cursorFrame := h.cursorFrame.step h.kept h.bounds hstep

theorem DisplayKept.run (h : display.DisplayKept) (hrun : display.run events = some next) :
    next.DisplayKept :=
  ConditionalRun.run_invariant DisplayKept hrun DisplayKept.step h

theorem DisplayKept.run_holds (h : display.DisplayKept) (hholds : display.Holds generation held)
    (hkeeps : ConditionalRun.Meets FrameDisplay.step KeepsCursorImage display events)
    (hrun : display.run events = some next) : next.Holds generation held :=
  (hkeeps.invariant (fun display => display.DisplayKept ∧ display.Holds generation held) hrun
    (fun hinv hcondition hstep => ⟨hinv.1.step hstep,
      step_advances hinv.1.kept hinv.1.bounds hcondition hstep generation held hinv.2⟩) ⟨h, hholds⟩).2

theorem DisplayKept.lease_pixels (h : display.DisplayKept) {previousGeneration : Option ℕ}
    (hmetadata : display.frameMetadata previousGeneration = some damage) :
    ∃ lease, (display.frameLease previousGeneration).leases = display.leases ++ [lease] ∧
      lease.generation = display.committedGeneration ∧ lease.damage = damage ∧
      ((display.frameLease previousGeneration).slots lease.slot).pixels = display.compositedPixels := by
  unfold FrameDisplay.frameLease
  rw [hmetadata]
  dsimp only
  split
  · rename_i hcursor
    refine ⟨_, rfl, rfl, rfl, ?_⟩
    dsimp only
    rw [addLease_pixels, ← committedPixels, compositedPixels_eq, Option.isNone_iff_eq_none.mp hcursor]
    rfl
  · refine ⟨_, rfl, rfl, rfl, ?_⟩
    dsimp only
    rw [addLease_pixels]
    exact h.cursorFrame.prepared

/-- A flush of one pixel and a cursor over it. -/
def cursorEvents : List DisplayEvent :=
  [.setScanout ⟨1, ⟨0, 0, 1, 1⟩⟩, .flush 1 (transferredPixel 1) ⟨0, 0, 1, 1⟩, .proceed, .proceed, .proceed,
    .proceed, .updateCursor ⟨2, 0, 0, 0, 0⟩ fun _ _ => 0xFF0000FF#32]

end FrameDisplay

end Pinecone
