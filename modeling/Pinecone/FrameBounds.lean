import Pinecone.FrameLeases

/-! All damage that VirtIOGPU.swift publishes lies in the frame. -/

namespace Pinecone

open GpuRectangle

variable {width height : ℕ}

/-- The rectangles lie in the frame. -/
def InFrame (width height : ℕ) (damage : List GpuRectangle) : Prop :=
  ∀ rectangle ∈ damage, rectangle.Inside (FrameDisplay.fullFrame width height)

theorem inFrame_singleton {rectangle : GpuRectangle}
    (h : rectangle.Inside (FrameDisplay.fullFrame width height)) : InFrame width height [rectangle] := by
  intro other hmem
  rwa [List.mem_singleton.mp hmem]

theorem inFrame_full : InFrame width height [FrameDisplay.fullFrame width height] :=
  inFrame_singleton ⟨⟨le_rfl, le_rfl⟩, le_rfl, le_rfl⟩

/-- A flush shows something of a scanout that fits the frame. -/
def FrameCommand.Fits (width height : ℕ) : FrameCommand → Prop
  | .flush drawn _ _ => (∃ visible, drawn.visible = some visible) ∧
      drawn.scanout.width ≤ width ∧ drawn.scanout.height ≤ height
  | _ => True

/-- What a task still needs of its command for its damage to lie in the frame. -/
def FrameTask.Fits (width height : ℕ) : FrameTask → Prop
  | .makeSlot command => command.Fits width height
  | .addSlot command => command.Fits width height
  | .copyDamage _ _ command => command.Fits width height
  | .tagSlot _ command => command.Fits width height
  | .drawFrame _ command => command.Fits width height
  | .publish _ damage _ => InFrame width height damage

namespace FrameDisplay

variable {display next : FrameDisplay width height} {damage : List GpuRectangle} {slot : ℕ}
  {event : DisplayEvent} {events : List DisplayEvent}

/-- What a run keeps of the damage history and of rectangles. -/
structure BoundsKept (display : FrameDisplay width height) : Prop where
  history : ∀ record ∈ display.damageHistory, InFrame width height record.2
  unpublished : display.hasCommittedFrame = false → display.damageHistory = []
  scanout : ∀ scanout, display.scanout = some scanout →
    scanout.rectangle.width ≤ width ∧ scanout.rectangle.height ≤ height
  task : ∀ task, display.task = some task → task.Fits width height

theorem initial_boundsKept (width height : ℕ) : (initial width height).BoundsKept where
  history := by
    intro record hmem
    cases hmem
  unpublished := fun _ => rfl
  scanout := by
    intro scanout hscanout
    cases hscanout
  task := by
    intro task htask
    cases htask

theorem commit_scanout : (display.commit damage).scanout = display.scanout := by
  rcases display.commit_cases damage with ⟨_, h⟩ | ⟨_, _, h⟩ <;> rw [h]

theorem BoundsKept.commit (h : display.BoundsKept) (hdamage : InFrame width height damage) :
    (display.commit damage).BoundsKept := by
  refine ⟨?_, ?_, by rw [commit_scanout]; exact h.scanout, by rw [commit_task]; exact h.task⟩
  · rcases display.commit_cases damage with ⟨_, hcommit⟩ | ⟨count, _, hcommit⟩ <;> rw [hcommit]
    · exact h.history
    · intro record hmem
      rcases List.mem_append.mp (List.mem_of_mem_drop hmem) with hmem | hmem
      · exact h.history record hmem
      · rw [List.mem_singleton.mp hmem]
        exact fun rectangle hrectangle => hdamage rectangle (List.mem_filter.mp hrectangle).1
  · rcases display.commit_cases damage with ⟨_, hcommit⟩ | ⟨count, _, hcommit⟩ <;> rw [hcommit]
    · exact h.unpublished
    · exact fun hfalse => (by cases hfalse)

theorem BoundsKept.displayStateChanged (h : display.BoundsKept) {damage : Option GpuRectangle}
    (hdamage : ∀ rectangle, damage = some rectangle → rectangle.Inside (fullFrame width height)) :
    (display.displayStateChanged damage).BoundsKept := by
  unfold FrameDisplay.displayStateChanged
  cases damage with
  | none => exact h
  | some damage =>
    dsimp only
    split
    · exact h.commit (inFrame_singleton (hdamage damage rfl))
    · exact h

theorem cursorRectangle_inside {rectangle : GpuRectangle} (h : display.cursorRectangle = some rectangle) :
    rectangle.Inside (fullFrame width height) := by
  obtain ⟨cursor, _, hcursor⟩ := Option.bind_eq_some_iff.mp h
  exact inside_intersection_right hcursor

theorem combinedCursorDamage_inside {first second : Option GpuRectangle} {rectangle : GpuRectangle}
    (hfirst : ∀ rectangle, first = some rectangle → rectangle.Inside (fullFrame width height))
    (hsecond : ∀ rectangle, second = some rectangle → rectangle.Inside (fullFrame width height))
    (h : combinedCursorDamage first second = some rectangle) : rectangle.Inside (fullFrame width height) := by
  cases first with
  | none => exact hsecond rectangle (by cases second <;> exact h)
  | some first =>
    cases second with
    | none => exact hfirst rectangle h
    | some second =>
      obtain rfl := Option.some.inj h
      exact (hfirst first rfl).union (hsecond second rfl)

theorem BoundsKept.dropCursorOf (h : display.BoundsKept) (resourceID : BitVec 32) :
    (display.dropCursorOf resourceID).BoundsKept := by
  unfold FrameDisplay.dropCursorOf
  split
  · have hdropped : ({ display with cursor := none, cursorPixels := none } :
        FrameDisplay width height).BoundsKept := ⟨h.history, h.unpublished, h.scanout, h.task⟩
    exact hdropped.displayStateChanged fun _ => cursorRectangle_inside
  · exact h

theorem BoundsKept.takeSlot (h : display.BoundsKept) {command : FrameCommand}
    (hcommand : command.Fits width height) :
    (display.takeSlot slot command).BoundsKept := by
  refine ⟨h.history, h.unpublished, h.scanout, fun task htask => ?_⟩
  obtain rfl := Option.some.inj htask
  split <;> exact hcommand

theorem BoundsKept.begin (h : display.BoundsKept) {command : FrameCommand}
    (hcommand : command.Fits width height) :
    (display.begin command).BoundsKept := by
  unfold FrameDisplay.begin
  split
  · exact h.takeSlot hcommand
  · refine ⟨h.history, h.unpublished, h.scanout, fun task htask => ?_⟩
    obtain rfl := Option.some.inj htask
    exact hcommand

theorem BoundsKept.beginFlush (h : display.BoundsKept) (resourceID : BitVec 32) (resource : GpuResource)
    (flushRectangle : GpuRectangle) : (display.beginFlush resourceID resource flushRectangle).BoundsKept := by
  unfold FrameDisplay.beginFlush
  cases hscanout : display.scanout with
  | none => exact h
  | some scanout =>
    dsimp only
    split
    · rename_i hshown
      obtain ⟨visible, hvisible⟩ := Option.isSome_iff_exists.mp hshown.2
      exact h.begin ⟨⟨visible, hvisible⟩, h.scanout scanout hscanout⟩
    · exact h

theorem BoundsKept.command (h : display.BoundsKept) (event : DisplayEvent) :
    (display.command event).BoundsKept := by
  have hcursor : ∀ (cursor : Option GpuCursor) (image : Option CursorImage) (generation : Option ℕ),
      ({ display with cursor := cursor, cursorPixels := image, cursorFrameGeneration := generation } :
        FrameDisplay width height).BoundsKept := fun _ _ _ => ⟨h.history, h.unpublished, h.scanout, h.task⟩
  have hcleared : ({ display with scanout := none, committedScanout := none } :
      FrameDisplay width height).BoundsKept :=
    ⟨h.history, h.unpublished, fun scanout hscanout => (by cases hscanout), h.task⟩
  cases event <;> unfold FrameDisplay.command <;> dsimp only
  case setScanout scanout =>
    split
    · rename_i haccepts
      refine ⟨h.history, h.unpublished, fun other hother => ?_, h.task⟩
      obtain rfl := Option.some.inj hother
      exact ⟨haccepts.2.2.2.2.1, haccepts.2.2.2.2.2⟩
    · exact h
  case disableScanout => exact hcleared.begin trivial
  case flush resourceID resource flushRectangle => exact h.beginFlush resourceID resource flushRectangle
  case unref resourceID =>
    split
    · exact hcleared.begin trivial
    · exact h.dropCursorOf resourceID
  case reset => exact h.begin trivial
  case updateCursor cursor image =>
    exact (hcursor (some cursor) (some image) none).displayStateChanged fun _ =>
      combinedCursorDamage_inside (fun _ => cursorRectangle_inside) fun _ => cursorRectangle_inside
  case removeCursor =>
    exact (hcursor none none display.cursorFrameGeneration).displayStateChanged fun _ => cursorRectangle_inside
  case moveCursor x y =>
    split
    · exact (hcursor _ display.cursorPixels display.cursorFrameGeneration).displayStateChanged fun _ =>
        combinedCursorDamage_inside (fun _ => cursorRectangle_inside) fun _ => cursorRectangle_inside
    · exact h
  case refreshCursorPixels resourceID image =>
    split
    · exact hcursor display.cursor (some image) none
    · exact h
  all_goals exact h

theorem drawn_inFrame {command : FrameCommand} (h : command.Fits width height) (frame : GpuFrame width height) :
    InFrame width height (drawn command frame).2 := by
  cases command with
  | flush flush scanout needsFullFrame =>
    obtain ⟨⟨visible, hvisible⟩, hwidth, hheight⟩ := h
    exact FrameFlush.draw_inside hvisible hwidth hheight needsFullFrame
  | disable =>
    intro rectangle hmem
    cases hmem
  | unref resourceID =>
    intro rectangle hmem
    cases hmem
  | reset =>
    intro rectangle hmem
    cases hmem

theorem BoundsKept.publish (h : display.BoundsKept) (hdamage : InFrame width height damage)
    (command : FrameCommand) : (display.publish slot damage command).BoundsKept := by
  have hcleared : ({ display.setGeneration slot none with committedFrame := slot, task := none } :
      FrameDisplay width height).BoundsKept := ⟨h.history, h.unpublished, h.scanout,
      fun task htask => (by cases htask)⟩
  cases command <;> unfold FrameDisplay.publish <;> dsimp only
  case flush flush scanout needsFullFrame =>
    have hpublished : ({ display with
        committedScanout := some scanout, committedFrame := slot, task := none } :
          FrameDisplay width height).BoundsKept := ⟨h.history, h.unpublished, h.scanout,
      fun task htask => (by cases htask)⟩
    have hcommitted := hpublished.commit hdamage
    exact ⟨hcommitted.history, hcommitted.unpublished, hcommitted.scanout, hcommitted.task⟩
  case disable => exact hcleared.commit inFrame_full
  case unref resourceID => exact (hcleared.commit inFrame_full).dropCursorOf resourceID
  case reset =>
    exact ⟨fun record hmem => (by cases hmem), fun _ => rfl, fun scanout hscanout => (by cases hscanout),
      fun task htask => (by cases htask)⟩

theorem BoundsKept.proceed (h : display.BoundsKept) (hproceed : display.proceed = some next) :
    next.BoundsKept := by
  unfold FrameDisplay.proceed at hproceed
  cases htask : display.task with
  | none =>
    rw [htask] at hproceed
    cases hproceed
  | some task =>
    rw [htask] at hproceed
    have hfits := h.task task htask
    have hnext : ∀ {slots task}, task.Fits width height →
        ({ display with slots := slots, task := some task } : FrameDisplay width height).BoundsKept := by
      intro slots task htask
      refine ⟨h.history, h.unpublished, h.scanout, fun other hother => ?_⟩
      obtain rfl := Option.some.inj hother
      exact htask
    cases task <;> obtain rfl := Option.some.inj hproceed
    case makeSlot command => exact hnext hfits
    case addSlot command =>
      have hadded : ({ display with
          slots := Function.update display.slots display.slotCount ⟨fun _ => 0, 0, none⟩
          slotCount := display.slotCount + 1
          frameSlots := display.frameSlots ++ [display.slotCount] } :
            FrameDisplay width height).BoundsKept := ⟨h.history, h.unpublished, h.scanout, h.task⟩
      exact hadded.takeSlot hfits
    case copyDamage slot damage command => exact hnext hfits
    case tagSlot slot command => exact hnext hfits
    case drawFrame slot command => exact hnext (drawn_inFrame hfits _)
    case publish slot damage command => exact h.publish hfits command

theorem CursorFrameTaken.boundsKept {taken : ℕ × FrameDisplay width height}
    (htaken : display.CursorFrameTaken taken) (h : display.BoundsKept) : taken.2.BoundsKept := by
  rw [htaken.same]
  exact ⟨h.history, h.unpublished, h.scanout, h.task⟩

theorem BoundsKept.step (h : display.BoundsKept) (hkept : display.Kept)
    (hstep : display.step event = some next) : next.BoundsKept := by
  rcases step_cases hstep with ⟨_, hproceed⟩ | ⟨previousGeneration, _, rfl⟩ |
    ⟨index, lease, _, hlease, hrelease⟩ | ⟨hidle, rfl⟩
  · exact h.proceed hproceed
  · unfold FrameDisplay.frameLease
    split
    · exact h
    · split
      · exact ⟨h.history, h.unpublished, h.scanout, h.task⟩
      · have hprepared := hkept.slots.prepareCursorFrame.boundsKept h
        exact ⟨hprepared.history, hprepared.unpublished, hprepared.scanout, hprepared.task⟩
  · unfold FrameDisplay.releaseLease at hrelease
    split at hrelease
    · split at hrelease
      · obtain rfl := Option.some.inj hrelease
        exact ⟨h.history, h.unpublished, h.scanout, h.task⟩
      · cases hrelease
    · obtain rfl := Option.some.inj hrelease
      exact ⟨h.history, h.unpublished, h.scanout, h.task⟩
  · exact h.command event

end FrameDisplay

end Pinecone
