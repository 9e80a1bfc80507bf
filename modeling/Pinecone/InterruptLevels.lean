import Pinecone.DeviceInterrupts

/-! The line of a device follows its level as long as no line is completed while its device still asks
for service. -/

namespace Pinecone

open SimpleInterruptController InterruptOperation

variable {ι : Type} {wiring : InterruptWiring ι} {devices : DeviceInterrupts ι}
  {event : DeviceInterruptEvent ι} {device : Option ι}

namespace DeviceInterrupts

/-- The line of a device that asks for service is pending or active, and that of another device is not
pending. -/
structure Follows (wiring : InterruptWiring ι) (devices : DeviceInterrupts ι) (device : Option ι) :
    Prop where
  signalled : devices.level device = true → devices.controller.IsPending (.shared (wiring.line device)) ∨
    devices.controller.IsActive (.shared (wiring.line device))
  quiet : devices.level device = false →
    ¬ devices.controller.IsPending (.shared (wiring.line device))

/-- No line is completed while its device asks for service and has not raised it again. -/
def CompletesServed (wiring : InterruptWiring ι) (devices : DeviceInterrupts ι) :
    DeviceInterruptEvent ι → Prop
  | .complete line _ => ∀ device, wiring.line device = line → devices.level device = true →
    devices.controller.IsPending (.shared line)
  | _ => True

structure Mirrored (wiring : InterruptWiring ι) (devices : DeviceInterrupts ι) : Prop where
  wellFormed : devices.controller.WellFormed
  follows : ∀ device, devices.Follows wiring device

theorem mirrored_initial : (initial ι).Mirrored wiring where
  wellFormed := wellFormed_initial
  follows := fun device => by
    have hlevel : (initial ι).level device = false := by
      cases device with
      | none => simp [level, initial, VirtualUart.maskedStatus, VirtualUart.initial]
      | some device => simp [level, initial]
    refine ⟨fun hasks => ?_, fun _ => List.not_mem_nil⟩
    rw [hlevel] at hasks
    cases hasks

theorem follows_updateInterruptLine (hwell : devices.controller.WellFormed) :
    (devices.updateInterruptLine wiring device).Follows wiring device ∧
      ∀ other, other ≠ device → devices.Follows wiring other →
        (devices.updateInterruptLine wiring device).Follows wiring other := by
  have hline : ∀ other, other ≠ device → wiring.line other ≠ wiring.line device := fun other hne heq =>
    hne (wiring.distinct heq)
  have hlevel : ∀ other, (devices.updateInterruptLine wiring device).level other = devices.level other :=
    fun other => by cases other <;> rfl
  cases hasks : devices.level device with
  | true =>
    have hcontroller : (devices.updateInterruptLine wiring device).controller =
        devices.controller.advance (.raise (wiring.line device)) := by
      simp only [updateInterruptLine, hasks, if_true]
    refine ⟨⟨fun _ => .inl ?_, fun hnot => ?_⟩, fun other hne hfollows => ⟨fun hasks => ?_, fun hnot => ?_⟩⟩
    · rw [hcontroller, isPending_advance hwell]
      exact .inr rfl
    · rw [hlevel, hasks] at hnot
      cases hnot
    · rw [hlevel] at hasks
      rw [hcontroller, isPending_advance hwell, isActive_advance]
      rcases hfollows.signalled hasks with hpending | hactive
      · exact .inl (.inl ⟨hpending, by simp [Clears, cleared], by simp [InterruptOperation.acknowledged]⟩)
      · exact .inr (.inl ⟨hactive, by simp [Completes, completed]⟩)
    · rw [hlevel] at hnot
      rw [hcontroller, isPending_advance hwell]
      simp only [raised, Option.some.injEq, InterruptSource.shared.injEq, (hline other hne).symm, or_false]
      exact fun hpending => hfollows.quiet hnot hpending.1
  | false =>
    have hcontroller : (devices.updateInterruptLine wiring device).controller =
        devices.controller.advance (.clear (wiring.line device)) := by
      simp only [updateInterruptLine, hasks, Bool.false_eq_true, if_false]
    refine ⟨⟨fun hyes => ?_, fun _ => ?_⟩, fun other hne hfollows => ⟨fun hasks => ?_, fun hnot => ?_⟩⟩
    · rw [hlevel, hasks] at hyes
      cases hyes
    · rw [hcontroller, isPending_advance hwell]
      simp [Clears, cleared, raised]
    · rw [hlevel] at hasks
      rw [hcontroller, isPending_advance hwell, isActive_advance]
      rcases hfollows.signalled hasks with hpending | hactive
      · refine .inl (.inl ⟨hpending, ?_, by simp [InterruptOperation.acknowledged]⟩)
        simpa [Clears, cleared] using (hline other hne).symm
      · exact .inr (.inl ⟨hactive, by simp [Completes, completed]⟩)
    · rw [hlevel] at hnot
      rw [hcontroller, isPending_advance hwell]
      simp only [raised, reduceCtorEq, or_false]
      exact fun hpending => hfollows.quiet hnot hpending.1

theorem Mirrored.update {changed : DeviceInterrupts ι} (h : devices.Mirrored wiring)
    (hcontroller : changed.controller = devices.controller)
    (hlevels : ∀ other, other ≠ device → changed.level other = devices.level other) :
    (changed.updateInterruptLine wiring device).Mirrored wiring := by
  have hwell : changed.controller.WellFormed := hcontroller ▸ h.wellFormed
  obtain ⟨hsame, hothers⟩ := @follows_updateInterruptLine ι wiring changed device hwell
  refine ⟨hwell.advance, fun other => ?_⟩
  by_cases hother : other = device
  · exact hother ▸ hsame
  · have hfollows := h.follows other
    refine hothers other hother ⟨fun hasks => ?_, fun hnot => ?_⟩
    · rw [hcontroller]
      exact hfollows.signalled (hlevels other hother ▸ hasks)
    · rw [hcontroller]
      exact hfollows.quiet (hlevels other hother ▸ hnot)

theorem Mirrored.updateUart {access : VirtualUart × Bool} (h : devices.Mirrored wiring)
    (hsame : access.2 = false → access.1.maskedStatus = devices.uart.maskedStatus) :
    (devices.updateUart wiring access).Mirrored wiring := by
  unfold DeviceInterrupts.updateUart
  cases hupdates : access.2 with
  | true =>
    refine h.update rfl fun other hother => ?_
    cases other with
    | none => exact absurd rfl hother
    | some other => rfl
  | false =>
    have hlevel : ∀ other, ({ devices with uart := access.1 } : DeviceInterrupts ι).level other =
        devices.level other := fun other => by
      cases other with
      | none => simp only [level, hsame hupdates]
      | some other => rfl
    refine ⟨h.wellFormed, fun other => ⟨fun hasks => ?_, fun hnot => ?_⟩⟩
    · exact (h.follows other).signalled (hlevel other ▸ hasks)
    · exact (h.follows other).quiet (hlevel other ▸ hnot)

theorem Mirrored.controller {operation : InterruptOperation} (h : devices.Mirrored wiring)
    (hraised : operation.raised = none) (hclears : ∀ source, ¬ operation.Clears source)
    (hserved : ∀ device, devices.level device = true →
      operation.Completes devices.controller (.shared (wiring.line device)) →
      devices.controller.IsPending (.shared (wiring.line device)))
    (hacknowledged : ∀ device, operation.Completes devices.controller (.shared (wiring.line device)) →
      operation.acknowledged devices.controller ≠ some (.shared (wiring.line device))) :
    ({ devices with controller := devices.controller.advance operation } :
      DeviceInterrupts ι).Mirrored wiring := by
  refine ⟨h.wellFormed.advance, fun device => ⟨fun hasks => ?_, fun hnot => ?_⟩⟩
  · have hasks' : devices.level device = true := by
      cases device <;> exact hasks
    change (devices.controller.advance operation).IsPending _ ∨ (devices.controller.advance operation).IsActive _
    rw [isPending_advance h.wellFormed, isActive_advance]
    by_cases htaken : operation.acknowledged devices.controller = some (.shared (wiring.line device))
    · exact .inr (.inr htaken)
    · by_cases hcompletes : operation.Completes devices.controller (.shared (wiring.line device))
      · exact .inl (.inl ⟨hserved device hasks' hcompletes, hclears _, hacknowledged device hcompletes⟩)
      · rcases (h.follows device).signalled hasks' with hpending | hactive
        · exact .inl (.inl ⟨hpending, hclears _, htaken⟩)
        · exact .inr (.inl ⟨hactive, hcompletes⟩)
  · have hnot' : devices.level device = false := by
      cases device <;> exact hnot
    change ¬ (devices.controller.advance operation).IsPending _
    rw [isPending_advance h.wellFormed, hraised]
    simp only [reduceCtorEq, or_false]
    exact fun hpending => (h.follows device).quiet hnot' hpending.1

variable [DecidableEq ι]

theorem Mirrored.setStatus (h : devices.Mirrored wiring) (device : ι) (status : BitVec 32) :
    (devices.setStatus wiring device status).Mirrored wiring := by
  refine h.update rfl fun other hother => ?_
  cases other with
  | none => rfl
  | some other =>
    have hne : other ≠ device := fun heq => hother (by rw [heq])
    simp only [level, Function.update_of_ne hne]

theorem Mirrored.step (h : devices.Mirrored wiring) (hserved : devices.CompletesServed wiring event) :
    (devices.step wiring event).Mirrored wiring := by
  cases event with
  | uartRead offset =>
    exact h.updateUart (@VirtualUart.maskedStatus_of_not_updated devices.uart offset 0 []).1
  | uartWrite offset value =>
    exact h.updateUart (@VirtualUart.maskedStatus_of_not_updated devices.uart offset value []).2.1
  | uartReceive bytes =>
    exact h.updateUart (@VirtualUart.maskedStatus_of_not_updated devices.uart 0 0 bytes).2.2
  | notify device queue ready served =>
    simp only [DeviceInterrupts.step]
    split
    · exact h.setStatus device _
    · exact h
  | served device => exact h.setStatus device _
  | configChanged device => exact h.setStatus device _
  | acknowledgeStatus device value => exact h.setStatus device _
  | setEnabled line enabled =>
    exact h.controller rfl (by simp [Clears, cleared]) (by simp [Completes, completed])
      (by simp [Completes, completed])
  | setTargetMask line mask =>
    exact h.controller rfl (by simp [Clears, cleared]) (by simp [Completes, completed])
      (by simp [Completes, completed])
  | acknowledge targetVCPU =>
    exact h.controller rfl (by simp [Clears, cleared]) (by simp [Completes, completed])
      (by simp [Completes, completed])
  | complete line targetVCPU =>
    refine h.controller rfl (by simp [Clears, cleared]) (fun device hasks hcompletes => ?_)
      (by simp [InterruptOperation.acknowledged])
    have hline : wiring.line device = line := by
      simp only [Completes, completed, reduceCtorEq, false_or, Option.some.injEq] at hcompletes
      split at hcompletes
      · cases hcompletes
      · exact (InterruptSource.shared.inj hcompletes).symm
    rw [hline]
    exact hserved device hline hasks

/-- In every run in which no line is completed while its device asks for service, every line follows
its device. -/
theorem follows_of_completesServed {events : List (DeviceInterruptEvent ι)}
    (h : ConditionalRun.Throughout (step wiring) (CompletesServed wiring) (initial ι) events)
    (device : Option ι) : (events.foldl (step wiring) (initial ι)).Follows wiring device :=
  (h.invariant (Mirrored wiring) (fun hs hserved => hs.step hserved) mirrored_initial).follows device

/-- The lines of the UART and of a block device. -/
def blockWiring : InterruptWiring Unit where
  kind := fun _ => .block
  line := fun device => device.elim 33 fun _ => 68
  distinct := by
    intro device other h
    cases device <;> cases other <;> first | rfl | exact absurd h (by simp)

/-- Two received bytes, of which the guest reads both before it completes the line. -/
theorem follows_of_completesServed_drained :
    (List.foldl (step blockWiring) (initial Unit) [.setEnabled 33 true, .uartWrite 0x38 0x10,
      .uartReceive [1, 2], .acknowledge 0, .uartRead 0, .uartRead 0, .complete 33 0]).Follows
        blockWiring none := by
  refine follows_of_completesServed ?_ none
  refine ⟨trivial, trivial, trivial, trivial, trivial, trivial, fun device hline hasks => ?_, trivial⟩
  cases device with
  | none => exact absurd hasks (by decide)
  | some device => exact absurd hline (show (68#32 : InterruptLine) ≠ 33#32 by decide)

/-- Of two received bytes the guest reads one before it completes the line: the UART still asks for
service, and its line is neither pending nor active. -/
theorem uartLine_lost :
    let devices := List.foldl (step blockWiring) (initial Unit) [.setEnabled 33 true,
      .uartWrite 0x38 0x10, .uartReceive [1, 2], .acknowledge 0, .uartRead 0, .complete 33 0]
    devices.level none = true ∧ ¬ devices.controller.IsPending (.shared 33) ∧
      ¬ devices.controller.IsActive (.shared 33) := by
  decide

end DeviceInterrupts

end Pinecone
