import Pinecone.InterruptSources

/-! The operations of the controller add, take and remove sources one by one, and so no raise is lost
and none is delivered twice. -/

namespace Pinecone

open SimpleInterruptController InterruptOperation

variable {controller : SimpleInterruptController} {operation : InterruptOperation}
  {source : InterruptSource} {line : InterruptLine} {targetVCPU : ℤ}

namespace SimpleInterruptController

/-! ## Acknowledging -/

theorem pendingLine_spec (h : controller.pendingLine targetVCPU = some line) :
    controller.Deliverable targetVCPU (.targeted line targetVCPU) := by
  have hmem := List.mem_of_find?_eq_some h
  have hsome := List.find?_some h
  simp only [Bool.and_eq_true, decide_eq_true_eq] at hsome
  exact ⟨hmem, hsome.2, rfl, hsome.1⟩

theorem globalPendingLine_spec (h : controller.globalPendingLine targetVCPU = some line) :
    controller.Deliverable targetVCPU (.shared line) := by
  have hmem := List.mem_of_find?_eq_some h
  have hsome := List.find?_some h
  simp only [Bool.and_eq_true, decide_eq_true_eq] at hsome
  exact ⟨hmem, hsome.1.2, hsome.1.1, hsome.2⟩

theorem taken_cases (h : controller.taken targetVCPU = some source) :
    (∃ line, source = .targeted line targetVCPU ∧ controller.pendingLine targetVCPU = some line) ∨
      ∃ line, source = .shared line ∧ controller.pendingLine targetVCPU = none ∧
        controller.globalPendingLine targetVCPU = some line := by
  unfold taken at h
  cases htargeted : controller.pendingLine targetVCPU with
  | some line =>
    rw [htargeted] at h
    exact .inl ⟨line, (Option.some.inj h).symm, rfl⟩
  | none =>
    rw [htargeted, Option.map_none, Option.none_or] at h
    obtain ⟨line, hline, heq⟩ := Option.map_eq_some_iff.mp h
    exact .inr ⟨line, heq.symm, rfl, hline⟩

theorem taken_deliverable (h : controller.taken targetVCPU = some source) :
    controller.Deliverable targetVCPU source := by
  rcases taken_cases h with ⟨line, rfl, hline⟩ | ⟨line, rfl, _, hline⟩
  · exact pendingLine_spec hline
  · exact globalPendingLine_spec hline

theorem taken_isSome (h : controller.Deliverable targetVCPU source) :
    (controller.taken targetVCPU).isSome = true := by
  obtain ⟨hpending, hinactive, hadmitted⟩ := h
  cases source with
  | targeted line owner =>
    obtain ⟨rfl, henabled⟩ := hadmitted
    have hfound : (controller.pendingLine owner).isSome = true :=
      List.find?_isSome.mpr ⟨line, hpending, by simpa [henabled] using show line ∉ _ from hinactive⟩
    obtain ⟨found, hfound⟩ := Option.isSome_iff_exists.mp hfound
    simp [taken, hfound]
  | shared line =>
    have hfound : (controller.globalPendingLine targetVCPU).isSome = true :=
      List.find?_isSome.mpr ⟨line, hpending, by simpa [hadmitted.1, hadmitted.2] using show line ∉ _ from hinactive⟩
    obtain ⟨found, hfound⟩ := Option.isSome_iff_exists.mp hfound
    simp [taken, hfound]

theorem acknowledge_none (h : controller.taken targetVCPU = none) :
    controller.acknowledge targetVCPU = ⟨controller, none, false⟩ := by
  simp only [taken, Option.or_eq_none_iff, Option.map_eq_none_iff] at h
  simp [acknowledge, acknowledgeTargeted, acknowledgeGlobal, h.1, h.2]

theorem acknowledge_targeted (h : controller.pendingLine targetVCPU = some line) :
    controller.acknowledge targetVCPU =
      ⟨{ controller with
          targetedPending := controller.targetedPending.insert targetVCPU
            ((controller.targetedPending.of targetVCPU).erase line)
          targetedActive := controller.targetedActive.insert targetVCPU
            (appendOnce (controller.targetedActive.of targetVCPU) line) }, some line, false⟩ := by
  simp [acknowledge, acknowledgeTargeted, h]

theorem acknowledge_global (h : controller.pendingLine targetVCPU = none)
    (hline : controller.globalPendingLine targetVCPU = some line) :
    controller.acknowledge targetVCPU =
      ⟨{ controller with
          pending := controller.pending.erase line
          active := appendOnce controller.active line }, some line, false⟩ := by
  simp [acknowledge, acknowledgeTargeted, acknowledgeGlobal, h, hline]

theorem acknowledged_eq (controller : SimpleInterruptController) (targetVCPU : ℤ) :
    (controller.acknowledge targetVCPU).acknowledged =
      (controller.taken targetVCPU).map InterruptSource.line := by
  cases htaken : controller.taken targetVCPU with
  | none => rw [acknowledge_none htaken]; rfl
  | some source =>
    rcases taken_cases htaken with ⟨line, rfl, hline⟩ | ⟨line, rfl, hnone, hline⟩
    · rw [acknowledge_targeted hline]; rfl
    · rw [acknowledge_global hnone hline]; rfl

/-! ## One operation -/

theorem wellFormed_initial : initial.WellFormed where
  pending := List.nodup_nil
  active := List.nodup_nil
  targetedPending := fun _ => List.nodup_nil
  targetedActive := fun _ => List.nodup_nil

theorem WellFormed.advance (h : controller.WellFormed) :
    (controller.advance operation).WellFormed := by
  have hof : ∀ (table : TargetedLines) (targetVCPU : ℤ) (lines : List InterruptLine),
      (∀ other, (table.of other).Nodup) → lines.Nodup →
      ∀ other, (TargetedLines.of (table.insert targetVCPU lines) other).Nodup := by
    intro table targetVCPU lines htable hlines other
    rw [TargetedLines.of_insert]
    split
    · exact hlines
    · exact htable other
  obtain ⟨hpending, hactive, htargetedPending, htargetedActive⟩ := h
  cases operation with
  | raise line => exact ⟨nodup_appendOnce hpending, hactive, htargetedPending, htargetedActive⟩
  | raiseFor line targetVCPU =>
    exact ⟨hpending, hactive, hof _ _ _ htargetedPending (nodup_appendOnce (htargetedPending _)),
      htargetedActive⟩
  | clear line => exact ⟨nodup_removeAll hpending, hactive, htargetedPending, htargetedActive⟩
  | clearFor line targetVCPU =>
    exact ⟨hpending, hactive, hof _ _ _ htargetedPending (nodup_removeAll (htargetedPending _)),
      htargetedActive⟩
  | setEnabled line enabled => exact ⟨hpending, hactive, htargetedPending, htargetedActive⟩
  | setEnabledFor line enabled targetVCPU =>
    simp only [SimpleInterruptController.advance, SimpleInterruptController.perform, setEnabledFor]
    split <;> exact ⟨hpending, hactive, htargetedPending, htargetedActive⟩
  | setTargetMask line mask =>
    simp only [SimpleInterruptController.advance, SimpleInterruptController.perform, setTargetMask]
    split <;> exact ⟨hpending, hactive, htargetedPending, htargetedActive⟩
  | acknowledge targetVCPU =>
    simp only [SimpleInterruptController.advance, SimpleInterruptController.perform]
    cases htaken : controller.taken targetVCPU with
    | none =>
      rw [acknowledge_none htaken]
      exact ⟨hpending, hactive, htargetedPending, htargetedActive⟩
    | some source =>
      rcases taken_cases htaken with ⟨line, rfl, hline⟩ | ⟨line, rfl, hnone, hline⟩
      · rw [acknowledge_targeted hline]
        exact ⟨hpending, hactive, hof _ _ _ htargetedPending ((htargetedPending _).erase _),
          hof _ _ _ htargetedActive (nodup_appendOnce (htargetedActive _))⟩
      · rw [acknowledge_global hnone hline]
        exact ⟨hpending.erase _, nodup_appendOnce hactive, htargetedPending, htargetedActive⟩
  | complete line => exact ⟨hpending, nodup_removeAll hactive, htargetedPending, htargetedActive⟩
  | completeFor line targetVCPU =>
    refine ⟨hpending, ?_, htargetedPending,
      hof _ _ _ htargetedActive (nodup_removeAll (htargetedActive _))⟩
    simp only [SimpleInterruptController.advance, SimpleInterruptController.perform, completeFor]
    split
    · exact hactive
    · exact nodup_removeAll hactive
  | reset => exact wellFormed_initial

theorem isPending_advance (h : controller.WellFormed) :
    (controller.advance operation).IsPending source ↔
      controller.IsPending source ∧ ¬ operation.Clears source ∧
          operation.acknowledged controller ≠ some source ∨
        operation.raised = some source := by
  simp only [Clears, InterruptOperation.acknowledged, raised, cleared]
  cases operation with
  | acknowledge targetVCPU =>
    simp only [SimpleInterruptController.advance, SimpleInterruptController.perform]
    cases htaken : controller.taken targetVCPU with
    | none => simp [acknowledge_none htaken]
    | some found =>
      rcases taken_cases htaken with ⟨line, rfl, hline⟩ | ⟨line, rfl, hnone, hline⟩
      · rw [acknowledge_targeted hline]
        cases source with
        | shared other => simp [IsPending]
        | targeted other owner =>
          simp only [IsPending, TargetedLines.of_insert]
          by_cases howner : owner = targetVCPU
          · subst howner
            simp [(h.targetedPending owner).mem_erase_iff, and_comm, eq_comm]
          · simp [howner, Ne.symm howner]
      · rw [acknowledge_global hnone hline]
        cases source with
        | shared other => simp [IsPending, h.pending.mem_erase_iff, and_comm, eq_comm]
        | targeted other owner => simp [IsPending]
  | raise line => cases source <;> simp [SimpleInterruptController.advance, SimpleInterruptController.perform, raise, IsPending, eq_comm]
  | clear line => cases source <;> simp [SimpleInterruptController.advance, SimpleInterruptController.perform, clear, IsPending, eq_comm]
  | raiseFor line targetVCPU =>
    cases source with
    | shared other => simp [SimpleInterruptController.advance, SimpleInterruptController.perform, raiseFor, IsPending]
    | targeted other owner =>
      simp only [SimpleInterruptController.advance, SimpleInterruptController.perform, raiseFor, IsPending, TargetedLines.of_insert]
      by_cases howner : owner = targetVCPU
      · subst howner
        simp [eq_comm]
      · simp [howner, Ne.symm howner]
  | clearFor line targetVCPU =>
    cases source with
    | shared other => simp [SimpleInterruptController.advance, SimpleInterruptController.perform, clearFor, IsPending]
    | targeted other owner =>
      simp only [SimpleInterruptController.advance, SimpleInterruptController.perform, clearFor, IsPending, TargetedLines.of_insert]
      by_cases howner : owner = targetVCPU
      · subst howner
        simp [eq_comm]
      · simp [howner, Ne.symm howner]
  | setEnabledFor line enabled targetVCPU =>
    simp only [SimpleInterruptController.advance, SimpleInterruptController.perform, setEnabledFor]
    split <;> cases source <;> simp [IsPending]
  | setTargetMask line mask =>
    simp only [SimpleInterruptController.advance, SimpleInterruptController.perform, setTargetMask]
    split <;> cases source <;> simp [IsPending]
  | setEnabled line enabled => cases source <;> simp [SimpleInterruptController.advance, SimpleInterruptController.perform, setEnabled, IsPending]
  | complete line => cases source <;> simp [SimpleInterruptController.advance, SimpleInterruptController.perform, complete, IsPending]
  | completeFor line targetVCPU =>
    cases source <;> simp [SimpleInterruptController.advance, SimpleInterruptController.perform, completeFor, IsPending]
  | reset => cases source <;> simp [SimpleInterruptController.advance, SimpleInterruptController.perform, initial, IsPending]

theorem isActive_advance :
    (controller.advance operation).IsActive source ↔
      controller.IsActive source ∧ ¬ operation.Completes controller source ∨
        operation.acknowledged controller = some source := by
  simp only [Completes, InterruptOperation.acknowledged, completed]
  cases operation with
  | acknowledge targetVCPU =>
    simp only [SimpleInterruptController.advance, SimpleInterruptController.perform]
    cases htaken : controller.taken targetVCPU with
    | none => simp [acknowledge_none htaken]
    | some found =>
      rcases taken_cases htaken with ⟨line, rfl, hline⟩ | ⟨line, rfl, hnone, hline⟩
      · rw [acknowledge_targeted hline]
        cases source with
        | shared other => simp [IsActive]
        | targeted other owner =>
          simp only [IsActive, TargetedLines.of_insert]
          by_cases howner : owner = targetVCPU
          · subst howner
            simp [eq_comm]
          · simp [howner, Ne.symm howner]
      · rw [acknowledge_global hnone hline]
        cases source with
        | shared other => simp [IsActive, eq_comm]
        | targeted other owner => simp [IsActive]
  | complete line => cases source <;> simp [SimpleInterruptController.advance, SimpleInterruptController.perform, complete, IsActive, eq_comm]
  | completeFor line targetVCPU =>
    simp only [SimpleInterruptController.advance, SimpleInterruptController.perform, completeFor]
    by_cases htargeted : controller.IsActive (.targeted line targetVCPU)
    · have hmem : line ∈ controller.targetedActive.of targetVCPU := htargeted
      simp only [htargeted, hmem, if_true]
      cases source with
      | shared other => simp [IsActive]
      | targeted other owner =>
        simp only [IsActive, TargetedLines.of_insert]
        by_cases howner : owner = targetVCPU
        · subst howner
          simp [eq_comm]
        · simp [howner, Ne.symm howner]
    · have hmem : line ∉ controller.targetedActive.of targetVCPU := htargeted
      simp only [htargeted, hmem, if_false]
      cases source with
      | shared other => simp [IsActive, eq_comm]
      | targeted other owner =>
        simp only [IsActive, TargetedLines.of_insert]
        by_cases howner : owner = targetVCPU
        · subst howner
          simp only [if_true, mem_removeAll]
          refine ⟨fun h => .inl ⟨h.1, by simp⟩, fun h => ?_⟩
          obtain ⟨hother, _⟩ := h.resolve_right (by simp)
          exact ⟨hother, fun heq => hmem (heq ▸ hother)⟩
        · simp [howner]
  | raise line => cases source <;> simp [SimpleInterruptController.advance, SimpleInterruptController.perform, raise, IsActive]
  | clear line => cases source <;> simp [SimpleInterruptController.advance, SimpleInterruptController.perform, clear, IsActive]
  | raiseFor line targetVCPU => cases source <;> simp [SimpleInterruptController.advance, SimpleInterruptController.perform, raiseFor, IsActive]
  | clearFor line targetVCPU => cases source <;> simp [SimpleInterruptController.advance, SimpleInterruptController.perform, clearFor, IsActive]
  | setEnabledFor line enabled targetVCPU =>
    simp only [SimpleInterruptController.advance, SimpleInterruptController.perform, setEnabledFor]
    split <;> cases source <;> simp [IsActive]
  | setTargetMask line mask =>
    simp only [SimpleInterruptController.advance, SimpleInterruptController.perform, setTargetMask]
    split <;> cases source <;> simp [IsActive]
  | setEnabled line enabled => cases source <;> simp [SimpleInterruptController.advance, SimpleInterruptController.perform, setEnabled, IsActive]
  | reset => cases source <;> simp [SimpleInterruptController.advance, SimpleInterruptController.perform, initial, IsActive]

theorem admits_acknowledge {owner : ℤ} :
    (controller.advance (.acknowledge owner)).Admits targetVCPU source ↔
      controller.Admits targetVCPU source := by
  simp only [advance, SimpleInterruptController.perform]
  cases htaken : controller.taken owner with
  | none => rw [acknowledge_none htaken]
  | some found =>
    rcases taken_cases htaken with ⟨line, rfl, hline⟩ | ⟨line, rfl, hnone, hline⟩
    · rw [acknowledge_targeted hline]
      cases source <;> exact Iff.rfl
    · rw [acknowledge_global hnone hline]
      cases source <;> exact Iff.rfl

theorem admits_setEnabled {enabled : Bool}
    (hafter : (controller.advance (.setEnabled line enabled)).Admits targetVCPU source)
    (hbefore : ¬ controller.Admits targetVCPU source) : source.line = line ∧ enabled = true := by
  cases source with
  | shared other =>
    have htargeted : controller.isTargeted other targetVCPU = true := hafter.2
    have hbefore : ¬ controller.isEnabled other = true := fun henabled => hbefore ⟨henabled, htargeted⟩
    have hafter := hafter.1
    cases enabled <;>
      simp only [advance, SimpleInterruptController.perform, setEnabled, isEnabled, Finset.mem_insert,
        Finset.mem_erase, Bool.or_eq_true, decide_eq_true_eq, InterruptSource.line, if_true,
        Bool.false_eq_true, if_false] at * <;>
      tauto
  | targeted other owner =>
    cases enabled <;>
      simp only [advance, SimpleInterruptController.perform, setEnabled, Admits, isEnabledFor,
        Finset.mem_insert, Finset.mem_erase, Bool.or_eq_true, decide_eq_true_eq, InterruptSource.line,
        if_true, Bool.false_eq_true, if_false] at * <;>
      tauto

theorem admits_setEnabledFor {enabled : Bool} {owner : ℤ}
    (hafter : (controller.advance (.setEnabledFor line enabled owner)).Admits targetVCPU source)
    (hbefore : ¬ controller.Admits targetVCPU source) :
    source = .targeted line owner ∧ enabled = true ∧ ¬ line.toNat < 16 := by
  simp only [advance, SimpleInterruptController.perform, setEnabledFor] at hafter
  split at hafter
  · exact absurd hafter hbefore
  · rename_i hline
    cases source with
    | shared other => exact absurd hafter hbefore
    | targeted other found =>
      obtain ⟨rfl, hafter⟩ := hafter
      by_cases howner : found = owner
      · subst howner
        cases enabled <;>
          simp only [Admits, isEnabledFor, Function.update_self, Finset.mem_insert, Finset.mem_erase,
            Bool.or_eq_true, decide_eq_true_eq, InterruptSource.targeted.injEq, if_true,
            Bool.false_eq_true, if_false, true_and, and_true] at * <;>
          tauto
      · simp only [isEnabledFor, Function.update_of_ne howner] at hafter
        exact absurd ⟨rfl, hafter⟩ hbefore

theorem admits_setTargetMask {mask : U8}
    (hafter : (controller.advance (.setTargetMask line mask)).Admits targetVCPU source)
    (hbefore : ¬ controller.Admits targetVCPU source) : source = .shared line ∧ ¬ line.toNat < 32 := by
  simp only [advance, SimpleInterruptController.perform, setTargetMask] at hafter
  split at hafter
  · exact absurd hafter hbefore
  · rename_i hline
    cases source with
    | targeted other found => exact absurd hafter hbefore
    | shared other =>
      by_cases hother : other = line
      · exact ⟨by rw [hother], hline⟩
      · simp only [Admits, isTargeted, targetMask, Function.update_of_ne hother] at hafter
        exact absurd hafter hbefore

theorem wakes_of_deliverable (h : controller.WellFormed)
    (hafter : (controller.advance operation).Deliverable targetVCPU source)
    (hbefore : ¬ controller.Deliverable targetVCPU source) :
    (controller.perform operation).wakes = true := by
  obtain ⟨hpending, hinactive, hadmitted⟩ := hafter
  have hkept := (isPending_advance h).mp hpending
  have hstopped := fun hactive => hinactive (isActive_advance.mpr hactive)
  -- What was pending before was either not admitted, or active and is completed now.
  have hwas : operation.raised ≠ some source → controller.IsPending source ∧
      (controller.Admits targetVCPU source → operation.Completes controller source) := by
    intro hnot
    have hpending := (hkept.resolve_right hnot).1
    refine ⟨hpending, fun hadmits => by_contra fun hcompletes => ?_⟩
    exact hbefore ⟨hpending, fun hactive => hstopped (.inl ⟨hactive, hcompletes⟩), hadmits⟩
  cases operation with
  | raise line => rfl
  | raiseFor line owner => rfl
  | clear line =>
    have hcompletes := (hwas (by simp [raised])).2 (by cases source <;> exact hadmitted)
    simp [Completes, completed] at hcompletes
  | clearFor line owner =>
    have hcompletes := (hwas (by simp [raised])).2 (by cases source <;> exact hadmitted)
    simp [Completes, completed] at hcompletes
  | acknowledge owner =>
    have hcompletes := (hwas (by simp [raised])).2 (admits_acknowledge.mp hadmitted)
    simp [Completes, completed] at hcompletes
  | reset =>
    cases source <;> simp [advance, SimpleInterruptController.perform, initial, IsPending] at hpending
  | setEnabled line enabled =>
    obtain ⟨hwaiting, hcompletes⟩ := hwas (by simp [raised])
    have hnot : ¬ controller.Admits targetVCPU source := fun hadmits => by
      simpa [Completes, completed] using hcompletes hadmits
    obtain ⟨rfl, rfl⟩ := admits_setEnabled hadmitted hnot
    simp only [SimpleInterruptController.perform, setEnabled, Bool.true_and, Bool.or_eq_true, decide_eq_true_eq]
    cases source with
    | shared line => exact .inl hwaiting
    | targeted line owner => exact .inr (TargetedLines.any_of_mem hwaiting)
  | setEnabledFor line enabled owner =>
    obtain ⟨hwaiting, hcompletes⟩ := hwas (by simp [raised])
    have hnot : ¬ controller.Admits targetVCPU source := fun hadmits => by
      simpa [Completes, completed] using hcompletes hadmits
    obtain ⟨rfl, rfl, hline⟩ := admits_setEnabledFor hadmitted hnot
    simp only [SimpleInterruptController.perform, setEnabledFor, if_neg hline, Bool.true_and, Bool.or_eq_true,
      decide_eq_true_eq]
    exact .inl hwaiting
  | setTargetMask line mask =>
    obtain ⟨hwaiting, hcompletes⟩ := hwas (by simp [raised])
    have hnot : ¬ controller.Admits targetVCPU source := fun hadmits => by
      simpa [Completes, completed] using hcompletes hadmits
    obtain ⟨rfl, hline⟩ := admits_setTargetMask hadmitted hnot
    simp only [SimpleInterruptController.perform, setTargetMask, if_neg hline, decide_eq_true_eq]
    exact hwaiting
  | complete line =>
    obtain ⟨hwaiting, hcompletes⟩ := hwas (by simp [raised])
    have hsource := hcompletes (by cases source <;> exact hadmitted)
    simp only [Completes, completed, reduceCtorEq, false_or, Option.some.injEq] at hsource
    subst hsource
    exact decide_eq_true hwaiting
  | completeFor line owner =>
    obtain ⟨hwaiting, hcompletes⟩ := hwas (by simp [raised])
    have hsource := hcompletes (by cases source <;> exact hadmitted)
    simp only [Completes, completed, reduceCtorEq, false_or, Option.some.injEq] at hsource
    simp only [SimpleInterruptController.perform, completeFor, Bool.or_eq_true, decide_eq_true_eq]
    subst hsource
    split at hwaiting
    · exact .inr hwaiting
    · exact .inl hwaiting

/-! ## Runs -/

variable {operations : List InterruptOperation}

theorem WellFormed.performAll (h : controller.WellFormed) :
    (controller.performAll operations).WellFormed := by
  induction operations generalizing controller with
  | nil => exact h
  | cons operation operations ih => exact ih h.advance

theorem isActive_advanceAll (hactive : controller.IsActive source)
    (h : ConditionalRun.Throughout advance (fun controller operation =>
      ¬ operation.Completes controller source) controller operations) :
    (controller.performAll operations).IsActive source :=
  h.invariant (fun controller => controller.IsActive source)
    (fun hactive hnot => isActive_advance.mpr (.inl ⟨hactive, hnot⟩)) hactive

theorem isPending_advanceAll (hwell : controller.WellFormed) (hpending : controller.IsPending source)
    (h : ConditionalRun.Throughout advance (fun controller operation =>
      ¬ operation.Clears source ∧ operation.acknowledged controller ≠ some source) controller operations) :
    (controller.performAll operations).IsPending source :=
  (h.invariant (fun controller => controller.WellFormed ∧ controller.IsPending source)
    (fun hs hnot => ⟨hs.1.advance, (isPending_advance hs.1).mpr (.inl ⟨hs.2, hnot⟩)⟩) ⟨hwell, hpending⟩).2

/-- How often the source is acknowledged. -/
def deliveries (source : InterruptSource) : SimpleInterruptController → List InterruptOperation → ℕ
  | _, [] => 0
  | controller, operation :: operations =>
    (if operation.acknowledged controller = some source then 1 else 0) +
      deliveries source (controller.advance operation) operations

theorem acknowledged_deliverable (h : operation.acknowledged controller = some source) :
    ∃ targetVCPU, controller.Deliverable targetVCPU source := by
  cases operation <;> simp only [InterruptOperation.acknowledged, reduceCtorEq] at h
  rename_i targetVCPU
  exact ⟨targetVCPU, taken_deliverable h⟩

theorem deliveries_eq (hwell : controller.WellFormed)
    (h : ConditionalRun.Throughout advance (fun _ operation =>
      ¬ operation.Clears source ∧ operation.raised ≠ some source) controller operations) :
    deliveries source controller operations +
        (if (controller.performAll operations).IsPending source then 1 else 0) =
      if controller.IsPending source then 1 else 0 := by
  induction operations generalizing controller with
  | nil => exact Nat.zero_add _
  | cons operation operations ih =>
    obtain ⟨⟨hclears, hraised⟩, hrest⟩ := h
    have hnext := ih hwell.advance hrest
    have hstep := @isPending_advance controller operation source hwell
    change deliveries source (controller.advance operation) operations +
      (if ((controller.advance operation).performAll operations).IsPending source then 1 else 0) = _ at hnext
    change (if _ then 1 else 0) + deliveries source (controller.advance operation) operations +
      (if ((controller.advance operation).performAll operations).IsPending source then 1 else 0) = _
    rw [Nat.add_assoc, hnext]
    simp only [hclears, hraised, not_false_eq_true, true_and, or_false] at hstep
    by_cases htaken : operation.acknowledged controller = some source
    · obtain ⟨targetVCPU, hdeliverable⟩ := acknowledged_deliverable htaken
      have hgone : ¬ (controller.advance operation).IsPending source := fun hpending =>
        (hstep.mp hpending).2 htaken
      rw [if_pos htaken, if_neg hgone, if_pos hdeliverable.pending]
    · have hsame : (controller.advance operation).IsPending source ↔ controller.IsPending source :=
        hstep.trans (and_iff_left htaken)
      simp only [if_neg htaken, Nat.zero_add, hsame]

/-- How many sources a virtual CPU may still be given. -/
def backlog (controller : SimpleInterruptController) (targetVCPU : ℤ) : ℕ :=
  (controller.targetedPending.of targetVCPU).length + controller.pending.length

theorem backlog_acknowledge (h : controller.taken targetVCPU = some source) :
    (controller.advance (.acknowledge targetVCPU)).backlog targetVCPU + 1 =
      controller.backlog targetVCPU := by
  have hmem := (taken_deliverable h).pending
  simp only [advance, SimpleInterruptController.perform, backlog]
  rcases taken_cases h with ⟨line, rfl, hline⟩ | ⟨line, rfl, hnone, hline⟩
  · rw [acknowledge_targeted hline]
    have := List.length_pos_of_mem hmem
    simp only [TargetedLines.of_insert, if_true, List.length_erase_of_mem hmem]
    omega
  · rw [acknowledge_global hnone hline]
    have := List.length_pos_of_mem hmem
    simp only [List.length_erase_of_mem hmem]
    omega

theorem deliverable_taken (hwell : controller.WellFormed)
    (h : controller.Deliverable targetVCPU source) :
    ∃ count < controller.backlog targetVCPU,
      (controller.performAll (List.replicate count (.acknowledge targetVCPU))).taken targetVCPU =
        some source := by
  generalize hbacklog : controller.backlog targetVCPU = backlog
  induction backlog generalizing controller with
  | zero =>
    obtain ⟨found, hfound⟩ := Option.isSome_iff_exists.mp (taken_isSome h)
    have := backlog_acknowledge hfound
    omega
  | succ backlog ih =>
    obtain ⟨found, hfound⟩ := Option.isSome_iff_exists.mp (taken_isSome h)
    by_cases heq : found = source
    · exact ⟨0, by omega, by rw [← heq]; exact hfound⟩
    · have hnot : (InterruptOperation.acknowledge targetVCPU).acknowledged controller ≠ some source := by
        simp only [InterruptOperation.acknowledged, hfound, ne_eq, Option.some.injEq]
        exact heq
      have hnext : (controller.advance (.acknowledge targetVCPU)).Deliverable targetVCPU source := by
        refine ⟨(isPending_advance hwell).mpr (.inl ⟨h.pending, by simp [Clears, cleared], hnot⟩),
          fun hactive => ?_, admits_acknowledge.mpr h.admitted⟩
        exact h.inactive (((isActive_advance.mp hactive).resolve_right hnot).1)
      have hcount := backlog_acknowledge hfound
      obtain ⟨count, hlt, htaken⟩ := ih hwell.advance hnext (by omega)
      exact ⟨count + 1, by omega, htaken⟩

end SimpleInterruptController

/-! ## The controller's contract -/

/-- What the controller keeps to from a state on. -/
structure InterruptContract (controller : SimpleInterruptController) : Prop where
  wellFormed : controller.WellFormed
  /-- What a virtual CPU is given is pending, enabled for it, not active and targeted at it. -/
  given : ∀ targetVCPU line, (controller.acknowledge targetVCPU).acknowledged = some line →
    ∃ source, controller.taken targetVCPU = some source ∧ source.line = line ∧
      controller.Deliverable targetVCPU source
  /-- What was acknowledged is not given again before it is completed. -/
  exclusive : ∀ targetVCPU source operations, controller.taken targetVCPU = some source →
    ConditionalRun.Throughout advance (fun controller operation =>
      ¬ operation.Completes controller source) (controller.advance (.acknowledge targetVCPU)) operations →
    ∀ other, ((controller.advance (.acknowledge targetVCPU)).performAll operations).taken other ≠ some source
  /-- A raise stays pending until it is cleared or acknowledged. -/
  stays : ∀ (operation : InterruptOperation) source operations, operation.raised = some source →
    ConditionalRun.Throughout advance (fun controller operation => ¬ operation.Clears source ∧
      operation.acknowledged controller ≠ some source) (controller.advance operation) operations →
    ((controller.advance operation).performAll operations).IsPending source
  /-- A raise is delivered once or still pending. -/
  once : ∀ (operation : InterruptOperation) source operations, operation.raised = some source →
    ConditionalRun.Throughout advance (fun _ operation => ¬ operation.Clears source ∧
      operation.raised ≠ some source) (controller.advance operation) operations →
    deliveries source (controller.advance operation) operations +
      (if ((controller.advance operation).performAll operations).IsPending source then 1 else 0) = 1
  /-- While a source is active it is not given, however often it is raised. -/
  waits : ∀ source operations, controller.IsActive source →
    ConditionalRun.Throughout advance (fun controller operation =>
      ¬ operation.Completes controller source) controller operations →
    deliveries source controller operations = 0
  /-- What may be given is given once the virtual CPU has acknowledged what comes before it. -/
  delivered : ∀ targetVCPU source, controller.Deliverable targetVCPU source →
    ∃ count < controller.backlog targetVCPU,
      (controller.performAll (List.replicate count (.acknowledge targetVCPU))).taken targetVCPU = some source
  /-- An operation that lets some virtual CPU be given something wakes. -/
  wakes : ∀ operation targetVCPU source, (controller.advance operation).Deliverable targetVCPU source →
    ¬ controller.Deliverable targetVCPU source → (controller.perform operation).wakes = true

theorem not_taken_of_isActive {targetVCPU : ℤ} (h : controller.IsActive source) :
    controller.taken targetVCPU ≠ some source := fun htaken => (taken_deliverable htaken).inactive h

theorem deliveries_active {operations : List InterruptOperation} (hactive : controller.IsActive source)
    (h : ConditionalRun.Throughout advance (fun controller operation =>
      ¬ operation.Completes controller source) controller operations) :
    deliveries source controller operations = 0 := by
  induction operations generalizing controller with
  | nil => rfl
  | cons operation operations ih =>
    obtain ⟨hnot, hrest⟩ := h
    have hnone : operation.acknowledged controller ≠ some source := fun htaken => by
      obtain ⟨_, hdeliverable⟩ := acknowledged_deliverable htaken
      exact hdeliverable.inactive hactive
    have hnext := ih (isActive_advance.mpr (.inl ⟨hactive, hnot⟩)) hrest
    simp only [deliveries, if_neg hnone, Nat.zero_add]
    exact hnext

/-- The contract holds after every sequence of operations. -/
theorem interruptContract (operations : List InterruptOperation) :
    InterruptContract (initial.performAll operations) := by
  have hwell : (initial.performAll operations).WellFormed := wellFormed_initial.performAll
  generalize initial.performAll operations = controller at hwell
  refine ⟨hwell, fun targetVCPU line hline => ?_, fun targetVCPU source after htaken hafter other => ?_,
    fun operation source after hraised hafter => ?_, fun operation source after hraised hafter => ?_,
    fun source after hactive hafter => deliveries_active hactive hafter,
    fun targetVCPU source h => deliverable_taken hwell h,
    fun operation targetVCPU source => wakes_of_deliverable hwell⟩
  · rw [acknowledged_eq] at hline
    obtain ⟨source, htaken, heq⟩ := Option.map_eq_some_iff.mp hline
    exact ⟨source, htaken, heq, taken_deliverable htaken⟩
  · have hactive : (controller.advance (.acknowledge targetVCPU)).IsActive source :=
      isActive_advance.mpr (.inr htaken)
    exact not_taken_of_isActive (isActive_advanceAll hactive hafter)
  · have hpending : (controller.advance operation).IsPending source :=
      (isPending_advance hwell).mpr (.inr hraised)
    exact isPending_advanceAll hwell.advance hpending hafter
  · have hpending : (controller.advance operation).IsPending source :=
      (isPending_advance hwell).mpr (.inr hraised)
    rw [deliveries_eq hwell.advance hafter, if_pos hpending]

/-- Another virtual CPU completes the line that the first one has acknowledged, and is given it while the
first one has not completed it. -/
theorem interruptLine_completedElsewhere :
    ((initial.performAll [.setEnabled 40 true, .setTargetMask 40 3, .raise 40]).acknowledge 0).acknowledged =
        some 40 ∧
      ((initial.performAll [.setEnabled 40 true, .setTargetMask 40 3, .raise 40, .acknowledge 0,
        .completeFor 40 1, .raise 40]).acknowledge 1).acknowledged = some 40 := by
  decide

end Pinecone
