import Pinecone.BankedGic

/-! The GIC of Devices.swift shows what a banked GICv2 may show. -/

namespace Pinecone

open SimpleInterruptController InterruptOperation

variable {configuration : GicConfiguration} {gic gic' : VirtualGic} {ref ref' : BankedGic}
  {source : InterruptSource} {line : InterruptLine} {vcpuID : ℤ} {operation : InterruptOperation}

/-- The source lies in the bank of its line. -/
def InterruptSource.Banked : InterruptSource → Prop
  | .targeted line _ => line.toNat < 32
  | .shared line => 32 ≤ line.toNat

theorem InterruptSource.banked_bank : (InterruptSource.bank line vcpuID).Banked := by
  unfold InterruptSource.bank
  split
  · assumption
  · rename_i h
    exact Nat.le_of_not_lt h

/-- The bits that the controller has and those of the banked machine are the same. -/
structure BankedGic.Agrees (ref : BankedGic) (controller : SimpleInterruptController) : Prop where
  wellFormed : controller.WellFormed
  pending : ∀ source, controller.IsPending source ↔ source ∈ ref.pending
  active : ∀ source, controller.IsActive source ↔ source ∈ ref.active
  pendingBanked : ∀ source ∈ ref.pending, source.Banked
  activeBanked : ∀ source ∈ ref.active, source.Banked
  shared : ∀ line, line ∈ controller.enabled → 32 ≤ line.toNat
  enabledShared : ∀ line, 32 ≤ line.toNat → (line ∈ controller.enabled ↔ .shared line ∈ ref.enabled)
  enabledPrivate : ∀ line vcpuID, 16 ≤ line.toNat → line.toNat < 32 →
    (line ∈ controller.targetedEnabled vcpuID ↔ .targeted line vcpuID ∈ ref.enabled)
  targets : ∀ line, 32 ≤ line.toNat → controller.sharedTargetMasks line = ref.targets line

namespace BankedGic.Agrees

variable {controller : SimpleInterruptController}

theorem isEnabled_shared (h : ref.Agrees controller) (hline : 32 ≤ line.toNat) :
    controller.isEnabled line = true ↔ ref.IsEnabled (.shared line) := by
  simp only [isEnabled, Bool.or_eq_true, decide_eq_true_eq, BankedGic.IsEnabled, InterruptSource.line,
    h.enabledShared line hline]

theorem isEnabled_private (h : ref.Agrees controller) (hline : line.toNat < 32) :
    controller.isEnabledFor line vcpuID = true ↔ ref.IsEnabled (.targeted line vcpuID) := by
  have hshared : line ∉ controller.enabled := fun hmem => by
    have := h.shared line hmem
    omega
  simp only [isEnabledFor, Bool.or_eq_true, decide_eq_true_eq, hshared, or_false, BankedGic.IsEnabled,
    InterruptSource.line]
  by_cases hsoftware : line.toNat < 16
  · simp [hsoftware]
  · rw [h.enabledPrivate line vcpuID (by omega) hline]

theorem admits_iff (h : ref.Agrees controller) (hbanked : source.Banked) :
    controller.Admits vcpuID source ↔ ref.IsEnabled source ∧ ref.Reaches vcpuID source := by
  cases source with
  | shared line =>
    have hline : ¬ line.toNat < 32 := Nat.not_lt.mpr hbanked
    simp only [Admits, isTargeted, targetMask, if_neg hline, h.targets line hbanked, decide_eq_true_eq,
      h.isEnabled_shared hbanked, BankedGic.Reaches]
  | targeted line owner =>
    simp only [Admits, BankedGic.Reaches]
    constructor
    · rintro ⟨rfl, henabled⟩
      exact ⟨(h.isEnabled_private hbanked).mp henabled, rfl⟩
    · rintro ⟨henabled, rfl⟩
      exact ⟨rfl, (h.isEnabled_private hbanked).mpr henabled⟩

theorem deliverable_iff (h : ref.Agrees controller) :
    controller.Deliverable vcpuID source ↔ ref.Deliverable vcpuID source := by
  constructor
  · rintro ⟨hpending, hinactive, hadmitted⟩
    have hmem := (h.pending source).mp hpending
    obtain ⟨henabled, hreaches⟩ := (h.admits_iff (h.pendingBanked source hmem)).mp hadmitted
    exact ⟨hmem, fun hactive => hinactive ((h.active source).mpr hactive), henabled, hreaches⟩
  · rintro ⟨hmem, hinactive, henabled, hreaches⟩
    exact ⟨(h.pending source).mpr hmem, fun hactive => hinactive ((h.active source).mp hactive),
      (h.admits_iff (h.pendingBanked source hmem)).mpr ⟨henabled, hreaches⟩⟩

theorem mayGive_taken (h : ref.Agrees controller) (vcpuID : ℤ) :
    ref.MayGive vcpuID (controller.taken vcpuID) := by
  cases htaken : controller.taken vcpuID with
  | some source => exact h.deliverable_iff.mp (taken_deliverable htaken)
  | none =>
    intro source hdeliverable
    have := taken_isSome (h.deliverable_iff.mpr hdeliverable)
    rw [htaken] at this
    cases this

theorem peekPending_eq (controller : SimpleInterruptController) (vcpuID : ℤ) :
    controller.peekPending vcpuID = (controller.taken vcpuID).map InterruptSource.line := by
  unfold peekPending taken
  cases controller.pendingLine vcpuID with
  | some line => rfl
  | none => cases controller.globalPendingLine vcpuID <;> rfl

theorem signalled_iff (h : ref.Agrees controller) :
    (controller.peekPending vcpuID).isSome = true ↔ ∃ source, ref.Deliverable vcpuID source := by
  rw [peekPending_eq, Option.isSome_map]
  have hgiven := h.mayGive_taken vcpuID
  cases htaken : controller.taken vcpuID with
  | some source =>
    rw [htaken] at hgiven
    exact ⟨fun _ => ⟨source, hgiven⟩, fun _ => rfl⟩
  | none =>
    rw [htaken] at hgiven
    exact ⟨fun hsome => by simp at hsome, fun ⟨source, hdeliverable⟩ => (hgiven source hdeliverable).elim⟩

end BankedGic.Agrees

/-! ## Operations of the controller -/

/-- The sources that an operation of the GIC or of a device is about lie in their banks. -/
def InterruptOperation.Banked : InterruptOperation → Prop
  | .raise line | .clear line | .setEnabled line _ => 32 ≤ line.toNat
  | .raiseFor line _ | .clearFor line _ | .setEnabledFor line _ _ => line.toNat < 32
  | .setTargetMask line _ => 32 ≤ line.toNat
  | .completeFor _ _ => True
  | .acknowledge _ | .complete _ | .reset => False

/-- What an operation does to the bits. -/
def BankedGic.perform (ref : BankedGic) : InterruptOperation → BankedGic
  | .raise line => { ref with pending := insert (.shared line) ref.pending }
  | .raiseFor line vcpuID => { ref with pending := insert (.targeted line vcpuID) ref.pending }
  | .clear line => { ref with pending := ref.pending \ {.shared line} }
  | .clearFor line vcpuID => { ref with pending := ref.pending \ {.targeted line vcpuID} }
  | .setEnabled line enabled =>
    { ref with
      enabled := if enabled then insert (.shared line) ref.enabled else ref.enabled \ {.shared line} }
  | .setEnabledFor line enabled vcpuID =>
    { ref with
      enabled := if enabled then insert (.targeted line vcpuID) ref.enabled
        else ref.enabled \ {.targeted line vcpuID} }
  | .setTargetMask line mask => { ref with targets := Function.update ref.targets line mask }
  | .completeFor line vcpuID => { ref with active := ref.active \ {.bank line vcpuID} }
  | .acknowledge _ | .complete _ | .reset => ref

namespace BankedGic.Agrees

variable {controller : SimpleInterruptController}

theorem pending_advance (h : ref.Agrees controller) (hbanked : operation.Banked) (source : InterruptSource) :
    (controller.advance operation).IsPending source ↔ source ∈ (ref.perform operation).pending := by
  rw [isPending_advance h.wellFormed, h.pending]
  cases operation with
  | acknowledge vcpuID => exact hbanked.elim
  | complete line => exact hbanked.elim
  | reset => exact hbanked.elim
  | raise line =>
    simp [Clears, cleared, raised, InterruptOperation.acknowledged, BankedGic.perform, or_comm, eq_comm]
  | raiseFor line vcpuID =>
    simp [Clears, cleared, raised, InterruptOperation.acknowledged, BankedGic.perform, or_comm, eq_comm]
  | clear line => simp [Clears, cleared, raised, InterruptOperation.acknowledged, BankedGic.perform, eq_comm]
  | clearFor line vcpuID =>
    simp [Clears, cleared, raised, InterruptOperation.acknowledged, BankedGic.perform, eq_comm]
  | setEnabled line enabled => simp [Clears, cleared, raised, InterruptOperation.acknowledged, BankedGic.perform]
  | setEnabledFor line enabled vcpuID =>
    simp [Clears, cleared, raised, InterruptOperation.acknowledged, BankedGic.perform]
  | setTargetMask line mask => simp [Clears, cleared, raised, InterruptOperation.acknowledged, BankedGic.perform]
  | completeFor line vcpuID => simp [Clears, cleared, raised, InterruptOperation.acknowledged, BankedGic.perform]

theorem active_advance (h : ref.Agrees controller) (hbanked : operation.Banked) (source : InterruptSource) :
    (controller.advance operation).IsActive source ↔ source ∈ (ref.perform operation).active := by
  rw [isActive_advance]
  have hbank := h.activeBanked source
  rw [← h.active] at hbank
  cases operation with
  | acknowledge vcpuID => exact hbanked.elim
  | complete line => exact hbanked.elim
  | reset => exact hbanked.elim
  | completeFor line vcpuID =>
    simp only [Completes, completed, InterruptOperation.acknowledged, BankedGic.perform, reduceCtorEq,
      false_or, or_false, Option.some.injEq, Set.mem_sdiff, Set.mem_singleton_iff, ← h.active]
    have htargeted : controller.IsActive (.targeted line vcpuID) → line.toNat < 32 := fun hactive =>
      h.activeBanked _ ((h.active _).mp hactive)
    refine and_congr_right fun hactive => not_congr ?_
    unfold InterruptSource.bank
    by_cases hline : line.toNat < 32
    · rw [if_pos hline]
      by_cases hmine : controller.IsActive (.targeted line vcpuID)
      · rw [if_pos hmine, eq_comm]
      · rw [if_neg hmine]
        constructor
        · rintro rfl
          exact absurd (hbank hactive) (Nat.not_le.mpr hline)
        · rintro rfl
          exact absurd hactive hmine
    · rw [if_neg hline, if_neg fun hmine => hline (htargeted hmine), eq_comm]
  | raise line => simp [Completes, completed, InterruptOperation.acknowledged, BankedGic.perform, h.active]
  | raiseFor line vcpuID => simp [Completes, completed, InterruptOperation.acknowledged, BankedGic.perform, h.active]
  | clear line => simp [Completes, completed, InterruptOperation.acknowledged, BankedGic.perform, h.active]
  | clearFor line vcpuID => simp [Completes, completed, InterruptOperation.acknowledged, BankedGic.perform, h.active]
  | setEnabled line enabled =>
    simp [Completes, completed, InterruptOperation.acknowledged, BankedGic.perform, h.active]
  | setEnabledFor line enabled vcpuID =>
    simp [Completes, completed, InterruptOperation.acknowledged, BankedGic.perform, h.active]
  | setTargetMask line mask => simp [Completes, completed, InterruptOperation.acknowledged, BankedGic.perform, h.active]

theorem pendingBanked_perform (h : ref.Agrees controller) (hbanked : operation.Banked) :
    ∀ source ∈ (ref.perform operation).pending, source.Banked := by
  intro source hsource
  cases operation with
  | raise line =>
    rcases hsource with rfl | hsource
    · exact hbanked
    · exact h.pendingBanked source hsource
  | raiseFor line vcpuID =>
    rcases hsource with rfl | hsource
    · exact hbanked
    · exact h.pendingBanked source hsource
  | clear line => exact h.pendingBanked source hsource.1
  | clearFor line vcpuID => exact h.pendingBanked source hsource.1
  | setEnabled line enabled => exact h.pendingBanked source hsource
  | setEnabledFor line enabled vcpuID => exact h.pendingBanked source hsource
  | setTargetMask line mask => exact h.pendingBanked source hsource
  | acknowledge vcpuID => exact hbanked.elim
  | complete line => exact hbanked.elim
  | completeFor line vcpuID => exact h.pendingBanked source hsource
  | reset => exact hbanked.elim

theorem enabledShared_perform (h : ref.Agrees controller) (hbanked : operation.Banked)
    (other : InterruptLine) (hother : 32 ≤ other.toNat) :
    other ∈ (controller.advance operation).enabled ↔ .shared other ∈ (ref.perform operation).enabled := by
  have hsame := h.enabledShared other hother
  cases operation with
  | setEnabled line enabled =>
    cases enabled <;>
      simp only [advance, SimpleInterruptController.perform, SimpleInterruptController.setEnabled, BankedGic.perform,
        Bool.false_eq_true, if_false, if_true, Finset.mem_erase, Finset.mem_insert, Set.mem_sdiff,
        Set.mem_singleton_iff, Set.mem_insert_iff, InterruptSource.shared.injEq, hsame, and_comm, ne_eq]
  | setEnabledFor line enabled vcpuID =>
    have hcontroller : (controller.advance (.setEnabledFor line enabled vcpuID)).enabled =
        controller.enabled := by
      simp only [advance, SimpleInterruptController.perform, SimpleInterruptController.setEnabledFor]
      split <;> rfl
    rw [hcontroller, hsame]
    cases enabled <;> simp [BankedGic.perform]
  | setTargetMask line mask =>
    have hcontroller : (controller.advance (.setTargetMask line mask)).enabled = controller.enabled := by
      simp only [advance, SimpleInterruptController.perform, SimpleInterruptController.setTargetMask]
      split <;> rfl
    rw [hcontroller, hsame]
    rfl
  | acknowledge vcpuID => exact hbanked.elim
  | complete line => exact hbanked.elim
  | reset => exact hbanked.elim
  | raise line => exact hsame
  | raiseFor line vcpuID => exact hsame
  | clear line => exact hsame
  | clearFor line vcpuID => exact hsame
  | completeFor line vcpuID => exact hsame

theorem enabledPrivate_perform (h : ref.Agrees controller) (hbanked : operation.Banked)
    (other : InterruptLine) (owner : ℤ) (hlow : 16 ≤ other.toNat) (hhigh : other.toNat < 32) :
    other ∈ (controller.advance operation).targetedEnabled owner ↔
      .targeted other owner ∈ (ref.perform operation).enabled := by
  have hsame := h.enabledPrivate other owner hlow hhigh
  cases operation with
  | setEnabled line enabled =>
    have hcontroller : (controller.advance (.setEnabled line enabled)).targetedEnabled =
        controller.targetedEnabled := rfl
    rw [hcontroller, hsame]
    cases enabled <;> simp [BankedGic.perform]
  | setEnabledFor line enabled vcpuID =>
    by_cases hline : line.toNat < 16
    · have hcontroller : controller.advance (.setEnabledFor line enabled vcpuID) = controller := by
        simp only [advance, SimpleInterruptController.perform, SimpleInterruptController.setEnabledFor, if_pos hline]
      have hne : other ≠ line := fun heq => by
        rw [heq] at hlow
        omega
      rw [hcontroller, hsame]
      cases enabled <;> simp [BankedGic.perform, hne]
    · simp only [advance, SimpleInterruptController.perform, SimpleInterruptController.setEnabledFor, if_neg hline, BankedGic.perform]
      by_cases howner : owner = vcpuID
      · subst howner
        rw [Function.update_self]
        cases enabled <;>
          simp only [Bool.false_eq_true, if_false, if_true, Finset.mem_erase, Finset.mem_insert,
            Set.mem_sdiff, Set.mem_singleton_iff, Set.mem_insert_iff, InterruptSource.targeted.injEq,
            and_true, hsame, ne_eq]
        exact and_comm
      · rw [Function.update_of_ne howner, hsame]
        cases enabled <;> simp [howner]
  | setTargetMask line mask =>
    have hcontroller : (controller.advance (.setTargetMask line mask)).targetedEnabled =
        controller.targetedEnabled := by
      simp only [advance, SimpleInterruptController.perform, SimpleInterruptController.setTargetMask]
      split <;> rfl
    rw [hcontroller, hsame]
    rfl
  | acknowledge vcpuID => exact hbanked.elim
  | complete line => exact hbanked.elim
  | reset => exact hbanked.elim
  | raise line => exact hsame
  | raiseFor line vcpuID => exact hsame
  | clear line => exact hsame
  | clearFor line vcpuID => exact hsame
  | completeFor line vcpuID => exact hsame

theorem shared_advance (h : ref.Agrees controller) (hbanked : operation.Banked) (other : InterruptLine)
    (hother : other ∈ (controller.advance operation).enabled) : 32 ≤ other.toNat := by
  cases operation with
  | setEnabled line enabled =>
    cases enabled with
    | true =>
      rcases Finset.mem_insert.mp hother with rfl | hother
      · exact hbanked
      · exact h.shared other hother
    | false => exact h.shared other (Finset.mem_of_mem_erase hother)
  | setEnabledFor line enabled vcpuID =>
    simp only [advance, SimpleInterruptController.perform, SimpleInterruptController.setEnabledFor] at hother
    split at hother <;> exact h.shared other hother
  | setTargetMask line mask =>
    simp only [advance, SimpleInterruptController.perform, SimpleInterruptController.setTargetMask] at hother
    split at hother <;> exact h.shared other hother
  | acknowledge vcpuID => exact hbanked.elim
  | complete line => exact hbanked.elim
  | reset => exact hbanked.elim
  | raise line => exact h.shared other hother
  | raiseFor line vcpuID => exact h.shared other hother
  | clear line => exact h.shared other hother
  | clearFor line vcpuID => exact h.shared other hother
  | completeFor line vcpuID => exact h.shared other hother

theorem targets_perform (h : ref.Agrees controller) (hbanked : operation.Banked) (other : InterruptLine)
    (hother : 32 ≤ other.toNat) :
    (controller.advance operation).sharedTargetMasks other = (ref.perform operation).targets other := by
  have hsame := h.targets other hother
  cases operation with
  | setTargetMask line mask =>
    have hline : ¬ line.toNat < 32 := Nat.not_lt.mpr hbanked
    simp only [advance, SimpleInterruptController.perform, SimpleInterruptController.setTargetMask, if_neg hline, BankedGic.perform,
      Function.update_apply, hsame]
  | setEnabledFor line enabled vcpuID =>
    simp only [advance, SimpleInterruptController.perform, SimpleInterruptController.setEnabledFor]
    split <;> exact hsame
  | acknowledge vcpuID => exact hbanked.elim
  | complete line => exact hbanked.elim
  | reset => exact hbanked.elim
  | raise line => exact hsame
  | raiseFor line vcpuID => exact hsame
  | clear line => exact hsame
  | clearFor line vcpuID => exact hsame
  | setEnabled line enabled => exact hsame
  | completeFor line vcpuID => exact hsame

theorem perform (h : ref.Agrees controller) (hbanked : operation.Banked) :
    (ref.perform operation).Agrees (controller.advance operation) where
  wellFormed := h.wellFormed.advance
  pending := h.pending_advance hbanked
  active := h.active_advance hbanked
  pendingBanked := h.pendingBanked_perform hbanked
  activeBanked := fun source hsource => h.activeBanked source (by
    cases operation <;> first | exact hsource | exact hsource.1)
  shared := h.shared_advance hbanked
  enabledShared := h.enabledShared_perform hbanked
  enabledPrivate := h.enabledPrivate_perform hbanked
  targets := h.targets_perform hbanked

theorem performAll {operations : List InterruptOperation} (h : ref.Agrees controller)
    (hbanked : ∀ operation ∈ operations, operation.Banked) :
    (operations.foldl BankedGic.perform ref).Agrees (controller.performAll operations) := by
  induction operations generalizing ref controller with
  | nil => exact h
  | cons operation operations ih =>
    exact ih (h.perform (hbanked operation (by simp))) fun other ho => hbanked other (by simp [ho])

theorem give (h : ref.Agrees controller) (vcpuID : ℤ) :
    (ref.give (controller.taken vcpuID)).Agrees (controller.advance (.acknowledge vcpuID)) := by
  have hframe : (controller.advance (.acknowledge vcpuID)).enabled = controller.enabled ∧
      (controller.advance (.acknowledge vcpuID)).targetedEnabled = controller.targetedEnabled ∧
      (controller.advance (.acknowledge vcpuID)).sharedTargetMasks = controller.sharedTargetMasks := by
    simp only [advance, SimpleInterruptController.perform]
    cases htaken : controller.taken vcpuID with
    | none =>
      rw [acknowledge_none htaken]
      exact ⟨rfl, rfl, rfl⟩
    | some source =>
      rcases taken_cases htaken with ⟨line, _, hline⟩ | ⟨line, _, hnone, hline⟩
      · rw [acknowledge_targeted hline]
        exact ⟨rfl, rfl, rfl⟩
      · rw [acknowledge_global hnone hline]
        exact ⟨rfl, rfl, rfl⟩
  obtain ⟨henabled, htargetedEnabled, hmasks⟩ := hframe
  have hgiven := h.mayGive_taken vcpuID
  have hpending : ∀ source, (controller.advance (.acknowledge vcpuID)).IsPending source ↔
      source ∈ ref.pending ∧ controller.taken vcpuID ≠ some source := fun source => by
    rw [isPending_advance h.wellFormed, h.pending]
    simp [Clears, cleared, raised, InterruptOperation.acknowledged]
  have hactive : ∀ source, (controller.advance (.acknowledge vcpuID)).IsActive source ↔
      source ∈ ref.active ∨ controller.taken vcpuID = some source := fun source => by
    rw [isActive_advance, h.active]
    simp [Completes, completed, InterruptOperation.acknowledged]
  cases htaken : controller.taken vcpuID with
  | none =>
    rw [htaken] at hpending hactive
    exact ⟨h.wellFormed.advance, fun source => by simpa [BankedGic.give] using hpending source,
      fun source => by simpa [BankedGic.give] using hactive source, h.pendingBanked, h.activeBanked,
      fun line hline => h.shared line (henabled ▸ hline), fun line hline => by
        rw [henabled]; exact h.enabledShared line hline, fun line owner hlow hhigh => by
        rw [htargetedEnabled]; exact h.enabledPrivate line owner hlow hhigh, fun line hline => by
        rw [hmasks]; exact h.targets line hline⟩
  | some given =>
    rw [htaken] at hpending hactive hgiven
    have hbanked := h.pendingBanked given hgiven.pending
    refine ⟨h.wellFormed.advance, fun source => ?_, fun source => ?_,
      fun source hsource => h.pendingBanked source hsource.1, fun source hsource => ?_,
      fun line hline => h.shared line (henabled ▸ hline), fun line hline => ?_,
      fun line owner hlow hhigh => ?_, fun line hline => ?_⟩
    · rw [hpending]
      simp [BankedGic.give, eq_comm]
    · rw [hactive]
      simp [BankedGic.give, or_comm, eq_comm]
    · rcases hsource with rfl | hsource
      · exact hbanked
      · exact h.activeBanked source hsource
    · rw [henabled]
      exact h.enabledShared line hline
    · rw [htargetedEnabled]
      exact h.enabledPrivate line owner hlow hhigh
    · rw [hmasks]
      exact h.targets line hline

end BankedGic.Agrees

end Pinecone
