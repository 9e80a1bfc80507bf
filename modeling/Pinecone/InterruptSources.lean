import Pinecone.ConditionalRuns
import Pinecone.InterruptController

/-! A line that is raised for all virtual CPUs and the same line raised for one of them are pending
and active separately: they are two sources. -/

namespace Pinecone

/-- A line as it is shared, or as it belongs to a virtual CPU. -/
inductive InterruptSource
  | shared (line : InterruptLine)
  | targeted (line : InterruptLine) (targetVCPU : ℤ)
  deriving DecidableEq

def InterruptSource.line : InterruptSource → InterruptLine
  | .shared line => line
  | .targeted line _ => line

/-! ## Lists of lines -/

variable {lines : List InterruptLine} {line other : InterruptLine} {targetVCPU : ℤ}

@[simp] theorem mem_appendOnce : other ∈ appendOnce lines line ↔ other ∈ lines ∨ other = line := by
  unfold appendOnce
  split
  · rename_i h
    exact ⟨.inl, fun ho => ho.elim id fun heq => heq ▸ h⟩
  · simp

@[simp] theorem mem_removeAll : other ∈ removeAll lines line ↔ other ∈ lines ∧ other ≠ line := by
  simp [removeAll]

theorem nodup_appendOnce (h : lines.Nodup) : (appendOnce lines line).Nodup := by
  unfold appendOnce
  split
  · exact h
  · rename_i hnew
    exact List.nodup_append'.mpr ⟨h, List.nodup_singleton _, by simpa using hnew⟩

theorem nodup_removeAll (h : lines.Nodup) : (removeAll lines line).Nodup := h.filter _

@[simp] theorem TargetedLines.of_insert (table : TargetedLines) (targetVCPU : ℤ)
    (lines : List InterruptLine) (other : ℤ) :
    TargetedLines.of (table.insert targetVCPU lines) other =
      if other = targetVCPU then lines else table.of other := by
  unfold TargetedLines.of
  by_cases h : other = targetVCPU
  · subst h
    rw [AList.lookup_insert, if_pos rfl]
    rfl
  · rw [AList.lookup_insert_ne h, if_neg h]

@[simp] theorem TargetedLines.of_empty (targetVCPU : ℤ) : TargetedLines.of ∅ targetVCPU = [] := rfl

theorem TargetedLines.any_of_mem {table : TargetedLines} (h : line ∈ table.of targetVCPU) :
    (table.entries.any fun lines => line ∈ lines.2) = true := by
  unfold TargetedLines.of at h
  cases hlookup : table.lookup targetVCPU with
  | none => simp [hlookup] at h
  | some lines =>
    rw [hlookup, Option.getD_some] at h
    exact List.any_eq_true.mpr ⟨_, AList.mem_lookup_iff.mp hlookup, by simpa using h⟩

namespace SimpleInterruptController

/-! ## Sources of a controller -/

def IsPending (controller : SimpleInterruptController) : InterruptSource → Prop
  | .shared line => line ∈ controller.pending
  | .targeted line targetVCPU => line ∈ controller.targetedPending.of targetVCPU

def IsActive (controller : SimpleInterruptController) : InterruptSource → Prop
  | .shared line => line ∈ controller.active
  | .targeted line targetVCPU => line ∈ controller.targetedActive.of targetVCPU

instance (controller : SimpleInterruptController) :
    (source : InterruptSource) → Decidable (controller.IsPending source)
  | .shared line => inferInstanceAs (Decidable (line ∈ controller.pending))
  | .targeted line targetVCPU =>
    inferInstanceAs (Decidable (line ∈ controller.targetedPending.of targetVCPU))

instance (controller : SimpleInterruptController) :
    (source : InterruptSource) → Decidable (controller.IsActive source)
  | .shared line => inferInstanceAs (Decidable (line ∈ controller.active))
  | .targeted line targetVCPU =>
    inferInstanceAs (Decidable (line ∈ controller.targetedActive.of targetVCPU))

/-- A virtual CPU may be given the source once it is pending and not active. -/
def Admits (controller : SimpleInterruptController) (targetVCPU : ℤ) : InterruptSource → Prop
  | .shared line => controller.isEnabled line = true ∧ controller.isTargeted line targetVCPU = true
  | .targeted line owner => owner = targetVCPU ∧ controller.isEnabledFor line targetVCPU = true

structure Deliverable (controller : SimpleInterruptController) (targetVCPU : ℤ)
    (source : InterruptSource) : Prop where
  pending : controller.IsPending source
  inactive : ¬ controller.IsActive source
  admitted : controller.Admits targetVCPU source

/-- The source that an acknowledgment takes. -/
def taken (controller : SimpleInterruptController) (targetVCPU : ℤ) : Option InterruptSource :=
  ((controller.pendingLine targetVCPU).map fun line => .targeted line targetVCPU).or
    ((controller.globalPendingLine targetVCPU).map .shared)

/-- No line is twice in a list. -/
structure WellFormed (controller : SimpleInterruptController) : Prop where
  pending : controller.pending.Nodup
  active : controller.active.Nodup
  targetedPending : ∀ targetVCPU, (controller.targetedPending.of targetVCPU).Nodup
  targetedActive : ∀ targetVCPU, (controller.targetedActive.of targetVCPU).Nodup

end SimpleInterruptController

/-! ## What the operations do to sources -/

namespace InterruptOperation

/-- The source that the operation makes pending. -/
def raised : InterruptOperation → Option InterruptSource
  | .raise line => some (.shared line)
  | .raiseFor line targetVCPU => some (.targeted line targetVCPU)
  | _ => none

def cleared : InterruptOperation → Option InterruptSource
  | .clear line => some (.shared line)
  | .clearFor line targetVCPU => some (.targeted line targetVCPU)
  | _ => none

/-- The source that the operation acknowledges. -/
def acknowledged (controller : SimpleInterruptController) :
    InterruptOperation → Option InterruptSource
  | .acknowledge targetVCPU => controller.taken targetVCPU
  | _ => none

/-- The source that the operation ends the activity of, if it is active. -/
def completed (controller : SimpleInterruptController) : InterruptOperation → Option InterruptSource
  | .complete line => some (.shared line)
  | .completeFor line targetVCPU =>
    some (if controller.IsActive (.targeted line targetVCPU) then .targeted line targetVCPU
      else .shared line)
  | _ => none

def Clears (operation : InterruptOperation) (source : InterruptSource) : Prop :=
  operation = .reset ∨ operation.cleared = some source

def Completes (controller : SimpleInterruptController) (operation : InterruptOperation)
    (source : InterruptSource) : Prop :=
  operation = .reset ∨ operation.completed controller = some source

end InterruptOperation

end Pinecone
