import Mathlib.Data.Finset.Basic
import Mathlib.Data.List.AList
import Mathlib.Logic.Function.Basic
import Pinecone.VirtioQueues

/-! The interrupt controller of Devices.swift: the shared lines, the lines of each virtual CPU, and
the operations on them, each of which runs under the controller's lock. -/

namespace Pinecone

abbrev InterruptLine := BitVec 32

/-- A dictionary from virtual CPUs to lists of lines. -/
abbrev TargetedLines := AList fun _ : ℤ => List InterruptLine

/-- The lines of a virtual CPU, none by default. -/
def TargetedLines.of (table : TargetedLines) (targetVCPU : ℤ) : List InterruptLine :=
  (table.lookup targetVCPU).getD []

/-- `SimpleInterruptController`. A target mask that is not set is 1. -/
structure SimpleInterruptController where
  pending : List InterruptLine
  enabled : Finset InterruptLine
  active : List InterruptLine
  targetedPending : TargetedLines
  targetedEnabled : ℤ → Finset InterruptLine
  targetedActive : TargetedLines
  sharedTargetMasks : InterruptLine → U8

/-- What an operation leaves: the controller, the line it returns, and whether it calls the wake
handler once it has released the lock. -/
structure InterruptOutcome where
  controller : SimpleInterruptController
  acknowledged : Option InterruptLine
  wakes : Bool

/-- A line joins a list that it is not in. -/
def appendOnce (lines : List InterruptLine) (line : InterruptLine) : List InterruptLine :=
  if line ∈ lines then lines else lines ++ [line]

/-- `removeAll`. -/
def removeAll (lines : List InterruptLine) (line : InterruptLine) : List InterruptLine :=
  lines.filter fun other => other ≠ line

namespace SimpleInterruptController

/-- A controller after `init` or `reset`. -/
def initial : SimpleInterruptController where
  pending := []
  enabled := ∅
  active := []
  targetedPending := ∅
  targetedEnabled := fun _ => ∅
  targetedActive := ∅
  sharedTargetMasks := fun _ => 1

variable (controller : SimpleInterruptController)

/-! ## What is read -/

/-- `isEnabled(line:)`. -/
def isEnabled (line : InterruptLine) : Bool := line.toNat < 16 || line ∈ controller.enabled

/-- `isEnabled(line:targetVCPU:)`. -/
def isEnabledFor (line : InterruptLine) (targetVCPU : ℤ) : Bool :=
  line.toNat < 16 || line ∈ controller.targetedEnabled targetVCPU || line ∈ controller.enabled

def targetMask (line : InterruptLine) : U8 :=
  if line.toNat < 32 then 1 else controller.sharedTargetMasks line

def targetBit (targetVCPU : ℤ) : U8 :=
  if 0 ≤ targetVCPU ∧ targetVCPU < 8 then 1#8 <<< targetVCPU.toNat else 0

/-- A shared line is sent to a virtual CPU. -/
def isTargeted (line : InterruptLine) (targetVCPU : ℤ) : Bool :=
  controller.targetMask line &&& targetBit targetVCPU ≠ 0

def pendingLine (targetVCPU : ℤ) : Option InterruptLine :=
  (controller.targetedPending.of targetVCPU).find? fun line =>
    controller.isEnabledFor line targetVCPU && line ∉ controller.targetedActive.of targetVCPU

def globalPendingLine (targetVCPU : ℤ) : Option InterruptLine :=
  controller.pending.find? fun line =>
    controller.isEnabled line && line ∉ controller.active && controller.isTargeted line targetVCPU

/-- `peekPending(targetVCPU:)`; `peekPending()` asks for the first virtual CPU. -/
def peekPending (targetVCPU : ℤ) : Option InterruptLine :=
  (controller.pendingLine targetVCPU).or (controller.globalPendingLine targetVCPU)

/-- `activeLine(targetVCPU:)`. -/
def activeLine (targetVCPU : ℤ) : Option InterruptLine :=
  (controller.targetedActive.of targetVCPU).head?.or
    (controller.active.find? fun line => controller.isTargeted line targetVCPU)

/-! ## Operations -/

/-- `raise(line:)`. -/
def raise (line : InterruptLine) : InterruptOutcome :=
  ⟨{ controller with pending := appendOnce controller.pending line }, none, true⟩

/-- `raise(line:targetVCPU:)`. -/
def raiseFor (line : InterruptLine) (targetVCPU : ℤ) : InterruptOutcome :=
  ⟨{ controller with
      targetedPending := controller.targetedPending.insert targetVCPU
        (appendOnce (controller.targetedPending.of targetVCPU) line) }, none, true⟩

/-- `clear(line:)`. -/
def clear (line : InterruptLine) : InterruptOutcome :=
  ⟨{ controller with pending := removeAll controller.pending line }, none, false⟩

/-- `clear(line:targetVCPU:)`. -/
def clearFor (line : InterruptLine) (targetVCPU : ℤ) : InterruptOutcome :=
  ⟨{ controller with
      targetedPending := controller.targetedPending.insert targetVCPU
        (removeAll (controller.targetedPending.of targetVCPU) line) }, none, false⟩

/-- `setEnabled(line:enabled:)`. -/
def setEnabled (line : InterruptLine) (enabled : Bool) : InterruptOutcome :=
  ⟨{ controller with
      enabled := if enabled then insert line controller.enabled else controller.enabled.erase line },
    none,
    enabled && (line ∈ controller.pending ||
      controller.targetedPending.entries.any fun lines => line ∈ lines.2)⟩

/-- `setEnabled(line:enabled:targetVCPU:)`. -/
def setEnabledFor (line : InterruptLine) (enabled : Bool) (targetVCPU : ℤ) : InterruptOutcome :=
  if line.toNat < 16 then ⟨controller, none, false⟩
  else
    let lines := controller.targetedEnabled targetVCPU
    ⟨{ controller with
        targetedEnabled := Function.update controller.targetedEnabled targetVCPU
          (if enabled then insert line lines else lines.erase line) },
      none,
      enabled && (line ∈ controller.targetedPending.of targetVCPU || line ∈ controller.pending)⟩

/-- `setTargetMask(line:mask:)`. -/
def setTargetMask (line : InterruptLine) (mask : U8) : InterruptOutcome :=
  if line.toNat < 32 then ⟨controller, none, false⟩
  else
    ⟨{ controller with sharedTargetMasks := Function.update controller.sharedTargetMasks line mask },
      none, line ∈ controller.pending⟩

/-- `acknowledgeTargeted`. -/
def acknowledgeTargeted (targetVCPU : ℤ) : Option InterruptOutcome :=
  (controller.pendingLine targetVCPU).map fun line =>
    ⟨{ controller with
        targetedPending := controller.targetedPending.insert targetVCPU
          ((controller.targetedPending.of targetVCPU).erase line)
        targetedActive := controller.targetedActive.insert targetVCPU
          (appendOnce (controller.targetedActive.of targetVCPU) line) }, some line, false⟩

/-- `acknowledgeGlobal`. -/
def acknowledgeGlobal (targetVCPU : ℤ) : Option InterruptOutcome :=
  (controller.globalPendingLine targetVCPU).map fun line =>
    ⟨{ controller with
        pending := controller.pending.erase line
        active := appendOnce controller.active line }, some line, false⟩

/-- `acknowledge(targetVCPU:)`; `acknowledge()` is that of the first virtual CPU. -/
def acknowledge (targetVCPU : ℤ) : InterruptOutcome :=
  match controller.acknowledgeTargeted targetVCPU with
  | some outcome => outcome
  | none => (controller.acknowledgeGlobal targetVCPU).getD ⟨controller, none, false⟩

/-- `complete(line:)`. -/
def complete (line : InterruptLine) : InterruptOutcome :=
  ⟨{ controller with active := removeAll controller.active line }, none, line ∈ controller.pending⟩

/-- `complete(line:targetVCPU:)`: the virtual CPU's own active line, or else the shared one. -/
def completeFor (line : InterruptLine) (targetVCPU : ℤ) : InterruptOutcome :=
  let wasTargeted := line ∈ controller.targetedActive.of targetVCPU
  ⟨{ controller with
      targetedActive := controller.targetedActive.insert targetVCPU
        (removeAll (controller.targetedActive.of targetVCPU) line)
      active := if wasTargeted then controller.active else removeAll controller.active line },
    none, line ∈ controller.pending || line ∈ controller.targetedPending.of targetVCPU⟩

end SimpleInterruptController

/-- A call of a method of the controller. -/
inductive InterruptOperation
  | raise (line : InterruptLine)
  | raiseFor (line : InterruptLine) (targetVCPU : ℤ)
  | clear (line : InterruptLine)
  | clearFor (line : InterruptLine) (targetVCPU : ℤ)
  | setEnabled (line : InterruptLine) (enabled : Bool)
  | setEnabledFor (line : InterruptLine) (enabled : Bool) (targetVCPU : ℤ)
  | setTargetMask (line : InterruptLine) (mask : U8)
  | acknowledge (targetVCPU : ℤ)
  | complete (line : InterruptLine)
  | completeFor (line : InterruptLine) (targetVCPU : ℤ)
  | reset
  deriving DecidableEq

namespace SimpleInterruptController

def perform (controller : SimpleInterruptController) : InterruptOperation → InterruptOutcome
  | .raise line => controller.raise line
  | .raiseFor line targetVCPU => controller.raiseFor line targetVCPU
  | .clear line => controller.clear line
  | .clearFor line targetVCPU => controller.clearFor line targetVCPU
  | .setEnabled line enabled => controller.setEnabled line enabled
  | .setEnabledFor line enabled targetVCPU => controller.setEnabledFor line enabled targetVCPU
  | .setTargetMask line mask => controller.setTargetMask line mask
  | .acknowledge targetVCPU => controller.acknowledge targetVCPU
  | .complete line => controller.complete line
  | .completeFor line targetVCPU => controller.completeFor line targetVCPU
  | .reset => ⟨initial, none, false⟩

/-- The controller after an operation. -/
def advance (controller : SimpleInterruptController) (operation : InterruptOperation) :
    SimpleInterruptController :=
  (controller.perform operation).controller

/-- The controller after a sequence of operations. -/
def performAll (controller : SimpleInterruptController) (operations : List InterruptOperation) :
    SimpleInterruptController :=
  operations.foldl advance controller

end SimpleInterruptController

end Pinecone
