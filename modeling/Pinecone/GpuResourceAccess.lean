import Mathlib.Data.Finset.Basic
import Mathlib.Data.Finset.Disjoint
import Pinecone.VirtioQueues

/-! What a GPU request reads and writes, as GPUResourceAccess.swift finds out from its bytes. -/

namespace Pinecone

/-- `VirtIOGPUDevice.Command`. -/
inductive VirtioGpuCommand
  | getDisplayInfo
  | resourceCreate2D
  | resourceUnref
  | setScanout
  | resourceFlush
  | transferToHost2D
  | resourceAttachBacking
  | resourceDetachBacking
  | submit3D
  | updateCursor
  | moveCursor
  deriving DecidableEq

def VirtioGpuCommand.ofRawValue (value : BitVec 32) : Option VirtioGpuCommand :=
  match value.toNat with
  | 0x0100 => some .getDisplayInfo
  | 0x0101 => some .resourceCreate2D
  | 0x0102 => some .resourceUnref
  | 0x0103 => some .setScanout
  | 0x0104 => some .resourceFlush
  | 0x0105 => some .transferToHost2D
  | 0x0106 => some .resourceAttachBacking
  | 0x0107 => some .resourceDetachBacking
  | 0x0207 => some .submit3D
  | 0x0300 => some .updateCursor
  | 0x0301 => some .moveCursor
  | _ => none

namespace PineconeGraphicsProtocol

def magic : BitVec 32 := 0x504e3244
def version : U16 := 3
def exactCompositeVersion : U16 := 5
def batchVersion : U16 := 4
def payloadByteCount : ℕ := 64
def batchHeaderByteCount : ℕ := 16
def batchRecordByteCount : ℕ := payloadByteCount
def maximumBatchCommandCount : ℕ := 64
def legacySupportedFlags : BitVec 32 := 0x00f
def supportedFlags : BitVec 32 := 0x1ff

/-- The raw values of `PineconeGraphicsOperation`. -/
def isOperation (value : U16) : Bool := 1 ≤ value.toNat && value.toNat ≤ 4

/-- The raw values of `PineconeGraphicsBlendOperator`. -/
def isBlendOperator (value : U16) : Bool := value.toNat ≤ 0x0d

end PineconeGraphicsProtocol

/-- `GPUResourceAccess`. -/
structure GpuResourceAccess where
  reads : Finset (BitVec 32)
  writes : Finset (BitVec 32)
  isGlobal : Bool
  deriving DecidableEq

namespace GpuResourceAccess

open PineconeGraphicsProtocol

def global : GpuResourceAccess := ⟨∅, ∅, true⟩

/-- `conflicts(with:)`. -/
def conflicts (access other : GpuResourceAccess) : Bool :=
  access.isGlobal || other.isGlobal || !decide (Disjoint access.writes other.writes) ||
    !decide (Disjoint access.writes other.reads) || !decide (Disjoint access.reads other.writes)

/-- `read16`. -/
def read16 (bytes : List U8) (offset : ℕ) : U16 :=
  (bytes.getD offset 0).setWidth 16 ||| (bytes.getD (offset + 1) 0).setWidth 16 <<< 8

/-- `read32`. -/
def read32 (bytes : List U8) (offset : ℕ) : BitVec 32 :=
  (read16 bytes offset).setWidth 32 ||| (read16 bytes (offset + 2)).setWidth 32 <<< 16

/-- The command of a request that is as long as a header. -/
def command (request : List U8) : Option VirtioGpuCommand :=
  if request.length < 24 then none else VirtioGpuCommand.ofRawValue (read32 request 0)

/-- Where the records of a submission start. -/
def recordStarts (request : List U8) (payloadSize : ℕ) : Option (List ℕ) :=
  let payloadStart := 32
  let submissionVersion := read16 request (payloadStart + 4)
  if submissionVersion = version ∨ submissionVersion = exactCompositeVersion then
    if payloadSize = payloadByteCount then some [payloadStart] else none
  else if submissionVersion = batchVersion then
    let count := (read16 request (payloadStart + 6)).toNat
    let stride := (read16 request (payloadStart + 8)).toNat
    if batchHeaderByteCount ≤ payloadSize ∧ 0 < count ∧ count ≤ maximumBatchCommandCount ∧
        stride = batchRecordByteCount ∧ read16 request (payloadStart + 10) = 0 ∧
        payloadSize = batchHeaderByteCount + count * stride ∧
        (read32 request (payloadStart + 12)).toNat = payloadSize then
      some ((List.range count).map fun record =>
        payloadStart + batchHeaderByteCount + record * stride)
    else none
  else none

/-- Whether the operation and the flags of a record are known. -/
def isKnownRecord (request : List U8) (start : ℕ) : Bool :=
  let recordVersion := read16 request (start + 4)
  let operation := read16 request (start + 6)
  let flags := read32 request (start + 8)
  if recordVersion = version then
    isOperation operation && flags &&& ~~~legacySupportedFlags = 0
  else if recordVersion = exactCompositeVersion then
    isBlendOperator operation && flags &&& ~~~supportedFlags = 0
  else false

/-- A record's destination is written, and its source and its mask are read. -/
def addRecord (request : List U8) (access : GpuResourceAccess) (start : ℕ) :
    Option GpuResourceAccess :=
  if request.length < start + payloadByteCount ∨ read32 request start ≠ magic ∨
      isKnownRecord request start = false then none
  else
    let destination := read32 request (start + 16)
    if destination = 0 then none
    else
      let note (reads : Finset (BitVec 32)) (offset : ℕ) :=
        let resource := read32 request (start + offset)
        if resource ≠ 0 then insert resource reads else reads
      some { access with
        writes := insert destination access.writes
        reads := [12, 56].foldl note access.reads }

/-- `parseSubmission`, if the submission is understood. -/
def parseRecords (request : List U8) : Option GpuResourceAccess :=
  let payloadStart := 32
  let payloadSize := (read32 request 24).toNat
  if request.length < payloadStart + 8 ∨ payloadSize < 8 ∨
      request.length - payloadStart < payloadSize ∨ read32 request payloadStart ≠ magic then none
  else
    match recordStarts request payloadSize with
    | none => none
    | some starts => starts.foldlM (addRecord request) ⟨∅, ∅, false⟩

/-- `parse`. -/
def parse (request : List U8) : GpuResourceAccess :=
  match command request with
  | some .transferToHost2D =>
    if request.length < 56 then global else ⟨∅, {read32 request 48}, false⟩
  | some .submit3D => (parseRecords request).getD global
  | _ => global

end GpuResourceAccess

end Pinecone
