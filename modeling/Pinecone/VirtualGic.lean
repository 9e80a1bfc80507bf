import Pinecone.ArmArithmetic
import Pinecone.InterruptSafety

/-! The GIC of Devices.swift, which has a few registers of its own and turns the other accesses into
calls of the interrupt controller. -/

namespace Pinecone

/-- `MMIOWidth`. -/
inductive MmioWidth
  | byte
  | halfword
  | word
  | doubleword
  deriving DecidableEq

def MmioWidth.rawValue : MmioWidth → ℕ
  | .byte => 1
  | .halfword => 2
  | .word => 4
  | .doubleword => 8

/-- What a `VirtualGIC` is made with. A machine has at most eight virtual CPUs. -/
structure GicConfiguration where
  cpuInterfaceOffset : ℕ
  virtualCPUCount : ℕ
  positive : 0 < virtualCPUCount
  atMostEight : virtualCPUCount ≤ 8

/-- `VirtualGIC` and its interrupt controller. -/
structure VirtualGic where
  distributorEnabled : Bool
  cpuInterfaceEnabled : ℤ → Bool
  priorityMask : ℤ → U8
  interruptController : SimpleInterruptController

namespace VirtualGic

def initial : VirtualGic where
  distributorEnabled := false
  cpuInterfaceEnabled := fun _ => false
  priorityMask := fun _ => 0xff
  interruptController := SimpleInterruptController.initial

/-- The lines of a bitmap register, from the word that the offset lies in. -/
def bitmapLines (offset : ℕ) (bitmap : BitVec 32) : List InterruptLine :=
  ((List.range 32).filter fun bit => bitmap.getLsbD bit).map fun bit =>
    BitVec.ofNat 32 (offset / 4 * 32 + bit)

/-- The bytes of a target register, the first one lowest. -/
def packTargets (mask : ℕ → U8) (byteCount : ℕ) : U64 :=
  (List.range byteCount).foldl (fun value byte => value ||| (mask byte).setWidth 64 <<< (byte * 8)) 0

end VirtualGic

/-- `currentVCPUID`, from what the provider answers. -/
def GicConfiguration.currentVCPUID (configuration : GicConfiguration) (provided : ℤ) : ℤ :=
  min (max 0 provided) (configuration.virtualCPUCount - 1)

/-- `availableMask` of `setTargetRegisterValue`. -/
def GicConfiguration.availableMask (configuration : GicConfiguration) : U8 :=
  BitVec.ofNat 8 (2 ^ configuration.virtualCPUCount - 1)

namespace VirtualGic

variable (configuration : GicConfiguration) (gic : VirtualGic) (vcpuID : ℤ)

def performAll (operations : List InterruptOperation) : VirtualGic :=
  { gic with interruptController := gic.interruptController.performAll operations }

/-! ## Reads -/

def isEnabled (line : InterruptLine) : Bool :=
  if line.toNat < 32 then gic.interruptController.isEnabledFor line vcpuID
  else gic.interruptController.isEnabled line

def enabledBitmap (offset : ℕ) : U64 :=
  (Arm.ofBits (fun bit => gic.isEnabled vcpuID (BitVec.ofNat 32 (offset / 4 * 32 + bit))) 32).setWidth 64

/-- The bit of the line that is pending, if it is one of this word. -/
def lineBitmap (pending : Option InterruptLine) (offset : ℕ) : U64 :=
  match pending with
  | some line =>
    let baseLine := offset / 4 * 32
    if baseLine ≤ line.toNat ∧ line.toNat < baseLine + 32 then
      (1#32 <<< (line.toNat - baseLine)).setWidth 64
    else 0
  | none => 0

def pendingBitmap (offset : ℕ) : U64 :=
  lineBitmap (gic.interruptController.peekPending vcpuID) offset

def targetOf (line : ℕ) : U8 :=
  if line < 32 then 1#8 <<< vcpuID.toNat
  else gic.interruptController.targetMask (BitVec.ofNat 32 line)

def targetRegisterValue (offset : ℕ) (width : MmioWidth) : U64 :=
  packTargets (fun byte => gic.targetOf vcpuID (offset + byte)) width.rawValue

def readDistributor (offset : ℕ) (width : MmioWidth) : U64 :=
  if offset = 0x000 then if gic.distributorEnabled then 1 else 0
  else if offset = 0x004 then
    2 ||| BitVec.ofNat 64 (min 7 (configuration.virtualCPUCount - 1)) <<< 5
  else if 0x100 ≤ offset ∧ offset < 0x180 then gic.enabledBitmap vcpuID (offset - 0x100)
  else if 0x200 ≤ offset ∧ offset < 0x280 then gic.pendingBitmap vcpuID (offset - 0x200)
  else if 0x800 ≤ offset ∧ offset < 0xc00 then gic.targetRegisterValue vcpuID (offset - 0x800) width
  else 0

/-- `readCPUInterface`: a read of the acknowledge register acknowledges. -/
def readCPUInterface (offset : ℕ) : U64 × VirtualGic :=
  if offset = 0x000 then (if gic.cpuInterfaceEnabled vcpuID then 1 else 0, gic)
  else if offset = 0x004 then ((gic.priorityMask vcpuID).setWidth 64, gic)
  else if offset = 0x00c then
    let outcome := gic.interruptController.acknowledge vcpuID
    ((outcome.acknowledged.getD 1023#32).setWidth 64,
      { gic with interruptController := outcome.controller })
  else (0, gic)

/-- `read(offset:width:)`. -/
def read (offset : ℕ) (width : MmioWidth) : U64 × VirtualGic :=
  if configuration.cpuInterfaceOffset ≤ offset then
    gic.readCPUInterface vcpuID (offset - configuration.cpuInterfaceOffset)
  else (gic.readDistributor configuration vcpuID offset width, gic)

/-! ## Writes -/

def setLines (offset : ℕ) (bitmap : BitVec 32) (enabled : Bool) : VirtualGic :=
  gic.performAll ((bitmapLines offset bitmap).map fun line =>
    if line.toNat < 32 then .setEnabledFor line enabled vcpuID else .setEnabled line enabled)

def raiseLines (offset : ℕ) (bitmap : BitVec 32) : VirtualGic :=
  gic.performAll ((bitmapLines offset bitmap).map .raise)

def clearLines (offset : ℕ) (bitmap : BitVec 32) : VirtualGic :=
  gic.performAll ((bitmapLines offset bitmap).map .clear)

/-- `setTargetRegisterValue`, which leaves the private lines out. -/
def setTargetRegisterValue (offset : ℕ) (width : MmioWidth) (value : U64) : VirtualGic :=
  gic.performAll (((List.range width.rawValue).filter fun byte => 32 ≤ offset + byte).map fun byte =>
    .setTargetMask (BitVec.ofNat 32 (offset + byte))
      ((value >>> (byte * 8)).setWidth 8 &&& configuration.availableMask))

/-- Whether a software generated interrupt is sent to a virtual CPU. -/
def isSelected (value : BitVec 32) (sender : ℤ) (id : ℕ) : Bool :=
  let targetList := (value >>> 16) &&& 0xff
  let targetFilter := (value >>> 24) &&& 0x3
  match targetFilter.toNat with
  | 0 => targetList &&& 1#32 <<< id ≠ 0
  | 1 => id ≠ sender
  | 2 => id = sender
  | _ => false

def sendSoftwareGeneratedInterrupt (value : BitVec 32) : VirtualGic :=
  gic.performAll (((List.range configuration.virtualCPUCount).filter fun id : ℕ =>
    isSelected value vcpuID id).map fun id : ℕ => .raiseFor (value &&& 0xf) (id : ℤ))

def writeDistributor (offset : ℕ) (width : MmioWidth) (value : U64) : VirtualGic :=
  let bitmap := value.setWidth 32
  if offset = 0x000 then { gic with distributorEnabled := value &&& 0x1 ≠ 0 }
  else if 0x100 ≤ offset ∧ offset < 0x180 then gic.setLines vcpuID (offset - 0x100) bitmap true
  else if 0x180 ≤ offset ∧ offset < 0x200 then gic.setLines vcpuID (offset - 0x180) bitmap false
  else if 0x200 ≤ offset ∧ offset < 0x280 then gic.raiseLines (offset - 0x200) bitmap
  else if 0x280 ≤ offset ∧ offset < 0x300 then gic.clearLines (offset - 0x280) bitmap
  else if 0x800 ≤ offset ∧ offset < 0xc00 then
    gic.setTargetRegisterValue configuration (offset - 0x800) width value
  else if offset = 0xf00 then gic.sendSoftwareGeneratedInterrupt configuration vcpuID bitmap
  else gic

def writeCPUInterface (offset : ℕ) (value : U64) : VirtualGic :=
  if offset = 0x000 then
    { gic with
      cpuInterfaceEnabled := Function.update gic.cpuInterfaceEnabled vcpuID (value &&& 0x1 ≠ 0) }
  else if offset = 0x004 then
    { gic with
      priorityMask := Function.update gic.priorityMask vcpuID ((value &&& 0xff).setWidth 8) }
  else if offset = 0x010 then gic.performAll [.completeFor ((value &&& 0x3ff).setWidth 32) vcpuID]
  else gic

/-- `write(offset:width:value:)`. -/
def write (offset : ℕ) (width : MmioWidth) (value : U64) : VirtualGic :=
  if configuration.cpuInterfaceOffset ≤ offset then
    gic.writeCPUInterface vcpuID (offset - configuration.cpuInterfaceOffset) value
  else gic.writeDistributor configuration vcpuID offset width value

end VirtualGic

/-! ## Runs -/

/-- An access by a virtual CPU, which the provider names, or a device that raises or clears a line: a
private line for one virtual CPU, and a shared line for all. -/
inductive GicEvent
  | read (provided : ℤ) (offset : ℕ) (width : MmioWidth)
  | write (provided : ℤ) (offset : ℕ) (width : MmioWidth) (value : U64)
  | raise (line : InterruptLine) (vcpuID : ℤ)
  | clear (line : InterruptLine) (vcpuID : ℤ)

/-- What is seen of an event: the value that is read, and which virtual CPUs were signalled an interrupt
before it. -/
structure GicObservation where
  value : U64
  signalled : ℤ → Bool

namespace VirtualGic

def signalled (gic : VirtualGic) (vcpuID : ℤ) : Bool :=
  (gic.interruptController.peekPending vcpuID).isSome

def step (configuration : GicConfiguration) (gic : VirtualGic) : GicEvent → U64 × VirtualGic
  | .read provided offset width =>
    gic.read configuration (configuration.currentVCPUID provided) offset width
  | .write provided offset width value =>
    (0, gic.write configuration (configuration.currentVCPUID provided) offset width value)
  | .raise line vcpuID =>
    (0, gic.performAll [if line.toNat < 32 then .raiseFor line vcpuID else .raise line])
  | .clear line vcpuID =>
    (0, gic.performAll [if line.toNat < 32 then .clearFor line vcpuID else .clear line])

/-- What is seen of a sequence of events. -/
def observations (configuration : GicConfiguration) : VirtualGic → List GicEvent → List GicObservation
  | _, [] => []
  | gic, event :: events =>
    ⟨(gic.step configuration event).1, gic.signalled⟩ ::
      observations configuration (gic.step configuration event).2 events

end VirtualGic

end Pinecone
