import Pinecone.InterruptSafety

/-! The UART of Devices.swift and the interrupt status of the VirtIO devices, which mirror their level
into the line of the interrupt controller whenever one of their registers changes. -/

namespace Pinecone

/-! ## The UART -/

/-- `VirtualUART`. -/
structure VirtualUart where
  output : List U8
  receiveFifo : List U8
  receiveStatusErrorClear : BitVec 32
  integerBaudRateDivisor : BitVec 32
  fractionalBaudRateDivisor : BitVec 32
  lineControl : BitVec 32
  control : BitVec 32
  interruptFifoLevelSelect : BitVec 32
  interruptMask : BitVec 32
  rawInterruptStatus : BitVec 32
  dmaControl : BitVec 32

namespace VirtualUart

def receiveInterrupt : BitVec 32 := 1#32 <<< 4
def transmitInterrupt : BitVec 32 := 1#32 <<< 5
def fifoCapacity : ℕ := 16

def initial : VirtualUart where
  output := []
  receiveFifo := []
  receiveStatusErrorClear := 0
  integerBaudRateDivisor := 0
  fractionalBaudRateDivisor := 0
  lineControl := 0
  control := 0x0300
  interruptFifoLevelSelect := 0x12
  interruptMask := 0
  rawInterruptStatus := 0
  dmaControl := 0

variable (uart : VirtualUart)

/-- The status that `updateInterruptLine` looks at. -/
def maskedStatus : BitVec 32 := uart.rawInterruptStatus &&& uart.interruptMask

/-- `injectReceiveBytes`; the second component says whether the line is updated. -/
def injectReceiveBytes (bytes : List U8) : VirtualUart × Bool :=
  let accepted := bytes.take (fifoCapacity - uart.receiveFifo.length)
  let uart := { uart with receiveFifo := uart.receiveFifo ++ accepted }
  if accepted.isEmpty then (uart, false)
  else ({ uart with rawInterruptStatus := uart.rawInterruptStatus ||| receiveInterrupt }, true)

def flags : U64 :=
  (if uart.receiveFifo.isEmpty then 1#64 <<< 4 else 0) |||
    (if fifoCapacity ≤ uart.receiveFifo.length then 1#64 <<< 6 else 0) ||| 1#64 <<< 7

/-- The registers that are only read. -/
def readRegister (offset : ℕ) : U64 :=
  match offset with
  | 0x04 => uart.receiveStatusErrorClear.setWidth 64
  | 0x18 => uart.flags
  | 0x24 => uart.integerBaudRateDivisor.setWidth 64
  | 0x28 => uart.fractionalBaudRateDivisor.setWidth 64
  | 0x2c => uart.lineControl.setWidth 64
  | 0x30 => uart.control.setWidth 64
  | 0x34 => uart.interruptFifoLevelSelect.setWidth 64
  | 0x38 => uart.interruptMask.setWidth 64
  | 0x3c => uart.rawInterruptStatus.setWidth 64
  | 0x40 => uart.maskedStatus.setWidth 64
  | 0x48 => uart.dmaControl.setWidth 64
  | 0xfe0 => 0x11
  | 0xfe4 => 0x10
  | 0xfe8 => 0x14
  | 0xff0 => 0x0d
  | 0xff4 => 0xf0
  | 0xff8 => 0x05
  | 0xffc => 0xb1
  | _ => 0

/-- `read(offset:width:)`: a read of the data register takes a byte from the FIFO. -/
def read (offset : ℕ) : U64 × VirtualUart × Bool :=
  if offset = 0 then
    match uart.receiveFifo with
    | [] => (0, uart, false)
    | byte :: rest =>
      let uart := { uart with receiveFifo := rest }
      if rest.isEmpty then
        (byte.setWidth 64,
          { uart with rawInterruptStatus := uart.rawInterruptStatus &&& ~~~receiveInterrupt }, true)
      else (byte.setWidth 64, uart, false)
  else (uart.readRegister offset, uart, false)

/-- `write(offset:width:value:)`. -/
def write (offset : ℕ) (value : U64) : VirtualUart × Bool :=
  match offset with
  | 0x00 =>
    ({ uart with
        output := uart.output ++ [value.setWidth 8]
        rawInterruptStatus := uart.rawInterruptStatus ||| transmitInterrupt }, true)
  | 0x04 => ({ uart with receiveStatusErrorClear := 0 }, false)
  | 0x24 => ({ uart with integerBaudRateDivisor := (value &&& 0xffff).setWidth 32 }, false)
  | 0x28 => ({ uart with fractionalBaudRateDivisor := (value &&& 0x3f).setWidth 32 }, false)
  | 0x2c => ({ uart with lineControl := (value &&& 0xff).setWidth 32 }, false)
  | 0x30 => ({ uart with control := (value &&& 0xffff).setWidth 32 }, false)
  | 0x34 => ({ uart with interruptFifoLevelSelect := (value &&& 0x3f).setWidth 32 }, false)
  | 0x38 => ({ uart with interruptMask := (value &&& 0x7ff).setWidth 32 }, true)
  | 0x44 =>
    ({ uart with
        rawInterruptStatus := uart.rawInterruptStatus &&& ~~~((value &&& 0x7ff).setWidth 32) }, true)
  | 0x48 => ({ uart with dmaControl := (value &&& 0x7).setWidth 32 }, false)
  | _ => (uart, false)

theorem maskedStatus_of_not_updated {offset : ℕ} {value : U64} {bytes : List U8} :
    ((uart.read offset).2.2 = false → (uart.read offset).2.1.maskedStatus = uart.maskedStatus) ∧
    ((uart.write offset value).2 = false → (uart.write offset value).1.maskedStatus = uart.maskedStatus) ∧
    ((uart.injectReceiveBytes bytes).2 = false →
      (uart.injectReceiveBytes bytes).1.maskedStatus = uart.maskedStatus) := by
  refine ⟨fun h => ?_, fun h => ?_, fun h => ?_⟩
  · unfold read at h ⊢
    split
    · rename_i hoffset
      rw [if_pos hoffset] at h
      cases hfifo : uart.receiveFifo with
      | nil => rfl
      | cons byte rest =>
        rw [hfifo] at h
        cases rest with
        | nil => simp at h
        | cons _ _ => rfl
    · rfl
  · unfold write at h ⊢
    split <;> first | rfl | simp at h
  · unfold injectReceiveBytes at h ⊢
    dsimp only at h ⊢
    split at h
    · rename_i hempty
      rw [if_pos hempty]
      rfl
    · simp at h

end VirtualUart

/-! ## The interrupt status of a VirtIO device -/

/-- `VirtIODeviceKind`. -/
inductive VirtioKind
  | block
  | network
  | input
  | gpu
  deriving DecidableEq

def usedBufferInterrupt : BitVec 32 := 1
def configChangeInterrupt : BitVec 32 := 2

/-- Whether `notify(queue:)` raises the used buffer interrupt, given how many elements of the queue
it has served. -/
def VirtioKind.shouldInterrupt (kind : VirtioKind) (queue : BitVec 32) (served : ℕ) : Bool :=
  match kind with
  | .block | .network => true
  | .input => queue = 0 && 0 < served
  | .gpu => (queue = 0 || queue = 1) && 0 < served

/-! ## Devices on their lines -/

/-- The lines of the UART and of the VirtIO devices, which are all different. -/
structure InterruptWiring (ι : Type) where
  kind : ι → VirtioKind
  line : Option ι → InterruptLine
  distinct : Function.Injective line

structure DeviceInterrupts (ι : Type) where
  controller : SimpleInterruptController
  uart : VirtualUart
  interruptStatus : ι → BitVec 32

/-- What happens to the devices and to their lines. -/
inductive DeviceInterruptEvent (ι : Type)
  | uartRead (offset : ℕ)
  | uartWrite (offset : ℕ) (value : U64)
  | uartReceive (bytes : List U8)
  | notify (device : ι) (queue : BitVec 32) (ready : Bool) (served : ℕ)
  /-- Elements that the device serves without a notification: frames, touches and responses. -/
  | served (device : ι)
  | configChanged (device : ι)
  | acknowledgeStatus (device : ι) (value : U64)
  | setEnabled (line : InterruptLine) (enabled : Bool)
  | setTargetMask (line : InterruptLine) (mask : U8)
  | acknowledge (targetVCPU : ℤ)
  | complete (line : InterruptLine) (targetVCPU : ℤ)

namespace DeviceInterrupts

variable {ι : Type}

/-- The level of the UART, and of each VirtIO device. -/
def level (devices : DeviceInterrupts ι) : Option ι → Bool
  | none => devices.uart.maskedStatus ≠ 0
  | some device => devices.interruptStatus device ≠ 0

/-- `updateInterruptLine`. -/
def updateInterruptLine (wiring : InterruptWiring ι) (devices : DeviceInterrupts ι)
    (device : Option ι) : DeviceInterrupts ι :=
  { devices with
    controller := devices.controller.advance
      (if devices.level device then .raise (wiring.line device) else .clear (wiring.line device)) }

def updateUart (wiring : InterruptWiring ι) (devices : DeviceInterrupts ι)
    (access : VirtualUart × Bool) : DeviceInterrupts ι :=
  let devices := { devices with uart := access.1 }
  if access.2 then devices.updateInterruptLine wiring none else devices

variable [DecidableEq ι]

def setStatus (wiring : InterruptWiring ι) (devices : DeviceInterrupts ι) (device : ι)
    (status : BitVec 32) : DeviceInterrupts ι :=
  updateInterruptLine wiring
    { devices with interruptStatus := Function.update devices.interruptStatus device status } (some device)

def step (wiring : InterruptWiring ι) (devices : DeviceInterrupts ι) :
    DeviceInterruptEvent ι → DeviceInterrupts ι
  | .uartRead offset => devices.updateUart wiring (devices.uart.read offset).2
  | .uartWrite offset value => devices.updateUart wiring (devices.uart.write offset value)
  | .uartReceive bytes => devices.updateUart wiring (devices.uart.injectReceiveBytes bytes)
  | .notify device queue ready served =>
    if ready && (wiring.kind device).shouldInterrupt queue served then
      devices.setStatus wiring device (devices.interruptStatus device ||| usedBufferInterrupt)
    else devices
  | .served device =>
    devices.setStatus wiring device (devices.interruptStatus device ||| usedBufferInterrupt)
  | .configChanged device =>
    devices.setStatus wiring device (devices.interruptStatus device ||| configChangeInterrupt)
  | .acknowledgeStatus device value =>
    devices.setStatus wiring device
      (devices.interruptStatus device &&& ~~~((value &&& 0x3).setWidth 32))
  | .setEnabled line enabled =>
    { devices with controller := devices.controller.advance (.setEnabled line enabled) }
  | .setTargetMask line mask =>
    { devices with controller := devices.controller.advance (.setTargetMask line mask) }
  | .acknowledge targetVCPU =>
    { devices with controller := devices.controller.advance (.acknowledge targetVCPU) }
  | .complete line targetVCPU =>
    { devices with controller := devices.controller.advance (.completeFor line targetVCPU) }

def initial (ι : Type) : DeviceInterrupts ι :=
  ⟨SimpleInterruptController.initial, VirtualUart.initial, fun _ => 0⟩

end DeviceInterrupts

end Pinecone
