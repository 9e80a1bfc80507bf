import Pinecone.GuestRam

/-! The system register bank of SystemRegisters.swift, with the generic timers. -/

namespace Pinecone

/-- `ARM64SystemRegisterKey.rawValue`. -/
abbrev SystemRegisterKey := BitVec 16

def systemRegisterRawKey (op0 op1 crn crm op2 : BitVec 16) : SystemRegisterKey :=
  op0 <<< 14 ||| op1 <<< 11 ||| crn <<< 7 ||| crm <<< 3 ||| op2

namespace SystemRegisterKey

def sctlrEl1 : SystemRegisterKey := systemRegisterRawKey 3 0 1 0 0
def tcrEl1 : SystemRegisterKey := systemRegisterRawKey 3 0 2 0 2
def ttbr0El1 : SystemRegisterKey := systemRegisterRawKey 3 0 2 0 0
def ttbr1El1 : SystemRegisterKey := systemRegisterRawKey 3 0 2 0 1
def cntpctEl0 : SystemRegisterKey := systemRegisterRawKey 3 3 14 0 1
def cntvctEl0 : SystemRegisterKey := systemRegisterRawKey 3 3 14 0 2
def cntpTvalEl0 : SystemRegisterKey := systemRegisterRawKey 3 3 14 2 0
def cntpCtlEl0 : SystemRegisterKey := systemRegisterRawKey 3 3 14 2 1
def cntpCvalEl0 : SystemRegisterKey := systemRegisterRawKey 3 3 14 2 2
def cntvTvalEl0 : SystemRegisterKey := systemRegisterRawKey 3 3 14 3 0
def cntvCtlEl0 : SystemRegisterKey := systemRegisterRawKey 3 3 14 3 1
def cntvCvalEl0 : SystemRegisterKey := systemRegisterRawKey 3 3 14 3 2

end SystemRegisterKey

/-- `ARM64SystemRegisterBank`. A register that was never stored reads as 0. -/
structure SystemRegisterBank where
  storage : SystemRegisterKey → U64
  counterTicks : U64

namespace SystemRegisterBank

open SystemRegisterKey

variable (bank : SystemRegisterBank)

/-- `synchronizeCounterTicks`. -/
def synchronizeCounterTicks (counterTicks : U64) : SystemRegisterBank :=
  { bank with counterTicks := counterTicks }

/-- `advance(cycles:)`. -/
def advance (cycles : U64) : SystemRegisterBank :=
  { bank with counterTicks := bank.counterTicks + cycles }

/-- `setStoredValue`. -/
def setStoredValue (key : SystemRegisterKey) (value : U64) : SystemRegisterBank :=
  { bank with storage := Function.update bank.storage key value }

/-- `timerInterruptAsserted`. -/
def timerInterruptAsserted (control compare : U64) : Bool :=
  control &&& 0x1#64 ≠ 0#64 && control &&& 0x2#64 = 0#64 && compare ≤ bank.counterTicks

/-- `nextTimerDeadline`. -/
def nextTimerDeadline (control compare : U64) : Option U64 :=
  if control &&& 0x1#64 ≠ 0#64 ∧ control &&& 0x2#64 = 0#64 then
    some (if compare ≤ bank.counterTicks then bank.counterTicks + 1 else compare)
  else none

/-- `physicalTimerInterruptAsserted`. -/
def physicalTimerInterruptAsserted : Bool :=
  bank.timerInterruptAsserted (bank.storage cntpCtlEl0) (bank.storage cntpCvalEl0)

/-- `virtualTimerInterruptAsserted`. -/
def virtualTimerInterruptAsserted : Bool :=
  bank.timerInterruptAsserted (bank.storage cntvCtlEl0) (bank.storage cntvCvalEl0)

/-- `nextUnmaskedTimerDeadline`. -/
def nextUnmaskedTimerDeadline : Option U64 :=
  match bank.nextTimerDeadline (bank.storage cntpCtlEl0) (bank.storage cntpCvalEl0),
    bank.nextTimerDeadline (bank.storage cntvCtlEl0) (bank.storage cntvCvalEl0) with
  | some physical, some virtual => some (if virtual < physical then virtual else physical)
  | some physical, none => some physical
  | none, some virtual => some virtual
  | none, none => none

end SystemRegisterBank

end Pinecone
