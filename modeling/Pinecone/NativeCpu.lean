import Pinecone.GuestRam

/-! The register state of ARM64VizNative.h and the register accessors of the interpreter. -/

namespace Pinecone

/-- `AVZNativeVectorRegister`. -/
structure NativeVectorRegister where
  low : U64
  high : U64
  deriving DecidableEq, Repr

/-- `AVZNativeCPU`. -/
structure NativeCpu where
  x : Fin 31 → U64
  v : Fin 32 → NativeVectorRegister
  sp : U64
  pc : U64
  pstate : U64
  fpcr : U64
  fpsr : U64
  exclusiveAddress : U64
  exclusiveGeneration : U64
  exclusiveSize : BitVec 8
  exclusiveValid : Bool
  halted : Bool

namespace NativeCpu

def readRegister (cpu : NativeCpu) (index : Nat) : U64 :=
  if h : index < 31 then cpu.x ⟨index, h⟩ else 0

def readBaseRegister (cpu : NativeCpu) (index : Nat) : U64 :=
  if h : index < 31 then cpu.x ⟨index, h⟩ else cpu.sp

def writeRegister (cpu : NativeCpu) (index : Nat) (value : U64) : NativeCpu :=
  { cpu with x := fun register => if register.val = index then value else cpu.x register }

def writeBaseRegister (cpu : NativeCpu) (index : Nat) (value : U64) : NativeCpu :=
  if index < 31 then cpu.writeRegister index value else { cpu with sp := value }

def clearExclusiveReservation (cpu : NativeCpu) : NativeCpu :=
  { cpu with
    exclusiveAddress := 0
    exclusiveGeneration := 0
    exclusiveSize := 0
    exclusiveValid := false }

end NativeCpu

end Pinecone
