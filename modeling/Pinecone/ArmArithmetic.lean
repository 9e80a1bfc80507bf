import Mathlib.Data.BitVec

/-! The shared functions of the Arm reference pseudocode that integer instructions use, over
any width, with the value each bit of their results has. -/

namespace Arm

/-- PSTATE.NZCV. -/
structure ConditionFlags where
  n : Bool
  z : Bool
  c : Bool
  v : Bool
  deriving DecidableEq, Repr

def ConditionFlags.toBits (flags : ConditionFlags) : BitVec 4 :=
  BitVec.ofBool flags.n ++ BitVec.ofBool flags.z ++ BitVec.ofBool flags.c ++ BitVec.ofBool flags.v

def ConditionFlags.ofBits (bits : BitVec 4) : ConditionFlags :=
  ⟨bits.getLsbD 3, bits.getLsbD 2, bits.getLsbD 1, bits.getLsbD 0⟩

/-- The flags in PSTATE, and PSTATE with them replaced. -/
def flagsOf (pstate : BitVec 64) : ConditionFlags :=
  ConditionFlags.ofBits (pstate.extractLsb' 28 4)

def withFlags (pstate : BitVec 64) (flags : ConditionFlags) : BitVec 64 :=
  pstate.extractLsb' 32 32 ++ flags.toBits ++ pstate.extractLsb' 0 28

theorem getLsbD_withFlags (pstate : BitVec 64) (flags : ConditionFlags) (i : Nat) :
    (withFlags pstate flags).getLsbD i =
      if 28 ≤ i ∧ i < 32 then flags.toBits.getLsbD (i - 28) else pstate.getLsbD i := by
  unfold withFlags
  rw [BitVec.getLsbD_append, BitVec.getLsbD_append]
  by_cases hlow : i < 28
  · simp [hlow, show ¬ 28 ≤ i by omega]
  · by_cases hmid : i < 32
    · simp [hlow, hmid, show i - 28 < 4 by omega, show 28 ≤ i by omega]
    · simp [hlow, hmid, show ¬ i - 28 < 4 by omega, show 32 + (i - 28 - 4) = i by omega]
      intro hi
      by_contra h
      exact absurd (BitVec.getLsbD_of_ge pstate i (by omega)) (by simp [hi])

/-- `AddWithCarry`. -/
def addWithCarry {width : Nat} (x y : BitVec width) (carryIn : Bool) :
    BitVec width × ConditionFlags :=
  let unsignedSum := x.toNat + y.toNat + carryIn.toNat
  let signedSum := x.toInt + y.toInt + carryIn.toNat
  let result := BitVec.ofNat width unsignedSum
  (result,
    { n := result.msb
      z := result == 0
      c := result.toNat != unsignedSum
      v := result.toInt != signedSum })

/-- `ConditionHolds`. -/
def conditionHolds (condition : BitVec 4) (flags : ConditionFlags) : Bool :=
  let result :=
    match (condition.extractLsb' 1 3).toNat with
    | 0 => flags.z
    | 1 => flags.c
    | 2 => flags.n
    | 3 => flags.v
    | 4 => flags.c && !flags.z
    | 5 => flags.n == flags.v
    | 6 => flags.n == flags.v && !flags.z
    | _ => true
  if condition.getLsbD 0 && condition != 0xf#4 then !result else result

inductive ShiftType
  | lsl
  | lsr
  | asr
  | ror
  deriving DecidableEq, Repr

def ShiftType.toBits : ShiftType → BitVec 2
  | .lsl => 0
  | .lsr => 1
  | .asr => 2
  | .ror => 3

/-- `ShiftReg`, of the value in the register. -/
def shiftReg {width : Nat} (value : BitVec width) (shiftType : ShiftType) (amount : Nat) :
    BitVec width :=
  match shiftType with
  | .lsl => value <<< amount
  | .lsr => value >>> amount
  | .asr => value.sshiftRight amount
  | .ror => value.rotateRight amount

inductive ExtendType
  | uxtb
  | uxth
  | uxtw
  | uxtx
  | sxtb
  | sxth
  | sxtw
  | sxtx
  deriving DecidableEq, Repr

namespace ExtendType

def toBits : ExtendType → BitVec 3
  | .uxtb => 0
  | .uxth => 1
  | .uxtw => 2
  | .uxtx => 3
  | .sxtb => 4
  | .sxth => 5
  | .sxtw => 6
  | .sxtx => 7

def length : ExtendType → Nat
  | .uxtb | .sxtb => 8
  | .uxth | .sxth => 16
  | .uxtw | .sxtw => 32
  | .uxtx | .sxtx => 64

def isUnsigned : ExtendType → Bool
  | .uxtb | .uxth | .uxtw | .uxtx => true
  | .sxtb | .sxth | .sxtw | .sxtx => false

end ExtendType

/-- `ExtendReg`, of the value in the register. -/
def extendReg (width : Nat) (value : BitVec 64) (extendType : ExtendType) (shift : Nat) :
    BitVec width :=
  let length := min extendType.length (width - shift)
  let field : BitVec (length + shift) := value.setWidth length ++ (0 : BitVec shift)
  if extendType.isUnsigned then field.setWidth width else field.signExtend width

/-- The highest set bit of `x` below `bound`, or -1. -/
def highestSetBitBelow {width : Nat} (x : BitVec width) : Nat → Int
  | 0 => -1
  | bit + 1 => if x.getLsbD bit then bit else highestSetBitBelow x bit

/-- `HighestSetBit`. -/
def highestSetBit {width : Nat} (x : BitVec width) : Int :=
  highestSetBitBelow x width

theorem highestSetBitBelow_bounds {width : Nat} (x : BitVec width) (bound : Nat) :
    -1 ≤ highestSetBitBelow x bound ∧ highestSetBitBelow x bound < bound := by
  induction bound with
  | zero => simp [highestSetBitBelow]
  | succ bound ih =>
    unfold highestSetBitBelow
    split <;> omega

theorem highestSetBitBelow_setWidth {width : Nat} (x : BitVec width) {m bound : Nat}
    (hm : bound ≤ m) (h : width ≤ bound) :
    highestSetBitBelow (x.setWidth m) bound = highestSetBit x := by
  unfold highestSetBit
  induction bound with
  | zero =>
    obtain rfl : width = 0 := by omega
    rfl
  | succ bound ih =>
    by_cases hw : width = bound + 1
    · subst hw
      have hall : ∀ k ≤ bound + 1,
          highestSetBitBelow (x.setWidth m) k = highestSetBitBelow x k := by
        intro k hk
        induction k with
        | zero => rfl
        | succ k ihk =>
          simp only [highestSetBitBelow, BitVec.getLsbD_setWidth, ihk (by omega)]
          simp [show k < m by omega]
      exact hall _ (Nat.le_refl _)
    · have hbit : (x.setWidth m).getLsbD bound = false := by
        rw [BitVec.getLsbD_setWidth, BitVec.getLsbD_of_ge x bound (by omega), Bool.and_false]
      rw [highestSetBitBelow, hbit]
      exact ih (by omega) (by omega)

/-- `CountLeadingZeroBits`. -/
def countLeadingZeroBits {width : Nat} (x : BitVec width) : Nat :=
  (width - (highestSetBit x + 1)).toNat

/-- `CountLeadingSignBits`. -/
def countLeadingSignBits {width : Nat} (x : BitVec width) : Nat :=
  countLeadingZeroBits (x.extractLsb' 1 (width - 1) ^^^ x.extractLsb' 0 (width - 1))

/-- The bit vector whose bit `i` is `f i`. -/
def ofBits (f : Nat → Bool) : (width : Nat) → BitVec width
  | 0 => 0#0
  | width + 1 => BitVec.cons (f width) (ofBits f width)

theorem getLsbD_ofBits (f : Nat → Bool) (width i : Nat) :
    (ofBits f width).getLsbD i = (decide (i < width) && f i) := by
  induction width with
  | zero => simp
  | succ width ih =>
    rw [ofBits, BitVec.getLsbD_cons, ih]
    by_cases hi : i = width
    · simp [hi]
    · rw [if_neg hi]
      congr 1
      exact decide_eq_decide.mpr ⟨fun h => by omega, fun h => by omega⟩

/-- Every container of `containerBytes` bytes with its bytes in reverse order. -/
def reverseBytes {width : Nat} (x : BitVec width) (containerBytes : Nat) : BitVec width :=
  ofBits (fun bit =>
    let byte := bit / 8
    let reversed := byte / containerBytes * containerBytes +
      (containerBytes - 1 - byte % containerBytes)
    x.getLsbD (reversed * 8 + bit % 8)) width

/-- What `DecodeBitMasks` finds in its operands. -/
structure BitMasks where
  elementSize : Nat
  s : Nat
  r : Nat
  d : Nat

/-- `DecodeBitMasks` up to the two masks. -/
def decodeBitMasks (immN : Bool) (imms immr : BitVec 6) (immediate : Bool) : Option BitMasks :=
  let length := highestSetBit (BitVec.ofBool immN ++ ~~~imms)
  if length < 1 then none
  else
    let levels := BitVec.ofNat 6 (2 ^ length.toNat - 1)
    if immediate ∧ imms &&& levels = levels then none
    else some
      { elementSize := 2 ^ length.toNat
        s := (imms &&& levels).toNat
        r := (immr &&& levels).toNat
        d := ((imms - immr) &&& levels).toNat }

namespace BitMasks

def wmask (masks : BitMasks) (width : Nat) : BitVec width :=
  let element := (BitVec.allOnes (masks.s + 1)).setWidth masks.elementSize
  (BitVec.replicate (width / masks.elementSize) (element.rotateRight masks.r)).setWidth width

def tmask (masks : BitMasks) (width : Nat) : BitVec width :=
  let element := (BitVec.allOnes (masks.d + 1)).setWidth masks.elementSize
  (BitVec.replicate (width / masks.elementSize) element).setWidth width

end BitMasks

/-- `x` with the bits from `position` on replaced by those of `slice`. -/
def insertSlice {width length : Nat} (x : BitVec width) (position : Nat) (slice : BitVec length) :
    BitVec width :=
  ofBits (fun bit =>
    if position ≤ bit ∧ bit < position + length then slice.getLsbD (bit - position)
    else x.getLsbD bit) width

theorem getLsbD_insertSlice {width length : Nat} (x : BitVec width) (position : Nat)
    (slice : BitVec length) (i : Nat) :
    (insertSlice x position slice).getLsbD i =
      (decide (i < width) && if position ≤ i ∧ i < position + length then
        slice.getLsbD (i - position) else x.getLsbD i) :=
  getLsbD_ofBits _ _ _

end Arm
