import Pinecone.GuestRam

/-! The native stage-1 page-table walk of ARM64VizGuestMemory.c. -/

namespace Pinecone

/-- `AVZ_NATIVE_MEMORY_ACCESS_*`. -/
inductive MemoryAccess
  | instruction
  | read
  | write
  deriving DecidableEq, Repr

/-- `AVZNativeStage1TranslationState`. -/
structure Stage1TranslationState where
  sctlrEl1 : U64
  tcrEl1 : U64
  ttbr0El1 : U64
  ttbr1El1 : U64
  currentEl : BitVec 8
  deriving DecidableEq, Repr

/-- The arguments of `report_translation_fault`. -/
structure TranslationFaultReport where
  virtualAddress : U64
  access : MemoryAccess
  level : Nat
  statusCode : Nat
  deriving DecidableEq, Repr

/-- What a successful walk leaves in `physical_address` and `metadata`. -/
structure Stage1Mapping where
  physicalAddress : U64
  isGlobal : Bool
  leafShift : BitVec 8
  deriving DecidableEq, Repr

def stage1OutputAddressMask : U64 := 0x0000fffffffff000
def stage1AccessFlagBit : U64 := 1#64 <<< 10
def stage1ReadOnlyApBit : U64 := 1#64 <<< 7
def stage1UnprivilegedApBit : U64 := 1#64 <<< 6
def stage1PrivilegedExecuteNeverBit : U64 := 1#64 <<< 53
def stage1UnprivilegedExecuteNeverBit : U64 := 1#64 <<< 54

def faultAddressSizeLevel0 : Nat := 0x00
def faultTranslationLevel0 : Nat := 0x04
def faultAccessFlagLevel0 : Nat := 0x08
def faultPermissionLevel0 : Nat := 0x0c

/-- `avz_stage1_validate_leaf`: the level-relative status code of the fault, if any. -/
def stage1ValidateLeaf (currentEl : BitVec 8) (descriptor : U64) (access : MemoryAccess) :
    Option Nat :=
  if descriptor &&& stage1AccessFlagBit = 0#64 then some faultAccessFlagLevel0
  else if (currentEl = 0#8 ∧ descriptor &&& stage1UnprivilegedApBit = 0#64) ∨
      (access = .write ∧ descriptor &&& stage1ReadOnlyApBit ≠ 0#64) then
    some faultPermissionLevel0
  else if access = .instruction then
    let executeNeverBit := if currentEl = 0#8 then stage1UnprivilegedExecuteNeverBit
      else stage1PrivilegedExecuteNeverBit
    if descriptor &&& executeNeverBit ≠ 0#64 then some faultPermissionLevel0 else none
  else none

/-- The shift of a level's index field, and the offset width of its blocks. -/
def stage1LevelShift (level : Nat) : Nat := 39 - level * 9

def stage1DescriptorAddress (table effectiveAddress : U64) (level : Nat) : U64 :=
  table + ((effectiveAddress >>> stage1LevelShift level) &&& 0x1ff#64) * 8#64

/-- The level loop of `avz_stage1_translate`; `remaining` levels are left, so
the level is `4 - remaining`. -/
def stage1WalkLevels (ram : GuestRam) (state : Stage1TranslationState)
    (virtualAddress effectiveAddress : U64) (access : MemoryAccess) :
    Nat → U64 → Except TranslationFaultReport Stage1Mapping
  | 0, _ => .error ⟨virtualAddress, access, 3, faultTranslationLevel0 + 3⟩
  | remaining + 1, currentTable =>
    let level := 3 - remaining
    let fault := fun status => Except.error ⟨virtualAddress, access, level, status + level⟩
    let index := (effectiveAddress >>> stage1LevelShift level) &&& 0x1ff#64
    if 0xffffffffffffffff#64 - index * 8#64 < currentTable then fault faultTranslationLevel0
    else
      match ram.stage1ReadDescriptor (stage1DescriptorAddress currentTable effectiveAddress level) with
      | none => fault faultTranslationLevel0
      | some descriptor =>
        if descriptor &&& 1#64 = 0#64 then fault faultTranslationLevel0
        else if level = 3 then
          if descriptor &&& 3#64 ≠ 3#64 then fault faultTranslationLevel0
          else
            match stage1ValidateLeaf state.currentEl descriptor access with
            | some status => fault status
            | none => .ok {
                physicalAddress := (descriptor &&& stage1OutputAddressMask) |||
                  (effectiveAddress &&& 0xfff#64)
                isGlobal := descriptor &&& (1#64 <<< 11) = 0#64
                leafShift := if descriptor &&& (1#64 <<< 52) ≠ 0#64 then 16 else 12 }
        else if descriptor &&& 3#64 = 1#64 then
          let offsetMask : U64 := (1#64 <<< stage1LevelShift level) - 1
          match stage1ValidateLeaf state.currentEl descriptor access with
          | some status => fault status
          | none => .ok {
              physicalAddress := (descriptor &&& stage1OutputAddressMask &&& ~~~offsetMask) |||
                (effectiveAddress &&& offsetMask)
              isGlobal := descriptor &&& (1#64 <<< 11) = 0#64
              leafShift := BitVec.ofNat 8 (stage1LevelShift level) +
                (if descriptor &&& (1#64 <<< 52) ≠ 0#64 then 4 else 0) }
        else if descriptor &&& 3#64 ≠ 3#64 then fault faultTranslationLevel0
        else stage1WalkLevels ram state virtualAddress effectiveAddress access remaining
          (descriptor &&& stage1OutputAddressMask)

/-- The number of input address bits the TCR field of the address half leaves. -/
def stage1InputAddressSize (tcr virtualAddress : U64) : Nat :=
  64 - ((tcr >>> (if virtualAddress.msb then 16 else 0)) &&& 0x3f#64).toNat

def stage1EffectiveAddress (tcr virtualAddress : U64) : U64 :=
  virtualAddress &&& ((1#64 <<< stage1InputAddressSize tcr virtualAddress) - 1)

def stage1TableBase (state : Stage1TranslationState) (virtualAddress : U64) : U64 :=
  (if virtualAddress.msb then state.ttbr1El1 else state.ttbr0El1) &&& stage1OutputAddressMask

/-- `avz_stage1_translate` once native translation is enabled. -/
def stage1Translate (ram : GuestRam) (state : Stage1TranslationState) (virtualAddress : U64)
    (access : MemoryAccess) : Except TranslationFaultReport Stage1Mapping :=
  if state.sctlrEl1 &&& 1#64 = 0#64 then
    .ok { physicalAddress := virtualAddress, isGlobal := false, leafShift := 0 }
  else
    let inputAddressSize := stage1InputAddressSize state.tcrEl1 virtualAddress
    if inputAddressSize = 0 ∨ 48 < inputAddressSize then
      .error ⟨virtualAddress, access, 0, faultAddressSizeLevel0⟩
    else
      let currentTable := stage1TableBase state virtualAddress
      if currentTable = 0#64 then .error ⟨virtualAddress, access, 0, faultTranslationLevel0⟩
      else stage1WalkLevels ram state virtualAddress
        (stage1EffectiveAddress state.tcrEl1 virtualAddress) access 4 currentTable

theorem and_stage1OutputAddressMask_toNat_lt (word : U64) :
    (word &&& stage1OutputAddressMask).toNat < 2 ^ 48 := by
  rw [BitVec.toNat_and]
  exact lt_of_le_of_lt Nat.and_le_right (by decide)

theorem descriptorIndex_toNat_lt (effectiveAddress : U64) (shift : Nat) :
    ((effectiveAddress >>> shift) &&& 0x1ff#64).toNat < 512 := by
  rw [BitVec.toNat_and]
  exact lt_of_le_of_lt Nat.and_le_right (by decide)

theorem descriptorAddress_no_wrap {table : U64} (ht : table.toNat < 2 ^ 48)
    (effectiveAddress : U64) (level : Nat) :
    ¬ 0xffffffffffffffff#64 - ((effectiveAddress >>> stage1LevelShift level) &&& 0x1ff#64) * 8#64 < table := by
  have hi := descriptorIndex_toNat_lt effectiveAddress (stage1LevelShift level)
  generalize (effectiveAddress >>> stage1LevelShift level) &&& 0x1ff#64 = index at hi
  bv_omega

theorem descriptorAddress_toNat_lt {table : U64} (ht : table.toNat < 2 ^ 48)
    (effectiveAddress : U64) (level : Nat) :
    (stage1DescriptorAddress table effectiveAddress level).toNat < 2 ^ 63 := by
  have hi := descriptorIndex_toNat_lt effectiveAddress (stage1LevelShift level)
  unfold stage1DescriptorAddress
  generalize (effectiveAddress >>> stage1LevelShift level) &&& 0x1ff#64 = index at hi
  bv_omega

end Pinecone
