import Pinecone.Stage1Walk

/-! The Swift stage-1 translator of AddressTranslation.swift and its agreement
with the native walk. The two differ in one leaf check only. -/

namespace Pinecone

/-- `ARM64FaultStatusCode`, one constructor for each family of four levels. -/
inductive Arm64FaultStatusCode
  | addressSize (level : Fin 4)
  | translation (level : Fin 4)
  | accessFlag (level : Fin 4)
  | permission (level : Fin 4)
  deriving DecidableEq, Repr

namespace Arm64FaultStatusCode

def rawValue : Arm64FaultStatusCode → Nat
  | addressSize level => 0b000000 + level
  | translation level => 0b000100 + level
  | accessFlag level => 0b001000 + level
  | permission level => 0b001100 + level

end Arm64FaultStatusCode

/-- The level switches of `ARM64FaultStatusCode`, whose `default` is level 3. -/
def statusLevel (level : Nat) : Fin 4 :=
  match level with
  | 0 => 0
  | 1 => 1
  | 2 => 2
  | _ => 3

structure Arm64TranslationFault where
  virtualAddress : U64
  access : MemoryAccess
  level : Nat
  statusCode : Arm64FaultStatusCode
  deriving DecidableEq, Repr

/-- What the translator reads of `VirtualMachine`. A physical read outside RAM
goes to the MMIO bus, which may have no device there. -/
structure VirtualMachine where
  memory : GuestRam
  mmio : U64 → Option U64
  sctlrEl1 : U64
  tcrEl1 : U64
  ttbr0El1 : U64
  ttbr1El1 : U64
  pstate : U64

namespace VirtualMachine

def readPhysical (vm : VirtualMachine) (address : U64) : Option U64 :=
  if vm.memory.contains address 8 then
    some (vm.memory.load64 (address - vm.memory.base).toNat)
  else vm.mmio address

def currentEl (vm : VirtualMachine) : BitVec 8 :=
  ((vm.pstate >>> 2) &&& 0x3#64).setWidth 8

/-- The native walker's view of the same registers. -/
def stage1State (vm : VirtualMachine) : Stage1TranslationState :=
  ⟨vm.sctlrEl1, vm.tcrEl1, vm.ttbr0El1, vm.ttbr1El1, vm.currentEl⟩

end VirtualMachine

def outputAddressMask : U64 := 0x0000fffffffff000
def accessFlagBit : U64 := 1#64 <<< 10
def readOnlyAPBit : U64 := 1#64 <<< 7
def privilegedExecuteNeverBit : U64 := 1#64 <<< 53
def unprivilegedExecuteNeverBit : U64 := 1#64 <<< 54

/-- `validateLeafAccess`. -/
def validateLeafAccess (vm : VirtualMachine) (descriptor : U64) (level : Nat)
    (originalVirtualAddress : U64) (access : MemoryAccess) : Except Arm64TranslationFault Unit :=
  if descriptor &&& accessFlagBit = 0#64 then
    .error ⟨originalVirtualAddress, access, level, .accessFlag (statusLevel level)⟩
  else if access = .write ∧ descriptor &&& readOnlyAPBit ≠ 0#64 then
    .error ⟨originalVirtualAddress, access, level, .permission (statusLevel level)⟩
  else if access = .instruction then
    let executeNever := if (vm.pstate >>> 2) &&& 0x3#64 = 0#64 then descriptor &&& unprivilegedExecuteNeverBit ≠ 0#64
      else descriptor &&& privilegedExecuteNeverBit ≠ 0#64
    if executeNever then
      .error ⟨originalVirtualAddress, access, level, .permission (statusLevel level)⟩
    else .ok ()
  else .ok ()

/-- The level loop of `walk4KBPageTables`; the level is `4 - remaining`. -/
def walk4KBPageTables (vm : VirtualMachine) (virtualAddress originalVirtualAddress : U64)
    (access : MemoryAccess) : Nat → U64 → Except Arm64TranslationFault U64
  | 0, _ => .error ⟨originalVirtualAddress, access, 3, .translation (statusLevel 3)⟩
  | remaining + 1, currentTable =>
    let level := 3 - remaining
    let shift := 39 - level * 9
    let index := (virtualAddress >>> shift) &&& 0x1ff#64
    let fault := Except.error
      ⟨originalVirtualAddress, access, level, .translation (statusLevel level)⟩
    match vm.readPhysical (currentTable + index * 8#64) with
    | none => fault
    | some descriptor =>
      if descriptor &&& 0x1#64 = 0#64 then fault
      else
        let descriptorType := descriptor &&& 0x3#64
        if level = 3 then
          if descriptorType ≠ 3#64 then fault
          else
            match validateLeafAccess vm descriptor level originalVirtualAddress access with
            | .error e => .error e
            | .ok _ => .ok ((descriptor &&& outputAddressMask) ||| (virtualAddress &&& 0xfff#64))
        else if descriptorType = 1#64 then
          let offsetMask : U64 := (1#64 <<< (39 - level * 9)) - 1
          match validateLeafAccess vm descriptor level originalVirtualAddress access with
          | .error e => .error e
          | .ok _ => .ok ((descriptor &&& outputAddressMask &&& ~~~offsetMask) |||
              (virtualAddress &&& offsetMask))
        else if descriptorType ≠ 3#64 then fault
        else walk4KBPageTables vm virtualAddress originalVirtualAddress access remaining
          (descriptor &&& outputAddressMask)

/-- `ARM64Stage1Translator.translate`. -/
def swiftTranslate (vm : VirtualMachine) (virtualAddress : U64) (access : MemoryAccess) :
    Except Arm64TranslationFault U64 :=
  if vm.sctlrEl1 &&& 0x1#64 = 0#64 then .ok virtualAddress
  else
    let usesTtbr1 := virtualAddress >>> 63 = 1#64
    let sizeOffset := if usesTtbr1 then 16 else 0
    let tsz := ((vm.tcrEl1 >>> sizeOffset) &&& 0x3f#64).toNat
    let inputAddressSize : Int := 64 - tsz
    if ¬ (0 < inputAddressSize ∧ inputAddressSize ≤ 48) then
      .error ⟨virtualAddress, access, 0, .addressSize (statusLevel 0)⟩
    else
      let tableBase := (if usesTtbr1 then vm.ttbr1El1 else vm.ttbr0El1) &&& outputAddressMask
      if tableBase = 0#64 then .error ⟨virtualAddress, access, 0, .translation (statusLevel 0)⟩
      else
        let effectiveVa := if inputAddressSize = 64 then virtualAddress
          else virtualAddress &&& ((1#64 <<< inputAddressSize.toNat) - 1)
        walk4KBPageTables vm effectiveVa virtualAddress access 4 tableBase

/-- The same physical address, or a fault of the same kind at the same level. -/
def WalksAgree : Except TranslationFaultReport Stage1Mapping →
    Except Arm64TranslationFault U64 → Prop
  | .ok mapping, .ok physicalAddress => mapping.physicalAddress = physicalAddress
  | .error report, .error fault =>
    report.statusCode = fault.statusCode.rawValue ∧ report.level = fault.level
  | _, _ => False

/-- A descriptor address the walk of `effectiveAddress` reads from `table` on. -/
inductive DescriptorVisited (ram : GuestRam) (effectiveAddress : U64) : Nat → U64 → U64 → Prop
  | here {level : Nat} {table : U64} : level ≤ 3 →
      DescriptorVisited ram effectiveAddress level table
        (stage1DescriptorAddress table effectiveAddress level)
  | next {level : Nat} {table descriptor address : U64} : level < 3 →
      ram.stage1ReadDescriptor (stage1DescriptorAddress table effectiveAddress level) =
        some descriptor →
      descriptor &&& 3#64 = 3#64 →
      DescriptorVisited ram effectiveAddress (level + 1)
        (descriptor &&& stage1OutputAddressMask) address →
      DescriptorVisited ram effectiveAddress level table address

/-- The tables of the walk are held in RAM: no device answers a descriptor read. -/
def TablesHeldInRam (vm : VirtualMachine) (virtualAddress : U64) : Prop :=
  ∀ address, DescriptorVisited vm.memory (stage1EffectiveAddress vm.tcrEl1 virtualAddress) 0
      (stage1TableBase vm.stage1State virtualAddress) address →
    vm.memory.contains address 8 = true ∨ vm.mmio address = none

/-- The tables lead from `table` to the leaf `descriptor` at `leafLevel`. -/
inductive LeafReached (ram : GuestRam) (effectiveAddress : U64) : Nat → U64 → Nat → U64 → Prop
  | page {table descriptor : U64} :
      ram.stage1ReadDescriptor (stage1DescriptorAddress table effectiveAddress 3) =
        some descriptor →
      descriptor &&& 3#64 = 3#64 → LeafReached ram effectiveAddress 3 table 3 descriptor
  | block {level : Nat} {table descriptor : U64} : level < 3 →
      ram.stage1ReadDescriptor (stage1DescriptorAddress table effectiveAddress level) =
        some descriptor →
      descriptor &&& 3#64 = 1#64 → LeafReached ram effectiveAddress level table level descriptor
  | table {level leafLevel : Nat} {table descriptor leaf : U64} : level < 3 →
      ram.stage1ReadDescriptor (stage1DescriptorAddress table effectiveAddress level) =
        some descriptor →
      descriptor &&& 3#64 = 3#64 →
      LeafReached ram effectiveAddress (level + 1) (descriptor &&& stage1OutputAddressMask)
        leafLevel leaf →
      LeafReached ram effectiveAddress level table leafLevel leaf

/-- A leaf that only AP[1] keeps from an EL0 access of this kind. -/
def SupervisorOnlyLeaf (currentEl : BitVec 8) (access : MemoryAccess) (descriptor : U64) : Prop :=
  currentEl = 0#8 ∧ descriptor &&& stage1AccessFlagBit ≠ 0#64 ∧
    descriptor &&& stage1UnprivilegedApBit = 0#64 ∧
    ¬ (access = .write ∧ descriptor &&& stage1ReadOnlyApBit ≠ 0#64) ∧
    ¬ (access = .instruction ∧ descriptor &&& stage1UnprivilegedExecuteNeverBit ≠ 0#64)

/-- With the MMU on and a usable table base, EL0 reaches a supervisor-only leaf. -/
def ReachesSupervisorOnlyLeaf (vm : VirtualMachine) (virtualAddress : U64)
    (access : MemoryAccess) : Prop :=
  vm.sctlrEl1 &&& 1#64 ≠ 0#64 ∧ 0 < stage1InputAddressSize vm.tcrEl1 virtualAddress ∧
    stage1InputAddressSize vm.tcrEl1 virtualAddress ≤ 48 ∧
    stage1TableBase vm.stage1State virtualAddress ≠ 0#64 ∧
    ∃ leafLevel leaf, LeafReached vm.memory (stage1EffectiveAddress vm.tcrEl1 virtualAddress) 0
        (stage1TableBase vm.stage1State virtualAddress) leafLevel leaf ∧
      SupervisorOnlyLeaf vm.currentEl access leaf

theorem VirtualMachine.currentEl_eq_zero {vm : VirtualMachine} :
    vm.currentEl = 0#8 ↔ (vm.pstate >>> 2) &&& 0x3#64 = 0#64 := by
  have hlt : ((vm.pstate >>> 2) &&& 0x3#64).toNat < 4 := by
    rw [BitVec.toNat_and]
    exact lt_of_le_of_lt Nat.and_le_right (by decide)
  unfold VirtualMachine.currentEl
  generalize (vm.pstate >>> 2) &&& 0x3#64 = el at hlt
  rw [← BitVec.toNat_inj, ← BitVec.toNat_inj, BitVec.toNat_setWidth,
    Nat.mod_eq_of_lt (by omega)]
  rfl

theorem statusLevel_val {level : Nat} (h : level ≤ 3) : (statusLevel level).val = level := by
  match level, h with
  | 0, _ | 1, _ | 2, _ | 3, _ => rfl

theorem validateLeaf_cases (vm : VirtualMachine) (descriptor virtualAddress : U64)
    (access : MemoryAccess) {level : Nat} (hl : level ≤ 3) :
    (stage1ValidateLeaf vm.currentEl descriptor access = none ∧
      validateLeafAccess vm descriptor level virtualAddress access = .ok () ∧
      ¬ SupervisorOnlyLeaf vm.currentEl access descriptor) ∨
    (∃ status code, stage1ValidateLeaf vm.currentEl descriptor access = some status ∧
      validateLeafAccess vm descriptor level virtualAddress access =
        .error ⟨virtualAddress, access, level, code⟩ ∧
      status + level = code.rawValue ∧ ¬ SupervisorOnlyLeaf vm.currentEl access descriptor) ∨
    (∃ status, stage1ValidateLeaf vm.currentEl descriptor access = some status ∧
      validateLeafAccess vm descriptor level virtualAddress access = .ok () ∧
      SupervisorOnlyLeaf vm.currentEl access descriptor) := by
  have hel := vm.currentEl_eq_zero
  have hcode : ∀ family : Fin 4 → Arm64FaultStatusCode, ∀ status,
      (∀ l, (family l).rawValue = status + l) →
      status + level = (family (statusLevel level)).rawValue := by
    intro family status h
    rw [h, statusLevel_val hl]
  have haccess : accessFlagBit = stage1AccessFlagBit := rfl
  have hreadOnly : readOnlyAPBit = stage1ReadOnlyApBit := rfl
  have hpxn : privilegedExecuteNeverBit = stage1PrivilegedExecuteNeverBit := rfl
  have huxn : unprivilegedExecuteNeverBit = stage1UnprivilegedExecuteNeverBit := rfl
  simp only [stage1ValidateLeaf, validateLeafAccess, SupervisorOnlyLeaf, ← hel, haccess, hreadOnly,
    hpxn, huxn]
  by_cases haf : descriptor &&& stage1AccessFlagBit = 0#64
  · exact .inr (.inl ⟨_, _, if_pos haf, if_pos haf, hcode .accessFlag _ fun _ => rfl,
      fun h => h.2.1 haf⟩)
  · cases access with
    | read =>
      by_cases h0 : vm.currentEl = 0#8 <;> by_cases hap : descriptor &&& stage1UnprivilegedApBit = 0#64 <;>
        simp [haf, h0, hap]
    | write =>
      by_cases hro : descriptor &&& stage1ReadOnlyApBit = 0#64
      · by_cases h0 : vm.currentEl = 0#8 <;>
          by_cases hap : descriptor &&& stage1UnprivilegedApBit = 0#64 <;> simp [haf, h0, hap, hro]
      · exact .inr (.inl ⟨faultPermissionLevel0, _, by simp [haf, hro], by simp [haf, hro],
          hcode .permission faultPermissionLevel0 fun _ => rfl, by simp [hro]⟩)
    | instruction =>
      by_cases h0 : vm.currentEl = 0#8
      · by_cases hx : descriptor &&& stage1UnprivilegedExecuteNeverBit = 0#64
        · by_cases hap : descriptor &&& stage1UnprivilegedApBit = 0#64 <;> simp [haf, h0, hap, hx]
        · exact .inr (.inl ⟨faultPermissionLevel0, _, by simp [haf, h0, hx], by simp [haf, h0, hx],
            hcode .permission faultPermissionLevel0 fun _ => rfl, by simp [hx]⟩)
      · by_cases hx : descriptor &&& stage1PrivilegedExecuteNeverBit = 0#64
        · simp [haf, h0, hx]
        · exact .inr (.inl ⟨faultPermissionLevel0, _, by simp [haf, h0, hx], by simp [haf, h0, hx],
            hcode .permission faultPermissionLevel0 fun _ => rfl, by simp [h0]⟩)

theorem readPhysical_eq_stage1ReadDescriptor {vm : VirtualMachine} {table eff : U64} {level : Nat}
    (ht : table.toNat < 2 ^ 48)
    (hram : vm.memory.contains (stage1DescriptorAddress table eff level) 8 = true ∨
      vm.mmio (stage1DescriptorAddress table eff level) = none) :
    vm.readPhysical (stage1DescriptorAddress table eff level) =
      vm.memory.stage1ReadDescriptor (stage1DescriptorAddress table eff level) := by
  unfold VirtualMachine.readPhysical
  cases hc : vm.memory.contains (stage1DescriptorAddress table eff level) 8 with
  | true => rw [if_pos rfl, GuestRam.stage1ReadDescriptor_of_contains hc]
  | false =>
    rw [GuestRam.stage1ReadDescriptor_eq_none (descriptorAddress_toNat_lt ht eff level) hc]
    rcases hram with hram | hram
    · exact absurd (hc.symm.trans hram) Bool.false_ne_true
    · exact hram

theorem leafReached_iff {ram : GuestRam} {eff table leaf : U64} {level leafLevel : Nat} :
    LeafReached ram eff level table leafLevel leaf ↔
      ∃ descriptor, ram.stage1ReadDescriptor (stage1DescriptorAddress table eff level) =
          some descriptor ∧
        ((level = 3 ∧ descriptor &&& 3#64 = 3#64 ∧ leafLevel = 3 ∧ leaf = descriptor) ∨
          (level < 3 ∧ descriptor &&& 3#64 = 1#64 ∧ leafLevel = level ∧ leaf = descriptor) ∨
          (level < 3 ∧ descriptor &&& 3#64 = 3#64 ∧
            LeafReached ram eff (level + 1) (descriptor &&& stage1OutputAddressMask)
              leafLevel leaf)) := by
  constructor
  · intro h
    cases h with
    | page hread htype => exact ⟨_, hread, .inl ⟨rfl, htype, rfl, rfl⟩⟩
    | block hlt hread htype => exact ⟨_, hread, .inr (.inl ⟨hlt, htype, rfl, rfl⟩)⟩
    | table hlt hread htype hnext => exact ⟨_, hread, .inr (.inr ⟨hlt, htype, hnext⟩)⟩
  · rintro ⟨d, hread, ⟨rfl, htype, rfl, rfl⟩ | ⟨hlt, htype, rfl, rfl⟩ | ⟨hlt, htype, hnext⟩⟩
    · exact .page hread htype
    · exact .block hlt hread htype
    · exact .table hlt hread htype hnext

theorem valid_of_type {descriptor type : U64} (h : descriptor &&& 3#64 = type)
    (ht : type &&& 1#64 ≠ 0#64) : descriptor &&& 1#64 ≠ 0#64 := by
  rw [← h, BitVec.and_assoc] at ht
  exact ht

/-- The walkers agree on the levels that are left exactly when these lead to no
supervisor-only leaf. -/
theorem walkLevels_agree_iff (vm : VirtualMachine) (eff virtualAddress : U64)
    (access : MemoryAccess) (remaining : Nat) (hr : remaining ≤ 4) {table : U64}
    (ht : table.toNat < 2 ^ 48)
    (hram : ∀ address, DescriptorVisited vm.memory eff (4 - remaining) table address →
      vm.memory.contains address 8 = true ∨ vm.mmio address = none) :
    WalksAgree
      (stage1WalkLevels vm.memory vm.stage1State virtualAddress eff access remaining table)
      (walk4KBPageTables vm eff virtualAddress access remaining table) ↔
    ¬ ∃ leafLevel leaf, LeafReached vm.memory eff (4 - remaining) table leafLevel leaf ∧
        SupervisorOnlyLeaf vm.currentEl access leaf := by
  induction remaining generalizing table with
  | zero =>
    have hno : ∀ l d, ¬ LeafReached vm.memory eff 4 table l d := by
      intro l d h
      obtain ⟨_, _, h | h | h⟩ := leafReached_iff.mp h <;> omega
    have hagree : WalksAgree
        (stage1WalkLevels vm.memory vm.stage1State virtualAddress eff access 0 table)
        (walk4KBPageTables vm eff virtualAddress access 0 table) := ⟨rfl, rfl⟩
    simp [hno, hagree]
  | succ remaining ih =>
    have hlevel : 4 - (remaining + 1) = 3 - remaining := by omega
    rw [hlevel] at hram ⊢
    have hnext : 4 - remaining = 3 - remaining + 1 := by omega
    rw [hnext] at ih
    generalize hl : 3 - remaining = level at *
    have hl3 : level ≤ 3 := by omega
    have hread := readPhysical_eq_stage1ReadDescriptor ht (hram _ (.here hl3))
    have hcode : (Arm64FaultStatusCode.translation (statusLevel level)).rawValue =
        faultTranslationLevel0 + level := by
      simp [Arm64FaultStatusCode.rawValue, faultTranslationLevel0, statusLevel_val hl3]
    have hwrap := descriptorAddress_no_wrap ht eff level
    have haddress : table + ((eff >>> (39 - level * 9)) &&& 0x1ff#64) * 8#64 =
      stage1DescriptorAddress table eff level := rfl
    have hel : vm.stage1State.currentEl = vm.currentEl := rfl
    have hmask : outputAddressMask = stage1OutputAddressMask := rfl
    simp only [stage1WalkLevels, walk4KBPageTables, hl, if_neg hwrap, haddress, hread, hel, hmask]
    cases hd : vm.memory.stage1ReadDescriptor (stage1DescriptorAddress table eff level) with
    | none =>
      have hno : ∀ l d, ¬ LeafReached vm.memory eff level table l d := by
        intro l d h
        obtain ⟨_, h, _⟩ := leafReached_iff.mp h
        exact absurd (hd.symm.trans h) (by simp)
      simp [hno, WalksAgree, hcode]
    | some descriptor =>
      have hleaf : ∀ l d, LeafReached vm.memory eff level table l d ↔
          (level = 3 ∧ descriptor &&& 3#64 = 3#64 ∧ l = 3 ∧ d = descriptor) ∨
          (level < 3 ∧ descriptor &&& 3#64 = 1#64 ∧ l = level ∧ d = descriptor) ∨
          (level < 3 ∧ descriptor &&& 3#64 = 3#64 ∧ LeafReached vm.memory eff (level + 1)
            (descriptor &&& stage1OutputAddressMask) l d) := by
        intro l d
        rw [leafReached_iff]
        simp only [hd, Option.some.injEq, exists_eq_left']
      simp only [hleaf]
      by_cases hv : descriptor &&& 1#64 = 0#64
      · have h3 : descriptor &&& 3#64 ≠ 3#64 := fun h => valid_of_type h (by decide) hv
        have h1 : descriptor &&& 3#64 ≠ 1#64 := fun h => valid_of_type h (by decide) hv
        simp [hv, h3, h1, WalksAgree, hcode]
      · by_cases hlast : level = 3
        · subst hlast
          by_cases htype : descriptor &&& 3#64 = 3#64
          · rcases validateLeaf_cases vm descriptor virtualAddress access hl3 with
              ⟨hc, hs, hn⟩ | ⟨status, code, hc, hs, heq, hn⟩ | ⟨status, hc, hs, hn⟩
            · simp [hv, htype, hc, hs, hn, WalksAgree]
            · simp [hv, htype, hc, hs, heq, hn, WalksAgree]
            · simp [hv, htype, hc, hs, hn, WalksAgree]
          · simp [hv, htype, WalksAgree, hcode]
        · have hlt : level < 3 := by omega
          by_cases hblock : descriptor &&& 3#64 = 1#64
          · rcases validateLeaf_cases vm descriptor virtualAddress access hl3 with
              ⟨hc, hs, hn⟩ | ⟨status, code, hc, hs, heq, hn⟩ | ⟨status, hc, hs, hn⟩
            · simp [hv, hlast, hlt, hblock, stage1LevelShift, hc, hs, hn, WalksAgree]
            · simp [hv, hlast, hlt, hblock, hc, hs, heq, hn, WalksAgree]
            · simp [hv, hlast, hlt, hblock, hc, hs, hn, WalksAgree]
          · by_cases htable : descriptor &&& 3#64 = 3#64
            · have h := ih (by omega) (and_stage1OutputAddressMask_toNat_lt descriptor)
                fun a ha => hram a (.next hlt hd htable ha)
              simpa [hv, hlast, hlt, htable] using h
            · simp [hv, hlast, hblock, htable, WalksAgree, hcode]

theorem VirtualMachine.usesTtbr1_iff (virtualAddress : U64) :
    virtualAddress >>> 63 = 1#64 ↔ virtualAddress.msb = true := by
  rw [BitVec.msb_eq_decide, decide_eq_true_eq]
  constructor
  · intro h
    have h' := congrArg BitVec.toNat h
    simp only [BitVec.toNat_ushiftRight, BitVec.toNat_ofNat, Nat.shiftRight_eq_div_pow] at h'
    omega
  · intro h
    apply BitVec.eq_of_toNat_eq
    have := virtualAddress.isLt
    simp only [BitVec.toNat_ushiftRight, BitVec.toNat_ofNat, Nat.shiftRight_eq_div_pow]
    omega

theorem swiftTranslate_eq (vm : VirtualMachine) (virtualAddress : U64) (access : MemoryAccess) :
    swiftTranslate vm virtualAddress access =
      if vm.sctlrEl1 &&& 1#64 = 0#64 then .ok virtualAddress
      else if stage1InputAddressSize vm.tcrEl1 virtualAddress = 0 ∨
          48 < stage1InputAddressSize vm.tcrEl1 virtualAddress then
        .error ⟨virtualAddress, access, 0, .addressSize 0⟩
      else if stage1TableBase vm.stage1State virtualAddress = 0#64 then
        .error ⟨virtualAddress, access, 0, .translation 0⟩
      else walk4KBPageTables vm (stage1EffectiveAddress vm.tcrEl1 virtualAddress) virtualAddress
        access 4 (stage1TableBase vm.stage1State virtualAddress) := by
  have hlt : ((vm.tcrEl1 >>> (if virtualAddress.msb then 16 else 0)) &&& 0x3f#64).toNat < 64 := by
    rw [BitVec.toNat_and]
    exact lt_of_le_of_lt Nat.and_le_right (by decide)
  have hint : (64 : Int) - ((vm.tcrEl1 >>> (if virtualAddress.msb then 16 else 0)) &&& 0x3f#64).toNat =
      stage1InputAddressSize vm.tcrEl1 virtualAddress := by
    unfold stage1InputAddressSize
    omega
  simp only [swiftTranslate, VirtualMachine.usesTtbr1_iff, hint, Int.toNat_natCast]
  by_cases hmmu : vm.sctlrEl1 &&& 1#64 = 0#64
  · rw [if_pos hmmu, if_pos hmmu]
  rw [if_neg hmmu, if_neg hmmu]
  by_cases hsize : stage1InputAddressSize vm.tcrEl1 virtualAddress = 0 ∨
      48 < stage1InputAddressSize vm.tcrEl1 virtualAddress
  · rw [if_pos hsize, if_pos (by omega)]
    rfl
  · have h64 : ¬ (stage1InputAddressSize vm.tcrEl1 virtualAddress : Int) = 64 := by omega
    rw [if_neg hsize, if_neg (by omega), if_neg h64]
    rfl

theorem walksAgree_swiftTranslate_iff (vm : VirtualMachine) (virtualAddress : U64)
    (access : MemoryAccess) (htables : TablesHeldInRam vm virtualAddress) :
    WalksAgree (stage1Translate vm.memory vm.stage1State virtualAddress access)
      (swiftTranslate vm virtualAddress access) ↔
    ¬ ReachesSupervisorOnlyLeaf vm virtualAddress access := by
  have hsctlr : vm.stage1State.sctlrEl1 = vm.sctlrEl1 := rfl
  have htcr : vm.stage1State.tcrEl1 = vm.tcrEl1 := rfl
  rw [swiftTranslate_eq]
  simp only [stage1Translate, hsctlr, htcr, ReachesSupervisorOnlyLeaf]
  by_cases hmmu : vm.sctlrEl1 &&& 1#64 = 0#64
  · simp [hmmu, WalksAgree]
  by_cases hsize : stage1InputAddressSize vm.tcrEl1 virtualAddress = 0 ∨
      48 < stage1InputAddressSize vm.tcrEl1 virtualAddress
  · have hno : ¬ (0 < stage1InputAddressSize vm.tcrEl1 virtualAddress ∧
        stage1InputAddressSize vm.tcrEl1 virtualAddress ≤ 48) := by omega
    have hagree : WalksAgree (.error ⟨virtualAddress, access, 0, faultAddressSizeLevel0⟩)
        (.error ⟨virtualAddress, access, 0, .addressSize 0⟩) := ⟨rfl, rfl⟩
    simp only [if_neg hmmu, if_pos hsize, hagree, true_iff]
    exact fun h => hno ⟨h.2.1, h.2.2.1⟩
  · by_cases hbase : stage1TableBase vm.stage1State virtualAddress = 0#64
    · have hagree : WalksAgree (.error ⟨virtualAddress, access, 0, faultTranslationLevel0⟩)
          (.error ⟨virtualAddress, access, 0, .translation 0⟩) := ⟨rfl, rfl⟩
      simp only [if_neg hmmu, if_neg hsize, if_pos hbase, hagree, true_iff]
      exact fun h => h.2.2.2.1 hbase
    · have ht : (stage1TableBase vm.stage1State virtualAddress).toNat < 2 ^ 48 :=
        and_stage1OutputAddressMask_toNat_lt _
      have h := walkLevels_agree_iff vm (stage1EffectiveAddress vm.tcrEl1 virtualAddress)
        virtualAddress access 4 le_rfl ht htables
      have hin : 0 < stage1InputAddressSize vm.tcrEl1 virtualAddress ∧
          stage1InputAddressSize vm.tcrEl1 virtualAddress ≤ 48 := by omega
      simp only [if_neg hmmu, if_neg hsize, if_neg hbase]
      simpa [hmmu, hin, hbase] using h

/-- With the tables in RAM, the native and the Swift translator agree on an
access exactly when EL0 does not reach a supervisor-only leaf with it: the Swift
leaf check has no AP[1] test. -/
theorem stage1Translate_agrees_swift_iff (vm : VirtualMachine) (virtualAddress : U64)
    (access : MemoryAccess) (htables : TablesHeldInRam vm virtualAddress) :
    WalksAgree (stage1Translate vm.memory vm.stage1State virtualAddress access)
      (swiftTranslate vm virtualAddress access) ↔
    ¬ ReachesSupervisorOnlyLeaf vm virtualAddress access :=
  walksAgree_swiftTranslate_iff vm virtualAddress access htables

/-- An identity-mapped gigabyte block with AF set and AP[1] clear, two levels deep. -/
def supervisorBlockVm (pstate : U64) : VirtualMachine where
  memory := {
    base := 0
    size := 0x10000
    bytes := fun offset =>
      if offset = 0x1000 then 0x03 else if offset = 0x1001 then 0x20
      else if offset = 0x2000 then 0x01 else if offset = 0x2001 then 0x04 else 0
    noWrap := by decide }
  mmio := fun _ => none
  sctlrEl1 := 1
  tcrEl1 := 16
  ttbr0El1 := 0x1000
  ttbr1El1 := 0
  pstate := pstate

/-- EL0 reads the supervisor block: the native walk faults at level 1, the Swift
one returns the address. -/
theorem stage1Translate_disagrees_swift_supervisorBlock :
    TablesHeldInRam (supervisorBlockVm 0) 0x10 ∧
    stage1Translate (supervisorBlockVm 0).memory (supervisorBlockVm 0).stage1State 0x10 .read =
      .error ⟨0x10, .read, 1, faultPermissionLevel0 + 1⟩ ∧
    swiftTranslate (supervisorBlockVm 0) 0x10 .read = .ok 0x10 ∧
    ¬ WalksAgree
      (stage1Translate (supervisorBlockVm 0).memory (supervisorBlockVm 0).stage1State 0x10 .read)
      (swiftTranslate (supervisorBlockVm 0) 0x10 .read) := by
  have hc : stage1Translate (supervisorBlockVm 0).memory (supervisorBlockVm 0).stage1State 0x10
      .read = .error ⟨0x10, .read, 1, faultPermissionLevel0 + 1⟩ := by rfl
  have hs : swiftTranslate (supervisorBlockVm 0) 0x10 .read = .ok 0x10 := by rfl
  refine ⟨fun _ _ => .inr rfl, hc, hs, ?_⟩
  rw [hc, hs]
  exact id

/-- The same access from EL1 is one on which the translators agree. -/
theorem stage1Translate_agrees_swift_supervisorBlock_el1 :
    TablesHeldInRam (supervisorBlockVm 4) 0x10 ∧
    WalksAgree
      (stage1Translate (supervisorBlockVm 4).memory (supervisorBlockVm 4).stage1State 0x10 .read)
      (swiftTranslate (supervisorBlockVm 4) 0x10 .read) :=
  have htables : TablesHeldInRam (supervisorBlockVm 4) 0x10 := fun _ _ => .inr rfl
  ⟨htables, (stage1Translate_agrees_swift_iff _ _ _ htables).mpr
    fun ⟨_, _, _, _, _, _, _, h⟩ => absurd h.1 (by decide)⟩

end Pinecone
