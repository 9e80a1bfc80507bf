import Pinecone.SwiftWalk

/-! The pinned-RAM walk of the native memory context in EmulatorBackend.swift. It
reads descriptors from RAM only; with no device on the bus it is the reference walk. -/

namespace Pinecone

namespace VirtualMachine

/-- `readPinnedPhysical64`: a descriptor outside RAM throws. -/
def readPinnedPhysical64 (vm : VirtualMachine) (physicalAddress : U64) : Option U64 :=
  if vm.memory.contains physicalAddress 8 then
    some (vm.memory.load64 (physicalAddress - vm.memory.base).toNat)
  else none

/-- The machine with no device on the bus. -/
def withoutDevices (vm : VirtualMachine) : VirtualMachine := { vm with mmio := fun _ => none }

theorem readPhysical_withoutDevices (vm : VirtualMachine) (address : U64) :
    vm.withoutDevices.readPhysical address = vm.readPinnedPhysical64 address := rfl

theorem readPinnedPhysical64_of_contains {vm : VirtualMachine} {address : U64}
    (h : vm.memory.contains address 8 = true) :
    vm.readPinnedPhysical64 address = some (vm.memory.load64 (address - vm.memory.base).toNat) :=
  if_pos h

theorem readPinnedPhysical64_eq_none {vm : VirtualMachine} {address : U64}
    (h : vm.memory.contains address 8 = false) : vm.readPinnedPhysical64 address = none :=
  if_neg (by rw [h]; exact Bool.false_ne_true)

theorem readPhysical_of_contains {vm : VirtualMachine} {address : U64}
    (h : vm.memory.contains address 8 = true) :
    vm.readPhysical address = some (vm.memory.load64 (address - vm.memory.base).toNat) :=
  if_pos h

theorem readPhysical_eq_mmio {vm : VirtualMachine} {address : U64}
    (h : vm.memory.contains address 8 = false) : vm.readPhysical address = vm.mmio address :=
  if_neg (by rw [h]; exact Bool.false_ne_true)

end VirtualMachine

/-- `validatePinnedLeafAccess`. -/
def validatePinnedLeafAccess (vm : VirtualMachine) (descriptor : U64) (level : Nat)
    (originalVirtualAddress : U64) (access : MemoryAccess) : Except Arm64TranslationFault Unit :=
  if descriptor &&& accessFlagBit = 0#64 then
    .error ⟨originalVirtualAddress, access, level, .accessFlag (statusLevel level)⟩
  else if access = .write ∧ descriptor &&& readOnlyAPBit ≠ 0#64 then
    .error ⟨originalVirtualAddress, access, level, .permission (statusLevel level)⟩
  else if access = .instruction then
    let executeNever := if (vm.pstate >>> 2) &&& 0x3#64 = 0#64 then descriptor &&& unprivilegedExecuteNeverBit ≠ 0#64
      else descriptor &&& privilegedExecuteNeverBit ≠ 0#64
    if executeNever then
      .error ⟨originalVirtualAddress, access, level, .permission (statusLevel level)⟩
    else .ok ()
  else .ok ()

/-- The level loop of `walkPinned4KBPageTables`; the level is `4 - remaining`. -/
def walkPinned4KBPageTables (vm : VirtualMachine) (virtualAddress originalVirtualAddress : U64)
    (access : MemoryAccess) : Nat → U64 → Except Arm64TranslationFault U64
  | 0, _ => .error ⟨originalVirtualAddress, access, 3, .translation (statusLevel 3)⟩
  | remaining + 1, currentTable =>
    let level := 3 - remaining
    let shift := 39 - level * 9
    let index := (virtualAddress >>> shift) &&& 0x1ff#64
    let fault := Except.error
      ⟨originalVirtualAddress, access, level, .translation (statusLevel level)⟩
    match vm.readPinnedPhysical64 (currentTable + index * 8#64) with
    | none => fault
    | some descriptor =>
      if descriptor &&& 0x1#64 = 0#64 then fault
      else
        let descriptorType := descriptor &&& 0x3#64
        if level = 3 then
          if descriptorType ≠ 3#64 then fault
          else
            match validatePinnedLeafAccess vm descriptor level originalVirtualAddress access with
            | .error e => .error e
            | .ok _ => .ok ((descriptor &&& outputAddressMask) ||| (virtualAddress &&& 0xfff#64))
        else if descriptorType = 1#64 then
          let offsetMask : U64 := (1#64 <<< (39 - level * 9)) - 1
          match validatePinnedLeafAccess vm descriptor level originalVirtualAddress access with
          | .error e => .error e
          | .ok _ => .ok ((descriptor &&& outputAddressMask &&& ~~~offsetMask) |||
              (virtualAddress &&& offsetMask))
        else if descriptorType ≠ 3#64 then fault
        else walkPinned4KBPageTables vm virtualAddress originalVirtualAddress access remaining
          (descriptor &&& outputAddressMask)

/-- `translateAddressUsingPinnedRAM`. -/
def translateAddressUsingPinnedRam (vm : VirtualMachine) (virtualAddress : U64)
    (access : MemoryAccess) (tcr ttbr : U64) : Except Arm64TranslationFault U64 :=
  let sizeOffset := if virtualAddress >>> 63 = 1#64 then 16 else 0
  let tsz := ((tcr >>> sizeOffset) &&& 0x3f#64).toNat
  let inputAddressSize : Int := 64 - tsz
  if ¬ (0 < inputAddressSize ∧ inputAddressSize ≤ 48) then
    .error ⟨virtualAddress, access, 0, .addressSize (statusLevel 0)⟩
  else
    let tableBase := ttbr &&& outputAddressMask
    if tableBase = 0#64 then .error ⟨virtualAddress, access, 0, .translation (statusLevel 0)⟩
    else
      let effectiveVa := virtualAddress &&& ((1#64 <<< inputAddressSize.toNat) - 1)
      walkPinned4KBPageTables vm effectiveVa virtualAddress access 4 tableBase

/-- `translatedSinglePageAddress` of one byte on a page-cache miss with RAM pinned: the
only caller of the pinned walk. -/
def translatedSinglePageAddress (vm : VirtualMachine) (virtualAddress : U64)
    (access : MemoryAccess) : Except Arm64TranslationFault U64 :=
  if vm.sctlrEl1 &&& 0x1#64 = 0#64 then .ok virtualAddress
  else translateAddressUsingPinnedRam vm virtualAddress access vm.tcrEl1
    (if virtualAddress >>> 63 = 1#64 then vm.ttbr1El1 else vm.ttbr0El1)

theorem validateLeafAccess_withoutDevices (vm : VirtualMachine) (descriptor : U64) (level : Nat)
    (originalVirtualAddress : U64) (access : MemoryAccess) :
    validateLeafAccess vm.withoutDevices descriptor level originalVirtualAddress access =
      validateLeafAccess vm descriptor level originalVirtualAddress access := rfl

theorem walkPinned4KBPageTables_eq_withoutDevices (vm : VirtualMachine)
    (virtualAddress originalVirtualAddress : U64) (access : MemoryAccess) (remaining : Nat)
    (table : U64) :
    walkPinned4KBPageTables vm virtualAddress originalVirtualAddress access remaining table =
      walk4KBPageTables vm.withoutDevices virtualAddress originalVirtualAddress access remaining
        table := by
  induction remaining generalizing table with
  | zero => rfl
  | succ remaining ih =>
    simp only [walkPinned4KBPageTables, walk4KBPageTables, VirtualMachine.readPhysical_withoutDevices,
      ih]
    rfl

theorem translatedSinglePageAddress_eq_withoutDevices (vm : VirtualMachine) (virtualAddress : U64)
    (access : MemoryAccess) :
    translatedSinglePageAddress vm virtualAddress access =
      swiftTranslate vm.withoutDevices virtualAddress access := by
  have hsctlr : vm.withoutDevices.sctlrEl1 = vm.sctlrEl1 := rfl
  have htcr : vm.withoutDevices.tcrEl1 = vm.tcrEl1 := rfl
  have httbr0 : vm.withoutDevices.ttbr0El1 = vm.ttbr0El1 := rfl
  have httbr1 : vm.withoutDevices.ttbr1El1 = vm.ttbr1El1 := rfl
  simp only [translatedSinglePageAddress, translateAddressUsingPinnedRam, swiftTranslate,
    walkPinned4KBPageTables_eq_withoutDevices, hsctlr, htcr, httbr0, httbr1]
  generalize hsize : (64 : Int) -
    ((vm.tcrEl1 >>> (if virtualAddress >>> 63 = 1#64 then 16 else 0)) &&& 0x3f#64).toNat = size
  by_cases hin : 0 < size ∧ size ≤ 48
  · simp only [hin, not_true_eq_false, if_false, show ¬ size = 64 by omega]
  · simp only [hin, not_false_eq_true, if_true]

/-- The walk reads a descriptor outside RAM and a device answers it. -/
def DescriptorAnsweredByDevice (vm : VirtualMachine) (virtualAddress : U64) : Prop :=
  ∃ address, DescriptorVisited vm.memory (stage1EffectiveAddress vm.tcrEl1 virtualAddress) 0
      (stage1TableBase vm.stage1State virtualAddress) address ∧
    vm.memory.contains address 8 = false ∧ vm.mmio address ≠ none

/-- A level of the walk without devices and with them: an address found without them is found
with them, and so is a fault unless a device answers a descriptor. -/
theorem walk4KBPageTables_withoutDevices (vm : VirtualMachine) (eff virtualAddress : U64)
    (access : MemoryAccess) (remaining : Nat) (hr : remaining ≤ 4) {table : U64}
    (ht : table.toNat < 2 ^ 48) :
    walk4KBPageTables vm.withoutDevices eff virtualAddress access remaining table =
        walk4KBPageTables vm eff virtualAddress access remaining table ∨
      (∃ fault, walk4KBPageTables vm.withoutDevices eff virtualAddress access remaining table =
          .error fault) ∧
        ∃ address, DescriptorVisited vm.memory eff (4 - remaining) table address ∧
          vm.memory.contains address 8 = false ∧ vm.mmio address ≠ none := by
  induction remaining generalizing table with
  | zero => exact .inl rfl
  | succ remaining ih =>
    have hlevel : 4 - (remaining + 1) = 3 - remaining := by omega
    have hnext : 4 - remaining = 3 - remaining + 1 := by omega
    rw [hlevel]
    rw [hnext] at ih
    generalize hl : 3 - remaining = level at *
    have hl3 : level ≤ 3 := by omega
    have haddress : table + ((eff >>> (39 - level * 9)) &&& 0x1ff#64) * 8#64 =
      stage1DescriptorAddress table eff level := rfl
    simp only [walk4KBPageTables, hl, haddress, VirtualMachine.readPhysical_withoutDevices]
    cases hc : vm.memory.contains (stage1DescriptorAddress table eff level) 8 with
    | false =>
      rw [VirtualMachine.readPinnedPhysical64_eq_none hc, VirtualMachine.readPhysical_eq_mmio hc]
      cases hm : vm.mmio (stage1DescriptorAddress table eff level) with
      | none => exact .inl rfl
      | some descriptor =>
        exact .inr ⟨⟨_, rfl⟩, _, .here hl3, hc, by simp [hm]⟩
    | true =>
      have hread := GuestRam.stage1ReadDescriptor_of_contains hc
      rw [VirtualMachine.readPinnedPhysical64_of_contains hc,
        VirtualMachine.readPhysical_of_contains hc]
      generalize vm.memory.load64 (stage1DescriptorAddress table eff level - vm.memory.base).toNat =
        descriptor at hread
      by_cases htable : descriptor &&& 0x3#64 = 3#64 ∧ level ≠ 3
      · have hv : descriptor &&& 1#64 ≠ 0#64 := valid_of_type htable.1 (by decide)
        have hmask : outputAddressMask = stage1OutputAddressMask := rfl
        simp only [hv, htable.1, htable.2, hmask, if_false, ne_eq, not_true_eq_false,
          show ¬ (3#64 = 1#64) by decide, validateLeafAccess_withoutDevices]
        rcases ih (by omega) (and_stage1OutputAddressMask_toNat_lt descriptor) with
          h | ⟨hfault, address, hvisited, hdevice⟩
        · exact .inl h
        · exact .inr ⟨hfault, address, .next (by omega) hread htable.1 hvisited, hdevice⟩
      · left
        by_cases hlast : level = 3
        · simp only [hlast, if_true, validateLeafAccess_withoutDevices]
        · have htype : descriptor &&& 0x3#64 ≠ 3#64 := fun h => htable ⟨h, hlast⟩
          simp only [hlast, htype, if_false, ne_eq, not_false_eq_true, if_true,
            validateLeafAccess_withoutDevices]

theorem translatedSinglePageAddress_eq_or_device (vm : VirtualMachine) (virtualAddress : U64)
    (access : MemoryAccess) :
    translatedSinglePageAddress vm virtualAddress access = swiftTranslate vm virtualAddress access ∨
      (∃ fault, translatedSinglePageAddress vm virtualAddress access = .error fault) ∧
        DescriptorAnsweredByDevice vm virtualAddress := by
  have hsctlr : vm.withoutDevices.sctlrEl1 = vm.sctlrEl1 := rfl
  have htcr : vm.withoutDevices.tcrEl1 = vm.tcrEl1 := rfl
  have hstate : vm.withoutDevices.stage1State = vm.stage1State := rfl
  rw [translatedSinglePageAddress_eq_withoutDevices, swiftTranslate_eq, swiftTranslate_eq, hsctlr,
    htcr, hstate]
  by_cases hmmu : vm.sctlrEl1 &&& 1#64 = 0#64
  · exact .inl (by rw [if_pos hmmu, if_pos hmmu])
  by_cases hsize : stage1InputAddressSize vm.tcrEl1 virtualAddress = 0 ∨
      48 < stage1InputAddressSize vm.tcrEl1 virtualAddress
  · exact .inl (by rw [if_neg hmmu, if_neg hmmu, if_pos hsize, if_pos hsize])
  by_cases hbase : stage1TableBase vm.stage1State virtualAddress = 0#64
  · exact .inl (by simp only [if_neg hmmu, if_neg hsize, if_pos hbase])
  simp only [if_neg hmmu, if_neg hsize, if_neg hbase]
  exact walk4KBPageTables_withoutDevices vm _ virtualAddress access 4 le_rfl
    (and_stage1OutputAddressMask_toNat_lt _)

theorem reachesSupervisorOnlyLeaf_withoutDevices (vm : VirtualMachine) (virtualAddress : U64)
    (access : MemoryAccess) :
    ReachesSupervisorOnlyLeaf vm.withoutDevices virtualAddress access ↔
      ReachesSupervisorOnlyLeaf vm virtualAddress access := Iff.rfl

theorem walksAgree_translatedSinglePageAddress {vm : VirtualMachine} {virtualAddress : U64}
    {access : MemoryAccess} (h : ¬ ReachesSupervisorOnlyLeaf vm virtualAddress access) :
    WalksAgree (stage1Translate vm.memory vm.stage1State virtualAddress access)
      (translatedSinglePageAddress vm virtualAddress access) := by
  rw [translatedSinglePageAddress_eq_withoutDevices]
  have htables : TablesHeldInRam vm.withoutDevices virtualAddress := fun _ _ => .inr rfl
  have hno : ¬ ReachesSupervisorOnlyLeaf vm.withoutDevices virtualAddress access :=
    mt (reachesSupervisorOnlyLeaf_withoutDevices vm virtualAddress access).mp h
  exact (walksAgree_swiftTranslate_iff vm.withoutDevices virtualAddress access htables).mpr hno

/-- What the pinned route finds the reference translator finds, and its faults are the
reference's, level and status included, unless a device answers a descriptor read. Outside
the leaves that only EL1 may use it also grants what the native walk of an access within
one page grants. -/
theorem translatedSinglePageAddress_agrees (vm : VirtualMachine) (virtualAddress : U64)
    (access : MemoryAccess) :
    (∀ physicalAddress, translatedSinglePageAddress vm virtualAddress access = .ok physicalAddress →
      swiftTranslate vm virtualAddress access = .ok physicalAddress) ∧
    (∀ fault, translatedSinglePageAddress vm virtualAddress access = .error fault →
      ¬ DescriptorAnsweredByDevice vm virtualAddress →
      swiftTranslate vm virtualAddress access = .error fault) ∧
    (¬ ReachesSupervisorOnlyLeaf vm virtualAddress access →
      WalksAgree (stage1Translate vm.memory vm.stage1State virtualAddress access)
        (translatedSinglePageAddress vm virtualAddress access)) := by
  have hroutes := translatedSinglePageAddress_eq_or_device vm virtualAddress access
  refine ⟨?_, ?_, walksAgree_translatedSinglePageAddress⟩
  · intro physicalAddress h
    rcases hroutes with heq | ⟨⟨fault, hfault⟩, _⟩
    · exact heq.symm.trans h
    · exact absurd (h.symm.trans hfault) (by simp)
  · intro fault h hdevice
    rcases hroutes with heq | ⟨_, hanswered⟩
    · exact heq.symm.trans h
    · exact absurd hanswered hdevice

/-- The table base is a device register that reads as a valid level-0 block. -/
def deviceTableVm : VirtualMachine where
  memory := { base := 0, size := 0x1000, bytes := fun _ => 0, noWrap := by decide }
  mmio := fun _ => some 0x441
  sctlrEl1 := 1
  tcrEl1 := 16
  ttbr0El1 := 0x9000
  ttbr1El1 := 0
  pstate := 4

/-- The reference translator reads its descriptor from the device; the pinned walk faults. -/
theorem translatedSinglePageAddress_disagrees_deviceTable :
    translatedSinglePageAddress deviceTableVm 0x10 .read =
      .error ⟨0x10, .read, 0, .translation 0⟩ ∧
    swiftTranslate deviceTableVm 0x10 .read = .ok 0x10 ∧
    ¬ (∀ fault, translatedSinglePageAddress deviceTableVm 0x10 .read = .error fault →
      ∃ fault', swiftTranslate deviceTableVm 0x10 .read = .error fault' ∧
        fault'.statusCode = fault.statusCode ∧ fault'.level = fault.level) := by
  have hp : translatedSinglePageAddress deviceTableVm 0x10 .read =
      .error ⟨0x10, .read, 0, .translation 0⟩ := by rfl
  have hr : swiftTranslate deviceTableVm 0x10 .read = .ok 0x10 := by rfl
  refine ⟨hp, hr, fun h => ?_⟩
  obtain ⟨fault, hfault, _⟩ := h _ hp
  exact absurd (hr.symm.trans hfault) (by simp)

end Pinecone
