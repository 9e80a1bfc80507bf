import Pinecone.GicRegisters

/-! Every access to the GIC of Devices.swift shows what a banked GICv2 may show. -/

namespace Pinecone

open SimpleInterruptController InterruptOperation

variable {configuration : GicConfiguration} {gic : VirtualGic} {ref : BankedGic}
  {line : InterruptLine} {vcpuID : ℤ} {offset word : ℕ} {width : MmioWidth} {value : U64}

/-- The device and the banked machine have the same registers. -/
structure BankedGic.Simulates (ref : BankedGic) (gic : VirtualGic) : Prop where
  distributorEnabled : gic.distributorEnabled = ref.distributorEnabled
  cpuInterfaceEnabled : gic.cpuInterfaceEnabled = ref.cpuInterfaceEnabled
  priorityMask : gic.priorityMask = ref.priorityMask
  agrees : ref.Agrees gic.interruptController

theorem BankedGic.simulates_initial : BankedGic.initial.Simulates VirtualGic.initial where
  distributorEnabled := rfl
  cpuInterfaceEnabled := rfl
  priorityMask := rfl
  agrees := {
    wellFormed := wellFormed_initial
    pending := fun source => by cases source <;> simp [IsPending, VirtualGic.initial, initial,
      SimpleInterruptController.initial]
    active := fun source => by cases source <;> simp [IsActive, VirtualGic.initial, initial,
      SimpleInterruptController.initial]
    pendingBanked := fun source hsource => hsource.elim
    activeBanked := fun source hsource => hsource.elim
    shared := fun line hline => by simp [VirtualGic.initial, SimpleInterruptController.initial] at hline
    enabledShared := fun line _ => by
      simp [VirtualGic.initial, initial, SimpleInterruptController.initial]
    enabledPrivate := fun line vcpuID _ _ => by
      simp [VirtualGic.initial, initial, SimpleInterruptController.initial]
    targets := fun line _ => rfl }

namespace BankedGic.Simulates

/-! ## Reads -/

theorem isEnabled_iff (h : ref.Simulates gic) :
    gic.isEnabled vcpuID line = true ↔ ref.IsEnabled (.bank line vcpuID) := by
  unfold VirtualGic.isEnabled InterruptSource.bank
  by_cases hline : line.toNat < 32
  · rw [if_pos hline, if_pos hline]
    exact h.agrees.isEnabled_private hline
  · rw [if_neg hline, if_neg hline]
    exact h.agrees.isEnabled_shared (Nat.le_of_not_lt hline)

theorem enabledBitmap_iff (h : ref.Simulates gic) (bit : ℕ) :
    (gic.enabledBitmap vcpuID offset).getLsbD bit = true ↔
      bit < 32 ∧ ref.IsEnabled (.bank (BitVec.ofNat 32 (offset / 4 * 32 + bit)) vcpuID) := by
  rw [VirtualGic.enabledBitmap, BitVec.getLsbD_setWidth, Arm.getLsbD_ofBits]
  simp only [Bool.and_eq_true, decide_eq_true_eq, h.isEnabled_iff]
  constructor
  · rintro ⟨_, hbit, henabled⟩
    exact ⟨hbit, henabled⟩
  · rintro ⟨hbit, henabled⟩
    exact ⟨by omega, hbit, henabled⟩

theorem targetOf_eq (h : ref.Simulates gic) {target : ℕ} (htarget : target < 2 ^ 32) :
    gic.targetOf vcpuID target = ref.targetOf vcpuID target := by
  unfold VirtualGic.targetOf BankedGic.targetOf
  by_cases hline : target < 32
  · rw [if_pos hline, if_pos hline]
  · have hnat : (BitVec.ofNat 32 target).toNat = target := by
      rw [BitVec.toNat_ofNat, Nat.mod_eq_of_lt htarget]
    rw [if_neg hline, if_neg hline, targetMask, hnat, if_neg hline]
    exact h.agrees.targets _ (by omega)

theorem readDistributor (h : ref.Simulates gic) (hoffset : offset < configuration.cpuInterfaceOffset) :
    ref.Reads vcpuID configuration width (gic.readDistributor configuration vcpuID offset width) ref
      (configuration.register offset) := by
  unfold VirtualGic.readDistributor GicConfiguration.register
  rw [if_neg (Nat.not_le.mpr hoffset)]
  by_cases hcontrol : offset = 0x000
  · simp only [hcontrol, if_true, h.distributorEnabled]
    exact ⟨rfl, rfl⟩
  by_cases htype : offset = 0x004
  · simp only [htype, OfNat.ofNat_ne_zero, if_true, if_false]
    exact ⟨rfl, rfl⟩
  rw [if_neg hcontrol, if_neg htype, if_neg hcontrol, if_neg htype]
  by_cases hset : 0x100 ≤ offset ∧ offset < 0x180
  · rw [if_pos hset, if_pos hset]
    exact ⟨h.enabledBitmap_iff, rfl⟩
  rw [if_neg hset, if_neg hset]
  by_cases hpending : 0x200 ≤ offset ∧ offset < 0x280
  · rw [if_pos hpending, if_neg (by omega), if_pos hpending]
    refine ⟨⟨_, h.agrees.mayGive_taken vcpuID, fun bit => ?_⟩, rfl⟩
    rw [VirtualGic.pendingBitmap, BankedGic.Agrees.peekPending_eq]
    exact VirtualGic.lineBitmap_iff _ bit
  rw [if_neg hpending]
  by_cases htargets : 0x800 ≤ offset ∧ offset < 0xc00
  · rw [if_pos htargets, if_neg (by omega), if_neg hpending, if_neg (by omega), if_pos htargets]
    refine ⟨VirtualGic.packTargets_congr fun byte hbyte => h.targetOf_eq ?_, rfl⟩
    have := MmioWidth.rawValue_le width
    omega
  · rw [if_neg htargets]
    -- the other offsets read as zero, those of a register that is only written too
    split_ifs <;> exact ⟨rfl, rfl⟩

theorem readCPUInterface (h : ref.Simulates gic) (hoffset : configuration.cpuInterfaceOffset ≤ offset) :
    ∃ after, ref.Reads vcpuID configuration width
        (gic.readCPUInterface vcpuID (offset - configuration.cpuInterfaceOffset)).1 after
        (configuration.register offset) ∧
      after.Simulates (gic.readCPUInterface vcpuID (offset - configuration.cpuInterfaceOffset)).2 := by
  unfold VirtualGic.readCPUInterface GicConfiguration.register
  rw [if_pos hoffset]
  generalize offset - configuration.cpuInterfaceOffset = offset
  by_cases hcontrol : offset = 0x000
  · simp only [hcontrol, if_true, h.cpuInterfaceEnabled]
    exact ⟨ref, ⟨rfl, rfl⟩, h⟩
  by_cases hmask : offset = 0x004
  · simp only [hmask, OfNat.ofNat_ne_zero, if_true, if_false, h.priorityMask]
    exact ⟨ref, ⟨rfl, rfl⟩, h⟩
  simp only [if_neg hcontrol, if_neg hmask]
  by_cases hacknowledge : offset = 0x00c
  · simp only [if_pos hacknowledge]
    refine ⟨ref.give (gic.interruptController.taken vcpuID),
      ⟨_, h.agrees.mayGive_taken vcpuID, rfl, ?_⟩, ?_⟩
    · rw [acknowledged_eq]
      cases gic.interruptController.taken vcpuID <;> rfl
    · have hagrees := h.agrees.give vcpuID
      cases htaken : gic.interruptController.taken vcpuID <;> rw [htaken] at hagrees
      · exact ⟨h.distributorEnabled, h.cpuInterfaceEnabled, h.priorityMask, hagrees⟩
      · exact ⟨h.distributorEnabled, h.cpuInterfaceEnabled, h.priorityMask, hagrees⟩
  · simp only [if_neg hacknowledge]
    refine ⟨ref, ?_, h⟩
    split_ifs <;> exact ⟨rfl, rfl⟩

theorem read (h : ref.Simulates gic) :
    ∃ after, ref.Reads vcpuID configuration width (gic.read configuration vcpuID offset width).1 after
        (configuration.register offset) ∧
      after.Simulates (gic.read configuration vcpuID offset width).2 := by
  unfold VirtualGic.read
  by_cases hinterface : configuration.cpuInterfaceOffset ≤ offset
  · rw [if_pos hinterface]
    exact h.readCPUInterface hinterface
  · rw [if_neg hinterface]
    exact ⟨ref, h.readDistributor (Nat.lt_of_not_le hinterface), h⟩

/-! ## Writes -/

theorem agrees_of_same {ref' : BankedGic} {controller : SimpleInterruptController}
    (h : ref.Agrees controller) (henabled : ref'.enabled = ref.enabled)
    (hpending : ref'.pending = ref.pending) (hactive : ref'.active = ref.active)
    (htargets : ref'.targets = ref.targets) : ref'.Agrees controller where
  wellFormed := h.wellFormed
  pending := fun source => by rw [hpending, h.pending]
  active := fun source => by rw [hactive, h.active]
  pendingBanked := fun source hsource => h.pendingBanked source (hpending ▸ hsource)
  activeBanked := fun source hsource => h.activeBanked source (hactive ▸ hsource)
  shared := h.shared
  enabledShared := fun line hline => by rw [henabled, h.enabledShared line hline]
  enabledPrivate := fun line vcpuID hlow hhigh => by rw [henabled, h.enabledPrivate line vcpuID hlow hhigh]
  targets := fun line hline => by rw [htargets, h.targets line hline]

theorem performAll (h : ref.Simulates gic) (operations : List InterruptOperation)
    (hbanked : ∀ operation ∈ operations, operation.Banked) :
    BankedGic.Simulates { operations.foldl BankedGic.perform ref with
      distributorEnabled := ref.distributorEnabled
      cpuInterfaceEnabled := ref.cpuInterfaceEnabled
      priorityMask := ref.priorityMask } (gic.performAll operations) :=
  ⟨h.distributorEnabled, h.cpuInterfaceEnabled, h.priorityMask,
    agrees_of_same (h.agrees.performAll hbanked) rfl rfl rfl rfl⟩

theorem named_eq (hoffset : offset < 0x80) {bitmap : BitVec 32} :
    {line | line ∈ VirtualGic.bitmapLines offset bitmap} = namedLines (offset / 4) bitmap :=
  Set.ext fun _ => mem_bitmapLines hoffset

theorem setLines_banked {enabled : Bool} {lines : List InterruptLine} :
    ∀ operation ∈ lines.map fun line => if line.toNat < 32 then
        InterruptOperation.setEnabledFor line enabled vcpuID else .setEnabled line enabled,
      operation.Banked := by
  intro operation ho
  obtain ⟨line, _, rfl⟩ := List.mem_map.mp ho
  split
  · assumption
  · exact Nat.le_of_not_lt (by assumption)

theorem enableLines (h : ref.Simulates gic) (hoffset : offset < 0x80) :
    BankedGic.Simulates (ref.write vcpuID configuration width value (.setEnable (offset / 4)))
      (gic.setLines vcpuID offset (value.setWidth 32) true) := by
  have hall := h.performAll _ (@setLines_banked vcpuID true (VirtualGic.bitmapLines offset (value.setWidth 32)))
  rw [BankedGic.foldl_enable, named_eq hoffset] at hall
  exact hall

theorem disableLines (h : ref.Simulates gic) (hoffset : offset < 0x80) :
    BankedGic.Simulates (ref.write vcpuID configuration width value (.clearEnable (offset / 4)))
      (gic.setLines vcpuID offset (value.setWidth 32) false) := by
  have hall := h.performAll _ (@setLines_banked vcpuID false (VirtualGic.bitmapLines offset (value.setWidth 32)))
  rw [BankedGic.foldl_disable, named_eq hoffset] at hall
  exact hall

theorem shared_of_named {bitmap : BitVec 32} (hword : word = 0 → bitmap = 0)
    (hline : line ∈ namedLines word bitmap) : 32 ≤ line.toNat := by
  obtain ⟨hin, hset⟩ := hline
  by_cases hzero : word = 0
  · rw [hword hzero] at hset
    simp at hset
  · omega

theorem bank_image {bitmap : BitVec 32} (hword : word = 0 → bitmap = 0) :
    (fun line => InterruptSource.bank line vcpuID) '' namedLines word bitmap =
      InterruptSource.shared '' namedLines word bitmap :=
  Set.image_congr fun line hline => if_neg (Nat.not_lt.mpr (shared_of_named hword hline))

theorem raiseLines (h : ref.Simulates gic) (hoffset : offset < 0x80)
    (hshared : offset / 4 = 0 → value.setWidth 32 = (0 : BitVec 32)) :
    BankedGic.Simulates (ref.write vcpuID configuration width value (.setPending (offset / 4)))
      (gic.raiseLines offset (value.setWidth 32)) := by
  have hall := h.performAll ((VirtualGic.bitmapLines offset (value.setWidth 32)).map InterruptOperation.raise) fun _ ho => by
    obtain ⟨line, hline, rfl⟩ := List.mem_map.mp ho
    exact shared_of_named hshared ((mem_bitmapLines hoffset).mp hline)
  rw [BankedGic.foldl_raise, named_eq hoffset, ← bank_image hshared] at hall
  exact hall

theorem clearLines (h : ref.Simulates gic) (hoffset : offset < 0x80)
    (hshared : offset / 4 = 0 → value.setWidth 32 = (0 : BitVec 32)) :
    BankedGic.Simulates (ref.write vcpuID configuration width value (.clearPending (offset / 4)))
      (gic.clearLines offset (value.setWidth 32)) := by
  have hall := h.performAll ((VirtualGic.bitmapLines offset (value.setWidth 32)).map InterruptOperation.clear) fun _ ho => by
    obtain ⟨line, hline, rfl⟩ := List.mem_map.mp ho
    exact shared_of_named hshared ((mem_bitmapLines hoffset).mp hline)
  rw [BankedGic.foldl_clear, named_eq hoffset, ← bank_image hshared] at hall
  exact hall

theorem setTargetRegisterValue (h : ref.Simulates gic) (hoffset : offset < 0x400) :
    BankedGic.Simulates (ref.write vcpuID configuration width value (.targets offset))
      (gic.setTargetRegisterValue configuration offset width value) := by
  have hwidth := MmioWidth.rawValue_le width
  have hall := h.performAll (((List.range width.rawValue).filter fun byte => 32 ≤ offset + byte).map
    fun byte => InterruptOperation.setTargetMask (BitVec.ofNat 32 (offset + byte))
      ((value >>> (byte * 8)).setWidth 8 &&& configuration.availableMask)) fun _ ho => by
    obtain ⟨byte, hbyte, rfl⟩ := List.mem_map.mp ho
    rw [List.mem_filter, List.mem_range, decide_eq_true_eq] at hbyte
    change 32 ≤ (BitVec.ofNat 32 (offset + byte)).toNat
    rw [BitVec.toNat_ofNat, Nat.mod_eq_of_lt (by omega)]
    exact hbyte.2
  rw [BankedGic.foldl_setTargets (by omega)] at hall
  exact hall

theorem sendSoftwareGeneratedInterrupt (h : ref.Simulates gic) :
    BankedGic.Simulates (ref.write vcpuID configuration width value .softwareInterrupt)
      (gic.sendSoftwareGeneratedInterrupt configuration vcpuID (value.setWidth 32)) := by
  have hall := h.performAll (((List.range configuration.virtualCPUCount).filter fun id =>
    VirtualGic.isSelected (value.setWidth 32) vcpuID id).map fun id : ℕ =>
      InterruptOperation.raiseFor (value.setWidth 32 &&& 0xf) (id : ℤ)) fun _ ho => by
    obtain ⟨id, _, rfl⟩ := List.mem_map.mp ho
    change ((value.setWidth 32 : BitVec 32) &&& 0xf).toNat < 32
    rw [BitVec.toNat_and]
    exact Nat.lt_of_le_of_lt Nat.and_le_right (by decide)
  rw [BankedGic.foldl_send] at hall
  have hsent : {source : InterruptSource | ∃ id ∈ (List.range configuration.virtualCPUCount).filter
        fun id : ℕ => VirtualGic.isSelected (value.setWidth 32) vcpuID id,
        source = .targeted (value.setWidth 32 &&& 0xf) (id : ℤ)} =
      {source | ∃ id : ℤ, 0 ≤ id ∧ id < configuration.virtualCPUCount ∧
        SentTo (value.setWidth 32) vcpuID id ∧ source = .targeted (value.setWidth 32 &&& 0xf) id} := by
    have hcount := configuration.atMostEight
    ext source
    simp only [Set.mem_ofPred_eq, List.mem_filter, List.mem_range]
    constructor
    · rintro ⟨id, ⟨hid, hselected⟩, rfl⟩
      exact ⟨id, by omega, by omega, (isSelected_iff (by omega)).mp hselected, rfl⟩
    · rintro ⟨id, hpositive, hid, hsent, rfl⟩
      obtain ⟨id, rfl⟩ := Int.eq_ofNat_of_zero_le hpositive
      exact ⟨id, ⟨by omega, (isSelected_iff (by omega)).mpr hsent⟩, rfl⟩
  rw [hsent] at hall
  exact hall

theorem writeDistributor (h : ref.Simulates gic) (hoffset : offset < configuration.cpuInterfaceOffset)
    (hshared : configuration.register offset = .setPending 0 ∨
      configuration.register offset = .clearPending 0 → value.setWidth 32 = (0 : BitVec 32)) :
    BankedGic.Simulates (ref.write vcpuID configuration width value (configuration.register offset))
      (gic.writeDistributor configuration vcpuID offset width value) := by
  unfold VirtualGic.writeDistributor
  unfold GicConfiguration.register at hshared ⊢
  rw [if_neg (Nat.not_le.mpr hoffset)] at hshared ⊢
  by_cases hcontrol : offset = 0x000
  · simp only [hcontrol, if_true]
    exact ⟨rfl, h.cpuInterfaceEnabled, h.priorityMask, agrees_of_same h.agrees rfl rfl rfl rfl⟩
  rw [if_neg hcontrol] at hshared ⊢
  rw [if_neg hcontrol]
  by_cases htype : offset = 0x004
  · simp only [htype]
    exact h
  rw [if_neg htype] at hshared ⊢
  by_cases hset : 0x100 ≤ offset ∧ offset < 0x180
  · rw [if_pos hset, if_pos hset]
    exact h.enableLines (by omega)
  rw [if_neg hset] at hshared ⊢
  rw [if_neg hset]
  by_cases hclear : 0x180 ≤ offset ∧ offset < 0x200
  · rw [if_pos hclear, if_pos hclear]
    exact h.disableLines (by omega)
  rw [if_neg hclear] at hshared ⊢
  rw [if_neg hclear]
  by_cases hpending : 0x200 ≤ offset ∧ offset < 0x280
  · rw [if_pos hpending] at hshared ⊢
    rw [if_pos hpending]
    exact h.raiseLines (by omega) fun hword => hshared (.inl (by rw [hword]))
  rw [if_neg hpending] at hshared ⊢
  rw [if_neg hpending]
  by_cases hunset : 0x280 ≤ offset ∧ offset < 0x300
  · rw [if_pos hunset] at hshared ⊢
    rw [if_pos hunset]
    exact h.clearLines (by omega) fun hword => hshared (.inr (by rw [hword]))
  rw [if_neg hunset, if_neg hunset]
  by_cases htargets : 0x800 ≤ offset ∧ offset < 0xc00
  · rw [if_pos htargets, if_pos htargets]
    exact h.setTargetRegisterValue (by omega)
  rw [if_neg htargets, if_neg htargets]
  by_cases hsoftware : offset = 0xf00
  · rw [if_pos hsoftware, if_pos hsoftware]
    exact h.sendSoftwareGeneratedInterrupt
  · rw [if_neg hsoftware, if_neg hsoftware]
    exact h

theorem writeCPUInterface (h : ref.Simulates gic) (hoffset : configuration.cpuInterfaceOffset ≤ offset) :
    BankedGic.Simulates (ref.write vcpuID configuration width value (configuration.register offset))
      (gic.writeCPUInterface vcpuID (offset - configuration.cpuInterfaceOffset) value) := by
  unfold VirtualGic.writeCPUInterface GicConfiguration.register
  rw [if_pos hoffset]
  generalize offset - configuration.cpuInterfaceOffset = offset
  by_cases hcontrol : offset = 0x000
  · simp only [hcontrol, if_true]
    exact ⟨h.distributorEnabled, by rw [h.cpuInterfaceEnabled]; rfl, h.priorityMask,
      agrees_of_same h.agrees rfl rfl rfl rfl⟩
  simp only [if_neg hcontrol]
  by_cases hmask : offset = 0x004
  · simp only [if_pos hmask]
    exact ⟨h.distributorEnabled, h.cpuInterfaceEnabled, by rw [h.priorityMask]; rfl,
      agrees_of_same h.agrees rfl rfl rfl rfl⟩
  simp only [if_neg hmask]
  by_cases hacknowledge : offset = 0x00c
  · subst hacknowledge
    exact h
  simp only [if_neg hacknowledge]
  by_cases hend : offset = 0x010
  · simp only [if_pos hend]
    exact h.performAll [.completeFor ((value &&& 0x3ff).setWidth 32) vcpuID] fun _ ho => by
      obtain rfl := List.mem_singleton.mp ho
      trivial
  · simp only [if_neg hend]
    exact h

theorem write (h : ref.Simulates gic)
    (hshared : configuration.register offset = .setPending 0 ∨
      configuration.register offset = .clearPending 0 → value.setWidth 32 = (0 : BitVec 32)) :
    BankedGic.Simulates (ref.write vcpuID configuration width value (configuration.register offset))
      (gic.write configuration vcpuID offset width value) := by
  unfold VirtualGic.write
  by_cases hinterface : configuration.cpuInterfaceOffset ≤ offset
  · rw [if_pos hinterface]
    exact h.writeCPUInterface hinterface
  · rw [if_neg hinterface]
    exact h.writeDistributor (Nat.lt_of_not_le hinterface) hshared

end BankedGic.Simulates

/-! ## Runs -/

/-- Only lines that the virtual CPUs share are named in the set-pending and clear-pending registers. -/
def GicEvent.SharedPending (configuration : GicConfiguration) : GicEvent → Prop
  | .write _ offset _ value =>
    configuration.register offset = .setPending 0 ∨ configuration.register offset = .clearPending 0 →
      value.setWidth 32 = (0 : BitVec 32)
  | _ => True

namespace BankedGic.Simulates

theorem signalled_iff (h : ref.Simulates gic) (vcpuID : ℤ) :
    gic.signalled vcpuID = true ↔ ∃ source, ref.Deliverable vcpuID source :=
  h.agrees.signalled_iff

theorem device (h : ref.Simulates gic) {operation : InterruptOperation} (hbanked : operation.Banked) :
    BankedGic.Simulates { ref.perform operation with
      distributorEnabled := ref.distributorEnabled
      cpuInterfaceEnabled := ref.cpuInterfaceEnabled
      priorityMask := ref.priorityMask } (gic.performAll [operation]) :=
  h.performAll [operation] fun _ ho => List.mem_singleton.mp ho ▸ hbanked

theorem step (h : ref.Simulates gic) {event : GicEvent} (hshared : event.SharedPending configuration) :
    ∃ after, BankedGic.Step configuration ref event ⟨(gic.step configuration event).1, gic.signalled⟩ after ∧
      after.Simulates (gic.step configuration event).2 := by
  cases event with
  | read provided offset width =>
    obtain ⟨after, hread, hafter⟩ := h.read
    exact ⟨after, .read ref after provided offset width _ hread h.signalled_iff, hafter⟩
  | write provided offset width value =>
    exact ⟨_, .write ref provided offset width value _ rfl h.signalled_iff, h.write hshared⟩
  | raise line vcpuID =>
    refine ⟨_, .raise ref line vcpuID _ rfl h.signalled_iff, ?_⟩
    simp only [VirtualGic.step]
    unfold InterruptSource.bank
    by_cases hline : line.toNat < 32
    · rw [if_pos hline, if_pos hline]
      exact @device _ _ h (.raiseFor line vcpuID) hline
    · rw [if_neg hline, if_neg hline]
      exact @device _ _ h (.raise line) (Nat.le_of_not_lt hline)
  | clear line vcpuID =>
    refine ⟨_, .clear ref line vcpuID _ rfl h.signalled_iff, ?_⟩
    simp only [VirtualGic.step]
    unfold InterruptSource.bank
    by_cases hline : line.toNat < 32
    · rw [if_pos hline, if_pos hline]
      exact @device _ _ h (.clearFor line vcpuID) hline
    · rw [if_neg hline, if_neg hline]
      exact @device _ _ h (.clear line) (Nat.le_of_not_lt hline)

theorem shows (h : ref.Simulates gic) {events : List GicEvent}
    (hshared : ∀ event ∈ events, event.SharedPending configuration) :
    BankedGic.Shows configuration ref events (gic.observations configuration events) := by
  induction events generalizing ref gic with
  | nil => exact .nil ref
  | cons event events ih =>
    obtain ⟨after, hstep, hafter⟩ := h.step (hshared event List.mem_cons_self)
    have hrest := ih hafter fun other ho => hshared other (List.mem_cons_of_mem _ ho)
    exact .cons ref after event events _ _ hstep hrest

end BankedGic.Simulates

/-- In every run the GIC shows what a banked GICv2 shows whose enable registers do not gate it. -/
theorem gic_shows_banked (configuration : GicConfiguration) (events : List GicEvent)
    (hshared : ∀ event ∈ events, event.SharedPending configuration) :
    BankedGic.Shows configuration BankedGic.initial events
      (VirtualGic.initial.observations configuration events) :=
  BankedGic.simulates_initial.shows hshared

/-- One virtual CPU enables line 42 and sets it pending. -/
def enableAndPend : List GicEvent :=
  [.write 0 0x104 .word (1#64 <<< 10), .write 0 0x204 .word (1#64 <<< 10), .read 0 0x1000c .word]

def oneCPU : GicConfiguration := ⟨0x10000, 1, by decide, by decide⟩

theorem gic_shows_enableAndPend :
    BankedGic.Shows oneCPU BankedGic.initial enableAndPend
      (VirtualGic.initial.observations oneCPU enableAndPend) :=
  gic_shows_banked oneCPU enableAndPend fun event hevent => by
    rcases hevent with _ | ⟨_, _ | ⟨_, _ | ⟨_, hnone⟩⟩⟩
    · exact fun hregister => absurd hregister (by decide)
    · exact fun hregister => absurd hregister (by decide)
    · trivial
    · cases hnone

/-- The line is acknowledged although neither the distributor nor the interface was ever enabled. -/
theorem gic_acknowledges_disabled :
    ((VirtualGic.initial.observations oneCPU enableAndPend).map GicObservation.value) = [0, 0, 42] ∧
      ∀ event ∈ enableAndPend, ∀ provided offset width value,
        event = .write provided offset width value →
          oneCPU.register offset ≠ .distributorControl ∧ oneCPU.register offset ≠ .interfaceControl := by
  refine ⟨by decide, ?_⟩
  rintro event hevent provided offset width value rfl
  rcases hevent with _ | ⟨_, _ | ⟨_, _ | ⟨_, hnone⟩⟩⟩
  · decide
  · decide
  · cases hnone

end Pinecone
