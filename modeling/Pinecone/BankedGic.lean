import Mathlib.Data.Set.Insert
import Pinecone.VirtualGic

/-! A banked GICv2 without priorities: the bits of a line below 32 belong to one virtual CPU, those of
another line are shared, and a virtual CPU may be given any source that it may be given. -/

namespace Pinecone

/-- The registers of the distributor and of the CPU interface. -/
inductive GicRegister
  | distributorControl
  | distributorType
  | setEnable (word : ℕ)
  | clearEnable (word : ℕ)
  | setPending (word : ℕ)
  | clearPending (word : ℕ)
  | targets (line : ℕ)
  | softwareInterrupt
  | interfaceControl
  | priorityMask
  | acknowledge
  | endOfInterrupt
  | reserved
  deriving DecidableEq

/-- The register at an offset of the device. -/
def GicConfiguration.register (configuration : GicConfiguration) (offset : ℕ) : GicRegister :=
  if configuration.cpuInterfaceOffset ≤ offset then
    let offset := offset - configuration.cpuInterfaceOffset
    if offset = 0x000 then .interfaceControl
    else if offset = 0x004 then .priorityMask
    else if offset = 0x00c then .acknowledge
    else if offset = 0x010 then .endOfInterrupt
    else .reserved
  else if offset = 0x000 then .distributorControl
  else if offset = 0x004 then .distributorType
  else if 0x100 ≤ offset ∧ offset < 0x180 then .setEnable ((offset - 0x100) / 4)
  else if 0x180 ≤ offset ∧ offset < 0x200 then .clearEnable ((offset - 0x180) / 4)
  else if 0x200 ≤ offset ∧ offset < 0x280 then .setPending ((offset - 0x200) / 4)
  else if 0x280 ≤ offset ∧ offset < 0x300 then .clearPending ((offset - 0x280) / 4)
  else if 0x800 ≤ offset ∧ offset < 0xc00 then .targets (offset - 0x800)
  else if offset = 0xf00 then .softwareInterrupt
  else .reserved

/-- The source whose bits a virtual CPU sees under a line. -/
def InterruptSource.bank (line : InterruptLine) (vcpuID : ℤ) : InterruptSource :=
  if line.toNat < 32 then .targeted line vcpuID else .shared line

/-- The lines that the bits of a word name. -/
def namedLines (word : ℕ) (bitmap : BitVec 32) : Set InterruptLine :=
  {line | line.toNat / 32 = word ∧ bitmap.getLsbD (line.toNat % 32) = true}

/-- A software generated interrupt is sent to the listed virtual CPUs, to all others or to the sender. -/
def SentTo (value : BitVec 32) (sender id : ℤ) : Prop :=
  match (value.extractLsb' 24 2).toNat with
  | 0 => value.getLsbD (16 + id.toNat) = true
  | 1 => id ≠ sender
  | 2 => id = sender
  | _ => False

structure BankedGic where
  distributorEnabled : Bool
  cpuInterfaceEnabled : ℤ → Bool
  priorityMask : ℤ → U8
  enabled : Set InterruptSource
  pending : Set InterruptSource
  active : Set InterruptSource
  targets : InterruptLine → U8

namespace BankedGic

def initial : BankedGic where
  distributorEnabled := false
  cpuInterfaceEnabled := fun _ => false
  priorityMask := fun _ => 0xff
  enabled := ∅
  pending := ∅
  active := ∅
  targets := fun _ => 1

variable (gic : BankedGic) (vcpuID : ℤ)

/-- The software generated interrupts are always enabled. -/
def IsEnabled (source : InterruptSource) : Prop := source.line.toNat < 16 ∨ source ∈ gic.enabled

def Reaches : InterruptSource → Prop
  | .targeted _ owner => owner = vcpuID
  | .shared line => gic.targets line &&& SimpleInterruptController.targetBit vcpuID ≠ 0

structure Deliverable (source : InterruptSource) : Prop where
  pending : source ∈ gic.pending
  inactive : source ∉ gic.active
  enabled : gic.IsEnabled source
  reaches : gic.Reaches vcpuID source

/-- What a virtual CPU may be given: any source that it may be given, and nothing if there is none. -/
def MayGive : Option InterruptSource → Prop
  | some source => gic.Deliverable vcpuID source
  | none => ∀ source, ¬ gic.Deliverable vcpuID source

def targetOf (line : ℕ) : U8 :=
  if line < 32 then 1#8 <<< vcpuID.toNat else gic.targets (BitVec.ofNat 32 line)

/-- An acknowledgment of what the virtual CPU is given. -/
def give : Option InterruptSource → BankedGic
  | some source =>
    { gic with pending := gic.pending \ {source}, active := insert source gic.active }
  | none => gic

/-- What a read may answer, and the machine after it. -/
def Reads (configuration : GicConfiguration) (width : MmioWidth) (value : U64) (after : BankedGic) :
    GicRegister → Prop
  | .distributorControl => value = (if gic.distributorEnabled then 1 else 0) ∧ after = gic
  | .distributorType =>
    value = 2 ||| BitVec.ofNat 64 (min 7 (configuration.virtualCPUCount - 1)) <<< 5 ∧ after = gic
  | .setEnable word =>
    (∀ bit, value.getLsbD bit = true ↔
      bit < 32 ∧ gic.IsEnabled (.bank (BitVec.ofNat 32 (word * 32 + bit)) vcpuID)) ∧ after = gic
  | .setPending word =>
    (∃ given, gic.MayGive vcpuID given ∧ ∀ bit, value.getLsbD bit = true ↔
      bit < 32 ∧ ∃ source, given = some source ∧ source.line.toNat = word * 32 + bit) ∧ after = gic
  | .targets line =>
    value = VirtualGic.packTargets (fun byte => gic.targetOf vcpuID (line + byte)) width.rawValue ∧
      after = gic
  | .interfaceControl => value = (if gic.cpuInterfaceEnabled vcpuID then 1 else 0) ∧ after = gic
  | .priorityMask => value = (gic.priorityMask vcpuID).setWidth 64 ∧ after = gic
  | .acknowledge =>
    ∃ given, gic.MayGive vcpuID given ∧ after = gic.give given ∧
      value = (given.elim 1023 InterruptSource.line).setWidth 64
  | _ => value = 0 ∧ after = gic

/-- The machine after a write. -/
def write (configuration : GicConfiguration) (width : MmioWidth) (value : U64) :
    GicRegister → BankedGic
  | .distributorControl => { gic with distributorEnabled := value &&& 0x1 ≠ 0 }
  | .setEnable word =>
    { gic with
      enabled := gic.enabled ∪ (fun line => .bank line vcpuID) '' namedLines word (value.setWidth 32) }
  | .clearEnable word =>
    { gic with
      enabled := gic.enabled \ (fun line => .bank line vcpuID) '' namedLines word (value.setWidth 32) }
  | .setPending word =>
    { gic with
      pending := gic.pending ∪ (fun line => .bank line vcpuID) '' namedLines word (value.setWidth 32) }
  | .clearPending word =>
    { gic with
      pending := gic.pending \ (fun line => .bank line vcpuID) '' namedLines word (value.setWidth 32) }
  | .targets first =>
    { gic with
      targets := fun line =>
        if 32 ≤ line.toNat ∧ first ≤ line.toNat ∧ line.toNat < first + width.rawValue then
          (value >>> ((line.toNat - first) * 8)).setWidth 8 &&& configuration.availableMask
        else gic.targets line }
  | .softwareInterrupt =>
    { gic with
      pending := gic.pending ∪ {source | ∃ id : ℤ, 0 ≤ id ∧ id < configuration.virtualCPUCount ∧
        SentTo (value.setWidth 32) vcpuID id ∧ source = .targeted (value.setWidth 32 &&& 0xf) id} }
  | .interfaceControl =>
    { gic with
      cpuInterfaceEnabled := Function.update gic.cpuInterfaceEnabled vcpuID (value &&& 0x1 ≠ 0) }
  | .priorityMask =>
    { gic with
      priorityMask := Function.update gic.priorityMask vcpuID ((value &&& 0xff).setWidth 8) }
  | .endOfInterrupt =>
    { gic with active := gic.active \ {.bank ((value &&& 0x3ff).setWidth 32) vcpuID} }
  | _ => gic

/-- One event, what is seen of it, and the machine after it. -/
inductive Step (configuration : GicConfiguration) :
    BankedGic → GicEvent → GicObservation → BankedGic → Prop
  | read (gic after : BankedGic) (provided : ℤ) (offset : ℕ) (width : MmioWidth)
    (observation : GicObservation)
    (hread : gic.Reads (configuration.currentVCPUID provided) configuration width observation.value after
      (configuration.register offset))
    (hsignalled : ∀ vcpuID, observation.signalled vcpuID = true ↔ ∃ source, gic.Deliverable vcpuID source) :
    Step configuration gic (.read provided offset width) observation after
  | write (gic : BankedGic) (provided : ℤ) (offset : ℕ) (width : MmioWidth) (value : U64)
    (observation : GicObservation) (hvalue : observation.value = 0)
    (hsignalled : ∀ vcpuID, observation.signalled vcpuID = true ↔ ∃ source, gic.Deliverable vcpuID source) :
    Step configuration gic (.write provided offset width value) observation
      (gic.write (configuration.currentVCPUID provided) configuration width value
        (configuration.register offset))
  | raise (gic : BankedGic) (line : InterruptLine) (vcpuID : ℤ) (observation : GicObservation)
    (hvalue : observation.value = 0)
    (hsignalled : ∀ vcpuID, observation.signalled vcpuID = true ↔ ∃ source, gic.Deliverable vcpuID source) :
    Step configuration gic (.raise line vcpuID) observation
      { gic with pending := insert (.bank line vcpuID) gic.pending }
  | clear (gic : BankedGic) (line : InterruptLine) (vcpuID : ℤ) (observation : GicObservation)
    (hvalue : observation.value = 0)
    (hsignalled : ∀ vcpuID, observation.signalled vcpuID = true ↔ ∃ source, gic.Deliverable vcpuID source) :
    Step configuration gic (.clear line vcpuID) observation
      { gic with pending := gic.pending \ {.bank line vcpuID} }

/-- The machine may be seen so in a sequence of events. -/
inductive Shows (configuration : GicConfiguration) :
    BankedGic → List GicEvent → List GicObservation → Prop
  | nil (gic : BankedGic) : Shows configuration gic [] []
  | cons (gic after : BankedGic) (event : GicEvent) (events : List GicEvent)
    (observation : GicObservation) (observations : List GicObservation)
    (hstep : Step configuration gic event observation after)
    (hrest : Shows configuration after events observations) :
    Shows configuration gic (event :: events) (observation :: observations)

end BankedGic

end Pinecone
