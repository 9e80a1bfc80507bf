import Pinecone.ExceptionBanks

/-! When a sequence of exception entries and returns leaves the same registers on the native
and on the Swift side. They pick the stack-pointer bank from different PSTATE bits, and the
native syndrome of an SVC lacks the IL bit. -/

namespace Pinecone

/-- SPSel alone picks the bank that `stackPointerBank` picks. -/
def BanksAgree (pstate : U64) : Prop :=
  pstate &&& 1#64 = 0#64 ↔ stackPointerBank pstate = .spEl0

instance (pstate : U64) : Decidable (BanksAgree pstate) :=
  inferInstanceAs (Decidable (pstate &&& 1#64 = 0#64 ↔ stackPointerBank pstate = .spEl0))

/-- Whether the syndrome in ESR_EL1 is that of an SVC after the instruction. -/
def syndromeOfSvcAfter (syndromeOfSvc : Bool) : ExceptionInstruction → Bool
  | .svc _ => true
  | .msr .esrEl1 _ => false
  | _ => syndromeOfSvc

/-- The condition on a step. -/
def ExceptionStepOk (s : SwiftExceptionState) (syndromeOfSvc : Bool) : ExceptionInstruction → Prop
  | .svc _ => BanksAgree s.cpu.pstate ∧ s.cpu.pc.toNat + 4 < 2 ^ 64 ∧
      (s.vm.registers .vbarEl1).toNat + (synchronousVectorOffset s.cpu.pstate).toNat < 2 ^ 64
  | .eret => BanksAgree s.cpu.pstate ∧ BanksAgree (s.vm.registers .spsrEl1)
  | .msr register _ => register = .spEl0 → BanksAgree s.cpu.pstate
  | .mrs register _ => (register = .spEl0 → BanksAgree s.cpu.pstate) ∧
      (register = .esrEl1 → syndromeOfSvc = false)
  | .writeSp _ => True

/-- Both sides run one sequence from one virtual machine, every step meeting the condition. -/
inductive ConformingExceptionRun : NativeExceptionState → SwiftExceptionState → Bool → Prop
  | load (s : SwiftExceptionState) : ConformingExceptionRun s.load s false
  | step {n : NativeExceptionState} {s s' : SwiftExceptionState} {syndromeOfSvc : Bool}
      {instruction : ExceptionInstruction} : ConformingExceptionRun n s syndromeOfSvc →
      ExceptionStepOk s syndromeOfSvc instruction → s.execute instruction = some s' →
      ConformingExceptionRun (n.execute instruction) s' (syndromeOfSvcAfter syndromeOfSvc instruction)

/-- PC, SP, PSTATE with the rest of the CPU, the banked stack pointers, SPSR and ELR. -/
structure SameButSyndrome (written s : SwiftExceptionState) : Prop where
  cpu : written.cpu = s.cpu
  bankedStackPointer : ∀ bank, written.bankedStackPointer bank = s.bankedStackPointer bank
  spsrEl1 : written.vm.registers .spsrEl1 = s.vm.registers .spsrEl1
  elrEl1 : written.vm.registers .elrEl1 = s.vm.registers .elrEl1

def SameExceptionRegisters (written s : SwiftExceptionState) : Prop :=
  SameButSyndrome written s ∧ written.vm.registers .esrEl1 = s.vm.registers .esrEl1

/-- The native syndrome of an SVC, and the Swift one with IL set. -/
def SyndromesOfSvc (native swift : U64) : Prop :=
  ∃ immediate : BitVec 16, native = (0x15#64 <<< 26) ||| immediate.setWidth 64 ∧
    swift = (0x15#64 <<< 26) ||| (1#64 <<< 25) ||| (immediate.setWidth 64 &&& 0x01ffffff#64)

theorem SyndromesOfSvc.ne {native swift : U64} (h : SyndromesOfSvc native swift) : native ≠ swift := by
  obtain ⟨immediate, rfl, rfl⟩ := h
  intro heq
  have hbit := congrArg (fun word : U64 => word.getLsbD 25) heq
  simp at hbit

/-- The register that keeps the stack pointer of a bank while another is in use. -/
def StackPointerBank.register : StackPointerBank → ExceptionRegister
  | .spEl0 => .spEl0
  | .spEl1 => .spEl1

theorem StackPointerBank.register_ne_esrEl1 (bank : StackPointerBank) :
    bank.register ≠ .esrEl1 := by
  cases bank <;> decide

theorem BanksAgree.register {pstate : U64} (h : BanksAgree pstate) :
    (if pstate &&& 1#64 = 0#64 then ExceptionRegister.spEl0 else .spEl1) =
      (stackPointerBank pstate).register := by
  unfold BanksAgree at h
  by_cases hbit : pstate &&& 1#64 = 0#64
  · rw [if_pos hbit, h.mp hbit]
    rfl
  · rw [if_neg hbit]
    cases hbank : stackPointerBank pstate with
    | spEl0 => exact absurd (h.mpr hbank) hbit
    | spEl1 => rfl

/-- The two sides hold the same registers, but for the ones in `inUse`, and what is not dirty
is still what the virtual machine stores. -/
structure ExceptionStatesRelated (n : NativeExceptionState) (s : SwiftExceptionState)
    (syndromeOfSvc : Bool) (inUse : ExceptionRegister → Prop) : Prop where
  cpu : n.cpu = s.cpu
  spSel : n.vm.spSel = s.vm.spSel
  held : ∀ register, ¬ inUse register → register ≠ .esrEl1 →
    n.architecturalState register = s.vm.registers register
  syndrome : if syndromeOfSvc then
      SyndromesOfSvc (n.architecturalState .esrEl1) (s.vm.registers .esrEl1)
    else n.architecturalState .esrEl1 = s.vm.registers .esrEl1
  clean : ∀ register, ¬ inUse register → n.dirtyMask register = false →
    n.vm.registers register = n.architecturalState register

/-- Between steps the register of the bank in use is out of date. -/
def InUse (pstate : U64) (register : ExceptionRegister) : Prop :=
  register = (stackPointerBank pstate).register

namespace ExceptionStatesRelated

variable {n : NativeExceptionState} {s s' : SwiftExceptionState} {syndromeOfSvc : Bool}
  {inUse inUse' : ExceptionRegister → Prop}

theorem load (s : SwiftExceptionState) :
    ExceptionStatesRelated s.load s false (InUse s.cpu.pstate) where
  cpu := rfl
  spSel := rfl
  held := by
    intro register hin _
    unfold InUse at hin
    cases hb : stackPointerBank s.cpu.pstate <;> cases register <;>
      simp [SwiftExceptionState.load, StackPointerBank.register, hb] at hin ⊢
  syndrome := rfl
  clean := by
    intro register hin _
    unfold InUse at hin
    cases hb : stackPointerBank s.cpu.pstate <;> cases register <;>
      simp [SwiftExceptionState.load, StackPointerBank.register, hb] at hin ⊢

theorem mono (h : ExceptionStatesRelated n s syndromeOfSvc inUse)
    (hin : ∀ register, inUse register → inUse' register) :
    ExceptionStatesRelated n s syndromeOfSvc inUse' where
  cpu := h.cpu
  spSel := h.spSel
  held := fun register hr => h.held register (mt (hin register) hr)
  syndrome := h.syndrome
  clean := fun register hr => h.clean register (mt (hin register) hr)

theorem setRegister (h : ExceptionStatesRelated n s syndromeOfSvc inUse)
    {register : ExceptionRegister} (he : register ≠ .esrEl1) (value : U64) :
    ExceptionStatesRelated (n.setRegister register value) (s.setRegister register value)
      syndromeOfSvc (fun other => inUse other ∧ other ≠ register) where
  cpu := h.cpu
  spSel := h.spSel
  held := by
    intro other hin hoe
    by_cases heq : other = register
    · subst heq
      simp [NativeExceptionState.setRegister, SwiftExceptionState.setRegister]
    · simpa [NativeExceptionState.setRegister, SwiftExceptionState.setRegister, heq] using
        h.held other (fun hu => hin ⟨hu, heq⟩) hoe
  syndrome := by
    simpa [NativeExceptionState.setRegister, SwiftExceptionState.setRegister, he.symm] using h.syndrome
  clean := by
    intro other hin hd
    by_cases heq : other = register
    · simp [NativeExceptionState.setRegister, heq] at hd
    · simp only [NativeExceptionState.setRegister, Function.update_of_ne heq] at hd ⊢
      exact h.clean other (fun hu => hin ⟨hu, heq⟩) hd

theorem setSyndrome (h : ExceptionStatesRelated n s syndromeOfSvc inUse) (ofSvc : Bool)
    {native swift : U64}
    (hvalue : if ofSvc then SyndromesOfSvc native swift else native = swift) :
    ExceptionStatesRelated (n.setRegister .esrEl1 native) (s.setRegister .esrEl1 swift) ofSvc
      inUse where
  cpu := h.cpu
  spSel := h.spSel
  held := by
    intro other hin hoe
    simpa [NativeExceptionState.setRegister, SwiftExceptionState.setRegister, hoe] using
      h.held other hin hoe
  syndrome := by
    simpa [NativeExceptionState.setRegister, SwiftExceptionState.setRegister] using hvalue
  clean := by
    intro other hin hd
    by_cases heq : other = .esrEl1
    · simp [NativeExceptionState.setRegister, heq] at hd
    · simp only [NativeExceptionState.setRegister, Function.update_of_ne heq] at hd ⊢
      exact h.clean other hin hd

theorem setCpu (h : ExceptionStatesRelated n s syndromeOfSvc inUse) (cpu : NativeCpu) :
    ExceptionStatesRelated { n with cpu := cpu } { s with cpu := cpu } syndromeOfSvc inUse where
  cpu := rfl
  spSel := h.spSel
  held := h.held
  syndrome := h.syndrome
  clean := h.clean

theorem saveStackPointer (h : ExceptionStatesRelated n s syndromeOfSvc (InUse s.cpu.pstate))
    (hbanks : BanksAgree s.cpu.pstate) :
    ExceptionStatesRelated n.saveStackPointer
      (s.setRegister (stackPointerBank s.cpu.pstate).register s.cpu.sp) syndromeOfSvc
      (fun _ => False) := by
  have hsaved := h.setRegister (stackPointerBank s.cpu.pstate).register_ne_esrEl1 s.cpu.sp
  unfold NativeExceptionState.saveStackPointer
  rw [h.cpu, hbanks.register]
  exact hsaved.mono fun register hin => hin.2 hin.1

end ExceptionStatesRelated

theorem SwiftExceptionState.setRegister_comm (s : SwiftExceptionState)
    {register other : ExceptionRegister} (h : register ≠ other) (value otherValue : U64) :
    (s.setRegister register value).setRegister other otherValue =
      (s.setRegister other otherValue).setRegister register value := by
  simp only [SwiftExceptionState.setRegister, Function.update_comm h]

theorem SwiftExceptionState.switchActiveStackPointer_eq (s : SwiftExceptionState)
    (oldPstate newPstate : U64) :
    s.switchActiveStackPointer oldPstate newPstate =
      let saved := s.setRegister (stackPointerBank oldPstate).register s.cpu.sp
      { saved with cpu := { saved.cpu with
          sp := saved.vm.registers (stackPointerBank newPstate).register } } := by
  unfold SwiftExceptionState.switchActiveStackPointer
  cases stackPointerBank oldPstate <;> cases stackPointerBank newPstate <;> rfl

@[simp] theorem NativeExceptionState.setRegister_cpu (n : NativeExceptionState)
    (register : ExceptionRegister) (value : U64) : (n.setRegister register value).cpu = n.cpu :=
  rfl

@[simp] theorem SwiftExceptionState.setRegister_cpu (s : SwiftExceptionState)
    (register : ExceptionRegister) (value : U64) : (s.setRegister register value).cpu = s.cpu :=
  rfl

/-- The registers an SVC stores, SP saved to its bank first as the native side does. -/
def SwiftExceptionState.savedForSupervisorCall (s : SwiftExceptionState) (immediate : BitVec 16) :
    SwiftExceptionState :=
  (((s.setRegister (stackPointerBank s.cpu.pstate).register s.cpu.sp).setRegister
    .spsrEl1 s.cpu.pstate).setRegister .elrEl1 (s.cpu.pc + 4)).setRegister .esrEl1
    ((0x15#64 <<< 26) ||| (1#64 <<< 25) ||| (immediate.setWidth 64 &&& 0x01ffffff#64))

theorem SwiftExceptionState.routeSupervisorCall_some {s s' : SwiftExceptionState}
    {immediate : BitVec 16} (hs : s.routeSupervisorCall immediate = some s') :
    s' = { s.savedForSupervisorCall immediate with
      cpu := { s.cpu with
        sp := (s.savedForSupervisorCall immediate).vm.registers .spEl1
        pstate := el1hMasked
        pc := s.vm.registers .vbarEl1 +
          synchronousVectorOffset s.cpu.pstate }.clearExclusiveReservation } := by
  have hspsr : ExceptionRegister.spsrEl1 ≠ (stackPointerBank s.cpu.pstate).register := by
    cases stackPointerBank s.cpu.pstate <;> decide
  have helr : ExceptionRegister.elrEl1 ≠ (stackPointerBank s.cpu.pstate).register := by
    cases stackPointerBank s.cpu.pstate <;> decide
  have hesr := (stackPointerBank s.cpu.pstate).register_ne_esrEl1.symm
  simp only [SwiftExceptionState.routeSupervisorCall,
    SwiftExceptionState.switchActiveStackPointer_eq, SwiftExceptionState.setRegister_cpu] at hs
  split at hs
  · cases hs
  · obtain rfl := Option.some.inj hs
    rw [SwiftExceptionState.setRegister_comm _ hesr, SwiftExceptionState.setRegister_comm _ helr,
      SwiftExceptionState.setRegister_comm _ hspsr]
    rfl

namespace ExceptionStatesRelated

variable {n : NativeExceptionState} {s s' : SwiftExceptionState} {syndromeOfSvc : Bool}

theorem eret (h : ExceptionStatesRelated n s syndromeOfSvc (InUse s.cpu.pstate))
    (hold : BanksAgree s.cpu.pstate) (hnew : BanksAgree (s.vm.registers .spsrEl1)) :
    ExceptionStatesRelated n.exceptionReturn s.exceptionReturn syndromeOfSvc
      (InUse s.exceptionReturn.cpu.pstate) := by
  have hsaved := h.saveStackPointer hold
  have hspsr : n.architecturalState .spsrEl1 = s.vm.registers .spsrEl1 :=
    h.held .spsrEl1 (by unfold InUse; cases stackPointerBank s.cpu.pstate <;> decide) (by decide)
  have hsp := hsaved.held (stackPointerBank (s.vm.registers .spsrEl1)).register id
    (StackPointerBank.register_ne_esrEl1 _)
  have helr := hsaved.held .elrEl1 id (by decide)
  simp only [NativeExceptionState.exceptionReturn, SwiftExceptionState.exceptionReturn,
    SwiftExceptionState.switchActiveStackPointer_eq, hspsr, hnew.register, hsp, helr, hsaved.cpu]
  exact (hsaved.setCpu _).mono fun _ hin => hin.elim

theorem svc (h : ExceptionStatesRelated n s syndromeOfSvc (InUse s.cpu.pstate))
    (hold : BanksAgree s.cpu.pstate) (immediate : BitVec 16)
    (hs : s.routeSupervisorCall immediate = some s') :
    ExceptionStatesRelated (n.synchronousException immediate) s' true (InUse s'.cpu.pstate) := by
  have hspsr := (h.saveStackPointer hold).setRegister
    (show ExceptionRegister.spsrEl1 ≠ .esrEl1 by decide) s.cpu.pstate
  have helr := hspsr.setRegister
    (show ExceptionRegister.elrEl1 ≠ .esrEl1 by decide) (s.cpu.pc + 4)
  have hesr := helr.setSyndrome true (show if true then SyndromesOfSvc _ _ else _ from
    ⟨immediate, rfl, rfl⟩)
  have hsp := hesr.held .spEl1 (by simp) (by decide)
  have hvbar := hesr.held .vbarEl1 (by simp) (by decide)
  have hpc : n.saveStackPointer.cpu = s.cpu := hspsr.cpu
  obtain rfl := s.routeSupervisorCall_some hs
  simp only [NativeExceptionState.synchronousException, NativeExceptionState.setRegister_cpu,
    h.cpu, hpc, hsp, hvbar]
  have hvector : s.vm.registers .vbarEl1 = (s.savedForSupervisorCall immediate).vm.registers .vbarEl1 := by
    unfold SwiftExceptionState.savedForSupervisorCall
    cases stackPointerBank s.cpu.pstate <;> rfl
  rw [hvector]
  exact (hesr.setCpu _).mono fun _ hin => hin.1.1.elim

theorem msr (h : ExceptionStatesRelated n s syndromeOfSvc (InUse s.cpu.pstate))
    (register : ExceptionSystemRegister) (value : U64)
    (hbanks : register = .spEl0 → BanksAgree s.cpu.pstate) :
    ExceptionStatesRelated (n.writeSystemRegister register value)
      (s.writeSystemRegister register value)
      (if register = .esrEl1 then false else syndromeOfSvc) (InUse s.cpu.pstate) := by
  have hwrite : ∀ written : ExceptionRegister, written ≠ .esrEl1 →
      ExceptionStatesRelated (n.setRegister written value) (s.setRegister written value)
        syndromeOfSvc (InUse s.cpu.pstate) := fun written he =>
    (h.setRegister he value).mono fun _ hin => hin.1
  cases register with
  | spEl0 =>
    have hagree := hbanks rfl
    simp only [NativeExceptionState.writeSystemRegister, SwiftExceptionState.writeSystemRegister,
      h.cpu]
    by_cases hbit : s.cpu.pstate &&& 1#64 = 0#64
    · rw [if_pos hbit, if_pos (hagree.mp hbit)]
      exact
        { cpu := rfl
          spSel := h.spSel
          held := h.held
          syndrome := h.syndrome
          clean := by
            intro register hin hd
            have hne : register ≠ .spEl0 := by
              rintro rfl
              exact hin (by rw [InUse, hagree.mp hbit]; rfl)
            exact h.clean register hin (by simpa [hne] using hd) }
    · rw [if_neg hbit, if_neg (mt hagree.mpr hbit)]
      exact hwrite .spEl0 (by decide)
  | spsrEl1 => exact hwrite .spsrEl1 (by decide)
  | elrEl1 => exact hwrite .elrEl1 (by decide)
  | esrEl1 => exact h.setSyndrome false rfl
  | farEl1 => exact hwrite .farEl1 (by decide)
  | vbarEl1 => exact hwrite .vbarEl1 (by decide)
  | spSel => exact { cpu := h.cpu, spSel := rfl, held := h.held, syndrome := h.syndrome, clean := h.clean }

theorem readSystemRegister (h : ExceptionStatesRelated n s syndromeOfSvc (InUse s.cpu.pstate))
    (register : ExceptionSystemRegister) (hbanks : register = .spEl0 → BanksAgree s.cpu.pstate)
    (hsyndrome : register = .esrEl1 → syndromeOfSvc = false) :
    n.readSystemRegister register = s.readSystemRegister register := by
  have hheld : ∀ read : ExceptionRegister, (∀ bank : StackPointerBank, read ≠ bank.register) →
      read ≠ .esrEl1 → n.architecturalState read = s.vm.registers read := fun read hread he =>
    h.held read (hread _) he
  cases register with
  | spEl0 =>
    have hagree := hbanks rfl
    simp only [NativeExceptionState.readSystemRegister, SwiftExceptionState.readSystemRegister,
      h.cpu]
    by_cases hbit : s.cpu.pstate &&& 1#64 = 0#64
    · rw [if_pos hbit, if_pos (hagree.mp hbit)]
    · have hbank : stackPointerBank s.cpu.pstate = .spEl1 := by
        cases hcase : stackPointerBank s.cpu.pstate with
        | spEl0 => exact absurd (hagree.mpr hcase) hbit
        | spEl1 => rfl
      rw [if_neg hbit, if_neg (mt hagree.mpr hbit)]
      exact h.held .spEl0 (by rw [InUse, hbank]; decide) (by decide)
  | spsrEl1 => exact hheld .spsrEl1 (fun bank => by cases bank <;> decide) (by decide)
  | elrEl1 => exact hheld .elrEl1 (fun bank => by cases bank <;> decide) (by decide)
  | esrEl1 =>
    have hsame := h.syndrome
    rw [hsyndrome rfl] at hsame
    exact hsame
  | farEl1 => exact hheld .farEl1 (fun bank => by cases bank <;> decide) (by decide)
  | vbarEl1 => exact hheld .vbarEl1 (fun bank => by cases bank <;> decide) (by decide)
  | spSel => exact h.spSel

theorem execute (h : ExceptionStatesRelated n s syndromeOfSvc (InUse s.cpu.pstate))
    {instruction : ExceptionInstruction} (hok : ExceptionStepOk s syndromeOfSvc instruction)
    (hs : s.execute instruction = some s') :
    ExceptionStatesRelated (n.execute instruction) s'
      (syndromeOfSvcAfter syndromeOfSvc instruction) (InUse s'.cpu.pstate) := by
  cases instruction with
  | svc immediate => exact h.svc hok.1 immediate hs
  | eret =>
    obtain rfl := Option.some.inj hs
    exact h.eret hok.1 hok.2
  | msr register rt =>
    obtain rfl := Option.some.inj hs
    have hwritten := h.msr register (s.cpu.readRegister rt.toNat) hok
    have hpstate : (s.writeSystemRegister register (s.cpu.readRegister rt.toNat)).cpu.pstate =
        s.cpu.pstate := by
      cases register <;> simp only [SwiftExceptionState.writeSystemRegister,
        SwiftExceptionState.setRegister_cpu]
      split <;> rfl
    have hflag : syndromeOfSvcAfter syndromeOfSvc (.msr register rt) =
        if register = .esrEl1 then false else syndromeOfSvc := by
      cases register <;> rfl
    simp only [NativeExceptionState.execute, h.cpu, hwritten.cpu, hflag, hpstate]
    exact hwritten.setCpu _
  | mrs register rt =>
    obtain rfl := Option.some.inj hs
    have hread := h.readSystemRegister register hok.1 hok.2
    simp only [NativeExceptionState.execute, h.cpu, hread]
    exact h.setCpu _
  | writeSp compute =>
    obtain rfl := Option.some.inj hs
    simp only [NativeExceptionState.execute, h.cpu]
    exact h.setCpu _

theorem of_run {b : Bool} (h : ConformingExceptionRun n s b) :
    ExceptionStatesRelated n s b (InUse s.cpu.pstate) := by
  induction h with
  | load s => exact load s
  | step _ hok hs ih => exact ih.execute hok hs

theorem writeBack_cpu (h : ExceptionStatesRelated n s syndromeOfSvc (InUse s.cpu.pstate)) :
    n.writeBack.cpu = s.cpu :=
  h.cpu

theorem writeBack_registers (h : ExceptionStatesRelated n s syndromeOfSvc (InUse s.cpu.pstate))
    {register : ExceptionRegister} (hin : ¬ InUse s.cpu.pstate register) :
    n.writeBack.vm.registers register = n.architecturalState register := by
  show (if n.dirtyMask register then n.architecturalState register
    else n.vm.registers register) = _
  split
  · rfl
  · next hd => exact h.clean register hin (by simpa using hd)

theorem sameButSyndrome (h : ExceptionStatesRelated n s syndromeOfSvc (InUse s.cpu.pstate)) :
    SameButSyndrome n.writeBack s := by
  have hsame : ∀ register : ExceptionRegister, ¬ InUse s.cpu.pstate register →
      register ≠ .esrEl1 → n.writeBack.vm.registers register = s.vm.registers register :=
    fun register hin he => (h.writeBack_registers hin).trans (h.held register hin he)
  refine ⟨h.cpu, ?_, hsame .spsrEl1 ?_ (by decide), hsame .elrEl1 ?_ (by decide)⟩
  · intro bank
    cases bank with
    | spEl0 =>
      simp only [SwiftExceptionState.bankedStackPointer, h.writeBack_cpu]
      split
      · rfl
      · next hbank =>
        refine hsame .spEl0 ?_ (by decide)
        cases hcase : stackPointerBank s.cpu.pstate with
        | spEl0 => exact absurd hcase hbank
        | spEl1 => rw [InUse, hcase]; decide
    | spEl1 =>
      simp only [SwiftExceptionState.bankedStackPointer, h.writeBack_cpu]
      split
      · rfl
      · next hbank =>
        refine hsame .spEl1 ?_ (by decide)
        cases hcase : stackPointerBank s.cpu.pstate with
        | spEl0 => rw [InUse, hcase]; decide
        | spEl1 => exact absurd hcase hbank
  · unfold InUse
    cases stackPointerBank s.cpu.pstate <;> decide
  · unfold InUse
    cases stackPointerBank s.cpu.pstate <;> decide

theorem writeBack_syndrome (h : ExceptionStatesRelated n s syndromeOfSvc (InUse s.cpu.pstate)) :
    n.writeBack.vm.registers .esrEl1 = s.vm.registers .esrEl1 ↔ syndromeOfSvc = false := by
  have hsyndrome := h.syndrome
  rw [h.writeBack_registers (stackPointerBank s.cpu.pstate).register_ne_esrEl1.symm]
  cases syndromeOfSvc with
  | false => exact ⟨fun _ => rfl, fun _ => hsyndrome⟩
  | true => exact ⟨fun heq => absurd heq (SyndromesOfSvc.ne hsyndrome), fun hf => by cases hf⟩

end ExceptionStatesRelated

theorem ExceptionStepOk.exists_execute {s : SwiftExceptionState} {syndromeOfSvc : Bool}
    {instruction : ExceptionInstruction} (hok : ExceptionStepOk s syndromeOfSvc instruction) :
    ∃ s', s.execute instruction = some s' := by
  cases instruction with
  | svc immediate =>
    obtain ⟨_, hpc, hvbar⟩ := hok
    simp only [SwiftExceptionState.execute, SwiftExceptionState.routeSupervisorCall]
    rw [if_neg (by omega)]
    exact ⟨_, rfl⟩
  | eret => exact ⟨_, rfl⟩
  | msr register rt => exact ⟨_, rfl⟩
  | mrs register rt => exact ⟨_, rfl⟩
  | writeSp compute => exact ⟨_, rfl⟩

/-- After every run whose steps meet the condition the two sides hold the same registers, but
for ESR_EL1, which is the same exactly when an SVC was not the last to write it. -/
theorem ConformingExceptionRun.writeBack_same {n : NativeExceptionState}
    {s : SwiftExceptionState} {syndromeOfSvc : Bool}
    (h : ConformingExceptionRun n s syndromeOfSvc) :
    SameButSyndrome n.writeBack s ∧
      (SameExceptionRegisters n.writeBack s ↔ syndromeOfSvc = false) := by
  have hrelated := ExceptionStatesRelated.of_run h
  have hsame := hrelated.sameButSyndrome
  exact ⟨hsame, fun hall => hrelated.writeBack_syndrome.mp hall.2,
    fun hf => ⟨hsame, hrelated.writeBack_syndrome.mpr hf⟩⟩

/-- A guest process at EL0 that is about to call its supervisor. -/
def processState (pstate spsr : U64) : SwiftExceptionState where
  cpu :=
    { x := fun _ => 0
      v := fun _ => ⟨0, 0⟩
      sp := 0x7fff0000
      pc := 0x400000
      pstate := pstate
      fpcr := 0
      fpsr := 0
      exclusiveAddress := 0
      exclusiveGeneration := 0
      exclusiveSize := 0
      exclusiveValid := false
      halted := false }
  vm :=
    { registers := fun register =>
        match register with
        | .spEl0 => 0
        | .spEl1 => 0xffff8000
        | .spsrEl1 => spsr
        | .elrEl1 => 0x401000
        | .esrEl1 => 0
        | .farEl1 => 0
        | .vbarEl1 => 0xffff0000
      spSel := 0 }

/-- A call, the handler's own ESR_EL1 write and the return to the process. -/
theorem ConformingExceptionRun.writeBack_same_call :
    ∃ n s, ConformingExceptionRun n s false ∧ s.cpu.pc = 0x400004 ∧
      SameExceptionRegisters n.writeBack s := by
  have hload := ConformingExceptionRun.load (processState 0 0)
  have hsvc := @step _ _ _ _ (.svc 1) hload ⟨by decide, by decide, by decide⟩ rfl
  have hmsr := @step _ _ _ _ (.msr .esrEl1 31) hsvc (by intro hr; cases hr) rfl
  have heret := @step _ _ _ _ .eret hmsr ⟨by decide, by decide⟩ rfl
  exact ⟨_, _, heret, by decide, (writeBack_same heret).2.mpr rfl⟩

/-- One SVC leaves another syndrome, and one ERET to an SPSR of EL0 with SPSel set another
stack pointer. -/
theorem exceptionRegisters_disagree :
    (∃ s', (processState 0 0).execute (.svc 0) = some s' ∧
      ¬ SameExceptionRegisters ((processState 0 0).load.execute (.svc 0)).writeBack s') ∧
    (∃ s', (processState 5 1).execute .eret = some s' ∧
      ¬ SameExceptionRegisters ((processState 5 1).load.execute .eret).writeBack s') := by
  constructor
  · refine ⟨_, rfl, fun h => ?_⟩
    exact absurd h.2 (by decide)
  · refine ⟨_, rfl, fun h => ?_⟩
    exact absurd (congrArg NativeCpu.sp h.1.cpu) (by decide)

end Pinecone
