import Pinecone.DirtySteps

/-! No dirty page is lost: the epochs of the pages and of the scans are functions of the log,
and between them they tell which pages were written since a scan began. -/

namespace Pinecone

open GuestMemory

namespace DirtyMachine

variable {Memory Observer : Type*} [DecidableEq Observer] {machine : DirtyMachine Memory Observer}
  {s s' : DirtyState Memory Observer} {log new between later : List (DirtyEntry Memory Observer)}
  {observer : Observer} {memory : Memory} {op : MonitorOp}

/-! ## The scans of a log -/

/-- What was logged when the observer's scan in progress began. -/
def pendingFrom (observer : Observer) :
    List (DirtyEntry Memory Observer) → Option (List (DirtyEntry Memory Observer))
  | [] => none
  | .began other :: log => if other = observer then some log else pendingFrom observer log
  | .reported other _ :: log => if other = observer then none else pendingFrom observer log
  | .wrote _ _ _ :: log | .advanced _ :: log => pendingFrom observer log

/-- What was logged when the observer's last finished scan began. -/
def reportedFrom (observer : Observer) :
    List (DirtyEntry Memory Observer) → Option (List (DirtyEntry Memory Observer))
  | [] => none
  | .reported other _ :: log =>
    if other = observer then pendingFrom observer log else reportedFrom observer log
  | .began _ :: log | .wrote _ _ _ :: log | .advanced _ :: log => reportedFrom observer log

/-- The entry is no part of a scan of the observer. -/
def Apart (observer : Observer) (entry : DirtyEntry Memory Observer) : Prop :=
  entry ≠ .began observer ∧ ∀ ranges, entry ≠ .reported observer ranges

theorem pendingFrom_cons {entry : DirtyEntry Memory Observer} (h : Apart observer entry) :
    pendingFrom observer (entry :: log) = pendingFrom observer log := by
  cases entry with
  | began other =>
    have hne : other ≠ observer := fun heq => h.1 (heq ▸ rfl)
    exact if_neg hne
  | reported other ranges =>
    have hne : other ≠ observer := fun heq => h.2 ranges (heq ▸ rfl)
    exact if_neg hne
  | wrote => rfl
  | advanced => rfl

theorem reportedFrom_cons {entry : DirtyEntry Memory Observer}
    (h : ∀ ranges, entry ≠ .reported observer ranges) :
    reportedFrom observer (entry :: log) = reportedFrom observer log := by
  cases entry with
  | reported other ranges =>
    have hne : other ≠ observer := fun heq => h ranges (heq ▸ rfl)
    exact if_neg hne
  | began => rfl
  | wrote => rfl
  | advanced => rfl

theorem pendingFrom_append (h : ∀ entry ∈ new, Apart observer entry) :
    pendingFrom observer (new ++ log) = pendingFrom observer log := by
  induction new with
  | nil => rfl
  | cons entry rest ih =>
    rw [List.cons_append, pendingFrom_cons (h entry (by simp))]
    exact ih fun other ho => h other (by simp [ho])

theorem reportedFrom_append (h : ∀ entry ∈ new, ∀ ranges, entry ≠ .reported observer ranges) :
    reportedFrom observer (new ++ log) = reportedFrom observer log := by
  induction new with
  | nil => rfl
  | cons entry rest ih =>
    rw [List.cons_append, reportedFrom_cons (h entry (by simp))]
    exact ih fun other ho => h other (by simp [ho])

theorem pendingFrom_between (h : ScanBetween observer between) :
    pendingFrom observer (between ++ .began observer :: log) = some log := by
  rw [pendingFrom_append h]
  exact if_pos rfl

theorem reportedFrom_between (h : ScanBetween observer between) :
    reportedFrom observer (between ++ .began observer :: log) = reportedFrom observer log := by
  rw [reportedFrom_append fun entry he => (h entry he).2]
  rfl

theorem pendingFrom_some {older : List (DirtyEntry Memory Observer)}
    (h : pendingFrom observer log = some older) :
    ∃ between, log = between ++ .began observer :: older ∧ ScanBetween observer between := by
  induction log with
  | nil => cases h
  | cons entry rest ih =>
    by_cases hbegan : entry = .began observer
    · subst hbegan
      have heq : some rest = some older := (if_pos rfl).symm.trans h
      cases heq
      exact ⟨[], rfl, fun _ he => by simp at he⟩
    · by_cases hreported : ∃ ranges, entry = .reported observer ranges
      · obtain ⟨ranges, rfl⟩ := hreported
        have heq : none = some older := (if_pos rfl).symm.trans h
        cases heq
      · have hapart : Apart observer entry := ⟨hbegan, fun ranges heq => hreported ⟨ranges, heq⟩⟩
        rw [pendingFrom_cons hapart] at h
        obtain ⟨between, rfl, hbetween⟩ := ih h
        refine ⟨entry :: between, rfl, fun other ho => ?_⟩
        rcases List.mem_cons.mp ho with rfl | ho
        · exact hapart
        · exact hbetween other ho

theorem reportedFrom_some {older : List (DirtyEntry Memory Observer)}
    (h : reportedFrom observer log = some older) :
    ∃ newer ranges between,
      log = newer ++ .reported observer ranges :: (between ++ .began observer :: older) ∧
        ScanBetween observer between := by
  induction log with
  | nil => cases h
  | cons entry rest ih =>
    by_cases hreported : ∃ ranges, entry = .reported observer ranges
    · obtain ⟨ranges, rfl⟩ := hreported
      have hpending : pendingFrom observer rest = some older := (if_pos rfl).symm.trans h
      obtain ⟨between, rfl, hbetween⟩ := pendingFrom_some hpending
      exact ⟨[], ranges, between, rfl, hbetween⟩
    · rw [reportedFrom_cons fun ranges heq => hreported ⟨ranges, heq⟩] at h
      obtain ⟨newer, ranges, between, rfl, hbetween⟩ := ih h
      exact ⟨entry :: newer, ranges, between, rfl, hbetween⟩

/-! ## The epochs tell the log -/

variable [DecidableEq Memory]

/-- The clock of a memory, read off the log. -/
def clock (machine : DirtyMachine Memory Observer) (memory : Memory)
    (log : List (DirtyEntry Memory Observer)) : ℕ :=
  clockAt (machine.Advances memory) log

/-- The epoch of a page, read off the log. -/
def stamp (machine : DirtyMachine Memory Observer) (memory : Memory) (page : ℕ)
    (log : List (DirtyEntry Memory Observer)) : ℕ :=
  stampOf (machine.Advances memory) (Writes false memory) page log

structure DirtyInvariant (machine : DirtyMachine Memory Observer)
    (log : List (DirtyEntry Memory Observer)) (s : DirtyState Memory Observer) : Prop where
  size : ∀ memory, (s.memory memory).size = machine.size memory
  epoch : ∀ memory, (s.memory memory).currentEpoch.toNat = machine.clock memory log
  stamps : ∀ memory page,
    ((s.memory memory).pageEpochs page).toNat = machine.stamp memory page log
  hot : ∀ path memory, s.guestMemory path = some memory →
    HotAgrees (s.memory memory) (s.dirtyHot path)
  through : ∀ observer, (s.throughEpoch observer).map BitVec.toNat =
    (pendingFrom observer log).map (machine.clock (machine.window observer).memory)
  reported : ∀ observer, (s.reportedEpoch observer).toNat =
    ((reportedFrom observer log).map (machine.clock (machine.window observer).memory)).getD 0

namespace DirtyInvariant

theorem bounded (h : DirtyInvariant machine log s) (memory : Memory) :
    EpochsBounded (s.memory memory) := by
  intro page
  rw [BitVec.le_def, h.epoch, h.stamps]
  exact stampOf_le_clockAt _ _ page log

theorem agrees (h : DirtyInvariant machine log s) {path : ℕ}
    (hbound : s.guestMemory path = some memory) : ((shared s memory).fast path).Agrees :=
  ⟨h.bounded memory, h.hot path memory hbound⟩

end DirtyInvariant

theorem create_epochs {size : ℕ} {created : GuestMemory} (h : GuestMemory.create size = some created) :
    created.size = size ∧ created.currentEpoch = 1#64 ∧ ∀ page, created.pageEpochs page = 0#64 := by
  unfold GuestMemory.create at h
  dsimp only at h
  split at h
  · cases h
  · cases h
    exact ⟨rfl, rfl, fun _ => rfl⟩

theorem dirtyInvariant_initial {Allowed : DirtyState Memory Observer → DirtyOp Memory Observer → Prop}
    (h : (machine.system Allowed).initial s) : DirtyInvariant machine [] s := by
  obtain ⟨hcreate, hbound, _, hthrough, hreported⟩ := h
  refine ⟨fun memory => (create_epochs (hcreate memory)).1, fun memory => ?_, fun memory page => ?_,
    fun path memory hb => ?_, fun observer => ?_, fun observer => ?_⟩
  · rw [(create_epochs (hcreate memory)).2.1]
    rfl
  · rw [(create_epochs (hcreate memory)).2.2 page]
    rfl
  · rw [hbound path] at hb
    cases hb
  · rw [hthrough observer]
    rfl
  · rw [hreported observer]
    rfl

theorem advanceDirtyEpoch_epoch {guest : GuestMemory} (h : guest.currentEpoch.toNat + 1 < 2 ^ 64) :
    guest.advanceDirtyEpoch.currentEpoch.toNat = guest.currentEpoch.toNat + 1 := by
  have hne : guest.currentEpoch ≠ BitVec.allOnes 64 := fun heq => by
    rw [heq] at h
    simp at h
  rw [advanceDirtyEpoch, if_neg hne]
  simp only [BitVec.toNat_add, BitVec.toNat_ofNat]
  omega

theorem advanceDirtyEpoch_frame (guest : GuestMemory) :
    guest.advanceDirtyEpoch.size = guest.size ∧
      guest.advanceDirtyEpoch.pageEpochs = guest.pageEpochs ∧
      guest.currentEpoch ≤ guest.advanceDirtyEpoch.currentEpoch := by
  unfold advanceDirtyEpoch
  split
  · exact ⟨rfl, rfl, BitVec.le_refl _⟩
  · rename_i hne
    refine ⟨rfl, rfl, ?_⟩
    have hlt : guest.currentEpoch.toNat ≠ 2 ^ 64 - 1 := fun heq => hne (BitVec.eq_of_toNat_eq (by simp [heq]))
    have := guest.currentEpoch.isLt
    simp only [BitVec.le_def, BitVec.toNat_add, BitVec.toNat_ofNat]
    omega

theorem hotAgrees_advanceDirtyEpoch {guest : GuestMemory} {dirtyHot : ℕ → DirtyHotEntry}
    (h : HotAgrees guest dirtyHot) : HotAgrees guest.advanceDirtyEpoch dirtyHot := by
  obtain ⟨_, hpages, hepoch⟩ := advanceDirtyEpoch_frame guest
  intro slot hvalid
  rw [hpages]
  refine (h slot hvalid).imp_left fun hlt => ?_
  simp only [BitVec.lt_def, BitVec.le_def] at hlt hepoch ⊢
  omega

/-! ## One step -/

theorem DirtyInvariant.advanced (h : DirtyInvariant machine log s)
    (entry : DirtyEntry Memory Observer) (hself : machine.Advances memory entry)
    (hother : ∀ other, machine.Advances other entry → other = memory)
    (hquiet : ∀ other page, ¬ Writes false other entry page)
    (hclock : machine.clock memory (entry :: log) < 2 ^ 64) :
    (∀ other, (Function.update s.memory memory (s.memory memory).advanceDirtyEpoch other).size =
        machine.size other) ∧
      (∀ other, (Function.update s.memory memory
          (s.memory memory).advanceDirtyEpoch other).currentEpoch.toNat =
        machine.clock other (entry :: log)) ∧
      (∀ other page, ((Function.update s.memory memory
          (s.memory memory).advanceDirtyEpoch other).pageEpochs page).toNat =
        machine.stamp other page (entry :: log)) ∧
      ∀ path other, s.guestMemory path = some other →
        HotAgrees (Function.update s.memory memory (s.memory memory).advanceDirtyEpoch other)
          (s.dirtyHot path) := by
  obtain ⟨hsize, hpages, _⟩ := advanceDirtyEpoch_frame (s.memory memory)
  have hnext : machine.clock memory (entry :: log) = machine.clock memory log + 1 := if_pos hself
  have hstamp : ∀ other page, machine.stamp other page (entry :: log) = machine.stamp other page log :=
    fun other page => if_neg (hquiet other page)
  refine ⟨fun other => ?_, fun other => ?_, fun other page => ?_, fun path other hbound => ?_⟩ <;>
    by_cases heq : other = memory
  · rw [heq, Function.update_self, hsize]
    exact h.size memory
  · rw [Function.update_of_ne heq]
    exact h.size other
  · rw [heq, Function.update_self, hnext, ← h.epoch]
    refine advanceDirtyEpoch_epoch ?_
    rw [h.epoch]
    omega
  · have hsame : machine.clock other (entry :: log) = machine.clock other log :=
      if_neg fun ht => heq (hother other ht)
    rw [Function.update_of_ne heq, hsame]
    exact h.epoch other
  · rw [hstamp, heq, Function.update_self, hpages]
    exact h.stamps memory page
  · rw [hstamp, Function.update_of_ne heq]
    exact h.stamps other page
  · rw [heq, Function.update_self]
    exact hotAgrees_advanceDirtyEpoch (h.hot path memory (heq ▸ hbound))
  · rw [Function.update_of_ne heq]
    exact h.hot path other hbound

omit [DecidableEq Observer] [DecidableEq Memory] in
theorem apart_accessEntries (observer : Observer) (memory : Memory) (op : MonitorOp)
    (entries : List MonitorEntry) :
    ∀ entry ∈ (accessEntries memory op entries : List (DirtyEntry Memory Observer)),
      Apart observer entry := by
  unfold accessEntries
  split
  · simp [Apart]
  · intro entry he
    obtain ⟨written, _, rfl⟩ := List.mem_map.mp he
    simp [Apart]

variable (machine log) in
omit [DecidableEq Observer] in
theorem stamp_accessEntries {entries : List MonitorEntry} (hadvance : op.advances = false)
    (other : Memory) (page : ℕ) :
    machine.clock other (accessEntries memory op entries ++ log) = machine.clock other log ∧
      (other = memory → (op.byDevice = false ∧ ∃ entry ∈ entries, LocationPages entry.written page) →
        machine.stamp other page (accessEntries memory op entries ++ log) = machine.clock other log) ∧
      ((other = memory → ¬ (op.byDevice = false ∧ ∃ entry ∈ entries, LocationPages entry.written page)) →
        machine.stamp other page (accessEntries memory op entries ++ log) =
          machine.stamp other page log) := by
  have hentries : accessEntries memory op entries =
      entries.map (fun entry => (.wrote memory op.byDevice entry.written : DirtyEntry Memory Observer)) := by
    rw [accessEntries, if_neg (by simp [hadvance])]
  have hstill : ∀ entry ∈ (accessEntries memory op entries : List (DirtyEntry Memory Observer)),
      ¬ machine.Advances other entry := by
    rw [hentries]
    intro entry he
    obtain ⟨written, _, rfl⟩ := List.mem_map.mp he
    exact fun hf => hf
  refine ⟨clockAt_append_of_still _ hstill, fun heq ⟨hguest, entry, he, htouch⟩ => ?_, fun hquiet => ?_⟩
  · refine stampOf_append_of_still _ _ hstill ⟨.wrote memory op.byDevice entry.written, ?_, ?_⟩
    · rw [hentries]
      exact List.mem_map.mpr ⟨entry, he, rfl⟩
    · exact ⟨heq.symm, fun hd => absurd (hguest.symm.trans hd) (by decide), htouch⟩
  · refine stampOf_append_of_untouched _ _ fun entry he hw => ?_
    rw [hentries] at he
    obtain ⟨written, hm, rfl⟩ := List.mem_map.mp he
    obtain ⟨hmemory, hdevice, htouch⟩ := hw
    refine hquiet hmemory.symm ⟨?_, written, hm, htouch⟩
    cases hd : op.byDevice
    · rfl
    · exact absurd (hdevice hd) (by decide)

theorem DirtyInvariant.access (h : DirtyInvariant machine log s)
    (hallowed : BulkInMemory (shared s memory) op)
    (hbound : ∀ path ∈ op.path, s.guestMemory path = some memory)
    (hclock : ∀ other,
      machine.clock other (accessEntries memory op ((shared s memory).step op).2 ++ log) < 2 ^ 64) :
    DirtyInvariant machine (accessEntries memory op ((shared s memory).step op).2 ++ log)
      { s with
        memory := Function.update s.memory memory ((shared s memory).step op).1.memory
        dirtyHot := ((shared s memory).step op).1.dirtyHot } := by
  have happart := fun observer : Observer =>
    apart_accessEntries observer memory op ((shared s memory).step op).2
  have hthrough : ∀ observer, (s.throughEpoch observer).map BitVec.toNat =
      (pendingFrom observer (accessEntries memory op ((shared s memory).step op).2 ++ log)).map
        (machine.clock (machine.window observer).memory) := fun observer => by
    rw [pendingFrom_append (happart observer)]
    exact h.through observer
  have hreported : ∀ observer, (s.reportedEpoch observer).toNat =
      ((reportedFrom observer (accessEntries memory op ((shared s memory).step op).2 ++ log)).map
        (machine.clock (machine.window observer).memory)).getD 0 := fun observer => by
    rw [reportedFrom_append fun entry he => (happart observer entry he).2]
    exact h.reported observer
  cases hadvance : op.advances with
  | true =>
    obtain rfl : op = .advanceDirtyEpoch := by cases op <;> first | rfl | cases hadvance
    obtain ⟨hsize, hepoch, hstamps, hhot⟩ := h.advanced (.advanced memory) rfl
      (fun other ho => ho.symm) (fun _ _ hw => hw) (hclock memory)
    exact ⟨hsize, hepoch, hstamps, hhot, hthrough, hreported⟩
  | false =>
    have hmarks := stepMarks_step hallowed hadvance fun cpu hcpu => h.agrees (hbound cpu hcpu)
    refine ⟨fun other => ?_, fun other => ?_, fun other page => ?_, fun path other hb => ?_,
      hthrough, hreported⟩ <;> dsimp only <;> by_cases heq : other = memory
    · rw [heq, Function.update_self, hmarks.pages.size]
      exact h.size memory
    · rw [Function.update_of_ne heq]
      exact h.size other
    · rw [(stamp_accessEntries machine log hadvance other 0).1, heq, Function.update_self, hmarks.pages.epoch]
      exact h.epoch memory
    · rw [(stamp_accessEntries machine log hadvance other 0).1, Function.update_of_ne heq]
      exact h.epoch other
    · subst heq
      obtain ⟨_, hstamped, hkept⟩ := stamp_accessEntries machine log hadvance other page
      rw [Function.update_self]
      by_cases ht : op.byDevice = false ∧
          ∃ entry ∈ ((shared s other).step op).2, LocationPages entry.written page
      · rw [hstamped rfl ht, hmarks.pages.marked page ht]
        exact h.epoch other
      · rw [hkept fun _ => ht, hmarks.pages.kept page ht]
        exact h.stamps other page
    · rw [(stamp_accessEntries machine log hadvance other page).2.2 fun he => absurd he heq,
        Function.update_of_ne heq]
      exact h.stamps other page
    · subst heq
      rw [Function.update_self]
      by_cases hpath : op.path = some path
      · exact (hmarks.agrees path hpath).2
      · have hsame := hmarks.others path hpath
        rw [hsame]
        exact hmarks.pages.hotAgrees (h.bounded _) (h.hot path _ hb)
    · rw [Function.update_of_ne heq]
      have hpath : op.path ≠ some path := fun hp => by
        have hown := hbound path hp
        rw [hb] at hown
        exact heq (Option.some.inj hown)
      have hsame := hmarks.others path hpath
      rw [hsame]
      exact h.hot path other hb

theorem DirtyInvariant.beginScan (h : DirtyInvariant machine log s)
    (hclock : ∀ other, machine.clock other (.began observer :: log) < 2 ^ 64) :
    DirtyInvariant machine (.began observer :: log)
      { s with
        memory := Function.update s.memory (machine.window observer).memory
          (s.memory (machine.window observer).memory).advanceDirtyEpoch
        throughEpoch := Function.update s.throughEpoch observer
          (some (s.memory (machine.window observer).memory).currentEpoch) } := by
  obtain ⟨hsize, hepoch, hstamps, hhot⟩ := h.advanced (.began observer) rfl
    (fun other ho => ho.symm) (fun _ _ hw => hw) (hclock _)
  refine ⟨hsize, hepoch, hstamps, hhot, fun other => ?_, h.reported⟩
  dsimp only
  by_cases heq : other = observer
  · have hpending : pendingFrom other (.began observer :: log) = some log := if_pos heq.symm
    rw [hpending, heq, Function.update_self]
    exact congrArg some (h.epoch _)
  · have hpending : pendingFrom other (.began observer :: log) = pendingFrom other log :=
      if_neg (Ne.symm heq)
    rw [hpending, Function.update_of_ne heq]
    exact h.through other

theorem DirtyInvariant.report (h : DirtyInvariant machine log s) {through : U64}
    (hscanning : s.throughEpoch observer = some through) (ranges : List GuestDirtyRange) :
    DirtyInvariant machine (.reported observer ranges :: log)
      { s with
        throughEpoch := Function.update s.throughEpoch observer none
        reportedEpoch := Function.update s.reportedEpoch observer through } := by
  refine ⟨h.size, h.epoch, h.stamps, h.hot, fun other => ?_, fun other => ?_⟩ <;> dsimp only <;>
    by_cases heq : other = observer
  · have hpending : pendingFrom other (.reported observer ranges :: log) = none := if_pos heq.symm
    rw [hpending, heq, Function.update_self]
    rfl
  · have hpending : pendingFrom other (.reported observer ranges :: log) = pendingFrom other log :=
      if_neg (Ne.symm heq)
    rw [hpending, Function.update_of_ne heq]
    exact h.through other
  · have hreported : reportedFrom other (.reported observer ranges :: log) = pendingFrom other log :=
      if_pos heq.symm
    have hthrough := h.through observer
    rw [hreported, heq, Function.update_self, ← hthrough, hscanning]
    rfl
  · have hreported : reportedFrom other (.reported observer ranges :: log) = reportedFrom other log :=
      if_neg (Ne.symm heq)
    rw [hreported, Function.update_of_ne heq]
    exact h.reported other

theorem DirtyInvariant.step (h : DirtyInvariant machine log s) {event : DirtyOp Memory Observer}
    (hallowed : Tracked s event) (hstep : machine.step s event = some (s', new))
    (hclock : ∀ memory, machine.clock memory (new ++ log) < 2 ^ 64) :
    DirtyInvariant machine (new ++ log) s' := by
  cases event with
  | access memory op =>
    simp only [DirtyMachine.step, Option.ite_none_right_eq_some] at hstep
    obtain ⟨hbound, hstep⟩ := hstep
    cases hstep
    exact h.access hallowed hbound hclock
  | setRam path ram =>
    cases hstep
    refine ⟨h.size, h.epoch, h.stamps, fun other memory hbound => ?_, h.through, h.reported⟩
    dsimp only at hbound
    by_cases heq : other = path
    · rw [heq, Function.update_self] at hbound
      split at hbound
      · rename_i hram
        exact heq ▸ h.hot path memory (hram.trans hbound)
      · cases hbound
    · rw [Function.update_of_ne heq] at hbound
      exact h.hot other memory hbound
  | setGuestMemory path memory =>
    simp only [DirtyMachine.step] at hstep
    split at hstep
    · cases hstep
      refine ⟨h.size, h.epoch, h.stamps, fun other bound hbound => ?_, h.through, h.reported⟩
      dsimp only at hbound
      by_cases heq : other = path
      · rw [heq, Function.update_self] at hbound
        cases hbound
        exact heq ▸ hallowed
      · rw [Function.update_of_ne heq] at hbound
        exact h.hot other bound hbound
    · cases hstep
      exact h
  | beginScan observer =>
    simp only [DirtyMachine.step] at hstep
    cases hthrough : s.throughEpoch observer with
    | some through =>
      rw [hthrough] at hstep
      cases hstep
    | none =>
      rw [hthrough] at hstep
      cases hstep
      exact h.beginScan hclock
  | report observer =>
    simp only [DirtyMachine.step] at hstep
    cases hthrough : s.throughEpoch observer with
    | none =>
      rw [hthrough] at hstep
      cases hstep
    | some through =>
      rw [hthrough] at hstep
      cases hstep
      exact h.report hthrough _

/-! ## What a scan reports -/

theorem ValidWindow.hasRange (hvalid : machine.ValidWindow observer) (h : DirtyInvariant machine log s) :
    (s.memory (machine.window observer).memory).HasRange (machine.window observer).offset
      (machine.window observer).byteCount := by
  obtain ⟨_, hcount, hend⟩ := hvalid
  have hsize := h.size (machine.window observer).memory
  simp only [HasRange]
  omega

theorem DirtyInvariant.through_of_between (h : DirtyInvariant machine (between ++ .began observer :: log) s)
    (hbetween : ScanBetween observer between) {through : U64}
    (hthrough : s.throughEpoch observer = some through) :
    through.toNat = machine.clock (machine.window observer).memory log := by
  have heq := h.through observer
  rw [hthrough, pendingFrom_between hbetween] at heq
  exact Option.some.inj heq

theorem reportedFrom_suffix {older : List (DirtyEntry Memory Observer)}
    (h : reportedFrom observer log = some older) :
    machine.clock (machine.window observer).memory older ≤
      machine.clock (machine.window observer).memory log := by
  obtain ⟨newer, ranges, between, rfl, _⟩ := reportedFrom_some h
  have hsplit : newer ++ DirtyEntry.reported observer ranges :: (between ++ .began observer :: older) =
      (newer ++ .reported observer ranges :: (between ++ [.began observer])) ++ older := by simp
  rw [hsplit]
  exact clockAt_le_append _ _ older

theorem DirtyInvariant.reported_le_through (h : DirtyInvariant machine log s) {through : U64}
    (hthrough : s.throughEpoch observer = some through) :
    s.reportedEpoch observer ≤ through := by
  have heq := h.through observer
  rw [hthrough] at heq
  obtain ⟨older, hpending, hclock⟩ := Option.map_eq_some_iff.mp heq.symm
  obtain ⟨between, rfl, hbetween⟩ := pendingFrom_some hpending
  have hreported := h.reported observer
  rw [reportedFrom_between hbetween] at hreported
  rw [BitVec.le_def, hreported, ← hclock]
  cases hr : reportedFrom observer older with
  | none => exact Nat.zero_le _
  | some oldest => exact reportedFrom_suffix hr

theorem DirtyInvariant.reportsDirty (h : DirtyInvariant machine log s) : machine.ReportsDirty s :=
  fun _ _ hthrough hvalid =>
    scanReports_dirtyRanges hvalid.1 (hvalid.hasRange h) (h.reported_le_through hthrough)

omit [DecidableEq Observer] [DecidableEq Memory] in
theorem ReportedIn.append {page : ℕ} (h : machine.ReportedIn observer page log) :
    machine.ReportedIn observer page (new ++ log) := by
  obtain ⟨later, ranges, between, earlier, rfl, hcover⟩ := h
  exact ⟨new ++ later, ranges, between, earlier, by simp, hcover⟩

/-- A page written before the scan began, and not again, is reported unless it has not been
written since the observer's last scan began. -/
theorem DirtyInvariant.covers (h : DirtyInvariant machine (between ++ .began observer :: log) s)
    (hbetween : ScanBetween observer between) (hvalid : machine.ValidWindow observer) {through : U64}
    (hthrough : s.throughEpoch observer = some through) {page : ℕ}
    (hquiet : ∀ entry ∈ between, ¬ Writes false (machine.window observer).memory entry page)
    (hnew : ((reportedFrom observer log).map (machine.clock (machine.window observer).memory)).getD 0 <
      machine.stamp (machine.window observer).memory page log) :
    machine.CoversPage observer
      ((s.memory (machine.window observer).memory).dirtyRanges (machine.window observer).offset
        (machine.window observer).byteCount (s.reportedEpoch observer) through
        (machine.window observer).rangeCapacity) page := by
  have hstamp := h.stamps (machine.window observer).memory page
  have hsplit : between ++ DirtyEntry.began observer :: log =
      (between ++ [.began observer]) ++ log := by simp
  have hkept : machine.stamp (machine.window observer).memory page
      (between ++ .began observer :: log) = machine.stamp (machine.window observer).memory page log := by
    rw [hsplit]
    refine stampOf_append_of_untouched _ _ fun entry he hw => ?_
    rcases List.mem_append.mp he with he | he
    · exact hquiet entry he hw
    · rw [List.mem_singleton.mp he] at hw
      exact hw
  have hle := stampOf_le_clockAt (machine.Advances (machine.window observer).memory)
    (Writes false (machine.window observer).memory) page log
  have hafter := h.reported observer
  rw [reportedFrom_between hbetween] at hafter
  have hend := h.through_of_between hbetween hthrough
  have hdirty : (s.memory (machine.window observer).memory).dirtyBetween (s.reportedEpoch observer)
      through page = true := by
    simp only [dirtyBetween, Bool.and_eq_true, decide_eq_true_eq, BitVec.lt_def, BitVec.le_def,
      hstamp, hafter, hend, hkept]
    exact ⟨hnew, hle⟩
  intro byte hlow hhigh hpage
  exact (h.reportsDirty observer through hthrough hvalid).cover byte hlow hhigh (hpage ▸ hdirty)

/-! ## Every run -/

omit [DecidableEq Observer] [DecidableEq Memory] in
theorem NoLostPage.append {devices : Bool} (h : machine.NoLostPage devices log)
    (hnew : ∀ entry ∈ new, ∀ observer ranges, entry ≠ .reported observer ranges) :
    machine.NoLostPage devices (new ++ log) := by
  intro later observer ranges between middle write earlier page hlog hbetween hvalid hwrite
  rcases List.append_eq_append_iff.mp hlog with ⟨rest, _, heq⟩ | ⟨rest, hmem, heq⟩
  · exact h rest observer ranges between middle write earlier page heq hbetween hvalid hwrite
  · cases rest with
    | nil => exact h [] observer ranges between middle write earlier page heq.symm hbetween hvalid hwrite
    | cons entry rest =>
      have hentry : entry = .reported observer ranges := (List.cons.inj heq).1.symm
      exact absurd hentry (hnew entry (by simp [hmem]) observer ranges)

theorem NoLostPage.report (hlost : machine.NoLostPage false log) (h : DirtyInvariant machine log s)
    {through : U64} (hthrough : s.throughEpoch observer = some through) :
    machine.NoLostPage false
      (.reported observer ((s.memory (machine.window observer).memory).dirtyRanges
        (machine.window observer).offset (machine.window observer).byteCount
        (s.reportedEpoch observer) through (machine.window observer).rangeCapacity) :: log) := by
  intro later other ranges between middle write earlier page hlog hbetween hvalid hwrite
  cases later with
  | cons entry rest =>
    exact hlost rest other ranges between middle write earlier page (List.cons.inj hlog).2 hbetween
      hvalid hwrite
  | nil =>
    obtain ⟨hhead, rfl⟩ := List.cons.inj hlog
    cases hhead
    by_cases hagain : ∃ entry ∈ between,
        Writes false (machine.window observer).memory entry page
    · exact .inr (.inl hagain)
    have hquiet : ∀ entry ∈ between, ¬ Writes false (machine.window observer).memory entry page :=
      fun entry he hw => hagain ⟨entry, he, hw⟩
    have hcovers := @h.covers _ _ _ _ _ _ _ _ _ hbetween hvalid through hthrough page hquiet
    cases hr : reportedFrom observer (middle ++ write :: earlier) with
    | none =>
      refine .inl (hcovers ?_)
      rw [hr]
      have hsplit : middle ++ write :: earlier = (middle ++ [write]) ++ earlier := by simp
      rw [hsplit]
      exact Nat.lt_of_lt_of_le (clockAt_pos _ earlier)
        (clockAt_le_stampOf _ _ ⟨write, by simp, hwrite⟩)
    | some older =>
      obtain ⟨newer, oldRanges, oldBetween, hold, holdBetween⟩ := reportedFrom_some hr
      by_cases hsince : ∃ entry ∈ newer ++ .reported observer oldRanges :: oldBetween,
          Writes false (machine.window observer).memory entry page
      · refine .inl (hcovers ?_)
        have hsplit : middle ++ write :: earlier =
            (newer ++ .reported observer oldRanges :: oldBetween) ++ .began observer :: older := by
          rw [hold]
          simp
        have hbegan : machine.clock (machine.window observer).memory (.began observer :: older) =
            machine.clock (machine.window observer).memory older + 1 := if_pos rfl
        rw [hr, hsplit]
        have hle : machine.clock (machine.window observer).memory (.began observer :: older) ≤ _ :=
          clockAt_le_stampOf _ (Writes false (machine.window observer).memory) hsince
        rw [hbegan] at hle
        exact hle
      · -- the write came before the observer's last scan, which covered it or left it to an older one
        have hsplit : middle ++ write :: earlier =
            (newer ++ .reported observer oldRanges :: oldBetween) ++ .began observer :: older := by
          rw [hold]
          simp
        rcases List.append_eq_append_iff.mp hsplit with ⟨front, hfront, heq⟩ | ⟨tail, hmiddle, heq⟩
        · cases front with
          | nil =>
            cases heq
            exact hwrite.elim
          | cons entry front =>
            obtain ⟨rfl, rfl⟩ := List.cons.inj heq
            exact absurd ⟨write, by rw [hfront]; simp, hwrite⟩ hsince
        · cases tail with
          | nil =>
            cases heq
            exact hwrite.elim
          | cons entry tail =>
            obtain ⟨rfl, rfl⟩ := List.cons.inj heq
            have hbefore := hlost (between ++ .began observer :: newer) observer oldRanges oldBetween
              tail write earlier page (by rw [hmiddle]; simp) holdBetween hvalid hwrite
            rcases hbefore with hcovered | ⟨entry, he, hw⟩ | hreported
            · exact .inr (.inr ⟨newer, oldRanges, oldBetween, tail, by rw [hmiddle]; simp, hcovered⟩)
            · exact absurd ⟨entry, by simp [he], hw⟩ hsince
            · refine .inr (.inr ?_)
              have hwhole : middle =
                  (newer ++ .reported observer oldRanges :: (oldBetween ++ [.began observer])) ++ tail := by
                rw [hmiddle]
                simp
              rw [hwhole]
              exact hreported.append

theorem noLostPage_step (hlost : machine.NoLostPage false log) (h : DirtyInvariant machine log s)
    {event : DirtyOp Memory Observer} (hstep : machine.step s event = some (s', new)) :
    machine.NoLostPage false (new ++ log) := by
  cases event with
  | access memory op =>
    simp only [DirtyMachine.step, Option.ite_none_right_eq_some] at hstep
    obtain ⟨_, hstep⟩ := hstep
    cases hstep
    exact hlost.append fun entry he observer ranges =>
      (apart_accessEntries observer memory op _ entry he).2 ranges
  | setRam path ram =>
    cases hstep
    exact hlost
  | setGuestMemory path memory =>
    simp only [DirtyMachine.step] at hstep
    split at hstep <;> cases hstep <;> exact hlost
  | beginScan observer =>
    simp only [DirtyMachine.step] at hstep
    split at hstep
    · cases hstep
    · cases hstep
      exact hlost.append (by simp)
  | report observer =>
    simp only [DirtyMachine.step] at hstep
    split at hstep
    · cases hstep
    · rename_i hthrough
      cases hstep
      exact hlost.report h hthrough

omit [DecidableEq Observer] in
theorem clock_le_append (memory : Memory) (new log : List (DirtyEntry Memory Observer)) :
    machine.clock memory log ≤ machine.clock memory (new ++ log) :=
  clockAt_le_append _ new log

theorem dirtyInvariant_of_reachable (h : (machine.system Tracked).Reachable log s)
    (hclock : ∀ memory, machine.clock memory log < 2 ^ 64) :
    DirtyInvariant machine log s ∧ machine.NoLostPage false log := by
  induction h with
  | initial h =>
    refine ⟨dirtyInvariant_initial h, fun later observer ranges between middle write earlier page hlog => ?_⟩
    simp at hlog
  | @step log new s s' event _ hs ih =>
    obtain ⟨hinvariant, hlost⟩ := ih fun memory =>
      Nat.lt_of_le_of_lt (clock_le_append memory new log) (hclock memory)
    exact ⟨hinvariant.step hs.1 hs.2 hclock, noLostPage_step hlost hinvariant hs.2⟩

/-- In every run of fewer than 2^64 - 1 scans of any memory no page that the guest wrote is lost,
and the ranges of each scan are exact. -/
theorem dirtyPages_tracked (h : (machine.system Tracked).Reachable log s)
    (hscans : ∀ memory, clockAt (machine.Advances memory) log < 2 ^ 64) :
    machine.NoLostPage false log ∧ machine.ReportsDirty s := by
  obtain ⟨hinvariant, hlost⟩ := dirtyInvariant_of_reachable h hscans
  exact ⟨hlost, hinvariant.reportsDirty⟩

/-! ## A run that is tracked, and runs that lose a page -/

/-- New fast paths with the bytes of `ram`, and no scan yet. -/
def newState (memory : GuestMemory) (ram : Memory) : DirtyState Memory Observer where
  memory _ := memory
  ram _ := some ram
  guestMemory _ := none
  dirtyHot _ _ := ⟨0, 0#64, false⟩
  throughEpoch _ := none
  reportedEpoch _ := 0#64

theorem newState_initial {guest : GuestMemory} {ram : Memory}
    (h : ∀ memory, GuestMemory.create (machine.size memory) = some guest)
    (Allowed : DirtyState Memory Observer → DirtyOp Memory Observer → Prop) :
    (machine.system Allowed).initial (newState guest ram) :=
  ⟨h, fun _ => rfl, fun _ _ => rfl, fun _ => rfl, fun _ => rfl⟩

theorem reachable_run {Allowed : DirtyState Memory Observer → DirtyOp Memory Observer → Prop}
    {events : List (DirtyOp Memory Observer)} (h : (machine.system Allowed).Reachable log s)
    (hallowed : ∀ s, ∀ event ∈ events, Allowed s event)
    (hrun : (LoggedSystem.runEvents machine.step events (s, [])).map Prod.snd = some new) :
    ∃ s', (machine.system Allowed).Reachable (new ++ log) s' := by
  obtain ⟨⟨s', new'⟩, heq, hlog⟩ := Option.map_eq_some_iff.mp hrun
  cases hlog
  have hafter := LoggedSystem.runEvents_append_log machine.step events s [] log
  rw [heq] at hafter
  have hstep : ∀ s, ∀ event ∈ events, ∀ s' new, machine.step s event = some (s', new) →
      (machine.system Allowed).step s event s' new :=
    fun s event hevent _ _ hs => ⟨hallowed s event hevent, hs⟩
  exact ⟨s', LoggedSystem.Reachable.runEvents h hstep hafter⟩

/-- One observer of the whole of one page. -/
def onePage : DirtyMachine Unit Unit where
  size _ := 4096
  ramSize _ := 4096
  window _ := ⟨(), 0, 4096, 1⟩

/-- Two stores to the page, one before the first scan and one during it. -/
def trackedOps : List (DirtyOp Unit Unit) :=
  [.access () (.fastWrite 0 flatTranslation 8#64 8 1#64), .beginScan (),
    .access () (.fastWrite 0 flatTranslation 16#64 8 2#64), .report (), .beginScan (), .report ()]

def trackedLog : List (DirtyEntry Unit Unit) :=
  [.reported () [⟨0, 4096⟩], .began (), .reported () [], .wrote () false (.single 16 8), .began (),
    .wrote () false (.single 8 8)]

theorem dirtyPages_tracked_onePage :
    ∃ s, (onePage.system Tracked).Reachable trackedLog s ∧
      onePage.NoLostPage false trackedLog ∧ onePage.ReportsDirty s := by
  have hbind : (onePage.system Tracked).step (newState pageMemory ()) (.setGuestMemory 0 ())
      { newState pageMemory () with
        guestMemory := Function.update (fun _ => none) 0 (some ()) } [] := by
    refine ⟨fun _ hvalid => (by cases hvalid), ?_⟩
    simp only [DirtyMachine.step]
    exact if_pos ⟨rfl, rfl⟩
  have hbound := LoggedSystem.Reachable.step
    (.initial (newState_initial (fun _ => create_pageMemory) Tracked)) hbind
  have hallowed : ∀ s, ∀ event ∈ trackedOps, Tracked s event := by
    intro s event hevent
    simp only [trackedOps, List.mem_cons, List.not_mem_nil, or_false] at hevent
    rcases hevent with rfl | rfl | rfl | rfl | rfl | rfl <;> trivial
  obtain ⟨s, hreach⟩ := reachable_run hbound hallowed
    (show _ = some trackedLog by decide +kernel)
  exact ⟨s, hreach, dirtyPages_tracked hreach (by decide)⟩

omit [DecidableEq Observer] [DecidableEq Memory] in
theorem not_noLostPage {devices byDevice : Bool} {location : Location} (byte : ℕ)
    (hvalid : machine.ValidWindow observer)
    (hwrite : Writes devices (machine.window observer).memory
      (.wrote memory byDevice location : DirtyEntry Memory Observer) (byte / fastPageSize))
    (hlow : (machine.window observer).offset ≤ byte)
    (hhigh : byte < (machine.window observer).offset + (machine.window observer).byteCount) :
    ¬ machine.NoLostPage devices
      (.reported observer [] :: .began observer :: .wrote memory byDevice location :: log) := by
  intro hlost
  rcases hlost [] observer [] [] [] (.wrote memory byDevice location) log _ rfl (by simp [ScanBetween])
    hvalid hwrite with hcovered | ⟨_, he, _⟩ | ⟨later, ranges, between, earlier, hlog, _⟩
  · obtain ⟨_, hr, _⟩ := hcovered byte hlow hhigh rfl
    cases hr
  · cases he
  · cases later <;> cases hlog

def dmaOps : List (DirtyOp Unit Unit) :=
  [.access () (.dmaWriteOwned 0 [1#8]), .beginScan (), .report ()]

def dmaLog : List (DirtyEntry Unit Unit) :=
  [.reported () [], .began (), .wrote () true (.single 0 1)]

/-- Two memories; the fast path that wrote the page of one is bound to the other. -/
def twoPages : DirtyMachine Bool Unit where
  size _ := 4096
  ramSize _ := 4096
  window _ := ⟨true, 0, 4096, 1⟩

def reboundOps : List (DirtyOp Bool Unit) :=
  [.setGuestMemory 0 false, .access false (.fastWrite 0 flatTranslation 8#64 8 1#64),
    .setRam 0 (some true), .setGuestMemory 0 true,
    .access true (.fastWrite 0 flatTranslation 8#64 8 1#64), .beginScan (), .report ()]

def reboundLog : List (DirtyEntry Bool Unit) :=
  [.reported () [], .began (), .wrote true false (.single 8 8), .wrote false false (.single 8 8)]

/-- The last sixteen bytes of a memory that ends in the middle of a page. -/
def lastLine : DirtyMachine Unit Unit where
  size _ := 4112
  ramSize _ := 4112
  window _ := ⟨(), 4096, 16, 1⟩

def lastLineOps : List (DirtyOp Unit Unit) :=
  [.setGuestMemory 0 (), .access () (.fastFill 0 flatTranslation 4096#64 64 7#64 8), .beginScan (),
    .report ()]

def lastLineLog : List (DirtyEntry Unit Unit) :=
  [.reported () [], .began (), .wrote () false (.single 4096 64)]

/-- The page's memory after some advances of its epoch. -/
def advancedState (epoch : U64) : DirtyState Unit Unit :=
  newState { pageMemory with currentEpoch := epoch } ()

theorem step_advancedState {epoch : U64} (h : epoch ≠ BitVec.allOnes 64) :
    onePage.step (advancedState epoch) (.access () .advanceDirtyEpoch) =
      some (advancedState (epoch + 1#64), [.advanced ()]) := by
  have hmemory : Function.update (advancedState epoch).memory ()
      ((advancedState epoch).memory ()).advanceDirtyEpoch = (advancedState (epoch + 1#64)).memory := by
    funext memory
    rw [Function.update_self]
    exact if_neg h
  have hstep : onePage.step (advancedState epoch) (.access () .advanceDirtyEpoch) =
      some ({ advancedState epoch with
        memory := Function.update (advancedState epoch).memory ()
          ((advancedState epoch).memory ()).advanceDirtyEpoch }, [.advanced ()]) := by
    simp only [DirtyMachine.step]
    exact if_pos fun _ hpath => (by cases hpath)
  rw [hstep, hmemory]
  rfl

theorem reachable_advancedState (advances : ℕ) (hadvances : advances < 2 ^ 64 - 1) :
    ∃ log, (onePage.system Tracked).Reachable log
      (advancedState (BitVec.ofNat 64 (advances + 1))) := by
  induction advances with
  | zero => exact ⟨[], .initial (newState_initial (fun _ => create_pageMemory) Tracked)⟩
  | succ advances ih =>
    obtain ⟨log, hreach⟩ := ih (by omega)
    have hne : BitVec.ofNat 64 (advances + 1) ≠ BitVec.allOnes 64 := fun heq => by
      have hnat := congrArg BitVec.toNat heq
      simp only [BitVec.toNat_ofNat, BitVec.toNat_allOnes] at hnat
      omega
    have hnext : BitVec.ofNat 64 (advances + 1) + 1#64 = BitVec.ofNat 64 (advances + 1 + 1) :=
      BitVec.ofNat_add_ofNat _ _
    have hstep := step_advancedState hne
    rw [hnext] at hstep
    have hadvance : (onePage.system Tracked).step (advancedState (BitVec.ofNat 64 (advances + 1)))
        (.access () .advanceDirtyEpoch) _ _ := ⟨trivial, hstep⟩
    exact ⟨_, .step hreach hadvance⟩

def lastEpochOps : List (DirtyOp Unit Unit) :=
  [.beginScan (), .report (), .access () (.hostWrite 0 [1#8]), .beginScan (), .report ()]

def lastEpochLog : List (DirtyEntry Unit Unit) :=
  [.reported () [], .began (), .wrote () false (.single 0 1), .reported () [], .began ()]

theorem reachable_lastEpochLog :
    ∃ log s, (onePage.system Tracked).Reachable (lastEpochLog ++ log) s := by
  obtain ⟨log, hreach⟩ := reachable_advancedState (2 ^ 64 - 2) (by omega)
  have hallowed : ∀ s, ∀ event ∈ lastEpochOps, Tracked s event := by
    intro s event hevent
    simp only [lastEpochOps, List.mem_cons, List.not_mem_nil, or_false] at hevent
    rcases hevent with rfl | rfl | rfl | rfl | rfl <;> trivial
  exact ⟨log, reachable_run hreach hallowed (by decide)⟩

/-- A page is lost when a device writes it, when a fast path is bound to another memory with its
cache of the first, when a fill runs past the end of the memory, and when the epochs run out. -/
theorem dirtyPages_lost :
    (∃ s, (onePage.system Tracked).Reachable dmaLog s ∧ ¬ onePage.NoLostPage true dmaLog) ∧
      (∃ s, (twoPages.system fun _ _ => True).Reachable reboundLog s ∧
        ¬ twoPages.NoLostPage false reboundLog) ∧
      (∃ s, (lastLine.system fun _ _ => True).Reachable lastLineLog s ∧
        ¬ lastLine.NoLostPage false lastLineLog) ∧
      ∃ log s, (onePage.system Tracked).Reachable (lastEpochLog ++ log) s ∧
        ¬ onePage.NoLostPage false (lastEpochLog ++ log) := by
  refine ⟨?_, ?_, ?_, ?_⟩
  · have hallowed : ∀ s, ∀ event ∈ dmaOps, Tracked s event := by
      intro s event hevent
      simp only [dmaOps, List.mem_cons, List.not_mem_nil, or_false] at hevent
      rcases hevent with rfl | rfl | rfl <;> trivial
    have hinitial : (onePage.system Tracked).Reachable [] (newState pageMemory ()) :=
      .initial (newState_initial (fun _ => create_pageMemory) _)
    obtain ⟨s, hreach⟩ := reachable_run hinitial hallowed (show _ = some dmaLog by decide)
    exact ⟨s, hreach, not_noLostPage 0 (by decide) (by decide) (by decide) (by decide)⟩
  · have hinitial : (twoPages.system fun _ _ => True).Reachable [] (newState pageMemory false) :=
      .initial (newState_initial (fun _ => create_pageMemory) _)
    obtain ⟨s, hreach⟩ := reachable_run hinitial (fun _ event (_ : event ∈ reboundOps) => trivial)
      (show _ = some reboundLog by decide)
    exact ⟨s, hreach, not_noLostPage 8 (by decide) (by decide) (by decide) (by decide)⟩
  · have hinitial : (lastLine.system fun _ _ => True).Reachable [] (newState partialPageMemory ()) :=
      .initial (newState_initial (fun _ => create_partialPageMemory) _)
    obtain ⟨s, hreach⟩ := reachable_run hinitial (fun _ event (_ : event ∈ lastLineOps) => trivial)
      (show _ = some lastLineLog by decide)
    exact ⟨s, hreach, not_noLostPage 4096 (by decide) (by decide) (by decide) (by decide)⟩
  · obtain ⟨log, s, hreach⟩ := reachable_lastEpochLog
    exact ⟨log, s, hreach, not_noLostPage 0 (by decide) (by decide) (by decide) (by decide)⟩

end DirtyMachine

end Pinecone
