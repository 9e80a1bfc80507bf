import Pinecone.AssemblyRetentionSoundness

/-! The retention of programs over whole runs, with invalidations and clears during executions. -/

namespace Pinecone

namespace AssemblyCache

variable {budget : ℕ} {cache cache' : AssemblyCache} {running : List ℕ} {entry id bytes : ℕ}
  {request : AssemblyRequest}

/-- All that a step keeps, while `held` is at hand. -/
structure Kept (budget : ℕ) (running : List ℕ) (held : Option ℕ) (cache : AssemblyCache) : Prop where
  retains : cache.Retains budget
  owns : cache.Owns running
  reaches : cache.Reaches running held

variable {held : Option ℕ}

theorem Kept.alike (halike : cache'.Alike cache) (h : Kept budget running held cache) :
    Kept budget running held cache' :=
  ⟨halike.retains h.retains, halike.owns h.owns, halike.reaches h.reaches⟩

theorem Kept.release (h : Kept budget running held cache) :
    Kept budget running held (cache.release entry) :=
  ⟨h.retains.release, h.owns.release, h.reaches.release h.owns⟩

theorem Kept.forgetEntry (h : Kept budget running held cache) :
    Kept budget running held (cache.forgetEntry entry) :=
  h.release.alike (.setCapability 0)

theorem Kept.clear (h : Kept budget running held cache) :
    Kept budget running held cache.clear :=
  ⟨h.retains.clear, h.owns.clear, h.reaches.clear h.owns⟩

theorem Kept.recordReuse (hprogram : (cache.retention entry).program = some id)
    (h : Kept budget running held cache) :
    Kept budget running held (cache.recordReuse budget entry) :=
  ⟨h.retains.recordReuse hprogram, KeepsPrograms.recordReuse.owns h.owns,
    KeepsPrograms.recordReuse.reaches h.reaches⟩

theorem Kept.create (capability : ℕ) (h : Kept budget running none cache) :
    Kept budget running (some cache.allocated) (cache.create bytes capability) :=
  ⟨h.retains.create capability, h.owns.create capability, h.reaches.create capability⟩

theorem Kept.discard (hheld : cache.Holds id bytes)
    (h : Kept budget running (some id) cache) : Kept budget running none (cache.discard id) :=
  ⟨h.retains.discard, h.owns.discard hheld, h.reaches.discard h.owns⟩

theorem Kept.enrol (hprogram : (cache.retention entry).program = none)
    (hheld : cache.Holds id bytes) (hroom : cache.totalBytes + bytes ≤ budget)
    (h : Kept budget running (some id) cache) :
    Kept budget running none (cache.enrol entry id bytes) :=
  ⟨h.retains.enrol hprogram hroom, h.owns.enrol hheld, h.reaches.enrol hprogram⟩

theorem Kept.makeRoom (h : Kept budget running held cache) :
    Kept budget running held (cache.makeRoom budget bytes).2 := by
  unfold AssemblyCache.makeRoom
  split
  · exact h
  · exact ⟨h.retains.retireUntil _, h.owns.retireUntil _, h.reaches.retireUntil _ h.owns⟩

theorem Holds.makeRoom {size : ℕ} (h : cache.Holds id size) :
    (cache.makeRoom budget bytes).2.Holds id size := by
  unfold AssemblyCache.makeRoom
  split
  · exact h
  · exact h.retireUntil _

theorem makeRoom_program (hprogram : (cache.retention entry).program = none) :
    ((cache.makeRoom budget bytes).2.retention entry).program = none := by
  unfold AssemblyCache.makeRoom
  split
  · exact hprogram
  · exact retireUntil_program _ hprogram

theorem totalBytes_makeRoom (h : (cache.makeRoom budget bytes).1 = true) :
    (cache.makeRoom budget bytes).2.totalBytes + bytes ≤ budget := by
  unfold AssemblyCache.makeRoom at h ⊢
  split at h
  · simp at h
  · rename_i hfits
    rw [if_neg hfits]
    simp only [decide_eq_true_eq] at h
    dsimp only
    omega

theorem Kept.createFor (capability : ℕ) (h : Kept budget running none cache) :
    Kept budget running (some cache.allocated) (cache.createFor entry bytes capability) :=
  (h.create capability).alike (.setCapability _)

theorem Holds.createFor (h : cache.Owns running) (capability : ℕ) :
    (cache.createFor entry bytes capability).Holds cache.allocated bytes :=
  (Alike.setCapability _).toKeepsPrograms.holds (Holds.create h capability)

theorem Kept.prepare (hprogram : (cache.retention request.entry).program = none)
    (h : Kept budget running none cache) :
    Kept budget running none (cache.prepare budget request).2 := by
  unfold AssemblyCache.prepare
  split
  · exact h.alike (.setCapability 3)
  · rename_i bytes capability hcreated
    let made := cache.createFor request.entry bytes capability
    have hmade : Kept budget running (some cache.allocated) made := h.createFor capability
    have hholds : made.Holds cache.allocated bytes := .createFor h.owns capability
    have hnone : (made.retention request.entry).program = none := hprogram
    dsimp only
    split
    · exact hmade.discard hholds
    · have hroomy : Kept budget running (some cache.allocated) (made.makeRoom budget bytes).2 :=
        hmade.makeRoom
      have hheld : (made.makeRoom budget bytes).2.Holds cache.allocated bytes := hholds.makeRoom
      split
      · rename_i made' hroom
        rw [hroom] at hroomy hheld
        exact hroomy.discard hheld
      · rename_i made' hroom
        have hfree : ((made.makeRoom budget bytes).2.retention request.entry).program = none :=
          makeRoom_program hnone
        have hbytes := totalBytes_makeRoom (congrArg Prod.fst hroom)
        rw [hroom] at hroomy hheld hfree hbytes
        exact hroomy.enrol hfree hheld hbytes

theorem Kept.cacheProgram (h : Kept budget running none cache) :
    Kept budget running none (cache.cacheProgram budget request).2 := by
  unfold AssemblyCache.cacheProgram
  split_ifs
  · exact h
  · exact h.forgetEntry
  · exact h
  · exact h.alike (.setCapability 3)
  · split
    · rename_i id hprogram
      exact h.recordReuse hprogram
    · rename_i hprogram
      exact h.prepare hprogram

end AssemblyCache

namespace AssemblyState

variable {budget : ℕ} {s : AssemblyState}

/-- The state of the cache and the runs that every event keeps. -/
def Kept (budget : ℕ) (s : AssemblyState) : Prop := s.cache.Kept budget s.running none

theorem setProgram_retains (h : s.cache.Retains budget) (id : ℕ) (program : Option AGProgram) :
    (s.setProgram id program).Retains budget :=
  ⟨h.queues.imp fun _ hqueues =>
    ⟨hqueues.1.congr rfl rfl rfl rfl (fun _ => rfl) fun _ _ => rfl, hqueues.2⟩,
    h.resident, h.total, h.share⟩

theorem setProgram_of_ne {id other : ℕ} (hne : other ≠ id) (program : Option AGProgram) :
    (s.setProgram id program).programs other = s.cache.programs other :=
  Function.update_of_ne hne _ _

theorem setProgram_self (id : ℕ) (program : Option AGProgram) :
    (s.setProgram id program).programs id = program :=
  Function.update_self _ _ _

theorem setProgram_owns {running : List ℕ} {id : ℕ} {program : AGProgram}
    {program' : Option AGProgram} (h : s.cache.Owns s.running)
    (hprogram : s.cache.programs id = some program)
    (hlive : program.retired = false → ∃ live, program' = some live ∧ live.retired = false ∧
      live.bytes = program.bytes)
    (hruns : ∀ live, program' = some live → live.activeRuns = running.count id)
    (hpinned : id ∈ running → program'.isSome)
    (hothers : ∀ other, other ≠ id → running.count other = s.running.count other) :
    (s.setProgram id program').Owns running := by
  refine ⟨fun entry other hother => ?_, h.owner, fun other hother => ?_,
    fun other live hother => ?_, fun other hother => ?_⟩
  · obtain ⟨former, hformer, hretired, hbytes⟩ := h.owned entry other hother
    by_cases hne : other = id
    · subst hne
      obtain rfl := Option.some.inj (hprogram.symm.trans hformer)
      obtain ⟨live, hsome, hkept, hsize⟩ := hlive hretired
      exact ⟨live, by rw [setProgram_self, hsome], hkept, hsize.trans hbytes⟩
    · exact ⟨former, by rw [setProgram_of_ne hne, hformer], hretired, hbytes⟩
  · have hnone := h.unallocated other hother
    have hne : other ≠ id := by
      rintro rfl
      simp [hnone] at hprogram
    rw [setProgram_of_ne hne, hnone]
  · by_cases hne : other = id
    · subst hne
      rw [setProgram_self] at hother
      exact hruns live hother
    · rw [setProgram_of_ne hne] at hother
      rw [hothers other hne]
      exact h.runs other live hother
  · by_cases hne : other = id
    · subst hne
      rw [setProgram_self]
      exact hpinned hother
    · rw [setProgram_of_ne hne]
      refine h.pinned other ?_
      rw [← List.count_pos_iff, ← hothers other hne]
      exact List.count_pos_iff.mpr hother

theorem setProgram_reaches {running : List ℕ} {id : ℕ} {program : AGProgram}
    {program' : Option AGProgram}
    (h : s.cache.Reaches s.running none) (hprogram : s.cache.programs id = some program)
    (hretired : ∀ live, program' = some live → program.retired = true →
      live.retired = true ∧ id ∈ running)
    (hothers : ∀ other, other ≠ id → running.count other = s.running.count other) :
    (s.setProgram id program').Reaches running none := by
  intro other live hother
  by_cases hne : other = id
  · subst hne
    rw [setProgram_self] at hother
    rcases h other program hprogram with ⟨hwas, -⟩ | hentry
    · exact .inl (hretired live hother hwas)
    · exact .inr hentry
  · rw [setProgram_of_ne hne] at hother
    rcases h other live hother with ⟨hwas, hrunning⟩ | hentry
    · refine .inl ⟨hwas, ?_⟩
      rw [← List.count_pos_iff, hothers other hne]
      exact List.count_pos_iff.mpr hrunning
    · exact .inr hentry

theorem Kept.enter (entry : ℕ) (h : s.Kept budget) : (s.enter entry).Kept budget := by
  unfold AssemblyState.enter
  split
  · exact h
  · rename_i id hentry
    split
    · exact h
    · rename_i program hprogram
      split
      · exact h
      · rename_i hidle
        have hothers : ∀ other, other ≠ id → (id :: s.running).count other = s.running.count other :=
          fun other hne => List.count_cons_of_ne (Ne.symm hne)
        refine ⟨setProgram_retains h.retains _ _, ?_, ?_⟩
        · refine setProgram_owns h.owns hprogram (fun hretired => ⟨_, rfl, hretired, rfl⟩) ?_
            (fun _ => rfl) hothers
          rintro live hlive
          obtain rfl := Option.some.inj hlive
          rw [List.count_cons_self, ← h.owns.runs id program hprogram]
        · refine setProgram_reaches h.reaches hprogram ?_ hothers
          rintro live hlive hretired
          simp [hretired] at hidle

theorem Kept.leave (id : ℕ) (h : s.Kept budget) : (s.leave id).Kept budget := by
  unfold AssemblyState.leave
  split
  · rename_i hrunning
    obtain ⟨program, hprogram⟩ := Option.isSome_iff_exists.mp (h.owns.pinned id hrunning)
    have hcount := h.owns.runs id program hprogram
    have hpositive := List.count_pos_iff.mpr hrunning
    have herase : (s.running.erase id).count id = program.activeRuns - 1 := by
      rw [List.count_erase_self, hcount]
    have hothers : ∀ other, other ≠ id →
        (s.running.erase id).count other = s.running.count other :=
      fun other hne => List.count_erase_of_ne hne
    rw [hprogram]
    refine ⟨setProgram_retains h.retains _ _, ?_, ?_⟩
    · refine setProgram_owns h.owns hprogram (fun hretired => ?_) (fun live hlive => ?_)
        (fun hmem => ?_) hothers
      · simp [hretired]
      · split at hlive
        · simp at hlive
        · obtain rfl := Option.some.inj hlive
          exact herase.symm
      · have hstill := List.count_pos_iff.mpr hmem
        rw [herase] at hstill
        have hne : program.activeRuns - 1 ≠ 0 := by omega
        simp [hne]
    · refine setProgram_reaches h.reaches hprogram (fun live hlive hretired => ?_) hothers
      by_cases hlast : program.activeRuns - 1 = 0
      · simp [hlast, hretired] at hlive
      · simp only [hlast, false_and, if_false, Option.some.injEq] at hlive
        refine ⟨by rw [← hlive]; exact hretired, ?_⟩
        rw [← List.count_pos_iff, herase]
        omega
  · exact h

theorem Kept.step (event : AssemblyEvent) (h : s.Kept budget) : (s.step budget event).Kept budget := by
  cases event with
  | request request => exact h.cacheProgram
  | forget entry => exact h.forgetEntry
  | clear => exact AssemblyCache.Kept.clear h
  | enter entry => exact h.enter entry
  | leave id => exact h.leave id

theorem kept_initial : initial.Kept budget := by
  refine ⟨⟨⟨fun _ => [], ⟨?_, ?_, ?_, ?_, ?_⟩, rfl⟩, ?_, ?_, ?_⟩, ⟨?_, ?_, ?_, ?_, ?_⟩, ?_⟩
  · exact fun _ => NodeLinks.chains_nil _
  all_goals simp [initial, AssemblyRetention.empty, AssemblyCache.totalBytes, AssemblyCache.Reaches]

theorem kept_run (events : List AssemblyEvent) : (run budget events).Kept budget := by
  have hrun : ∀ s : AssemblyState, s.Kept budget → (events.foldl (AssemblyState.step budget) s).Kept budget := by
    induction events with
    | nil => exact fun s h => h
    | cons event events ih => exact fun s h => ih _ (h.step event)
  exact hrun initial kept_initial

theorem protectedBudget_le (budget : ℕ) : 4 * protectedBudget budget ≤ 3 * budget := by
  unfold protectedBudget
  have hwrap := Nat.mod_le (budget * 3) (2 ^ 32)
  omega

end AssemblyState

/-- After every run the queues are lists that share out the resident programs within the budgets,
and what runs is still on the heap. A program that runs may be retired, but a resident one is
not. -/
theorem assemblyRetention_kept (budget : ℕ) (events : List AssemblyEvent) :
    let s := AssemblyState.run budget events
    (∃ queues, s.cache.Queues queues ∧
      (∀ entry, (s.cache.retention entry).program.isSome ↔ ∃ queue, entry ∈ queues queue) ∧
      (queues .probation).Disjoint (queues .protection)) ∧
    s.cache.totalBytes ≤ budget ∧
    4 * s.cache.queueBytes .protection ≤ 3 * budget ∧
    (∀ entry id, (s.cache.retention entry).program = some id →
      ∃ program, s.cache.programs id = some program ∧ program.retired = false ∧
        program.bytes = (s.cache.retention entry).bytes) ∧
    ∀ id ∈ s.running, (s.cache.programs id).isSome := by
  intro s
  obtain ⟨hretains, howns, -⟩ := (AssemblyState.kept_run events : s.Kept budget)
  obtain ⟨queues, hqueues, -⟩ := hretains.queues
  refine ⟨⟨queues, hqueues, fun entry => ?_, ?_⟩, hretains.total, ?_, howns.owned, howns.pinned⟩
  · rw [← hretains.resident, Option.isSome_iff_exists]
    simp only [hqueues.mem]
  · exact fun entry hprobation => hqueues.shares.disjoint (by simp) entry hprobation
  · exact (Nat.mul_le_mul_left 4 hretains.share).trans (AssemblyState.protectedBudget_le budget)

/-- An entry is forgotten while its program runs. -/
def forgottenDuringRun : List AssemblyEvent :=
  [.request ⟨0, true, true, false, some (4096, 1), false⟩, .enter 0, .forget 0]

theorem retired_of_forgottenDuringRun : ¬ ∀ id program,
    id ∈ (AssemblyState.run (4 * 2 ^ 20) forgottenDuringRun).running →
    (AssemblyState.run (4 * 2 ^ 20) forgottenDuringRun).cache.programs id = some program →
    program.retired = false := by
  intro h
  have hlive := h 0 ⟨4096, 1, true, 1⟩ (by decide) rfl
  simp at hlive

end Pinecone
