import Pinecone.AssemblyRetentionInvariant

/-! Every run of requests, invalidations and executions keeps the queues, the budgets and the
running programs. -/

namespace Pinecone

namespace AssemblyCache

/-- The programs on the heap and those of the entries are the same. -/
structure KeepsPrograms (cache' cache : AssemblyCache) : Prop where
  programs : cache'.programs = cache.programs
  allocated : cache'.allocated = cache.allocated
  program : ∀ entry, (cache'.retention entry).program = (cache.retention entry).program
  bytes : ∀ entry, (cache'.retention entry).bytes = (cache.retention entry).bytes

/-- The caches differ in counts of reuse and in capabilities only. -/
structure Alike (cache' cache : AssemblyCache) : Prop extends KeepsPrograms cache' cache where
  links : cache'.links = cache.links
  heads : cache'.heads = cache.heads
  tails : cache'.tails = cache.tails
  queueBytes : cache'.queueBytes = cache.queueBytes
  count : cache'.count = cache.count
  queue : ∀ entry, (cache'.retention entry).queue = (cache.retention entry).queue

/-- A program on the heap that no entry has yet. -/
structure Holds (cache : AssemblyCache) (id bytes : ℕ) : Prop where
  program : ∃ program, cache.programs id = some program ∧ program.retired = false ∧
    program.bytes = bytes
  entries : ∀ entry, (cache.retention entry).program ≠ some id

variable {budget : ℕ} {cache cache' cache'' : AssemblyCache} {queues : AssemblyQueue → List ℕ}
  {running : List ℕ} {entry id bytes : ℕ} {queue target : AssemblyQueue} {held : Option ℕ}

theorem KeepsPrograms.refl : cache.KeepsPrograms cache := ⟨rfl, rfl, fun _ => rfl, fun _ => rfl⟩

theorem KeepsPrograms.trans (h : cache''.KeepsPrograms cache') (h' : cache'.KeepsPrograms cache) :
    cache''.KeepsPrograms cache where
  programs := h.programs.trans h'.programs
  allocated := h.allocated.trans h'.allocated
  program := fun entry => (h.program entry).trans (h'.program entry)
  bytes := fun entry => (h.bytes entry).trans (h'.bytes entry)

theorem KeepsPrograms.unlink : (cache.unlink entry).KeepsPrograms cache :=
  ⟨by simp, by simp, by simp, by simp⟩

theorem KeepsPrograms.append : (cache.append entry queue).KeepsPrograms cache :=
  ⟨by simp, by simp, by simp, by simp⟩

theorem KeepsPrograms.owns (hkeeps : cache'.KeepsPrograms cache) (h : cache.Owns running) :
    cache'.Owns running := by
  refine ⟨fun entry id hid => ?_, fun entry other id hid hother => ?_, fun id hid => ?_,
    fun id program hid => ?_, fun id hid => ?_⟩
  · rw [hkeeps.program] at hid
    rw [hkeeps.programs, hkeeps.bytes]
    exact h.owned entry id hid
  · rw [hkeeps.program] at hid hother
    exact h.owner entry other id hid hother
  · rw [hkeeps.allocated] at hid
    rw [hkeeps.programs]
    exact h.unallocated id hid
  · rw [hkeeps.programs] at hid
    exact h.runs id program hid
  · rw [hkeeps.programs]
    exact h.pinned id hid

theorem KeepsPrograms.reaches (hkeeps : cache'.KeepsPrograms cache)
    (h : cache.Reaches running held) : cache'.Reaches running held := by
  intro id program hid
  rw [hkeeps.programs] at hid
  simpa only [hkeeps.program] using h id program hid

theorem KeepsPrograms.holds (hkeeps : cache'.KeepsPrograms cache) (h : cache.Holds id bytes) :
    cache'.Holds id bytes := by
  refine ⟨?_, fun entry => ?_⟩
  · rw [hkeeps.programs]
    exact h.program
  · rw [hkeeps.program]
    exact h.entries entry

theorem Alike.refl : cache.Alike cache :=
  ⟨.refl, rfl, rfl, rfl, rfl, rfl, fun _ => rfl⟩

theorem Alike.keepsQueues (halike : cache'.Alike cache) (h : cache.Queues queues) :
    cache'.Queues queues :=
  h.congr halike.links halike.heads halike.tails halike.queueBytes halike.queue
    fun entry _ => halike.bytes entry

theorem Alike.retains (halike : cache'.Alike cache) (h : cache.Retains budget) :
    cache'.Retains budget := by
  obtain ⟨queues, hqueues, hcount⟩ := h.queues
  refine ⟨⟨queues, halike.keepsQueues hqueues, by rw [halike.count, hcount]⟩, fun entry => ?_, ?_, ?_⟩
  · rw [halike.queue, halike.program]
    exact h.resident entry
  · rw [totalBytes, halike.queueBytes]
    exact h.total
  · rw [halike.queueBytes]
    exact h.share

theorem Alike.setCapability (capability : ℕ) :
    (cache.setCapability entry capability).Alike cache :=
  ⟨⟨rfl, rfl, fun _ => rfl, fun _ => rfl⟩, rfl, rfl, rfl, rfl, rfl, fun _ => rfl⟩

theorem Alike.reuse (reuse : ℕ) : Alike { cache with
    retention := Function.update cache.retention entry
      { cache.retention entry with reuse := reuse } } cache := by
  refine ⟨⟨rfl, rfl, fun other => ?_, fun other => ?_⟩, rfl, rfl, rfl, rfl, rfl, fun other => ?_⟩
  all_goals
    by_cases hother : other = entry
    · subst hother
      simp
    · simp [hother]

theorem Retains.queue_of_program (h : cache.Retains budget)
    (hprogram : (cache.retention entry).program = some id) :
    ∃ queue, (cache.retention entry).queue = some queue := by
  have hresident := h.resident entry
  rw [hprogram] at hresident
  exact Option.isSome_iff_exists.mp hresident

theorem Queues.split (h : cache.Queues queues)
    (hqueue : (cache.retention entry).queue = some queue) :
    ∃ before after, queues queue = before ++ entry :: after :=
  List.append_of_mem ((h.mem queue entry).mpr hqueue)

theorem Queues.bytes_le (h : cache.Queues queues)
    (hqueue : (cache.retention entry).queue = some queue) :
    (cache.retention entry).bytes ≤ cache.queueBytes queue := by
  obtain ⟨before, after, hsplit⟩ := h.split hqueue
  rw [h.bytes, hsplit]
  simp only [List.map_append, List.map_cons, List.sum_append, List.sum_cons]
  omega

section release

theorem Retains.release_queueBytes_le (h : cache.Retains budget) (entry : ℕ)
    (other : AssemblyQueue) :
    (cache.release entry).queueBytes other ≤ cache.queueBytes other := by
  rcases hprogram : (cache.retention entry).program with _ | id
  · rw [release_of_none hprogram]
  · obtain ⟨queue, hqueue⟩ := h.queue_of_program hprogram
    rw [release_queueBytes hprogram hqueue]
    by_cases hother : other = queue
    · subst hother
      simp
    · simp [hother]

theorem Retains.release (h : cache.Retains budget) : (cache.release entry).Retains budget := by
  have hbytes := fun other => h.release_queueBytes_le entry other
  rcases hprogram : (cache.retention entry).program with _ | id
  · rw [release_of_none hprogram]
    exact h
  · obtain ⟨queue, hqueue⟩ := h.queue_of_program hprogram
    obtain ⟨queues, hqueues, hcount⟩ := h.queues
    obtain ⟨before, after, hsplit⟩ := hqueues.split hqueue
    refine ⟨⟨_, hqueues.release hprogram hqueue hsplit, ?_⟩, fun other => ?_, ?_, ?_⟩
    · rw [release_of_some hprogram]
      have hlength := congrArg List.length hsplit
      cases queue <;> simp at hlength ⊢ <;> omega
    · rw [release_queue hprogram, release_program hprogram]
      by_cases hother : other = entry
      · simp [hother]
      · simpa [hother] using h.resident other
    · exact (Nat.add_le_add (hbytes .probation) (hbytes .protection)).trans h.total
    · exact (hbytes .protection).trans h.share

theorem Owns.release (h : cache.Owns running) : (cache.release entry).Owns running := by
  rcases hprogram : (cache.retention entry).program with _ | id
  · rw [release_of_none hprogram]
    exact h
  · have hprograms : (cache.release entry).programs = agDestroy cache.programs id := by
      rw [release_of_some hprogram]
    refine h.destroy hprograms ?_ (fun other => ?_) fun other hother => ?_
    · rw [release_of_some hprogram]
      simp
    · rw [release_program hprogram]
      by_cases hother : other = entry
      · simp [hother, hprogram]
      · have hne : (cache.retention other).program ≠ some id := by
          intro hid
          exact hother (h.owner other entry id hid hprogram)
        simp [hother, hne]
    · have hne : other ≠ entry := by
        rintro rfl
        simp [release_program hprogram] at hother
      exact release_bytes hprogram hne

theorem Reaches.release (howns : cache.Owns running) (h : cache.Reaches running held) :
    (cache.release entry).Reaches running held := by
  rcases hprogram : (cache.retention entry).program with _ | id
  · rw [release_of_none hprogram]
    exact h
  · have hprograms : (cache.release entry).programs = agDestroy cache.programs id := by
      rw [release_of_some hprogram]
    refine h.destroy howns hprograms (fun other id' hid' hne => ?_) fun _ hheld _ => hheld
    · have hother : other ≠ entry := by
        rintro rfl
        exact hne (Option.some.inj (hid'.symm.trans hprogram))
      simp [release_program hprogram, hother, hid']

theorem Holds.release (h : cache.Holds id bytes) : (cache.release entry).Holds id bytes := by
  rcases hprogram : (cache.retention entry).program with _ | id'
  · rw [release_of_none hprogram]
    exact h
  · have hne : id ≠ id' := by
      rintro rfl
      exact h.entries entry hprogram
    refine ⟨?_, fun other => ?_⟩
    · rw [release_of_some hprogram]
      simpa [agDestroy_of_ne hne] using h.program
    · rw [release_program hprogram]
      by_cases hother : other = entry
      · simp [hother]
      · simpa [hother] using h.entries other

theorem Retains.release_count (h : cache.Retains budget)
    (hhead : cache.heads queue = some entry) : (cache.release entry).count + 1 = cache.count := by
  obtain ⟨queues, hqueues, hcount⟩ := h.queues
  have hmem : entry ∈ queues queue := List.mem_of_mem_head? (hqueues.heads queue ▸ hhead)
  have hqueue := (hqueues.mem queue entry).mp hmem
  have hresident := h.resident entry
  rw [hqueue] at hresident
  obtain ⟨id, hprogram⟩ := Option.isSome_iff_exists.mp hresident.symm
  have hpositive := List.length_pos_of_mem hmem
  rw [release_of_some hprogram]
  cases queue <;> simp only [hcount] <;> omega

end release

section clear

theorem Retains.clearQueue (fuel : ℕ) (h : cache.Retains budget) :
    (clearQueue queue fuel cache).Retains budget := by
  induction fuel generalizing cache with
  | zero => exact h
  | succ fuel ih =>
    unfold AssemblyCache.clearQueue
    split
    · exact h
    · exact ih h.release

theorem Owns.clearQueue (fuel : ℕ) (h : cache.Owns running) :
    (clearQueue queue fuel cache).Owns running := by
  induction fuel generalizing cache with
  | zero => exact h
  | succ fuel ih =>
    unfold AssemblyCache.clearQueue
    split
    · exact h
    · exact ih h.release

theorem Reaches.clearQueue (fuel : ℕ) (howns : cache.Owns running)
    (h : cache.Reaches running held) : (clearQueue queue fuel cache).Reaches running held := by
  induction fuel generalizing cache with
  | zero => exact h
  | succ fuel ih =>
    unfold AssemblyCache.clearQueue
    split
    · exact h
    · exact ih howns.release (h.release howns)

theorem Retains.heads_clearQueue {fuel : ℕ} (h : cache.Retains budget)
    (hfuel : cache.count ≤ fuel) : (AssemblyCache.clearQueue queue fuel cache).heads queue = none := by
  induction fuel generalizing cache with
  | zero =>
    obtain ⟨queues, hqueues, hcount⟩ := h.queues
    have hempty : (queues queue).length = 0 := by
      cases queue <;> omega
    rw [AssemblyCache.clearQueue, hqueues.heads, List.length_eq_zero_iff.mp hempty]
    rfl
  | succ fuel ih =>
    rcases hhead : cache.heads queue with _ | entry
    · simp [AssemblyCache.clearQueue, hhead]
    · have hcount := h.release_count hhead
      have hrest := ih h.release (by omega : (cache.release entry).count ≤ fuel)
      simpa [AssemblyCache.clearQueue, hhead] using hrest

theorem Retains.clear (h : cache.Retains budget) : cache.clear.Retains budget :=
  (h.clearQueue _).clearQueue _

theorem Owns.clear (h : cache.Owns running) : cache.clear.Owns running :=
  (h.clearQueue _).clearQueue _

theorem Reaches.clear (howns : cache.Owns running) (h : cache.Reaches running held) :
    cache.clear.Reaches running held :=
  (h.clearQueue _ howns).clearQueue _ (howns.clearQueue _)

end clear

section move

variable (halike : cache'.Alike (cache.unlink entry))

include halike

theorem KeepsPrograms.move : (cache'.append entry target).KeepsPrograms cache :=
  KeepsPrograms.append.trans (halike.toKeepsPrograms.trans .unlink)

theorem move_queueBytes (hqueue : (cache.retention entry).queue = some queue) :
    (cache'.append entry target).queueBytes =
      let rest := Function.update cache.queueBytes queue
        (cache.queueBytes queue - (cache.retention entry).bytes)
      Function.update rest target (rest target + (cache.retention entry).bytes) := by
  rw [append_queueBytes, halike.queueBytes, unlink_queueBytes hqueue, halike.bytes, unlink_bytes]

theorem move_queue (other : ℕ) : ((cache'.append entry target).retention other).queue =
    if other = entry then some target else (cache.retention other).queue := by
  rw [append_queue, halike.queue, unlink_queue]
  by_cases hother : other = entry
  · simp [hother]
  · simp [hother]

theorem Retains.move (h : cache.Retains budget)
    (hqueue : (cache.retention entry).queue = some queue)
    (hshare : (cache'.append entry target).queueBytes .protection ≤ protectedBudget budget) :
    (cache'.append entry target).Retains budget := by
  obtain ⟨queues, hqueues, hcount⟩ := h.queues
  obtain ⟨before, after, hsplit⟩ := hqueues.split hqueue
  have hunlinked := halike.keepsQueues (hqueues.unlink hqueue hsplit)
  have hnone : (cache'.retention entry).queue = none := by
    rw [halike.queue, unlink_queue]
    simp
  refine ⟨⟨_, hunlinked.append hnone, ?_⟩, fun other => ?_, ?_, hshare⟩
  · rw [append_count, halike.count, unlink_count, hcount]
    have hlength := congrArg List.length hsplit
    cases queue <;> cases target <;> simp at hlength ⊢ <;> omega
  · rw [move_queue halike, (KeepsPrograms.move halike).program]
    by_cases hother : other = entry
    · subst hother
      have hresident := h.resident other
      rw [hqueue] at hresident
      simpa using hresident
    · simpa [hother] using h.resident other
  · have hle := hqueues.bytes_le hqueue
    have htotal := h.total
    rw [totalBytes] at htotal ⊢
    rw [move_queueBytes halike hqueue]
    cases queue <;> cases target <;> simp <;> omega

end move

section recordReuse

variable (cache) in
/-- The unlinked entry with no reuse, which the demotion puts on probation. -/
def demoted (old : ℕ) : AssemblyCache :=
  { cache.unlink old with
    retention := Function.update (cache.unlink old).retention old
      { (cache.unlink old).retention old with reuse := 0 } }

theorem demoteOldest_none (hhead : cache.heads .protection = none) :
    cache.demoteOldest = cache := by
  simp [demoteOldest, hhead]

theorem demoteOldest_some (hhead : cache.heads .protection = some entry) :
    cache.demoteOldest = (cache.demoted entry).append entry .probation := by
  simp [demoteOldest, demoted, hhead]

theorem demoted_alike : (cache.demoted entry).Alike (cache.unlink entry) :=
  .reuse 0

theorem Retains.queue_of_head (h : cache.Retains budget) (hhead : cache.heads queue = some entry) :
    (cache.retention entry).queue = some queue := by
  obtain ⟨queues, hqueues, -⟩ := h.queues
  exact (hqueues.mem queue entry).mp (List.mem_of_mem_head? (hqueues.heads queue ▸ hhead))

theorem KeepsPrograms.demoteOldest : cache.demoteOldest.KeepsPrograms cache := by
  rcases hhead : cache.heads .protection with _ | old
  · rw [demoteOldest_none hhead]
    exact .refl
  · rw [demoteOldest_some hhead]
    exact .move demoted_alike

theorem Retains.demoteOldest (h : cache.Retains budget) : cache.demoteOldest.Retains budget := by
  rcases hhead : cache.heads .protection with _ | old
  · rw [demoteOldest_none hhead]
    exact h
  · rw [demoteOldest_some hhead]
    have hqueue := h.queue_of_head hhead
    refine h.move demoted_alike hqueue ?_
    rw [move_queueBytes demoted_alike hqueue]
    simpa using Nat.sub_le_of_le_add (h.share.trans (Nat.le_add_right _ _))

theorem demoteOldest_queue (hqueue : (cache.retention entry).queue = some .probation) :
    (cache.demoteOldest.retention entry).queue = some .probation := by
  rcases hhead : cache.heads .protection with _ | old
  · rw [demoteOldest_none hhead, hqueue]
  · rw [demoteOldest_some hhead, move_queue demoted_alike, hqueue]
    simp

variable (cache entry) in
theorem countReuse_alike : (cache.countReuse entry).Alike cache :=
  .reuse _

theorem KeepsPrograms.promote : (cache.promote budget entry).KeepsPrograms cache := by
  unfold AssemblyCache.promote
  split
  · exact .refl
  · exact .move .refl

theorem KeepsPrograms.recordReuse : (cache.recordReuse budget entry).KeepsPrograms cache := by
  unfold AssemblyCache.recordReuse
  dsimp only
  split_ifs
  · exact .refl
  · exact .move .refl
  · exact (countReuse_alike _ _).toKeepsPrograms
  · exact KeepsPrograms.promote.trans
      (KeepsPrograms.demoteOldest.trans (countReuse_alike _ _).toKeepsPrograms)
  · exact KeepsPrograms.promote.trans (countReuse_alike _ _).toKeepsPrograms

theorem Retains.promote (h : cache.Retains budget)
    (hqueue : (cache.retention entry).queue = some .probation)
    (hbytes : (cache.retention entry).bytes ≤ protectedBudget budget) :
    (cache.promote budget entry).Retains budget := by
  unfold AssemblyCache.promote
  split
  · exact h
  · refine h.move .refl hqueue ?_
    rw [move_queueBytes .refl hqueue]
    simp
    omega

theorem Retains.recordReuse (h : cache.Retains budget)
    (hprogram : (cache.retention entry).program = some id) :
    (cache.recordReuse budget entry).Retains budget := by
  obtain ⟨queue, hqueue⟩ := h.queue_of_program hprogram
  obtain ⟨queues, hqueues, -⟩ := h.queues
  unfold AssemblyCache.recordReuse
  cases queue with
  | protection =>
    rw [if_pos hqueue]
    split
    · exact h
    · refine h.move .refl hqueue ?_
      have hle := hqueues.bytes_le hqueue
      have hshare := h.share
      rw [move_queueBytes .refl hqueue]
      simp
      omega
  | probation =>
    rw [if_neg (by simp [hqueue])]
    dsimp only
    have halike := countReuse_alike cache entry
    have hcounted := halike.retains h
    have hentry := halike.queue entry
    have hsize := halike.bytes entry
    rw [hqueue] at hentry
    by_cases hsmall : ((cache.countReuse entry).retention entry).reuse < 2 ∨
        protectedBudget budget < (cache.retention entry).bytes
    · rw [if_pos hsmall]
      exact hcounted
    · rw [if_neg hsmall]
      push_neg at hsmall
      split
      · refine hcounted.demoteOldest.promote (demoteOldest_queue hentry) ?_
        rw [KeepsPrograms.demoteOldest.bytes, hsize]
        exact hsmall.2
      · refine hcounted.promote hentry ?_
        rw [hsize]
        exact hsmall.2

end recordReuse

section makeRoom

theorem Retains.victim_isSome (h : cache.Retains budget) (hbytes : cache.totalBytes ≠ 0) :
    cache.victim.isSome := by
  obtain ⟨queues, hqueues, -⟩ := h.queues
  rw [victim, hqueues.heads, hqueues.heads]
  rcases hprobation : queues .probation with _ | ⟨entry, rest⟩
  · rcases hprotection : queues .protection with _ | ⟨entry, rest⟩
    · rw [totalBytes, hqueues.bytes, hqueues.bytes, hprobation, hprotection] at hbytes
      exact absurd rfl hbytes
    · rfl
  · rfl

theorem Retains.retireUntil (left : ℕ) (h : cache.Retains budget) :
    (retireUntil budget bytes left cache).Retains budget := by
  induction left generalizing cache with
  | zero => exact h
  | succ left ih =>
    unfold AssemblyCache.retireUntil
    split_ifs
    · split
      · exact h
      · exact ih h.release
    · exact h

theorem Owns.retireUntil (left : ℕ) (h : cache.Owns running) :
    (retireUntil budget bytes left cache).Owns running := by
  induction left generalizing cache with
  | zero => exact h
  | succ left ih =>
    unfold AssemblyCache.retireUntil
    split_ifs
    · split
      · exact h
      · exact ih h.release
    · exact h

theorem Reaches.retireUntil (left : ℕ) (howns : cache.Owns running)
    (h : cache.Reaches running held) :
    (retireUntil budget bytes left cache).Reaches running held := by
  induction left generalizing cache with
  | zero => exact h
  | succ left ih =>
    unfold AssemblyCache.retireUntil
    split_ifs
    · split
      · exact h
      · exact ih howns.release (h.release howns)
    · exact h

theorem Holds.retireUntil {size : ℕ} (left : ℕ) (h : cache.Holds id size) :
    (retireUntil budget bytes left cache).Holds id size := by
  induction left generalizing cache with
  | zero => exact h
  | succ left ih =>
    unfold AssemblyCache.retireUntil
    split_ifs
    · split
      · exact h
      · exact ih h.release
    · exact h

theorem retireUntil_program (left : ℕ) (hprogram : (cache.retention entry).program = none) :
    ((retireUntil budget bytes left cache).retention entry).program = none := by
  induction left generalizing cache with
  | zero => exact hprogram
  | succ left ih =>
    unfold AssemblyCache.retireUntil
    split_ifs
    · split
      · exact hprogram
      · rename_i victim hvictim
        refine ih ?_
        rcases hreleased : (cache.retention victim).program with _ | id
        · rw [release_of_none hreleased, hprogram]
        · simp [release_program hreleased, hprogram]
    · exact hprogram

end makeRoom

section prepare

theorem Owns.create (h : cache.Owns running) (capability : ℕ) :
    (cache.create bytes capability).Owns running := by
  have hnew := h.unallocated cache.allocated le_rfl
  have hidle : cache.allocated ∉ running := by
    intro hrunning
    simpa [hnew] using h.pinned _ hrunning
  refine ⟨fun entry id hid => ?_, h.owner, fun id hid => ?_, fun id program hid => ?_,
    fun id hid => ?_⟩
  · obtain ⟨program, hprogram, hlive⟩ := h.owned entry id hid
    have hne : id ≠ cache.allocated := by
      rintro rfl
      simp [hnew] at hprogram
    exact ⟨program, by simpa [AssemblyCache.create, hne] using hprogram, hlive⟩
  · have hid' : cache.allocated + 1 ≤ id := hid
    have hne : id ≠ cache.allocated := by omega
    simpa [AssemblyCache.create, hne] using h.unallocated id (by omega)
  · by_cases hne : id = cache.allocated
    · subst hne
      simp only [AssemblyCache.create, Function.update_self, Option.some.injEq] at hid
      rw [← hid, List.count_eq_zero_of_not_mem hidle]
    · exact h.runs id program (by simpa [AssemblyCache.create, hne] using hid)
  · have hne : id ≠ cache.allocated := by
      rintro rfl
      exact hidle hid
    simpa [AssemblyCache.create, hne] using h.pinned id hid

theorem Reaches.create (h : cache.Reaches running none) (capability : ℕ) :
    (cache.create bytes capability).Reaches running (some cache.allocated) := by
  intro id program hid
  by_cases hne : id = cache.allocated
  · exact .inr (.inr (by rw [hne]))
  · have hformer : cache.programs id = some program := by
      simpa [AssemblyCache.create, hne] using hid
    rcases h id program hformer with hrunning | hentry | hheld
    · exact .inl hrunning
    · exact .inr (.inl hentry)
    · simp at hheld

theorem Holds.create (h : cache.Owns running) (capability : ℕ) :
    (cache.create bytes capability).Holds cache.allocated bytes := by
  refine ⟨⟨_, Function.update_self _ _ _, rfl, rfl⟩, fun entry hentry => ?_⟩
  obtain ⟨program, hprogram, -⟩ := h.owned entry cache.allocated hentry
  simp [h.unallocated cache.allocated le_rfl] at hprogram

theorem Retains.create (h : cache.Retains budget) (capability : ℕ) :
    (cache.create bytes capability).Retains budget :=
  ⟨h.queues.imp fun _ hqueues =>
    ⟨hqueues.1.congr rfl rfl rfl rfl (fun _ => rfl) fun _ _ => rfl, hqueues.2⟩,
    h.resident, h.total, h.share⟩

theorem Owns.discard (h : cache.Owns running) (hheld : cache.Holds id bytes) :
    (cache.discard id).Owns running := by
  refine h.destroy rfl rfl (fun entry => ?_) fun _ _ => rfl
  rw [if_neg (hheld.entries entry)]
  rfl

theorem Reaches.discard (howns : cache.Owns running) (h : cache.Reaches running (some id)) :
    (cache.discard id).Reaches running none :=
  h.destroy howns rfl (fun _ _ hother _ => hother) fun _ hother hne =>
    absurd (Option.some.inj hother).symm hne

theorem Retains.discard (h : cache.Retains budget) : (cache.discard id).Retains budget :=
  ⟨h.queues.imp fun _ hqueues =>
    ⟨hqueues.1.congr rfl rfl rfl rfl (fun _ => rfl) fun _ _ => rfl, hqueues.2⟩,
    h.resident, h.total, h.share⟩

section enrol

theorem enrol_program (other : ℕ) : ((cache.enrol entry id bytes).retention other).program =
    if other = entry then some id else (cache.retention other).program := by
  by_cases hother : other = entry
  · simp [enrol, append, hother]
  · simp [enrol, append, hother]

theorem enrol_bytes (other : ℕ) : ((cache.enrol entry id bytes).retention other).bytes =
    if other = entry then bytes else (cache.retention other).bytes := by
  by_cases hother : other = entry
  · simp [enrol, append, hother]
  · simp [enrol, append, hother]

variable (hprogram : (cache.retention entry).program = none)

theorem Owns.enrol (h : cache.Owns running) (hheld : cache.Holds id bytes) :
    (cache.enrol entry id bytes).Owns running := by
  refine ⟨fun other id' hid' => ?_, fun other other' id' hid' hid'' => ?_, h.unallocated, h.runs,
    h.pinned⟩
  · rw [enrol_program] at hid'
    rw [enrol_bytes]
    by_cases hother : other = entry
    · simp only [hother, if_true, Option.some.injEq] at hid' ⊢
      rw [← hid']
      exact hheld.program
    · simp only [hother, if_false] at hid' ⊢
      exact h.owned other id' hid'
  · rw [enrol_program] at hid' hid''
    by_cases hother : other = entry
    · by_cases hother' : other' = entry
      · rw [hother, hother']
      · simp only [hother, hother', if_true, if_false, Option.some.injEq] at hid' hid''
        exact absurd (hid' ▸ hid'') (hheld.entries other')
    · by_cases hother' : other' = entry
      · simp only [hother, hother', if_true, if_false, Option.some.injEq] at hid' hid''
        exact absurd (hid'' ▸ hid') (hheld.entries other)
      · simp only [hother, hother', if_false] at hid' hid''
        exact h.owner other other' id' hid' hid''

include hprogram

theorem Reaches.enrol (h : cache.Reaches running (some id)) :
    (cache.enrol entry id bytes).Reaches running none := by
  intro id' program hid'
  rcases h id' program hid' with hrunning | ⟨other, hother⟩ | hheld
  · exact .inl hrunning
  · have hne : other ≠ entry := by
      rintro rfl
      simp [hprogram] at hother
    exact .inr (.inl ⟨other, by rw [enrol_program, if_neg hne, hother]⟩)
  · exact .inr (.inl ⟨entry, by rw [enrol_program, if_pos rfl, hheld]⟩)

theorem Retains.enrol (h : cache.Retains budget) (hroom : cache.totalBytes + bytes ≤ budget) :
    (cache.enrol entry id bytes).Retains budget := by
  obtain ⟨queues, hqueues, hcount⟩ := h.queues
  have hqueue : (cache.retention entry).queue = none := by
    have hresident := h.resident entry
    rw [hprogram] at hresident
    exact Option.isSome_eq_false_iff.mp hresident |> Option.isNone_iff_eq_none.mp
  have hnamed : Queues { cache with
      retention := Function.update cache.retention entry
        { cache.retention entry with program := some id, bytes := bytes } } queues := by
    refine hqueues.congr rfl rfl rfl rfl (fun other => ?_) fun other hother => ?_
    · by_cases hne : other = entry
      · subst hne
        simp
      · simp [hne]
    · have hne : other ≠ entry := by
        rintro rfl
        simp [hqueue] at hother
      simp [hne]
  have happended := @Queues.append _ _ entry .probation hnamed (by simpa using hqueue)
  refine ⟨⟨_, happended.congr rfl rfl rfl rfl (fun _ => rfl) fun _ _ => rfl, ?_⟩, fun other => ?_,
    ?_, ?_⟩
  · simp [AssemblyCache.enrol, hcount]
    omega
  · rw [enrol_program]
    by_cases hother : other = entry
    · simp [AssemblyCache.enrol, append, hother]
    · simpa [AssemblyCache.enrol, append, hother] using h.resident other
  · rw [totalBytes] at hroom ⊢
    simp [AssemblyCache.enrol, append_queueBytes]
    omega
  · simpa [AssemblyCache.enrol, append_queueBytes] using h.share

end enrol

end prepare

end AssemblyCache

end Pinecone
