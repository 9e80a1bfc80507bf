import Mathlib.Algebra.BigOperators.Group.List.Lemmas
import Mathlib.Algebra.GroupWithZero.Nat
import Mathlib.Data.List.Count
import Pinecone.AssemblyRetention

/-! The queues of the retained programs stay lists that share out the resident programs, and no
program is freed during a run. -/

namespace Pinecone

namespace AssemblyCache

/-- The links, ends and byte accounts are those of two lists of entries. -/
structure Queues (cache : AssemblyCache) (queues : AssemblyQueue → List ℕ) : Prop where
  chains : ∀ queue, cache.links.Chains (queues queue)
  heads : ∀ queue, cache.heads queue = (queues queue).head?
  tails : ∀ queue, cache.tails queue = (queues queue).getLast?
  mem : ∀ queue entry, entry ∈ queues queue ↔ (cache.retention entry).queue = some queue
  bytes : ∀ queue, cache.queueBytes queue =
    ((queues queue).map fun entry => (cache.retention entry).bytes).sum

/-- The programs of the entries are on the heap, and so is every program that runs. -/
structure Owns (cache : AssemblyCache) (running : List ℕ) : Prop where
  owned : ∀ entry id, (cache.retention entry).program = some id →
    ∃ program, cache.programs id = some program ∧ program.retired = false ∧
      program.bytes = (cache.retention entry).bytes
  owner : ∀ entry other id, (cache.retention entry).program = some id →
    (cache.retention other).program = some id → entry = other
  unallocated : ∀ id, cache.allocated ≤ id → cache.programs id = none
  runs : ∀ id program, cache.programs id = some program → program.activeRuns = running.count id
  pinned : ∀ id ∈ running, (cache.programs id).isSome

/-- Every program on the heap waits for the end of its runs, belongs to an entry, or is the one
at hand. -/
def Reaches (cache : AssemblyCache) (running : List ℕ) (held : Option ℕ) : Prop :=
  ∀ id program, cache.programs id = some program →
    (program.retired = true ∧ id ∈ running) ∨
      (∃ entry, (cache.retention entry).program = some id) ∨ held = some id

/-- The queues share out the resident programs, within the budgets. -/
structure Retains (cache : AssemblyCache) (budget : ℕ) : Prop where
  queues : ∃ queues, cache.Queues queues ∧
    cache.count = (queues .probation).length + (queues .protection).length
  resident : ∀ entry,
    (cache.retention entry).queue.isSome = (cache.retention entry).program.isSome
  total : cache.totalBytes ≤ budget
  share : cache.queueBytes .protection ≤ protectedBudget budget

variable {budget : ℕ} {cache cache' : AssemblyCache} {queues : AssemblyQueue → List ℕ}
  {running : List ℕ} {entry id : ℕ} {queue : AssemblyQueue}

theorem Queues.congr (h : cache.Queues queues) (hlinks : cache'.links = cache.links)
    (hheads : cache'.heads = cache.heads) (htails : cache'.tails = cache.tails)
    (hqueueBytes : cache'.queueBytes = cache.queueBytes)
    (hqueue : ∀ entry, (cache'.retention entry).queue = (cache.retention entry).queue)
    (hbytes : ∀ entry, (cache.retention entry).queue.isSome →
      (cache'.retention entry).bytes = (cache.retention entry).bytes) : cache'.Queues queues where
  chains := by simpa [hlinks] using h.chains
  heads := by simpa [hheads] using h.heads
  tails := by simpa [htails] using h.tails
  mem := by simpa [hqueue] using h.mem
  bytes := by
    intro queue
    rw [hqueueBytes, h.bytes]
    congr 1
    refine List.map_congr_left fun entry hentry => ?_
    have hmem := (h.mem queue entry).mp hentry
    exact (hbytes entry (by simp [hmem])).symm

theorem Queues.shares (h : cache.Queues queues) :
    cache.links.Shares queues fun entry => (cache.retention entry).queue :=
  ⟨h.chains, h.mem⟩

theorem update_bytes (retention : ℕ → AssemblyRetention) (value : Option AssemblyQueue)
    (entry other : ℕ) :
    (Function.update retention entry { retention entry with queue := value } other).bytes =
      (retention other).bytes := by
  by_cases h : other = entry
  · subst h
    simp
  · simp [Function.update_of_ne h]

theorem update_program (retention : ℕ → AssemblyRetention) (value : Option AssemblyQueue)
    (entry other : ℕ) :
    (Function.update retention entry { retention entry with queue := value } other).program =
      (retention other).program := by
  by_cases h : other = entry
  · subst h
    simp
  · simp [Function.update_of_ne h]

section unlink

@[simp] theorem unlink_bytes (other : ℕ) :
    ((cache.unlink entry).retention other).bytes = (cache.retention other).bytes := by
  unfold unlink
  split
  · rfl
  · exact update_bytes _ _ _ _

@[simp] theorem unlink_program (other : ℕ) :
    ((cache.unlink entry).retention other).program = (cache.retention other).program := by
  unfold unlink
  split
  · rfl
  · exact update_program _ _ _ _

@[simp] theorem unlink_count : (cache.unlink entry).count = cache.count := by
  unfold unlink
  split <;> rfl

@[simp] theorem unlink_programs : (cache.unlink entry).programs = cache.programs := by
  unfold unlink
  split <;> rfl

@[simp] theorem unlink_allocated : (cache.unlink entry).allocated = cache.allocated := by
  unfold unlink
  split <;> rfl

theorem unlink_queue (other : ℕ) :
    ((cache.unlink entry).retention other).queue =
      if other = entry then none else (cache.retention other).queue := by
  rcases hqueue : (cache.retention entry).queue with _ | queue
  · by_cases h : other = entry
    · subst h
      simp [unlink, hqueue]
    · simp [unlink, hqueue, h]
  · by_cases h : other = entry
    · subst h
      simp [unlink, hqueue]
    · simp [unlink, hqueue, h]

theorem unlink_queueBytes (hqueue : (cache.retention entry).queue = some queue) :
    (cache.unlink entry).queueBytes = Function.update cache.queueBytes queue
      (cache.queueBytes queue - (cache.retention entry).bytes) := by
  simp [unlink, hqueue]

theorem Queues.unlink (h : cache.Queues queues) (hqueue : (cache.retention entry).queue = some queue)
    {before after : List ℕ} (hsplit : queues queue = before ++ entry :: after) :
    (cache.unlink entry).Queues (Function.update queues queue (before ++ after)) := by
  have hremoved := h.shares.remove hqueue hsplit
  have hchain := h.chains queue
  have htail := h.tails queue
  have hbytes := h.bytes queue
  rw [hsplit] at hchain htail hbytes
  refine ⟨?_, fun other => ?_, fun other => ?_, fun other member => ?_, fun other => ?_⟩
  · simpa [AssemblyCache.unlink, hqueue] using hremoved.chains
  · rw [h.shares.head?_remove hsplit, ← funext h.heads]
    simp [AssemblyCache.unlink, hqueue]
  · by_cases hother : other = queue
    · subst hother
      rw [Function.update_self, hchain.getLast?_bypass, ← htail]
      by_cases hnext : (cache.links.next entry).isSome
      · simp [AssemblyCache.unlink, hqueue, hnext]
      · simp [AssemblyCache.unlink, hqueue, hnext]
    · rw [Function.update_of_ne hother, ← h.tails other]
      by_cases hnext : (cache.links.next entry).isSome
      · simp [AssemblyCache.unlink, hqueue, hnext]
      · simp [AssemblyCache.unlink, hqueue, hnext, hother]
  · rw [unlink_queue, hremoved.mem, Function.update_apply]
  · rw [unlink_queueBytes hqueue]
    by_cases hother : other = queue
    · subst hother
      simp only [List.map_append, List.map_cons, List.sum_append, List.sum_cons] at hbytes
      simp only [Function.update_self, unlink_bytes, List.map_append, List.sum_append]
      omega
    · simpa [hother] using h.bytes other

end unlink

section append

@[simp] theorem append_bytes (other : ℕ) :
    ((cache.append entry queue).retention other).bytes = (cache.retention other).bytes :=
  update_bytes _ _ _ _

@[simp] theorem append_program (other : ℕ) :
    ((cache.append entry queue).retention other).program = (cache.retention other).program :=
  update_program _ _ _ _

@[simp] theorem append_count : (cache.append entry queue).count = cache.count := rfl

@[simp] theorem append_programs : (cache.append entry queue).programs = cache.programs := rfl

@[simp] theorem append_allocated : (cache.append entry queue).allocated = cache.allocated := rfl

theorem append_queue (other : ℕ) :
    ((cache.append entry queue).retention other).queue =
      if other = entry then some queue else (cache.retention other).queue := by
  by_cases h : other = entry
  · subst h
    simp [append]
  · simp [append, h]

theorem append_queueBytes : (cache.append entry queue).queueBytes =
    Function.update cache.queueBytes queue
      (cache.queueBytes queue + (cache.retention entry).bytes) := rfl

theorem Queues.append (h : cache.Queues queues) (hqueue : (cache.retention entry).queue = none) :
    (cache.append entry queue).Queues
      (Function.update queues queue (queues queue ++ [entry])) := by
  have hpushed := h.shares.pushBack queue hqueue
  have htail := h.tails queue
  refine ⟨?_, fun other => ?_, fun other => ?_, fun other member => ?_, fun other => ?_⟩
  · rw [← htail] at hpushed
    exact hpushed.chains
  · by_cases hother : other = queue
    · subst hother
      rcases hlist : queues other with _ | ⟨first, rest⟩
      · simp [AssemblyCache.append, htail, hlist]
      · have hsome : ((first :: rest).getLast?).isSome := by simp
        simp [AssemblyCache.append, htail, hlist, h.heads other]
    · rw [Function.update_of_ne hother, ← h.heads other]
      by_cases hsome : (cache.tails queue).isSome
      · simp [AssemblyCache.append, hsome]
      · simp [AssemblyCache.append, hsome, hother]
  · by_cases hother : other = queue
    · subst hother
      simp [AssemblyCache.append]
    · simpa [AssemblyCache.append, hother] using h.tails other
  · rw [append_queue, hpushed.mem, Function.update_apply]
  · rw [append_queueBytes]
    by_cases hother : other = queue
    · subst hother
      simp [h.bytes other]
    · simpa [hother] using h.bytes other

end append

section release

theorem release_of_none (hprogram : (cache.retention entry).program = none) :
    cache.release entry = cache := by
  simp [release, hprogram]

variable (hprogram : (cache.retention entry).program = some id)

include hprogram

theorem release_of_some : cache.release entry =
    { cache.unlink entry with
      count := cache.count - 1
      programs := agDestroy cache.programs id
      retention := Function.update (cache.unlink entry).retention entry .empty } := by
  simp [release, hprogram]

theorem release_queue (other : ℕ) : ((cache.release entry).retention other).queue =
    if other = entry then none else (cache.retention other).queue := by
  rw [release_of_some hprogram]
  by_cases h : other = entry
  · simp [h, AssemblyRetention.empty]
  · simp [h, unlink_queue]

theorem release_program (other : ℕ) : ((cache.release entry).retention other).program =
    if other = entry then none else (cache.retention other).program := by
  rw [release_of_some hprogram]
  by_cases h : other = entry
  · simp [h, AssemblyRetention.empty]
  · simp [h]

theorem release_bytes {other : ℕ} (hne : other ≠ entry) :
    ((cache.release entry).retention other).bytes = (cache.retention other).bytes := by
  rw [release_of_some hprogram]
  simp [hne]

theorem release_queueBytes (hqueue : (cache.retention entry).queue = some queue) :
    (cache.release entry).queueBytes = Function.update cache.queueBytes queue
      (cache.queueBytes queue - (cache.retention entry).bytes) := by
  rw [release_of_some hprogram]
  exact unlink_queueBytes hqueue

theorem Queues.release (h : cache.Queues queues)
    (hqueue : (cache.retention entry).queue = some queue)
    {before after : List ℕ} (hsplit : queues queue = before ++ entry :: after) :
    (cache.release entry).Queues (Function.update queues queue (before ++ after)) := by
  have hunlinked := h.unlink hqueue hsplit
  refine hunlinked.congr ?_ ?_ ?_ ?_ (fun other => ?_) fun other hother => ?_
  · rw [release_of_some hprogram]
  · rw [release_of_some hprogram]
  · rw [release_of_some hprogram]
  · rw [release_of_some hprogram]
  · rw [release_queue hprogram, unlink_queue]
  · have hne : other ≠ entry := by
      rintro rfl
      simp [unlink_queue] at hother
    rw [release_bytes hprogram hne, unlink_bytes]

end release

section agDestroy

variable {programs : ℕ → Option AGProgram}

theorem agDestroy_of_ne {other : ℕ} (hne : other ≠ id) :
    agDestroy programs id other = programs other := by
  rcases hprogram : programs id with _ | program
  · simp [agDestroy, hprogram]
  · simp [agDestroy, hprogram, hne]

theorem agDestroy_self {program : AGProgram} (hprogram : programs id = some program) :
    agDestroy programs id id =
      if program.activeRuns = 0 then none else some { program with retired := true } := by
  simp [agDestroy, hprogram]

theorem agDestroy_none (hprogram : programs id = none) : agDestroy programs id = programs := by
  simp [agDestroy, hprogram]

theorem agDestroy_activeRuns {other : ℕ} {program : AGProgram}
    (h : agDestroy programs id other = some program) :
    ∃ former, programs other = some former ∧ program.activeRuns = former.activeRuns := by
  by_cases hne : other = id
  · subst hne
    rcases hformer : programs other with _ | former
    · simp [agDestroy_none hformer, hformer] at h
    · rw [agDestroy_self hformer] at h
      by_cases hruns : former.activeRuns = 0
      · simp [hruns] at h
      · simp only [hruns, if_false, Option.some.injEq] at h
        exact ⟨former, rfl, by rw [← h]⟩
  · rw [agDestroy_of_ne hne] at h
    exact ⟨program, h, rfl⟩

theorem agDestroy_isSome {other : ℕ} {program : AGProgram} (hprogram : programs other = some program)
    (hruns : program.activeRuns ≠ 0) : (agDestroy programs id other).isSome := by
  by_cases hne : other = id
  · subst hne
    simp [agDestroy_self hprogram, hruns]
  · simp [agDestroy_of_ne hne, hprogram]

theorem Owns.destroy (h : cache.Owns running)
    (hprograms : cache'.programs = agDestroy cache.programs id)
    (hallocated : cache'.allocated = cache.allocated)
    (hprogram : ∀ entry, (cache'.retention entry).program =
      if (cache.retention entry).program = some id then none
      else (cache.retention entry).program)
    (hbytes : ∀ entry, (cache'.retention entry).program.isSome →
      (cache'.retention entry).bytes = (cache.retention entry).bytes) : cache'.Owns running := by
  have hformer : ∀ entry other, (cache'.retention entry).program = some other →
      (cache.retention entry).program = some other ∧ other ≠ id := by
    intro entry other hother
    rw [hprogram] at hother
    by_cases hid : (cache.retention entry).program = some id
    · simp [hid] at hother
    · simp only [hid, if_false] at hother
      refine ⟨hother, ?_⟩
      rintro rfl
      exact hid hother
  refine ⟨fun entry other hother => ?_, fun entry entry' other hother hother' => ?_,
    fun other hother => ?_, fun other program hother => ?_, fun other hother => ?_⟩
  · obtain ⟨hwas, hne⟩ := hformer entry other hother
    rw [hprograms, agDestroy_of_ne hne, hbytes entry (by simp [hother])]
    exact h.owned entry other hwas
  · exact h.owner entry entry' other (hformer entry other hother).1
      (hformer entry' other hother').1
  · have hnone := h.unallocated other (hallocated ▸ hother)
    rw [hprograms, Option.eq_none_iff_forall_ne_some]
    intro program hsome
    obtain ⟨former, hformer, -⟩ := agDestroy_activeRuns hsome
    simp [hnone] at hformer
  · rw [hprograms] at hother
    obtain ⟨former, hformer, hruns⟩ := agDestroy_activeRuns hother
    rw [hruns]
    exact h.runs other former hformer
  · obtain ⟨program, hsome⟩ := Option.isSome_iff_exists.mp (h.pinned other hother)
    rw [hprograms]
    refine agDestroy_isSome hsome ?_
    have hcount := List.count_pos_iff.mpr hother
    rw [h.runs other program hsome]
    omega

theorem Reaches.destroy {held held' : Option ℕ} (howns : cache.Owns running)
    (h : cache.Reaches running held)
    (hprograms : cache'.programs = agDestroy cache.programs id)
    (hprogram : ∀ entry other, (cache.retention entry).program = some other → other ≠ id →
      (cache'.retention entry).program = some other)
    (hheld : ∀ other, held = some other → other ≠ id → held' = some other) :
    cache'.Reaches running held' := by
  intro other program hother
  rw [hprograms] at hother
  by_cases hne : other = id
  · subst hne
    rcases hformer : cache.programs other with _ | former
    · simp [agDestroy_none hformer, hformer] at hother
    · rw [agDestroy_self hformer] at hother
      by_cases hidle : former.activeRuns = 0
      · simp [hidle] at hother
      · simp only [hidle, if_false, Option.some.injEq] at hother
        rw [howns.runs other former hformer] at hidle
        have hrunning := List.count_pos_iff.mp (Nat.pos_of_ne_zero hidle)
        exact .inl ⟨by rw [← hother], hrunning⟩
  · rw [agDestroy_of_ne hne] at hother
    rcases h other program hother with hrunning | ⟨entry, hentry⟩ | hholds
    · exact .inl hrunning
    · exact .inr (.inl ⟨entry, hprogram entry other hentry hne⟩)
    · exact .inr (.inr (hheld other hholds hne))

end agDestroy

end AssemblyCache

end Pinecone
