import Mathlib.Algebra.Group.Nat.Defs
import Pinecone.IntrusiveList

/-! The retention of compiled programs by the block cache: two queues with byte accounts, and the
programs themselves, which runs pin. -/

namespace Pinecone

/-- The values 1 and 2 of `AVZAssemblyRetention.queue`. -/
inductive AssemblyQueue
  | probation
  | protection
  deriving DecidableEq

/-- `AVZAssemblyRetention` without its links. -/
structure AssemblyRetention where
  program : Option ℕ
  bytes : ℕ
  queue : Option AssemblyQueue
  reuse : ℕ

def AssemblyRetention.empty : AssemblyRetention := ⟨none, 0, none, 0⟩

/-- `AGProgram`: what its life depends on. -/
structure AGProgram where
  bytes : ℕ
  capability : ℕ
  retired : Bool
  activeRuns : ℕ

/-- The part of `AVZNativeBlockCache` that retains programs, by entry, and the programs on the
heap, of which `allocated` were made so far. -/
structure AssemblyCache where
  links : NodeLinks ℕ
  heads : AssemblyQueue → Option ℕ
  tails : AssemblyQueue → Option ℕ
  queueBytes : AssemblyQueue → ℕ
  count : ℕ
  retention : ℕ → AssemblyRetention
  capability : ℕ → ℕ
  programs : ℕ → Option AGProgram
  allocated : ℕ

/-- `AVZ_ASSEMBLY_CACHE_PROTECTED_BUDGET`, in unsigned 32-bit arithmetic. -/
def protectedBudget (budget : ℕ) : ℕ := budget * 3 % 2 ^ 32 / 4

/-- `AVZ_ASSEMBLY_CACHE_MAX_RETIREMENTS`. -/
def assemblyCacheMaxRetirements : ℕ := 64

/-- `ag_destroy`. -/
def agDestroy (programs : ℕ → Option AGProgram) (id : ℕ) : ℕ → Option AGProgram :=
  match programs id with
  | none => programs
  | some program =>
    Function.update programs id
      (if program.activeRuns = 0 then none else some { program with retired := true })

namespace AssemblyCache

variable (budget : ℕ) (cache : AssemblyCache)

def totalBytes : ℕ := cache.queueBytes .probation + cache.queueBytes .protection

/-- `avz_assembly_unlink`. -/
def unlink (entry : ℕ) : AssemblyCache :=
  match (cache.retention entry).queue with
  | none => cache
  | some queue =>
    let previous := cache.links.previous entry
    let next := cache.links.next entry
    { cache with
      links := (cache.links.bypass entry).setLinks entry none none
      heads := if previous.isSome then cache.heads else Function.update cache.heads queue next
      tails := if next.isSome then cache.tails else Function.update cache.tails queue previous
      queueBytes := Function.update cache.queueBytes queue
        (cache.queueBytes queue - (cache.retention entry).bytes)
      retention := Function.update cache.retention entry
        { cache.retention entry with queue := none } }

/-- `avz_assembly_append`. -/
def append (entry : ℕ) (queue : AssemblyQueue) : AssemblyCache :=
  let tail := cache.tails queue
  { cache with
    links := cache.links.pushBack entry tail
    heads := if tail.isSome then cache.heads else Function.update cache.heads queue (some entry)
    tails := Function.update cache.tails queue (some entry)
    queueBytes := Function.update cache.queueBytes queue
      (cache.queueBytes queue + (cache.retention entry).bytes)
    retention := Function.update cache.retention entry
      { cache.retention entry with queue := some queue } }

/-- `avz_assembly_release`. -/
def release (entry : ℕ) : AssemblyCache :=
  match (cache.retention entry).program with
  | none => cache
  | some id =>
    let cache := cache.unlink entry
    { cache with
      count := cache.count - 1
      programs := agDestroy cache.programs id
      retention := Function.update cache.retention entry .empty }

/-- `avz_assembly_forget_entry`. -/
def forgetEntry (entry : ℕ) : AssemblyCache :=
  let cache := cache.release entry
  { cache with capability := Function.update cache.capability entry 0 }

/-- The loop of `avz_assembly_clear` over one queue. -/
def clearQueue (queue : AssemblyQueue) : ℕ → AssemblyCache → AssemblyCache
  | 0, cache => cache
  | fuel + 1, cache =>
    match cache.heads queue with
    | none => cache
    | some entry => clearQueue queue fuel (cache.release entry)

/-- `avz_assembly_clear`. -/
def clear : AssemblyCache :=
  let cache := clearQueue .probation cache.count cache
  clearQueue .protection cache.count cache

/-- The demotion of the oldest protected entry. -/
def demoteOldest : AssemblyCache :=
  match cache.heads .protection with
  | none => cache
  | some old =>
    let cache := cache.unlink old
    let cache := { cache with
      retention := Function.update cache.retention old { cache.retention old with reuse := 0 } }
    cache.append old .probation

/-- `r->reuse`, which stops at 2. -/
def countReuse (entry : ℕ) : AssemblyCache :=
  let reuse := (cache.retention entry).reuse
  { cache with
    retention := Function.update cache.retention entry
      { cache.retention entry with reuse := if reuse < 2 then reuse + 1 else reuse } }

/-- The entry is protected if its program fits. -/
def promote (entry : ℕ) : AssemblyCache :=
  if protectedBudget budget - (cache.retention entry).bytes < cache.queueBytes .protection then
    cache
  else (cache.unlink entry).append entry .protection

/-- `avz_assembly_record_reuse`. -/
def recordReuse (entry : ℕ) : AssemblyCache :=
  if (cache.retention entry).queue = some .protection then
    if (cache.links.next entry).isNone then cache
    else (cache.unlink entry).append entry .protection
  else
    let bytes := (cache.retention entry).bytes
    let counted := cache.countReuse entry
    if (counted.retention entry).reuse < 2 ∨ protectedBudget budget < bytes then counted
    else if protectedBudget budget - bytes < counted.queueBytes .protection then
      counted.demoteOldest.promote budget entry
    else counted.promote budget entry

/-- The entry whose program makes room: the oldest in probation, else the oldest protected. -/
def victim : Option ℕ :=
  match cache.heads .probation with
  | some entry => some entry
  | none => cache.heads .protection

/-- The loop of `avz_assembly_make_room`, with the retirements it has left. -/
def retireUntil (bytes : ℕ) : ℕ → AssemblyCache → AssemblyCache
  | 0, cache => cache
  | left + 1, cache =>
    if budget - bytes < cache.totalBytes then
      match cache.victim with
      | none => cache
      | some entry => retireUntil bytes left (cache.release entry)
    else cache

/-- `avz_assembly_make_room`. -/
def makeRoom (bytes : ℕ) : Bool × AssemblyCache :=
  if budget < bytes then (false, cache)
  else
    let cache := retireUntil budget bytes assemblyCacheMaxRetirements cache
    (cache.totalBytes ≤ budget - bytes, cache)

end AssemblyCache

/-- A call of `avz_assembly_cache_program`: what it finds of the decoded entry, and the program
that `ag_create` makes of its words, if any. -/
structure AssemblyRequest where
  entry : ℕ
  decoded : Bool
  codeIsCurrent : Bool
  hasSemanticCandidate : Bool
  created : Option (ℕ × ℕ)
  allowMemory : Bool

namespace AssemblyCache

variable (budget : ℕ) (cache : AssemblyCache) (request : AssemblyRequest)

def setCapability (entry capability : ℕ) : AssemblyCache :=
  { cache with capability := Function.update cache.capability entry capability }

/-- `ag_create`, with the bytes and the capability of the program. -/
def create (bytes capability : ℕ) : AssemblyCache :=
  { cache with
    programs := Function.update cache.programs cache.allocated
      (some ⟨bytes, capability, false, 0⟩)
    allocated := cache.allocated + 1 }

/-- The program enters the cache on probation. -/
def enrol (entry id bytes : ℕ) : AssemblyCache :=
  let cache := { cache with
    retention := Function.update cache.retention entry
      { cache.retention entry with program := some id, bytes := bytes } }
  let cache := cache.append entry .probation
  { cache with count := cache.count + 1 }

/-- A created program with its capability noted in the entry. -/
def createFor (entry bytes capability : ℕ) : AssemblyCache :=
  (cache.create bytes capability).setCapability entry (if capability ≠ 0 then capability else 3)

/-- `ag_destroy` of a program that no entry has. -/
def discard (id : ℕ) : AssemblyCache :=
  { cache with programs := agDestroy cache.programs id }

/-- The miss of `avz_assembly_cache_program`. -/
def prepare : Option ℕ × AssemblyCache :=
  match request.created with
  | none => (none, cache.setCapability request.entry 3)
  | some (bytes, capability) =>
    let id := cache.allocated
    let made := cache.createFor request.entry bytes capability
    if capability = 0 ∨ (capability = 2 ∧ request.allowMemory = false) then
      (none, made.discard id)
    else
      match made.makeRoom budget bytes with
      | (false, made) => (none, made.discard id)
      | (true, made) => (some id, made.enrol request.entry id bytes)

/-- `avz_assembly_cache_program`. -/
def cacheProgram : Option ℕ × AssemblyCache :=
  if request.decoded = false then (none, cache)
  else if request.codeIsCurrent = false then (none, cache.forgetEntry request.entry)
  else if cache.capability request.entry = 3 ∨
      (cache.capability request.entry = 2 ∧ request.allowMemory = false) then (none, cache)
  else if cache.capability request.entry = 0 ∧ request.hasSemanticCandidate = true then
    (none, cache.setCapability request.entry 3)
  else
    match (cache.retention request.entry).program with
    | some id => (some id, cache.recordReuse budget request.entry)
    | none => cache.prepare budget request

end AssemblyCache

/-- The cache and the runs in progress, one program for each. -/
structure AssemblyState where
  cache : AssemblyCache
  running : List ℕ

inductive AssemblyEvent
  | request (request : AssemblyRequest)
  | forget (entry : ℕ)
  | clear
  | enter (entry : ℕ)
  | leave (id : ℕ)

namespace AssemblyState

def initial : AssemblyState where
  cache :=
    { links := ⟨fun _ => none, fun _ => none⟩
      heads := fun _ => none
      tails := fun _ => none
      queueBytes := fun _ => 0
      count := 0
      retention := fun _ => .empty
      capability := fun _ => 0
      programs := fun _ => none
      allocated := 0 }
  running := []

def setProgram (s : AssemblyState) (id : ℕ) (program : Option AGProgram) : AssemblyCache :=
  { s.cache with programs := Function.update s.cache.programs id program }

/-- The beginning of `ag_run_memory` on the program of the entry, which pins it. -/
def enter (s : AssemblyState) (entry : ℕ) : AssemblyState :=
  match (s.cache.retention entry).program with
  | none => s
  | some id =>
    match s.cache.programs id with
    | none => s
    | some program =>
      if program.retired ∨ program.activeRuns = 2 ^ 32 - 1 then s
      else
        { cache := s.setProgram id (some { program with activeRuns := program.activeRuns + 1 })
          running := id :: s.running }

/-- The end of `ag_run_memory`, which frees a program that was retired during its last run. -/
def leave (s : AssemblyState) (id : ℕ) : AssemblyState :=
  if id ∈ s.running then
    match s.cache.programs id with
    | none => { s with running := s.running.erase id }
    | some program =>
      { cache := s.setProgram id
          (if program.activeRuns - 1 = 0 ∧ program.retired = true then none
            else some { program with activeRuns := program.activeRuns - 1 })
        running := s.running.erase id }
  else s

def step (budget : ℕ) (s : AssemblyState) : AssemblyEvent → AssemblyState
  | .request request => { s with cache := (s.cache.cacheProgram budget request).2 }
  | .forget entry => { s with cache := s.cache.forgetEntry entry }
  | .clear => { s with cache := s.cache.clear }
  | .enter entry => s.enter entry
  | .leave id => s.leave id

def run (budget : ℕ) (events : List AssemblyEvent) : AssemblyState :=
  events.foldl (step budget) initial

end AssemblyState

end Pinecone
