import Mathlib.Algebra.BigOperators.Fin
import Mathlib.Data.Fintype.Basic
import Mathlib.Data.List.Perm.Basic
import Mathlib.Order.WithBot
import Pinecone.ConditionalRuns

/-! Threads that each take several locks of one family, in an order that all of them follow. -/

namespace OrderedLocks

variable {L R τ : Type}

/-- What a thread locks, in its order, and what it unlocks afterwards. -/
structure LockPlan (L : Type) where
  locks : List L
  unlocks : List L

/-- The locks rise, and exactly they are unlocked. -/
structure LockPlan.Ordered [LT L] (plan : LockPlan L) : Prop where
  rising : plan.locks.Pairwise (· < ·)
  balanced : plan.locks.Perm plan.unlocks

/-- What a thread holds, and what it has still to lock and to unlock. -/
structure LockThread (L : Type) where
  held : List L
  toLock : List L
  toUnlock : List L

def LockThread.Idle (thread : LockThread L) : Prop := thread.toLock = [] ∧ thread.toUnlock = []

instance (thread : LockThread L) : Decidable thread.Idle :=
  decidable_of_iff (thread.toLock.isEmpty ∧ thread.toUnlock.isEmpty)
    (by simp [LockThread.Idle, List.isEmpty_iff])

/-- The flags of the locks and the threads. -/
structure LockState (L τ : Type) where
  flags : L → Bool
  threads : τ → LockThread L

def LockState.unlocked : LockState L τ := ⟨fun _ => false, fun _ => ⟨[], [], []⟩⟩

/-- An idle thread asks for locks; a thread sees the flag of its next lock clear and sets it; a thread
that has all its locks clears one. -/
inductive LockEvent (R τ : Type)
  | request (thread : τ) (wanted : R)
  | lock (thread : τ)
  | unlock (thread : τ)

def LockEvent.IsRequest : LockEvent R τ → Prop
  | .request _ _ => True
  | _ => False

section Step

variable [DecidableEq L] [DecidableEq τ] (plans : R → Option (LockPlan L))

/-- `none` for a thread that cannot do it, as one that waits for its next lock. -/
def step (state : LockState L τ) : LockEvent R τ → Option (LockState L τ)
  | .request thread wanted =>
    if (state.threads thread).Idle then
      match plans wanted with
      | some plan =>
        some { state with threads := Function.update state.threads thread ⟨[], plan.locks, plan.unlocks⟩ }
      | none => some state
    else none
  | .lock thread =>
    let current := state.threads thread
    match current.toLock with
    | [] => none
    | lock :: rest =>
      if state.flags lock = true then none
      else some
        { flags := Function.update state.flags lock true
          threads := Function.update state.threads thread ⟨lock :: current.held, rest, current.toUnlock⟩ }
  | .unlock thread =>
    let current := state.threads thread
    match current.toLock, current.toUnlock with
    | [], lock :: rest => some
        { flags := Function.update state.flags lock false
          threads := Function.update state.threads thread ⟨current.held.erase lock, [], rest⟩ }
    | _, _ => none

end Step

/-- A thread holds only locks below those that it has still to lock, and will unlock both. -/
structure LockThread.Owned [LT L] (thread : LockThread L) : Prop where
  rising : thread.toLock.Pairwise (· < ·)
  below : ∀ lock ∈ thread.held, ∀ next ∈ thread.toLock, lock < next
  once : thread.held.Nodup
  balanced : (thread.held ++ thread.toLock).Perm thread.toUnlock

/-- A lock's flag is set when a thread holds it, and one thread at most does. -/
structure Owned [LT L] (state : LockState L τ) : Prop where
  threads : ∀ thread, (state.threads thread).Owned
  flags : ∀ lock, state.flags lock = true ↔ ∃ thread, lock ∈ (state.threads thread).held
  exclusive : ∀ lock thread other, lock ∈ (state.threads thread).held →
    lock ∈ (state.threads other).held → thread = other

namespace LockThread

section Owned

variable [Preorder L] {thread : LockThread L}

theorem Owned.start {plan : LockPlan L} (hplan : plan.Ordered) :
    (LockThread.mk [] plan.locks plan.unlocks).Owned where
  rising := hplan.rising
  below := by simp
  once := List.nodup_nil
  balanced := hplan.balanced

theorem Owned.lock {lock : L} {rest : List L} (howned : thread.Owned) (hlock : thread.toLock = lock :: rest) :
    (LockThread.mk (lock :: thread.held) rest thread.toUnlock).Owned := by
  have hrising := howned.rising
  rw [hlock] at hrising
  obtain ⟨hfirst, hrest⟩ := List.pairwise_cons.mp hrising
  have hfresh : lock ∉ thread.held := by
    intro hmem
    exact lt_irrefl lock (howned.below lock hmem lock (by simp [hlock]))
  refine ⟨hrest, ?_, List.nodup_cons.mpr ⟨hfresh, howned.once⟩, ?_⟩
  · intro held hheld next hnext
    rcases List.mem_cons.mp hheld with rfl | hheld
    · exact hfirst next hnext
    · exact howned.below held hheld next (by simp [hlock, hnext])
  · have hbalanced := howned.balanced
    rw [hlock] at hbalanced
    exact List.perm_middle.symm.trans hbalanced

theorem Owned.unlock [DecidableEq L] {lock : L} {rest : List L} (howned : thread.Owned)
    (hlock : thread.toLock = []) (hunlock : thread.toUnlock = lock :: rest) :
    (LockThread.mk (thread.held.erase lock) [] rest).Owned := by
  have hbalanced := howned.balanced
  rw [hlock, hunlock, List.append_nil] at hbalanced
  refine ⟨List.Pairwise.nil, by simp, howned.once.erase lock, ?_⟩
  rw [List.append_nil]
  simpa using hbalanced.erase lock

theorem Owned.mem_held [DecidableEq L] {lock : L} (howned : thread.Owned) (hlock : thread.toLock = [])
    (hmem : lock ∈ thread.toUnlock) : lock ∈ thread.held := by
  have hbalanced := howned.balanced
  rw [hlock, List.append_nil] at hbalanced
  exact hbalanced.mem_iff.mpr hmem

theorem Owned.held_nil (howned : thread.Owned) (hidle : thread.Idle) : thread.held = [] := by
  have hbalanced := howned.balanced
  rw [hidle.1, hidle.2, List.append_nil] at hbalanced
  exact hbalanced.eq_nil

end Owned

end LockThread

theorem owned_unlocked [Preorder L] : Owned (LockState.unlocked : LockState L τ) where
  threads := fun _ => ⟨List.Pairwise.nil, by simp [LockState.unlocked], List.nodup_nil, List.Perm.refl _⟩
  flags := by simp [LockState.unlocked]
  exclusive := by simp [LockState.unlocked]

section Steps

variable [LinearOrder L] [DecidableEq τ] {plans : R → Option (LockPlan L)} {state state' : LockState L τ}

theorem Owned.request {thread : τ} {wanted : R} (hplans : ∀ wanted plan, plans wanted = some plan → plan.Ordered)
    (howned : Owned state) (hstep : step plans state (.request thread wanted) = some state') : Owned state' := by
  simp only [step] at hstep
  split at hstep
  case isFalse => cases hstep
  case isTrue hidle =>
    cases hplan : plans wanted with
    | none =>
      rw [hplan] at hstep
      obtain rfl := Option.some.inj hstep
      exact howned
    | some plan =>
      rw [hplan] at hstep
      obtain rfl := Option.some.inj hstep
      have hheld := (howned.threads thread).held_nil hidle
      have hsame : ∀ other, (Function.update state.threads thread ⟨[], plan.locks, plan.unlocks⟩ other).held =
          (state.threads other).held := by
        intro other
        by_cases hother : other = thread
        · subst hother
          rw [Function.update_self, hheld]
        · rw [Function.update_of_ne hother]
      refine ⟨fun other => ?_, fun lock => ?_, fun lock first second hfirst hsecond => ?_⟩
      · by_cases hother : other = thread
        · subst hother
          simp only [Function.update_self]
          exact LockThread.Owned.start (hplans _ _ hplan)
        · simp only [Function.update_of_ne hother]
          exact howned.threads other
      · simp only [hsame]
        exact howned.flags lock
      · simp only [hsame] at hfirst hsecond
        exact howned.exclusive lock first second hfirst hsecond

theorem Owned.lock {thread : τ} (howned : Owned state)
    (hstep : step plans state (.lock thread) = some state') : Owned state' := by
  simp only [step] at hstep
  cases hlock : (state.threads thread).toLock with
  | nil =>
    rw [hlock] at hstep
    cases hstep
  | cons lock rest =>
    rw [hlock] at hstep
    dsimp only at hstep
    split at hstep
    case isTrue => cases hstep
    case isFalse hclear =>
      obtain rfl := Option.some.inj hstep
      have hfree : ∀ other, lock ∉ (state.threads other).held :=
        fun other hmem => hclear ((howned.flags lock).mpr ⟨other, hmem⟩)
      have hheld : ∀ other held, held ∈ (Function.update state.threads thread
          ⟨lock :: (state.threads thread).held, rest, (state.threads thread).toUnlock⟩ other).held ↔
          (held = lock ∧ other = thread) ∨ held ∈ (state.threads other).held := by
        intro other held
        by_cases hother : other = thread
        · subst hother
          simp
        · simp [Function.update_of_ne hother, hother]
      refine ⟨fun other => ?_, fun flag => ?_, fun held first second hfirst hsecond => ?_⟩
      · by_cases hother : other = thread
        · subst hother
          simp only [Function.update_self]
          exact (howned.threads other).lock hlock
        · simp only [Function.update_of_ne hother]
          exact howned.threads other
      · simp only [hheld]
        by_cases hflag : flag = lock
        · subst hflag
          simp
        · simp [Function.update_of_ne hflag, hflag, howned.flags flag]
      · rw [hheld] at hfirst hsecond
        rcases hfirst with ⟨rfl, rfl⟩ | hfirst
        · rcases hsecond with ⟨-, rfl⟩ | hsecond
          · rfl
          · exact absurd hsecond (hfree second)
        · rcases hsecond with ⟨rfl, rfl⟩ | hsecond
          · exact absurd hfirst (hfree first)
          · exact howned.exclusive held first second hfirst hsecond

theorem Owned.unlock {thread : τ} (howned : Owned state)
    (hstep : step plans state (.unlock thread) = some state') : Owned state' := by
  simp only [step] at hstep
  split at hstep
  case h_2 => cases hstep
  case h_1 lock rest hlock hunlock =>
    obtain rfl := Option.some.inj hstep
    have hmine : lock ∈ (state.threads thread).held :=
      (howned.threads thread).mem_held hlock (by simp [hunlock])
    have hheld : ∀ other held, held ∈ (Function.update state.threads thread
        ⟨(state.threads thread).held.erase lock, [], rest⟩ other).held ↔
        held ≠ lock ∧ held ∈ (state.threads other).held := by
      intro other held
      by_cases hother : other = thread
      · subst hother
        simp only [Function.update_self]
        exact (howned.threads other).once.mem_erase_iff
      · rw [Function.update_of_ne hother]
        refine ⟨fun hmem => ⟨?_, hmem⟩, And.right⟩
        rintro rfl
        exact hother (howned.exclusive held other thread hmem hmine)
    refine ⟨fun other => ?_, fun flag => ?_, fun held first second hfirst hsecond => ?_⟩
    · by_cases hother : other = thread
      · subst hother
        simp only [Function.update_self]
        exact (howned.threads other).unlock hlock hunlock
      · simp only [Function.update_of_ne hother]
        exact howned.threads other
    · simp only [hheld]
      by_cases hflag : flag = lock
      · subst hflag
        simp
      · simp [Function.update_of_ne hflag, hflag, howned.flags flag]
    · rw [hheld] at hfirst hsecond
      exact howned.exclusive held first second hfirst.2 hsecond.2

theorem Owned.step {event : LockEvent R τ}
    (hplans : ∀ wanted plan, plans wanted = some plan → plan.Ordered)
    (howned : Owned state) (hstep : OrderedLocks.step plans state event = some state') : Owned state' := by
  cases event with
  | request thread wanted => exact howned.request hplans hstep
  | lock thread => exact howned.lock hstep
  | unlock thread => exact howned.unlock hstep

theorem Owned.run {events : List (LockEvent R τ)}
    (hplans : ∀ wanted plan, plans wanted = some plan → plan.Ordered)
    (hrun : events.foldlM (OrderedLocks.step plans) LockState.unlocked = some state) : Owned state :=
  ConditionalRun.run_invariant Owned hrun (fun howned hstep => howned.step hplans hstep) owned_unlocked

end Steps

/-! ## Progress -/

/-- The lock that a thread goes for next, below every lock when it has them all. -/
def LockThread.next (thread : LockThread L) : WithBot L :=
  match thread.toLock with
  | [] => ⊥
  | lock :: _ => lock

/-- What the threads have still to lock and unlock. -/
def LockState.remaining [Fintype τ] (state : LockState L τ) : ℕ :=
  ∑ thread, ((state.threads thread).toLock.length + (state.threads thread).toUnlock.length)

section Progress

variable [LinearOrder L] [DecidableEq τ] {plans : R → Option (LockPlan L)} {state state' : LockState L τ}

theorem LockThread.Owned.not_idle {thread : LockThread L} {lock : L} (howned : thread.Owned)
    (hmem : lock ∈ thread.held) : ¬ thread.Idle := by
  intro hidle
  rw [howned.held_nil hidle] at hmem
  exact List.not_mem_nil hmem

theorem moves_or_waits (plans : R → Option (LockPlan L)) (thread : τ) (hbusy : ¬ (state.threads thread).Idle) :
    (∃ event : LockEvent R τ, ¬ event.IsRequest ∧ ∃ next, step plans state event = some next) ∨
      ∃ lock : L, (state.threads thread).next = lock ∧ lock ∈ (state.threads thread).toLock ∧
        state.flags lock = true := by
  cases hlock : (state.threads thread).toLock with
  | nil =>
    cases hunlock : (state.threads thread).toUnlock with
    | nil => exact absurd ⟨hlock, hunlock⟩ hbusy
    | cons lock rest =>
      refine .inl ⟨.unlock thread, not_false, ?_⟩
      simp [step, hlock, hunlock]
  | cons lock rest =>
    cases hflag : state.flags lock with
    | false =>
      refine .inl ⟨.lock thread, not_false, ?_⟩
      simp [step, hlock, hflag]
    | true => exact .inr ⟨lock, by simp [LockThread.next, hlock], List.mem_cons_self, hflag⟩

theorem Owned.progress [Fintype τ] (howned : Owned state) {thread : τ}
    (hbusy : ¬ (state.threads thread).Idle) :
    ∃ event : LockEvent R τ, ¬ event.IsRequest ∧ ∃ next, OrderedLocks.step plans state event = some next := by
  by_contra hstuck
  have hwaits : ∀ thread, ¬ (state.threads thread).Idle → ∃ lock : L,
      (state.threads thread).next = lock ∧ lock ∈ (state.threads thread).toLock ∧
        state.flags lock = true := by
    intro thread hbusy
    rcases moves_or_waits plans thread hbusy with hmoves | hwaits
    · exact absurd hmoves hstuck
    · exact hwaits
  obtain ⟨last, hlast, hgreatest⟩ := Finset.exists_max_image
    (Finset.univ.filter fun thread => ¬ (state.threads thread).Idle)
    (fun thread => (state.threads thread).next) ⟨thread, by simpa using hbusy⟩
  obtain ⟨lock, hnext, -, hflag⟩ := hwaits last (by simpa using hlast)
  obtain ⟨holder, hheld⟩ := (howned.flags lock).mp hflag
  have hholder := (howned.threads holder).not_idle hheld
  obtain ⟨wanted, hwanted, hmem, -⟩ := hwaits holder hholder
  have hbelow : lock < wanted := (howned.threads holder).below lock hheld wanted hmem
  have hle : (wanted : WithBot L) ≤ lock := by
    rw [← hwanted, ← hnext]
    exact hgreatest holder (by simpa using hholder)
  exact absurd hbelow (not_lt.mpr (WithBot.coe_le_coe.mp hle))

theorem remaining_update [Fintype τ] (thread : τ) (flags : L → Bool) (after : LockThread L)
    (hless : after.toLock.length + after.toUnlock.length + 1 =
      (state.threads thread).toLock.length + (state.threads thread).toUnlock.length) :
    (LockState.mk flags (Function.update state.threads thread after)).remaining + 1 = state.remaining := by
  unfold LockState.remaining
  have hmem := Finset.mem_univ thread
  rw [← Finset.add_sum_erase _ _ hmem, ← Finset.add_sum_erase _ _ hmem]
  have hothers : ∀ other ∈ Finset.univ.erase thread,
      (Function.update state.threads thread after other).toLock.length +
        (Function.update state.threads thread after other).toUnlock.length =
      (state.threads other).toLock.length + (state.threads other).toUnlock.length := by
    intro other hother
    rw [Function.update_of_ne (Finset.ne_of_mem_erase hother)]
  dsimp only
  rw [Finset.sum_congr rfl hothers, Function.update_self]
  omega

theorem remaining_step [Fintype τ] {event : LockEvent R τ} (hevent : ¬ event.IsRequest)
    (hstep : step plans state event = some state') : state'.remaining + 1 = state.remaining := by
  cases event with
  | request thread wanted => exact absurd trivial hevent
  | lock thread =>
    simp only [step] at hstep
    cases hlock : (state.threads thread).toLock with
    | nil =>
      rw [hlock] at hstep
      cases hstep
    | cons lock rest =>
      rw [hlock] at hstep
      dsimp only at hstep
      split at hstep
      case isTrue => cases hstep
      case isFalse =>
        obtain rfl := Option.some.inj hstep
        refine remaining_update thread _ _ ?_
        simp only [hlock, List.length_cons]
        omega
  | unlock thread =>
    simp only [step] at hstep
    split at hstep
    case h_2 => cases hstep
    case h_1 lock rest hlock hunlock =>
      obtain rfl := Option.some.inj hstep
      refine remaining_update thread _ _ ?_
      simp only [hlock, hunlock, List.length_cons, List.length_nil]
      omega

theorem remaining_run [Fintype τ] {events : List (LockEvent R τ)}
    (hevents : ∀ event ∈ events, ¬ event.IsRequest) (hrun : events.foldlM (step plans) state = some state') :
    state'.remaining + events.length = state.remaining := by
  induction events generalizing state with
  | nil =>
    obtain rfl := Option.some.inj hrun
    rfl
  | cons event events ih =>
    rw [List.foldlM_cons] at hrun
    obtain ⟨next, hstep, hrest⟩ := Option.bind_eq_some_iff.mp hrun
    have hnext := remaining_step (hevents event List.mem_cons_self) hstep
    have hlater := ih (fun e hmem => hevents e (List.mem_cons_of_mem _ hmem)) hrest
    rw [List.length_cons]
    omega

theorem idle_of_remaining [Fintype τ] (hremaining : state.remaining = 0) (thread : τ) :
    (state.threads thread).Idle := by
  have hzero := (Finset.sum_eq_zero_iff.mp hremaining) thread (Finset.mem_univ thread)
  exact ⟨List.eq_nil_of_length_eq_zero (by omega), List.eq_nil_of_length_eq_zero (by omega)⟩

theorem Owned.drains [Fintype τ] (howned : Owned state)
    (hplans : ∀ wanted plan, plans wanted = some plan → plan.Ordered) :
    ∃ events : List (LockEvent R τ), (∀ event ∈ events, ¬ event.IsRequest) ∧
      ∃ final, events.foldlM (OrderedLocks.step plans) state = some final ∧
        (∀ thread, (final.threads thread).Idle) ∧ ∀ lock, final.flags lock = false := by
  induction hremaining : state.remaining generalizing state with
  | zero =>
    have hidle := fun thread => idle_of_remaining hremaining thread
    refine ⟨[], by simp, state, rfl, hidle, fun lock => ?_⟩
    cases hflag : state.flags lock with
    | false => rfl
    | true =>
      obtain ⟨holder, hheld⟩ := (howned.flags lock).mp hflag
      exact absurd (hidle holder) ((howned.threads holder).not_idle hheld)
  | succ count ih =>
    have hbusy : ∃ thread, ¬ (state.threads thread).Idle := by
      by_contra hidle
      push_neg at hidle
      have hnone : state.remaining = 0 :=
        Finset.sum_eq_zero fun thread _ => by rw [(hidle thread).1, (hidle thread).2]; rfl
      omega
    obtain ⟨thread, hbusy⟩ := hbusy
    have hmoves : ∃ event : LockEvent R τ, ¬ event.IsRequest ∧
        ∃ next, OrderedLocks.step plans state event = some next := howned.progress hbusy
    obtain ⟨event, hevent, next, hstep⟩ := hmoves
    have hless := remaining_step hevent hstep
    obtain ⟨events, hevents, final, hrun, hfinal⟩ := ih (howned.step hplans hstep) (by omega)
    refine ⟨event :: events, ?_, final, ?_, hfinal⟩
    · intro e hmem
      rcases List.mem_cons.mp hmem with rfl | hmem
      · exact hevent
      · exact hevents e hmem
    · rw [List.foldlM_cons, hstep]
      exact hrun

end Progress

end OrderedLocks
