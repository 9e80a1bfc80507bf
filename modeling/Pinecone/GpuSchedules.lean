import Mathlib.Data.List.Basic
import Mathlib.Tactic.Common
import Pinecone.GpuQueues

/-! What the scheduling of GPU commands has to keep: the histories of commands that exclude each other,
start and are published in order, and belong to the reset that they follow. -/

namespace Pinecone

/-- The number of the last command that was staged, and the commands that are staged and neither
published nor forgotten by a reset, oldest first. -/
structure GpuSchedule where
  staged : ℕ
  pending : List GpuQueuedCommand

namespace GpuSchedule

/-- What may happen to the commands. A command starts when no active command and no older command that
has not started conflicts with it. It is answered once, and published with its own response when no
older command of its queue is left. -/
inductive Step : GpuSchedule → GpuQueueEvent → GpuSchedule → Prop
  | staged (n : ℕ) (pending : List GpuQueuedCommand) (command : GpuQueuedCommand)
    (hnumber : command.number = n + 1) (hstarted : command.started = false)
    (hresponse : command.response = none) (hcount : pending.length < maximumPendingGpuCommands)
    (hbytes : retainedBytes pending + command.request.length ≤ maximumPendingGpuRequestBytes) :
    Step ⟨n, pending⟩ (.staged command) ⟨n + 1, pending ++ [command]⟩
  | started (n : ℕ) (earlier later : List GpuQueuedCommand) (command : GpuQueuedCommand)
    (hstarted : command.started = false)
    (hactive : ((earlier ++ command :: later).filter GpuQueuedCommand.isActive).length <
      maximumInFlightGpuCommands)
    (hexcludes : ∀ other ∈ earlier ++ command :: later, other.isActive = true →
      command.conflicts other = false)
    (horder : ∀ other ∈ earlier, other.started = false → command.conflicts other = false) :
    Step ⟨n, earlier ++ command :: later⟩ (.started command.number)
      ⟨n, earlier ++ { command with started := true } :: later⟩
  | answered (n : ℕ) (earlier later : List GpuQueuedCommand) (command : GpuQueuedCommand)
    (hstarted : command.started = true) (hresponse : command.response = none)
    (response : List U8) :
    Step ⟨n, earlier ++ command :: later⟩ (.answered command.number response)
      ⟨n, earlier ++ { command with response := some response } :: later⟩
  | published (n : ℕ) (earlier later : List GpuQueuedCommand) (command : GpuQueuedCommand)
    (response : List U8) (hresponse : command.response = some response)
    (horder : ∀ other ∈ earlier, other.queue ≠ command.queue)
    (usedLength : BitVec 32) (written : List U8)
    (hwritten : (usedLength, written) =
      if command.queue = controlQueue then (BitVec.ofNat 32 response.length, response)
      else (0, [])) :
    Step ⟨n, earlier ++ command :: later⟩
      (.published command.number command.descriptorIndex usedLength written) ⟨n, earlier ++ later⟩
  | reset (n : ℕ) (pending : List GpuQueuedCommand) : Step ⟨n, pending⟩ .reset ⟨n, []⟩

/-- No two active commands conflict, and no limit is passed. The commands are in the order of their
numbers, and those that are answered have started. -/
structure Consistent (schedule : GpuSchedule) : Prop where
  independent : schedule.pending.Pairwise fun command other =>
    command.isActive = true → other.isActive = true → command.conflicts other = false
  inFlight : (schedule.pending.filter GpuQueuedCommand.isActive).length ≤ maximumInFlightGpuCommands
  count : schedule.pending.length ≤ maximumPendingGpuCommands
  bytes : retainedBytes schedule.pending ≤ maximumPendingGpuRequestBytes
  sorted : schedule.pending.Pairwise fun command other => command.number < other.number
  numbered : ∀ command ∈ schedule.pending, command.number ≤ schedule.staged
  answered : ∀ command ∈ schedule.pending, command.response ≠ none → command.started = true

end GpuSchedule

/-- The histories of commands, with what they leave. -/
inductive GpuHistory : List GpuQueueEvent → GpuSchedule → Prop
  | nil : GpuHistory [] ⟨0, []⟩
  | snoc {history : List GpuQueueEvent} {schedule schedule' : GpuSchedule} {event : GpuQueueEvent}
    (h : GpuHistory history schedule) (hstep : schedule.Step event schedule') :
    GpuHistory (history ++ [event]) schedule'

/-! ## Conflicts -/

theorem GpuResourceAccess.conflicts_comm (access other : GpuResourceAccess) :
    access.conflicts other = other.conflicts access := by
  have hwrites : Disjoint access.writes other.writes ↔ Disjoint other.writes access.writes :=
    disjoint_comm
  have hreads : Disjoint access.writes other.reads ↔ Disjoint other.reads access.writes :=
    disjoint_comm
  have hreads' : Disjoint access.reads other.writes ↔ Disjoint other.writes access.reads :=
    disjoint_comm
  unfold conflicts
  rw [decide_eq_decide.mpr hwrites, decide_eq_decide.mpr hreads, decide_eq_decide.mpr hreads',
    Bool.or_comm access.isGlobal, Bool.or_right_comm]

theorem GpuQueuedCommand.conflicts_comm (command other : GpuQueuedCommand) :
    command.conflicts other = other.conflicts command :=
  GpuResourceAccess.conflicts_comm _ _

/-! ## What a step keeps -/

namespace GpuSchedule

variable {schedule schedule' : GpuSchedule} {event : GpuQueueEvent}

theorem isActive_of_unstarted {command : GpuQueuedCommand} (h : command.started = false) :
    command.isActive = false := by
  simp [GpuQueuedCommand.isActive, h]

theorem isActive_of_answered {command : GpuQueuedCommand} {response : List U8}
    (h : command.response = some response) : command.isActive = false := by
  simp [GpuQueuedCommand.isActive, h]

theorem pairwise_replace {α : Type} {R : α → α → Prop} {earlier later : List α} {a b : α}
    (h : (earlier ++ a :: later).Pairwise R) (hearlier : ∀ x ∈ earlier, R x a → R x b)
    (hlater : ∀ x ∈ later, R a x → R b x) : (earlier ++ b :: later).Pairwise R := by
  rw [List.pairwise_append] at h ⊢
  obtain ⟨hfirst, hrest, hcross⟩ := h
  obtain ⟨hhead, htail⟩ := List.pairwise_cons.mp hrest
  refine ⟨hfirst, List.pairwise_cons.mpr ⟨fun x hx => hlater x hx (hhead x hx), htail⟩,
    fun x hx y hy => ?_⟩
  rcases List.mem_cons.mp hy with rfl | hy
  · exact hearlier x hx (hcross x hx a List.mem_cons_self)
  · exact hcross x hx y (List.mem_cons_of_mem _ hy)

theorem forall_replace {α : Type} {P : α → Prop} {earlier later : List α} {a b : α}
    (h : ∀ x ∈ earlier ++ a :: later, P x) (hb : P b) : ∀ x ∈ earlier ++ b :: later, P x := by
  intro x hx
  rcases List.mem_append.mp hx with hx | hx
  · exact h x (List.mem_append_left _ hx)
  · rcases List.mem_cons.mp hx with rfl | hx
    · exact hb
    · exact h x (List.mem_append_right _ (List.mem_cons_of_mem _ hx))

theorem retainedBytes_append (commands commands' : List GpuQueuedCommand) :
    retainedBytes (commands ++ commands') = retainedBytes commands + retainedBytes commands' := by
  simp [retainedBytes]

theorem retainedBytes_cons (command : GpuQueuedCommand) (commands : List GpuQueuedCommand) :
    retainedBytes (command :: commands) = command.request.length + retainedBytes commands := by
  simp [retainedBytes]

theorem Consistent.step (h : schedule.Consistent) (hstep : schedule.Step event schedule') :
    schedule'.Consistent := by
  obtain ⟨hindependent, hinFlight, hcount, hbytes, hsorted, hnumbered, hanswered⟩ := h
  cases hstep with
  | staged n pending command hnumber hstarted hresponse hroom hfits =>
    have hidle := isActive_of_unstarted hstarted
    refine ⟨?_, ?_, ?_, ?_, ?_, fun other hother => ?_, fun other hother => ?_⟩
    · rw [List.pairwise_append]
      exact ⟨hindependent, List.pairwise_singleton _ _, by simp [hidle]⟩
    · rw [List.filter_append, List.filter_singleton, hidle]
      simpa using hinFlight
    · dsimp only
      rw [List.length_append, List.length_singleton]
      exact hroom
    · rw [retainedBytes_append, retainedBytes_cons]
      simpa [retainedBytes] using hfits
    · rw [List.pairwise_append]
      refine ⟨hsorted, List.pairwise_singleton _ _, fun other hother _ hlast => ?_⟩
      have hle : other.number ≤ n := hnumbered other hother
      rw [List.mem_singleton.mp hlast]
      omega
    · change other.number ≤ n + 1
      rcases List.mem_append.mp hother with hother | hother
      · exact Nat.le_succ_of_le (hnumbered other hother)
      · rw [List.mem_singleton.mp hother, hnumber]
    · rcases List.mem_append.mp hother with hother | hother
      · exact hanswered other hother
      · rw [List.mem_singleton.mp hother, hresponse]
        simp
  | started n earlier later command hstarted hactive hexcludes horder =>
    have hidle := isActive_of_unstarted hstarted
    refine ⟨pairwise_replace hindependent (fun other hother _ hbusy _ => ?_)
        (fun other hother _ _ hbusy => ?_), ?_, ?_, ?_,
      pairwise_replace hsorted (fun _ _ h => h) (fun _ _ h => h),
      forall_replace hnumbered (hnumbered command (by simp)), forall_replace hanswered (by simp)⟩
    · rw [GpuQueuedCommand.conflicts_comm]
      exact hexcludes other (List.mem_append_left _ hother) hbusy
    · exact hexcludes other (List.mem_append_right _ (List.mem_cons_of_mem _ hother)) hbusy
    · dsimp only
      rw [List.filter_append, List.filter_cons_of_neg (by simp [hidle]), List.length_append] at hactive
      rw [List.filter_append, List.length_append]
      have hle := List.length_filter_le GpuQueuedCommand.isActive
        [{ command with started := true }]
      have hcons : (({ command with started := true } : GpuQueuedCommand) :: later) =
          [{ command with started := true }] ++ later := rfl
      rw [hcons, List.filter_append, List.length_append]
      simp only [List.length_singleton] at hle
      omega
    · simpa using hcount
    · rw [retainedBytes_append, retainedBytes_cons] at hbytes ⊢
      exact hbytes
  | answered n earlier later command hstarted hresponse response =>
    refine ⟨pairwise_replace hindependent (fun other hother _ _ hbusy => ?_)
        (fun other hother _ hbusy => ?_), ?_, ?_, ?_,
      pairwise_replace hsorted (fun _ _ h => h) (fun _ _ h => h),
      forall_replace hnumbered (hnumbered command (by simp)),
      forall_replace hanswered fun _ => hstarted⟩
    · rw [isActive_of_answered rfl] at hbusy
      simp at hbusy
    · rw [isActive_of_answered rfl] at hbusy
      simp at hbusy
    · have hidle : ({ command with response := some response } : GpuQueuedCommand).isActive = false :=
        isActive_of_answered rfl
      have hbusy : command.isActive = true := by simp [GpuQueuedCommand.isActive, hstarted, hresponse]
      dsimp only at hinFlight ⊢
      rw [List.filter_append, List.filter_cons_of_pos hbusy, List.length_append,
        List.length_cons] at hinFlight
      rw [List.filter_append, List.filter_cons_of_neg (by simp [hidle]), List.length_append]
      omega
    · simpa using hcount
    · rw [retainedBytes_append, retainedBytes_cons] at hbytes ⊢
      exact hbytes
  | published n earlier later command response hresponse horder usedLength written hwritten =>
    have hsublist : (earlier ++ later).Sublist (earlier ++ command :: later) :=
      (List.sublist_cons_self command later).append_left earlier
    refine ⟨hindependent.sublist hsublist, ?_, ?_, ?_, hsorted.sublist hsublist,
      fun other hother => hnumbered other (hsublist.subset hother),
      fun other hother => hanswered other (hsublist.subset hother)⟩
    · exact (hsublist.filter _).length_le.trans hinFlight
    · exact hsublist.length_le.trans hcount
    · rw [retainedBytes_append, retainedBytes_cons] at hbytes
      rw [retainedBytes_append]
      omega
  | reset n pending =>
    exact ⟨List.Pairwise.nil, by simp, by simp, by simp [retainedBytes], List.Pairwise.nil, by simp,
      by simp⟩

theorem Step.staged_le (h : schedule.Step event schedule') : schedule.staged ≤ schedule'.staged := by
  cases h with
  | staged => exact Nat.le_succ _
  | started | answered | published | reset => exact Nat.le_refl _

theorem Step.pending (h : schedule.Step event schedule') {command : GpuQueuedCommand}
    (hcommand : command ∈ schedule'.pending) :
    (∃ before ∈ schedule.pending, before.number = command.number) ∨
      schedule.staged < command.number := by
  cases h with
  | staged n pending added hnumber =>
    rcases List.mem_append.mp hcommand with hold | hnew
    · exact .inl ⟨command, hold, rfl⟩
    · rw [List.mem_singleton.mp hnew, hnumber]
      exact .inr (Nat.lt_succ_self n)
  | started n earlier later started =>
    exact .inl (forall_replace (P := fun command =>
      ∃ before ∈ earlier ++ started :: later, before.number = command.number)
      (fun other hother => ⟨other, hother, rfl⟩) ⟨started, by simp, rfl⟩ command hcommand)
  | answered n earlier later answered =>
    exact .inl (forall_replace (P := fun command =>
      ∃ before ∈ earlier ++ answered :: later, before.number = command.number)
      (fun other hother => ⟨other, hother, rfl⟩) ⟨answered, by simp, rfl⟩ command hcommand)
  | published n earlier later published =>
    have hsublist : (earlier ++ later).Sublist (earlier ++ published :: later) :=
      (List.sublist_cons_self published later).append_left earlier
    exact .inl ⟨command, hsublist.subset hcommand, rfl⟩
  | reset => simp at hcommand

end GpuSchedule

/-! ## Histories -/

namespace GpuHistory

variable {history before after : List GpuQueueEvent} {schedule : GpuSchedule} {event : GpuQueueEvent}

theorem unsnoc (h : GpuHistory (history ++ [event]) schedule) :
    ∃ schedule', GpuHistory history schedule' ∧ schedule'.Step event schedule := by
  generalize hfull : history ++ [event] = full at h
  cases h with
  | nil => simp at hfull
  | snoc hbefore hstep =>
    obtain ⟨rfl, heq⟩ := List.append_inj' hfull rfl
    obtain rfl := List.singleton_injective heq
    exact ⟨_, hbefore, hstep⟩

theorem consistent (h : GpuHistory history schedule) : schedule.Consistent := by
  induction h with
  | nil =>
    exact ⟨List.Pairwise.nil, by simp, by simp, by simp [retainedBytes], List.Pairwise.nil, by simp,
      by simp⟩
  | snoc _ hstep ih => exact ih.step hstep

theorem at_earlier (h : GpuHistory (before ++ after) schedule) :
    ∃ schedule', GpuHistory before schedule' := by
  induction after using List.reverseRecOn generalizing schedule with
  | nil => exact ⟨schedule, by simpa using h⟩
  | append_singleton after event ih =>
    rw [← List.append_assoc] at h
    obtain ⟨schedule', hbefore, _⟩ := h.unsnoc
    exact ih hbefore

theorem after_reset (h : GpuHistory (before ++ .reset :: after) schedule) :
    ∃ schedule', GpuHistory before schedule' ∧ schedule'.staged ≤ schedule.staged ∧
      ∀ command ∈ schedule.pending, schedule'.staged < command.number := by
  induction after using List.reverseRecOn generalizing schedule with
  | nil =>
    obtain ⟨schedule', hbefore, hstep⟩ := unsnoc h
    cases hstep with
    | reset => exact ⟨_, hbefore, Nat.le_refl _, by simp⟩
  | append_singleton after event ih =>
    rw [← List.cons_append, ← List.append_assoc] at h
    obtain ⟨last, hlast, hstep⟩ := h.unsnoc
    obtain ⟨schedule', hbefore, hstaged, hpending⟩ := ih hlast
    refine ⟨schedule', hbefore, hstaged.trans hstep.staged_le, fun command hcommand => ?_⟩
    rcases hstep.pending hcommand with ⟨old, hold, hnumber⟩ | hnew
    · rw [← hnumber]
      exact hpending old hold
    · exact Nat.lt_of_le_of_lt hstaged hnew

theorem staged_le (h : GpuHistory history schedule) {command : GpuQueuedCommand}
    (hcommand : GpuQueueEvent.staged command ∈ history) : command.number ≤ schedule.staged := by
  induction h with
  | nil => simp at hcommand
  | snoc hbefore hstep ih =>
    rcases List.mem_append.mp hcommand with hold | hnew
    · exact (ih hold).trans hstep.staged_le
    · obtain rfl := List.mem_singleton.mp hnew
      cases hstep with
      | staged n pending command hnumber => exact Nat.le_of_eq hnumber

/-- The command was staged as it is, and its response was its answer. -/
def Accounts (history : List GpuQueueEvent) (command : GpuQueuedCommand) : Prop :=
  GpuQueueEvent.staged { command with started := false, response := none } ∈ history ∧
    ∀ response ∈ command.response, GpuQueueEvent.answered command.number response ∈ history

theorem Accounts.snoc {command : GpuQueuedCommand} (h : Accounts history command)
    (event : GpuQueueEvent) : Accounts (history ++ [event]) command :=
  ⟨List.mem_append_left _ h.1, fun response hresponse =>
    List.mem_append_left _ (h.2 response hresponse)⟩

theorem accounts (h : GpuHistory history schedule) :
    ∀ command ∈ schedule.pending, Accounts history command := by
  induction h with
  | nil => simp
  | snoc hbefore hstep ih =>
    cases hstep with
    | staged n pending added hnumber hstarted hresponse =>
      intro command hcommand
      rcases List.mem_append.mp hcommand with hold | hnew
      · exact (ih command hold).snoc _
      · obtain rfl := List.mem_singleton.mp hnew
        have hsame : ({ command with started := false, response := none } : GpuQueuedCommand) =
            command := by
          rw [← hstarted, ← hresponse]
        unfold Accounts
        rw [hsame, hresponse]
        exact ⟨by simp, by simp⟩
    | started n earlier later started =>
      have hkept := fun command hcommand => (ih command hcommand).snoc (.started started.number)
      exact GpuSchedule.forall_replace hkept (hkept started (by simp))
    | answered n earlier later answered hstarted hnone answer =>
      have hkept := fun command hcommand =>
        (ih command hcommand).snoc (.answered answered.number answer)
      refine GpuSchedule.forall_replace hkept ⟨(hkept answered (by simp)).1, fun response hresponse => ?_⟩
      obtain rfl := Option.some.inj hresponse
      exact List.mem_append_right _ (by simp)
    | published n earlier later published =>
      have hsublist : (earlier ++ later).Sublist (earlier ++ published :: later) :=
        (List.sublist_cons_self published later).append_left earlier
      exact fun command hcommand => (ih command (hsublist.subset hcommand)).snoc _
    | reset => simp

/-- The used elements of a command. -/
def isPublishedAs (number : ℕ) : GpuQueueEvent → Bool
  | .published published _ _ _ => published = number
  | .staged _ | .started _ | .answered _ _ | .reset => false

def publishedCount (number : ℕ) (history : List GpuQueueEvent) : ℕ :=
  (history.filter (isPublishedAs number)).length

theorem publishedCount_snoc (number : ℕ) (history : List GpuQueueEvent) (event : GpuQueueEvent) :
    publishedCount number (history ++ [event]) =
      publishedCount number history + if isPublishedAs number event = true then 1 else 0 := by
  unfold publishedCount
  rw [List.filter_append, List.length_append, List.filter_singleton]
  cases isPublishedAs number event <;> rfl

/-- A command with the number is pending or may still be staged. -/
def Remains (number : ℕ) (schedule : GpuSchedule) : Prop :=
  (∃ command ∈ schedule.pending, command.number = number) ∨ schedule.staged < number

theorem remains_earlier {number : ℕ} {schedule' : GpuSchedule}
    (hstep : schedule.Step event schedule') (h : Remains number schedule') :
    Remains number schedule := by
  rcases h with ⟨command, hcommand, hnumber⟩ | hlater
  · rw [← hnumber]
    exact hstep.pending hcommand
  · exact .inr (Nat.lt_of_le_of_lt hstep.staged_le hlater)

theorem not_remains {n : ℕ} {earlier later : List GpuQueuedCommand} {command : GpuQueuedCommand}
    (h : GpuSchedule.Consistent ⟨n, earlier ++ command :: later⟩) :
    ¬ Remains command.number ⟨n, earlier ++ later⟩ := by
  rintro (⟨other, hother, hnumber⟩ | hlater)
  · have hsorted := h.sorted
    rw [List.pairwise_append] at hsorted
    obtain ⟨_, hrest, hcross⟩ := hsorted
    rcases List.mem_append.mp hother with hother | hother
    · exact absurd hnumber (Nat.ne_of_lt (hcross other hother command List.mem_cons_self))
    · exact absurd hnumber (Nat.ne_of_lt ((List.pairwise_cons.mp hrest).1 other hother)).symm
  · exact absurd (h.numbered command (by simp)) (Nat.not_le_of_lt hlater)

theorem published_once (h : GpuHistory history schedule) (number : ℕ) :
    publishedCount number history ≤ 1 ∧
      (Remains number schedule → publishedCount number history = 0) := by
  induction h with
  | nil => exact ⟨Nat.zero_le 1, fun _ => rfl⟩
  | snoc hbefore hstep ih =>
    obtain ⟨hone, hzero⟩ := ih
    rw [publishedCount_snoc]
    have hkept := fun hleft => hzero (remains_earlier hstep hleft)
    cases hstep with
    | published n earlier later command response hresponse horder =>
      by_cases hsame : command.number = number
      · subst hsame
        rw [hzero (.inl ⟨command, by simp, rfl⟩), isPublishedAs]
        exact ⟨by simp, fun hleft => absurd hleft (not_remains hbefore.consistent)⟩
      · simp only [isPublishedAs, hsame, decide_false, Bool.false_eq_true, if_false, Nat.add_zero]
        exact ⟨hone, hkept⟩
    | staged | started | answered | reset => exact ⟨hone, hkept⟩

end GpuHistory

end Pinecone
