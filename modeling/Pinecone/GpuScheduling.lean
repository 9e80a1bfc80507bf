import Pinecone.FallibleMoves
import Pinecone.GpuSchedules
import Pinecone.VirtioServing

/-! The GPU commands are scheduled as they have to be, and no command waits for its used element when
the responses of all can be delivered. -/

namespace Pinecone

open Fallible GpuStep

variable {σ α β : Type}

/-! ## Deliveries to the guest -/

namespace VirtioHost

variable (host : VirtioHost σ)

/-- The response of the command fits its descriptors, and they and the used ring can be written. -/
def Deliverable (command : GpuQueuedCommand) (response : List U8) : Prop :=
  ∀ outside, (host.deliverGpuResponse command response outside).1 ≠ none

def AllDeliverable (history : List GpuQueueEvent) : Prop :=
  ∀ command response, GpuQueueEvent.staged command ∈ history →
    GpuQueueEvent.answered command.number response ∈ history → host.Deliverable command response

theorem guestBytes_length {address : U64} {count : ℕ} {s s' : σ} {bytes : List U8}
    (h : host.guestBytes address count s = (some bytes, s')) : bytes.length = count := by
  unfold guestBytes at h
  rcases hcopied : host.copyFromGuest address count s with ⟨_ | content, t⟩
  · rw [bind_of_none hcopied] at h
    simp at h
  · rw [bind_of_some hcopied, pure_apply] at h
    obtain ⟨hbytes, _⟩ := Prod.mk.inj h
    rw [← Option.some.inj hbytes]
    simp

theorem readableBytes_length {descriptors : List VirtioDescriptor} {s s' : σ} {bytes : List U8}
    (h : host.readableBytes descriptors s = (some bytes, s')) :
    bytes.length = ((descriptors.filter fun descriptor => !descriptor.isDeviceWritable).map
      VirtioDescriptor.count).sum := by
  induction descriptors generalizing s s' bytes with
  | nil =>
    obtain ⟨hbytes, _⟩ := Prod.mk.inj h
    rw [← Option.some.inj hbytes]
    rfl
  | cons descriptor rest ih =>
    unfold readableBytes at h
    split at h
    · rename_i hwritable
      rw [ih h, List.filter_cons_of_neg (by simp [hwritable])]
    · rename_i hwritable
      rcases hread : host.guestBytes descriptor.address descriptor.count s with ⟨_ | content, t⟩
      · rw [bind_of_none hread] at h
        simp at h
      · rw [bind_of_some hread] at h
        rcases hrest : host.readableBytes rest t with ⟨_ | more, t'⟩
        · rw [bind_of_none hrest] at h
          simp at h
        · rw [bind_of_some hrest, pure_apply] at h
          obtain ⟨hbytes, _⟩ := Prod.mk.inj h
          rw [← Option.some.inj hbytes, List.length_append, host.guestBytes_length hread, ih hrest,
            List.filter_cons_of_pos (by simp [hwritable])]
          rfl

theorem copyResponseBytes_written {descriptors : List VirtioDescriptor} {response : List U8}
    {s s' : σ} {written : List U8}
    (h : host.copyResponseBytes descriptors response s = (some written, s')) :
    written = response.take (descriptors.map VirtioDescriptor.count).sum := by
  induction descriptors generalizing response s s' written with
  | nil =>
    obtain ⟨hwritten, _⟩ := Prod.mk.inj h
    rw [← Option.some.inj hwritten]
    rfl
  | cons descriptor rest ih =>
    unfold copyResponseBytes at h
    split at h
    · rename_i hempty
      obtain ⟨hwritten, _⟩ := Prod.mk.inj h
      rw [← Option.some.inj hwritten, hempty, List.take_nil]
    · rcases hcopied : host.copyToGuest (response.take descriptor.count) descriptor.address s with
        ⟨_ | done, t⟩
      · rw [bind_of_none hcopied] at h
        simp at h
      · rw [bind_of_some hcopied] at h
        rcases hrest : host.copyResponseBytes rest (response.drop descriptor.count) t with
          ⟨_ | more, t'⟩
        · rw [bind_of_none hrest] at h
          simp at h
        · rw [bind_of_some hrest, pure_apply] at h
          obtain ⟨hwritten, _⟩ := Prod.mk.inj h
          rw [← Option.some.inj hwritten, ih hrest, List.map_cons, List.sum_cons, List.take_add]

theorem deliverGpuResponse_copied {command : GpuQueuedCommand} {response : List U8} {s s' : σ}
    {copied : BitVec 32 × List U8}
    (h : host.deliverGpuResponse command response s = (some copied, s')) :
    copied = if command.queue = controlQueue then (BitVec.ofNat 32 response.length, response)
      else (0, []) := by
  unfold deliverGpuResponse at h
  rcases hcopy : host.copyGpuResponse command response s with ⟨_ | copied', t⟩
  · rw [bind_of_none hcopy] at h
    simp at h
  · rw [bind_of_some hcopy] at h
    have hsame : copied' = copied := by
      rcases hused : host.writeUsedElement command.descriptorIndex copied'.1 command.queueState t with
        ⟨_ | done, t'⟩
      · rw [bind_of_none hused] at h
        simp at h
      · rw [bind_of_some hused, pure_apply] at h
        exact Option.some.inj (Prod.mk.inj h).1
    subst hsame
    unfold copyGpuResponse at hcopy
    split at hcopy
    · rename_i hcontrol
      rw [if_pos hcontrol]
      split at hcopy
      · simp [fail] at hcopy
      · rename_i hroom
        rcases hwrite : host.copyResponseBytes command.responseDescriptors response s with
          ⟨_ | written, t'⟩
        · rw [bind_of_none hwrite] at hcopy
          simp at hcopy
        · rw [bind_of_some hwrite, pure_apply] at hcopy
          obtain ⟨hcopied, _⟩ := Prod.mk.inj hcopy
          rw [← Option.some.inj hcopied, host.copyResponseBytes_written hwrite,
            List.take_of_length_le (Nat.le_of_not_lt hroom)]
    · rename_i hcontrol
      rw [if_neg hcontrol]
      obtain ⟨hcopied, _⟩ := Prod.mk.inj hcopy
      exact (Option.some.inj hcopied).symm

end VirtioHost

/-! ## Commands in their list -/

theorem commandToken_inj {number number' : ℕ} (hnumber : number < 2 ^ 64) (hnumber' : number' < 2 ^ 64)
    (h : commandToken number = commandToken number') : number = number' := by
  have hnat := congrArg BitVec.toNat h
  simp only [commandToken, BitVec.toNat_ofNat] at hnat
  rwa [Nat.mod_eq_of_lt hnumber, Nat.mod_eq_of_lt hnumber'] at hnat

theorem updateCommand_split {earlier later : List GpuQueuedCommand} {command : GpuQueuedCommand}
    (hsorted : (earlier ++ command :: later).Pairwise fun command other =>
      command.number < other.number) (change : GpuQueuedCommand → GpuQueuedCommand) :
    (earlier ++ command :: later).map (fun other =>
      if other.number = command.number then change other else other) =
        earlier ++ change command :: later := by
  rw [List.pairwise_append] at hsorted
  obtain ⟨_, hrest, hcross⟩ := hsorted
  have hkeep : ∀ others : List GpuQueuedCommand, (∀ other ∈ others, other.number ≠ command.number) →
      others.map (fun other => if other.number = command.number then change other else other) =
        others := fun others hne => by
    rw [List.map_congr_left fun other hother => if_neg (hne other hother), List.map_id']
  rw [List.map_append, List.map_cons, if_pos rfl,
    hkeep earlier fun other hother => Nat.ne_of_lt (hcross other hother command List.mem_cons_self),
    hkeep later fun other hother => (Nat.ne_of_lt ((List.pairwise_cons.mp hrest).1 other hother)).symm]

theorem nextRunnableFrom_spec {active earlier commands : List GpuQueuedCommand}
    {command : GpuQueuedCommand} (h : nextRunnableFrom active earlier commands = some command) :
    ∃ passed later, commands = passed ++ command :: later ∧ command.started = false ∧
      (∀ other ∈ active, command.conflicts other = false) ∧
      ∀ other ∈ earlier ++ passed, other.started = false → command.conflicts other = false := by
  induction commands generalizing earlier with
  | nil => simp [nextRunnableFrom] at h
  | cons next rest ih =>
    unfold nextRunnableFrom at h
    split at h
    · rename_i hruns
      obtain rfl := Option.some.inj h
      obtain ⟨hstarted, hactive, horder⟩ := hruns
      refine ⟨[], rest, rfl, hstarted, by simpa using hactive, fun other hother hwaits => ?_⟩
      rw [List.append_nil] at hother
      have hfree := List.any_eq_false.mp horder other hother
      simpa [hwaits] using hfree
    · obtain ⟨passed, later, hsplit, hstarted, hactive, horder⟩ := ih h
      refine ⟨next :: passed, later, by rw [hsplit]; rfl, hstarted, hactive, ?_⟩
      rw [List.append_assoc] at horder
      exact horder

theorem nextRunnableGpuCommand_spec {commands : List GpuQueuedCommand} {command : GpuQueuedCommand}
    (h : nextRunnableGpuCommand commands = some command) :
    ∃ earlier later, commands = earlier ++ command :: later ∧ command.started = false ∧
      (commands.filter GpuQueuedCommand.isActive).length < maximumInFlightGpuCommands ∧
      (∀ other ∈ commands, other.isActive = true → command.conflicts other = false) ∧
      ∀ other ∈ earlier, other.started = false → command.conflicts other = false := by
  unfold nextRunnableGpuCommand at h
  dsimp only at h
  split at h
  · rename_i hroom
    obtain ⟨earlier, later, hsplit, hstarted, hactive, horder⟩ := nextRunnableFrom_spec h
    exact ⟨earlier, later, hsplit, hstarted, hroom,
      fun other hother hbusy => hactive other (List.mem_filter.mpr ⟨hother, hbusy⟩), horder⟩
  · simp at h

/-- The first command of each queue has no response. -/
def Settled (commands : List GpuQueuedCommand) : Prop :=
  ∀ earlier command later, commands = earlier ++ command :: later →
    (∀ other ∈ earlier, other.queue ≠ command.queue) → command.response = none

theorem Settled.waits {commands earlier later : List GpuQueuedCommand} {command : GpuQueuedCommand}
    (h : Settled commands) (hsplit : commands = earlier ++ command :: later)
    (hresponse : command.response ≠ none) :
    ∃ other ∈ earlier, other.queue = command.queue ∧ other.response = none := by
  cases hfirst : earlier.find? (fun other => other.queue = command.queue) with
  | none =>
    rw [List.find?_eq_none] at hfirst
    exact absurd (h earlier command later hsplit (by simpa using hfirst)) hresponse
  | some first =>
    obtain ⟨hqueue, before, after, hearlier, hbefore⟩ := List.find?_eq_some_iff_append.mp hfirst
    have hqueue' : first.queue = command.queue := by simpa using hqueue
    refine ⟨first, List.mem_of_find?_eq_some hfirst, hqueue', ?_⟩
    refine h before first (after ++ command :: later) ?_ fun other hother => ?_
    · rw [hsplit, hearlier, List.append_assoc]
      rfl
    · rw [hqueue']
      simpa using hbefore other hother

theorem Settled.snoc {commands : List GpuQueuedCommand} {command : GpuQueuedCommand}
    (h : Settled commands)
    (hcommand : command.response = none ∨ ∃ other ∈ commands, other.queue = command.queue) :
    Settled (commands ++ [command]) := by
  intro earlier other later hsplit hfirst
  rcases List.append_eq_append_iff.mp hsplit with ⟨more, hearlier, hlast⟩ | ⟨more, hcommands, hlast⟩
  · cases more with
    | nil =>
      obtain ⟨rfl, _⟩ := List.cons.inj hlast
      rw [List.append_nil] at hearlier
      rcases hcommand with hnone | ⟨same, hsame, hqueue⟩
      · exact hnone
      · rw [hearlier] at hfirst
        exact absurd hqueue (hfirst same hsame)
    | cons next more =>
      simp at hlast
  · cases more with
    | nil =>
      obtain ⟨rfl, _⟩ := List.cons.inj hlast.symm
      rw [List.append_nil] at hcommands
      rcases hcommand with hnone | ⟨same, hsame, hqueue⟩
      · exact hnone
      · rw [hcommands] at hsame
        exact absurd hqueue (hfirst same hsame)
    | cons next more =>
      obtain ⟨rfl, _⟩ := List.cons.inj hlast
      exact h earlier _ more hcommands hfirst

theorem settled_nil : Settled [] := by
  intro earlier command later h
  simp at h

/-! ## Steps that keep to the schedule -/

/-- The history is one of the schedule, and all that may still complete was staged. -/
structure GpuWorld.Sound (w : GpuWorld σ) : Prop where
  history : GpuHistory w.history ⟨w.staged, w.gpuCommands⟩
  deliveries : ∀ delivery ∈ w.deliveries, delivery.number ≤ w.staged
  completions : ∀ completion ∈ w.completions, completion.1 ≤ w.staged

/-- As long as the tokens do not repeat, the world stays sound. -/
structure Schedules (w w' : GpuWorld σ) : Prop where
  staged : w.staged ≤ w'.staged
  history : w.history <+: w'.history
  sound : w'.staged < 2 ^ 64 → w.Sound → w'.Sound

instance : Std.Refl (Schedules (σ := σ)) := ⟨fun _ => ⟨Nat.le_refl _, List.prefix_rfl, fun _ h => h⟩⟩

instance : IsTrans (GpuWorld σ) Schedules := ⟨fun _ _ _ h h' =>
  ⟨h.staged.trans h'.staged, h.history.trans h'.history, fun hbound hsound =>
    h'.sound hbound (h.sound (Nat.lt_of_le_of_lt h'.staged hbound) hsound)⟩⟩

/-- The commands and all that may complete are the same. -/
structure SameCommands (w w' : GpuWorld σ) : Prop where
  gpuCommands : w'.gpuCommands = w.gpuCommands
  staged : w'.staged = w.staged
  deliveries : w'.deliveries = w.deliveries
  completions : w'.completions = w.completions
  history : w'.history = w.history

instance : Std.Refl (SameCommands (σ := σ)) := ⟨fun _ => ⟨rfl, rfl, rfl, rfl, rfl⟩⟩

instance : IsTrans (GpuWorld σ) SameCommands := ⟨fun _ _ _ h h' =>
  ⟨h'.gpuCommands.trans h.gpuCommands, h'.staged.trans h.staged, h'.deliveries.trans h.deliveries,
    h'.completions.trans h.completions, h'.history.trans h.history⟩⟩

section Moves

variable {w w' : GpuWorld σ} {host : VirtioHost σ} {gpu : VirtioGpu σ}

theorem SameCommands.sound (h : SameCommands w w') (hsound : w.Sound) : w'.Sound where
  history := by
    rw [h.history, h.staged, h.gpuCommands]
    exact hsound.history
  deliveries := by
    rw [h.deliveries, h.staged]
    exact hsound.deliveries
  completions := by
    rw [h.completions, h.staged]
    exact hsound.completions

theorem SameCommands.schedules (h : SameCommands w w') : Schedules w w' :=
  ⟨h.staged.ge, h.history ▸ List.prefix_rfl, fun _ => h.sound⟩

theorem getWorld_bind (f : GpuWorld σ → GpuStep σ β) (w : GpuWorld σ) :
    (getWorld >>= f) w = f w w := rfl

theorem modifyWorld_bind (change : GpuWorld σ → GpuWorld σ) (f : Unit → GpuStep σ β)
    (w : GpuWorld σ) : (modifyWorld change >>= f) w = f () (change w) := rfl

theorem getWorld_same : Moves SameCommands (getWorld : GpuStep σ (GpuWorld σ)) :=
  fun w => Std.Refl.refl w

theorem onOutside_same_commands (m : Fallible σ α) : Moves SameCommands (GpuStep.onOutside m) :=
  fun _ => ⟨rfl, rfl, rfl, rfl, rfl⟩

theorem runOutside_same (m : σ → α × σ) : Moves SameCommands (runOutside m) :=
  onOutside_same_commands _

theorem onOutside_result {m : Fallible σ α} {a : α} (h : GpuStep.onOutside m w = (some a, w')) :
    m w.outside = (some a, (m w.outside).2) := by
  have hresult : (GpuStep.onOutside m w).1 = some a := by rw [h]
  exact Prod.ext hresult rfl

theorem schedules_of_same {m : GpuStep σ α} (h : Moves SameCommands m) : Moves Schedules m :=
  fun w => (h w).schedules

theorem Schedules.of_step {event : GpuQueueEvent} (hstaged : w.staged ≤ w'.staged)
    (hhistory : w'.history = w.history ++ [event]) (hdeliveries : w'.deliveries = w.deliveries)
    (hcompletions : w'.completions = w.completions)
    (hstep : w'.staged < 2 ^ 64 → w.Sound →
      GpuSchedule.Step ⟨w.staged, w.gpuCommands⟩ event ⟨w'.staged, w'.gpuCommands⟩) :
    Schedules w w' where
  staged := hstaged
  history := hhistory ▸ List.prefix_append _ _
  sound hbound hsound :=
    { history := by
        rw [hhistory]
        exact hsound.history.snoc (hstep hbound hsound)
      deliveries := by
        rw [hdeliveries]
        exact fun delivery hdelivery => (hsound.deliveries delivery hdelivery).trans hstaged
      completions := by
        rw [hcompletions]
        exact fun completion hcompletion =>
          (hsound.completions completion hcompletion).trans hstaged }

/-! ## Staging and retirement -/

theorem stage_schedules {command : GpuQueuedCommand} (hnumber : command.number = w.staged + 1)
    (hstarted : command.started = false) (hresponse : command.response = none)
    (hroom : w.gpuCommands.length < maximumPendingGpuCommands)
    (hbytes : retainedBytes w.gpuCommands + command.request.length ≤ maximumPendingGpuRequestBytes) :
    Schedules w (w.stage command) :=
  .of_step (Nat.le_succ _) rfl rfl rfl fun _ _ =>
    .staged w.staged w.gpuCommands command hnumber hstarted hresponse hroom hbytes

theorem stageGpuCommands_schedules (queue : BitVec 32) (availableIndex : U16) (entries : ℕ) :
    Moves Schedules (host.stageGpuCommands queue availableIndex entries) := by
  induction entries with
  | zero => exact .pure ()
  | succ entries ih =>
    intro w
    unfold VirtioHost.stageGpuCommands
    rw [getWorld_bind]
    cases hstate : w.queues queue with
    | none => exact Std.Refl.refl w
    | some state =>
      refine ite_related (fun _ => Std.Refl.refl w) fun hmore => ?_
      refine bind_related (onOutside_same_commands _ w).schedules fun head w₁ hhead => ?_
      have hsame₁ := (onOutside_same_commands _).at_success hhead
      refine bind_related (onOutside_same_commands _ w₁).schedules fun descriptors w₂ hchain => ?_
      have hsame₂ := IsTrans.trans _ _ _ hsame₁ ((onOutside_same_commands _).at_success hchain)
      refine ite_related (fun _ => Std.Refl.refl w₂) fun _ => ?_
      refine ite_related (fun _ => Std.Refl.refl w₂) fun _ => ?_
      refine ite_related (fun _ => Std.Refl.refl w₂) fun _ => ?_
      refine ite_related (fun _ => Std.Refl.refl w₂) fun hfits => ?_
      refine bind_related (onOutside_same_commands _ w₂).schedules fun request w₃ hrequest => ?_
      have hsame₃ := IsTrans.trans _ _ _ hsame₂ ((onOutside_same_commands _).at_success hrequest)
      have hlength := host.readableBytes_length (onOutside_result hrequest)
      refine bind_related (stage_schedules ?_ rfl rfl ?_ ?_) fun _ w₄ _ => ih w₄
      · rw [hsame₃.staged]
      · rw [hsame₃.gpuCommands]
        omega
      · rw [hsame₃.gpuCommands]
        change _ + request.length ≤ _
        omega

theorem publish_gpuCommands {kept later : List GpuQueuedCommand} {command : GpuQueuedCommand}
    (copied : BitVec 32 × List U8) (hsplit : w.gpuCommands = kept ++ command :: later) :
    (w.publish kept.length command copied).gpuCommands = kept ++ later := by
  change w.gpuCommands.eraseIdx kept.length = _
  rw [hsplit, List.eraseIdx_append_of_length_le (Nat.le_refl _), Nat.sub_self]
  rfl

theorem publish_schedules {kept later : List GpuQueuedCommand} {command : GpuQueuedCommand}
    {response : List U8} {copied : BitVec 32 × List U8}
    (hsplit : w.gpuCommands = kept ++ command :: later) (hresponse : command.response = some response)
    (hfirst : ∀ other ∈ kept, other.queue ≠ command.queue)
    (hcopied : copied = if command.queue = controlQueue then
      (BitVec.ofNat 32 response.length, response) else (0, [])) :
    Schedules w (w.publish kept.length command copied).raiseUsedBuffer := by
  refine .of_step (Nat.le_refl _) rfl rfl rfl fun _ _ => ?_
  change GpuSchedule.Step ⟨w.staged, w.gpuCommands⟩ _
    ⟨w.staged, (w.publish kept.length command copied).gpuCommands⟩
  rw [publish_gpuCommands copied hsplit, hsplit]
  exact .published w.staged kept later command response hresponse hfirst copied.1 copied.2 hcopied

theorem blocks_snoc {kept : List GpuQueuedCommand} {blockedQueues : List (BitVec 32)}
    {command : GpuQueuedCommand} (h : ∀ other ∈ kept, other.queue ∈ blockedQueues) :
    ∀ other ∈ kept ++ [command], other.queue ∈ command.queue :: blockedQueues := by
  intro other hother
  rcases List.mem_append.mp hother with hother | hother
  · exact List.mem_cons_of_mem _ (h other hother)
  · rw [List.mem_singleton.mp hother]
    exact List.mem_cons_self

theorem blocks_kept {kept : List GpuQueuedCommand} {blockedQueues : List (BitVec 32)}
    {command : GpuQueuedCommand}
    (h : ∀ queue ∈ blockedQueues, ∃ other ∈ kept, other.queue = queue) :
    ∀ queue ∈ command.queue :: blockedQueues, ∃ other ∈ kept ++ [command], other.queue = queue := by
  intro queue hqueue
  rcases List.mem_cons.mp hqueue with rfl | hqueue
  · exact ⟨command, by simp, rfl⟩
  · obtain ⟨other, hother, hsame⟩ := h queue hqueue
    exact ⟨other, List.mem_append_left _ hother, hsame⟩

/-! The cases of the loop of the retirement. -/

section Cases

variable {index : ℕ} {blockedQueues : List (BitVec 32)} {later : List GpuQueuedCommand}
  {command : GpuQueuedCommand} {response : List U8} {copied : BitVec 32 × List U8}

theorem retireFrom_stays (hstays : command.response = none ∨ command.queue ∈ blockedQueues) :
    host.retireFrom index blockedQueues (command :: later) w =
      host.retireFrom (index + 1) (command.queue :: blockedQueues) later w := by
  rw [VirtioHost.retireFrom]
  cases hresponse : command.response with
  | none => rfl
  | some response =>
    rw [hresponse] at hstays
    dsimp only
    rw [if_pos (by simpa using hstays)]

theorem retireFrom_fails (hresponse : command.response = some response)
    (hfree : command.queue ∉ blockedQueues)
    (h : GpuStep.onOutside (host.deliverGpuResponse command response) w = (none, w')) :
    host.retireFrom index blockedQueues (command :: later) w = (none, w') := by
  rw [VirtioHost.retireFrom, hresponse]
  dsimp only
  rw [if_neg hfree, bind_of_none h]

theorem retireFrom_publishes (hresponse : command.response = some response)
    (hfree : command.queue ∉ blockedQueues)
    (h : GpuStep.onOutside (host.deliverGpuResponse command response) w = (some copied, w')) :
    host.retireFrom index blockedQueues (command :: later) w =
      ((host.retireFrom index blockedQueues later
          (w'.publish index command copied).raiseUsedBuffer).1.map (· + 1),
        (host.retireFrom index blockedQueues later
          (w'.publish index command copied).raiseUsedBuffer).2) := by
  rw [VirtioHost.retireFrom, hresponse]
  dsimp only
  rw [if_neg hfree, bind_of_some h]
  exact bind_pure_apply _ _ _

end Cases

theorem retireFrom_schedules (later : List GpuQueuedCommand) {kept : List GpuQueuedCommand}
    {blockedQueues : List (BitVec 32)} {w : GpuWorld σ} (hsplit : w.gpuCommands = kept ++ later)
    (hblocked : ∀ command ∈ kept, command.queue ∈ blockedQueues) :
    Schedules w (host.retireFrom kept.length blockedQueues later w).2 := by
  induction later generalizing kept blockedQueues w with
  | nil => exact Std.Refl.refl w
  | cons command later ih =>
    by_cases hstays : command.response = none ∨ command.queue ∈ blockedQueues
    · rw [retireFrom_stays hstays]
      have hstay := ih (hsplit.trans (List.append_cons kept command later)) (blocks_snoc hblocked)
      rwa [List.length_append, List.length_singleton] at hstay
    · obtain ⟨hsome, hfree⟩ := not_or.mp hstays
      obtain ⟨response, hresponse⟩ := Option.ne_none_iff_exists'.mp hsome
      rcases hcopied : GpuStep.onOutside (host.deliverGpuResponse command response) w with
        ⟨_ | copied, w₁⟩
      · rw [retireFrom_fails hresponse hfree hcopied]
        have hsame := onOutside_same_commands (host.deliverGpuResponse command response) w
        rw [hcopied] at hsame
        exact hsame.schedules
      · rw [retireFrom_publishes hresponse hfree hcopied]
        have hsame := (onOutside_same_commands _).at_success hcopied
        have hsplit₁ := hsame.gpuCommands.trans hsplit
        have hpublished := publish_schedules hsplit₁ hresponse
          (fun other hother hqueue => hfree (hqueue ▸ hblocked other hother))
          (host.deliverGpuResponse_copied (onOutside_result hcopied))
        exact IsTrans.trans _ _ _ (IsTrans.trans _ _ _ hsame.schedules hpublished)
          (ih (publish_gpuCommands copied hsplit₁) hblocked)

theorem retireGpuCommands_schedules : Moves Schedules host.retireGpuCommands := by
  intro w
  unfold VirtioHost.retireGpuCommands
  rw [getWorld_bind]
  have hretired : Schedules w
      (host.retireFrom ([] : List GpuQueuedCommand).length [] w.gpuCommands w).2 :=
    retireFrom_schedules w.gpuCommands rfl (by simp)
  exact hretired

theorem deliverable_of_history {command : GpuQueuedCommand} {response : List U8} (hsound : w.Sound)
    (hall : host.AllDeliverable w.history) (hcommand : command ∈ w.gpuCommands)
    (hresponse : command.response = some response) : host.Deliverable command response := by
  obtain ⟨hstaged, hanswered⟩ := hsound.history.accounts command hcommand
  have hsame := hall { command with started := false, response := none } response hstaged
    (hanswered response hresponse)
  exact hsame

theorem retireFrom_settles (later : List GpuQueuedCommand) {kept : List GpuQueuedCommand}
    {blockedQueues : List (BitVec 32)} {w : GpuWorld σ} (hsplit : w.gpuCommands = kept ++ later)
    (hblocked : ∀ command ∈ kept, command.queue ∈ blockedQueues)
    (hblocks : ∀ queue ∈ blockedQueues, ∃ command ∈ kept, command.queue = queue)
    (hsettled : Settled kept) (hsound : w.Sound)
    (hbound : (host.retireFrom kept.length blockedQueues later w).2.staged < 2 ^ 64)
    (hall : host.AllDeliverable (host.retireFrom kept.length blockedQueues later w).2.history) :
    (host.retireFrom kept.length blockedQueues later w).1 ≠ none ∧
      Settled (host.retireFrom kept.length blockedQueues later w).2.gpuCommands := by
  induction later generalizing kept blockedQueues w with
  | nil =>
    rw [List.append_nil] at hsplit
    exact ⟨by simp [VirtioHost.retireFrom, pure_apply], hsplit.symm ▸ hsettled⟩
  | cons command later ih =>
    by_cases hstays : command.response = none ∨ command.queue ∈ blockedQueues
    · rw [retireFrom_stays hstays] at hbound hall ⊢
      have hstay := ih (hsplit.trans (List.append_cons kept command later)) (blocks_snoc hblocked)
        (blocks_kept hblocks) (hsettled.snoc (hstays.imp_right (hblocks _))) hsound
      rw [List.length_append, List.length_singleton] at hstay
      exact hstay hbound hall
    · obtain ⟨hsome, hfree⟩ := not_or.mp hstays
      obtain ⟨response, hresponse⟩ := Option.ne_none_iff_exists'.mp hsome
      rcases hcopied : GpuStep.onOutside (host.deliverGpuResponse command response) w with
        ⟨_ | copied, w₁⟩
      · rw [retireFrom_fails hresponse hfree hcopied] at hall
        have hsame := onOutside_same_commands (host.deliverGpuResponse command response) w
        rw [hcopied] at hsame
        have hall₀ : host.AllDeliverable w.history := hsame.history ▸ hall
        have hdeliverable := deliverable_of_history hsound hall₀ (by rw [hsplit]; simp) hresponse
        exact absurd (congrArg Prod.fst hcopied) (hdeliverable w.outside)
      · rw [retireFrom_publishes hresponse hfree hcopied] at hbound hall ⊢
        have hsame := (onOutside_same_commands _).at_success hcopied
        have hsplit₁ := hsame.gpuCommands.trans hsplit
        have hpublished := publish_schedules hsplit₁ hresponse
          (fun other hother hqueue => hfree (hqueue ▸ hblocked other hother))
          (host.deliverGpuResponse_copied (onOutside_result hcopied))
        have hleft : (w₁.publish kept.length command copied).raiseUsedBuffer.gpuCommands =
          kept ++ later := publish_gpuCommands copied hsplit₁
        have hrest : Schedules (w₁.publish kept.length command copied).raiseUsedBuffer
            (host.retireFrom kept.length blockedQueues later
              (w₁.publish kept.length command copied).raiseUsedBuffer).2 :=
          retireFrom_schedules later hleft hblocked
        have hsound₂ := hpublished.sound (Nat.lt_of_le_of_lt hrest.staged hbound) (hsame.sound hsound)
        obtain ⟨hnext, hdone⟩ := ih hleft hblocked hblocks hsettled hsound₂ hbound hall
        exact ⟨by simpa using hnext, hdone⟩

/-! ## What settles the commands -/

/-- If all responses can be delivered, no command is left to publish. -/
structure Settles (host : VirtioHost σ) (w w' : GpuWorld σ) : Prop where
  schedules : Schedules w w'
  settled : w'.staged < 2 ^ 64 → w.Sound → host.AllDeliverable w'.history → Settled w'.gpuCommands

/-- If all responses can be delivered and no command is left to publish before, none is left then. -/
structure KeepsSettled (host : VirtioHost σ) (w w' : GpuWorld σ) : Prop where
  schedules : Schedules w w'
  settled : w'.staged < 2 ^ 64 → w.Sound → host.AllDeliverable w'.history →
    Settled w.gpuCommands → Settled w'.gpuCommands

theorem AllDeliverable.of_prefix {history history' : List GpuQueueEvent}
    (h : host.AllDeliverable history') (hgrows : history <+: history') :
    host.AllDeliverable history := fun command response hstaged hanswered =>
  h command response (hgrows.subset hstaged) (hgrows.subset hanswered)

theorem KeepsSettled.trans {w w₁ w' : GpuWorld σ} (h : KeepsSettled host w w₁) (h' : KeepsSettled host w₁ w') :
    KeepsSettled host w w' where
  schedules := IsTrans.trans _ _ _ h.schedules h'.schedules
  settled hbound hsound hall hbefore := by
    have hbound₁ := Nat.lt_of_le_of_lt h'.schedules.staged hbound
    exact h'.settled hbound (h.schedules.sound hbound₁ hsound) hall
      (h.settled hbound₁ hsound (AllDeliverable.of_prefix hall h'.schedules.history) hbefore)

instance : Std.Refl (KeepsSettled host) := ⟨fun _ => ⟨Std.Refl.refl _, fun _ _ _ h => h⟩⟩

instance : IsTrans (GpuWorld σ) (KeepsSettled host) := ⟨fun _ _ _ h h' => h.trans h'⟩

theorem Settles.keepsSettled (h : Settles host w w') : KeepsSettled host w w' :=
  ⟨h.schedules, fun hbound hsound hall _ => h.settled hbound hsound hall⟩

theorem Settles.before {w₀ : GpuWorld σ} (h : Settles host w w') (h₀ : Schedules w₀ w) :
    Settles host w₀ w' where
  schedules := IsTrans.trans _ _ _ h₀ h.schedules
  settled hbound hsound hall :=
    h.settled hbound (h₀.sound (Nat.lt_of_le_of_lt h.schedules.staged hbound) hsound) hall

theorem Settles.then {w'' : GpuWorld σ} (h : Settles host w w') (h' : KeepsSettled host w' w'') :
    Settles host w w'' where
  schedules := IsTrans.trans _ _ _ h.schedules h'.schedules
  settled hbound hsound hall := by
    have hbound' := Nat.lt_of_le_of_lt h'.schedules.staged hbound
    exact h'.settled hbound (h.schedules.sound hbound' hsound) hall
      (h.settled hbound' hsound (AllDeliverable.of_prefix hall h'.schedules.history))

theorem SameCommands.keepsSettled (h : SameCommands w w') : KeepsSettled host w w' :=
  ⟨h.schedules, fun _ _ _ hbefore => h.gpuCommands.symm ▸ hbefore⟩

theorem retireGpuCommands_settles (w : GpuWorld σ) : Settles host w (host.retireGpuCommands w).2 where
  schedules := retireGpuCommands_schedules w
  settled hbound hsound hall :=
    (retireFrom_settles w.gpuCommands rfl (by simp) (by simp) settled_nil hsound hbound hall).2

theorem retireGpuCommands_succeeds (hsound : w.Sound)
    (hbound : (host.retireGpuCommands w).2.staged < 2 ^ 64)
    (hall : host.AllDeliverable (host.retireGpuCommands w).2.history) :
    (host.retireGpuCommands w).1 ≠ none :=
  (retireFrom_settles w.gpuCommands rfl (by simp) (by simp) settled_nil hsound hbound hall).1

/-! ## Completion -/

theorem answer_schedules {earlier later : List GpuQueuedCommand} {command : GpuQueuedCommand}
    (number : ℕ) (response : List U8) (hsplit : w.gpuCommands = earlier ++ command :: later)
    (hstarted : command.started = true) (hresponse : command.response = none)
    (hnumber : w.staged < 2 ^ 64 → w.Sound → number = command.number) :
    Schedules w ((w.updateCommand command.number fun command =>
      { command with response := some response }).record (.answered number response)) := by
  refine .of_step (Nat.le_refl _) rfl rfl rfl fun hbound hsound => ?_
  have hsorted := hsound.history.consistent.sorted
  rw [hsplit] at hsorted
  have hupdated : (w.updateCommand command.number fun command =>
      { command with response := some response }).gpuCommands =
        earlier ++ { command with response := some response } :: later := by
    unfold GpuWorld.updateCommand
    dsimp only
    rw [hsplit]
    exact updateCommand_split hsorted _
  change GpuSchedule.Step ⟨w.staged, w.gpuCommands⟩ _ ⟨w.staged, (w.updateCommand command.number
    fun command => { command with response := some response }).gpuCommands⟩
  rw [hupdated, hsplit, hnumber hbound hsound]
  exact .answered w.staged earlier later command hstarted hresponse response

theorem goOn_settles {processGpuQueue : BitVec 32 → GpuStep σ ℕ}
    (hprocess : ∀ queue, Moves (KeepsSettled host) (processGpuQueue queue)) (w : GpuWorld σ) :
    Settles host w (host.goOn processGpuQueue w).2 := by
  unfold VirtioHost.goOn
  have hretired : Settles host w (host.retireGpuCommands w).2 := retireGpuCommands_settles w
  rcases hretire : host.retireGpuCommands w with ⟨_ | retired, w₁⟩
  · rw [bind_of_none hretire]
    rwa [hretire] at hretired
  · rw [bind_of_some hretire]
    rw [hretire] at hretired
    exact hretired.then (((hprocess controlQueue).bind fun _ =>
      (hprocess cursorQueue).bind fun _ => .pure ()) w₁)

theorem completeLocked_keepsSettled {processGpuQueue : BitVec 32 → GpuStep σ ℕ}
    (hprocess : ∀ queue, Moves (KeepsSettled host) (processGpuQueue queue)) {number : ℕ}
    (response : List U8) (hnumber : w.Sound → number ≤ w.staged) :
    KeepsSettled host w (host.completeLocked processGpuQueue number response w).2 := by
  unfold VirtioHost.completeLocked
  rw [getWorld_bind]
  cases hfound : w.gpuCommands.find? fun command => command.token = commandToken number with
  | none => exact Std.Refl.refl w
  | some command =>
    refine ite_related (fun _ => Std.Refl.refl w) fun hactive => ?_
    obtain ⟨hstarted, hnone⟩ := not_or.mp hactive
    obtain ⟨htoken, earlier, later, hsplit, _⟩ := List.find?_eq_some_iff_append.mp hfound
    have hanswered := answer_schedules number response hsplit (by simpa using hstarted)
      (by simpa using hnone) fun hbound hsound => by
        have hle : command.number ≤ w.staged :=
          hsound.history.consistent.numbered command (by rw [hsplit]; simp)
        refine (commandToken_inj (Nat.lt_of_le_of_lt hle hbound)
          (Nat.lt_of_le_of_lt (hnumber hsound) hbound) ?_).symm
        exact of_decide_eq_true htoken
    have hsettles := (goOn_settles hprocess _).before hanswered
    refine (hsettles.then ?_).keepsSettled
    rw [modifyWorld_bind]
    generalize (w.updateCommand command.number fun command =>
      { command with response := some response }).record (.answered number response) = w₁
    rcases hgoes : host.goOn processGpuQueue w₁ with ⟨_ | done, w₂⟩
    · have hattempt : (host.goOn processGpuQueue).attempt w₁ = (some none, w₂) := by
        rw [attempt, hgoes]
      rw [bind_of_some hattempt]
      exact SameCommands.keepsSettled ⟨rfl, rfl, rfl, rfl, rfl⟩
    · have hattempt : (host.goOn processGpuQueue).attempt w₁ = (some (some done), w₂) := by
        rw [attempt, hgoes]
      rw [bind_of_some hattempt]
      exact Std.Refl.refl w₂

/-! ## Dispatch -/

theorem handleDelivery_same (delivery : GpuDelivery) (succeeded : Bool) :
    Moves SameCommands (VirtioHost.handleDelivery gpu delivery succeeded) := by
  refine getWorld_same.bind fun w => ?_
  split
  · exact runOutside_same _
  · exact .pure []

theorem arm_keepsSettled (delivery : GpuDelivery) (resolved : Option Bool)
    (hnumber : w.Sound → delivery.number ≤ w.staged) :
    KeepsSettled host w (host.arm gpu delivery resolved w).2 := by
  unfold VirtioHost.arm
  cases resolved with
  | none => exact Std.Refl.refl w
  | some succeeded =>
    refine bind_related (handleDelivery_same delivery succeeded w).keepsSettled fun response w₁ hhandled => ?_
    have hsame := (handleDelivery_same delivery succeeded).at_success hhandled
    refine completeLocked_keepsSettled (fun _ => .pure 0) response fun hsound => ?_
    have hback : SameCommands w₁ w := ⟨hsame.gpuCommands.symm, hsame.staged.symm,
      hsame.deliveries.symm, hsame.completions.symm, hsame.history.symm⟩
    exact (hnumber (hback.sound hsound)).trans hsame.staged.ge

theorem processDeferred_spec {command : GpuQueuedCommand}
    (hnumber : w.Sound → command.number ≤ w.staged) :
    Schedules w (host.processDeferred gpu command w).2 ∧
      ∀ dispatch w', host.processDeferred gpu command w = (some dispatch, w') →
        dispatch ≠ some none → SameCommands w w' := by
  unfold VirtioHost.processDeferred
  by_cases hsubmit : GpuResourceAccess.command command.request ≠ some .submit3D
  · rw [if_pos hsubmit]
    refine ⟨Std.Refl.refl w, fun dispatch w' h _ => ?_⟩
    rw [← (Prod.mk.inj h).2]
    exact Std.Refl.refl w
  rw [if_neg hsubmit]
  rcases hsubmission : runOutside (gpu.submit command.request) w with ⟨_ | submission, w₁⟩
  · simp [runOutside, GpuStep.onOutside, onPart] at hsubmission
  have hsame := (runOutside_same _).at_success hsubmission
  rw [bind_of_some hsubmission]
  cases submission with
  | completed response =>
    refine ⟨hsame.schedules, fun dispatch w' h _ => ?_⟩
    rw [← (Prod.mk.inj h).2]
    exact hsame
  | deferred resolved =>
    dsimp only
    rw [getWorld_bind, modifyWorld_bind]
    generalize hdelivery : (GpuDelivery.mk command.number command.request w₁.resetEpoch
      resolved.isSome) = delivery
    have hdelivered : Schedules w { w₁ with deliveries := w₁.deliveries ++ [delivery] } := by
      refine ⟨hsame.staged.ge, hsame.history ▸ List.prefix_rfl, fun _ hsound => ?_⟩
      have hsound₁ := hsame.sound hsound
      refine ⟨hsound₁.history, fun other hother => ?_, hsound₁.completions⟩
      rcases List.mem_append.mp hother with hother | hother
      · exact hsound₁.deliveries other hother
      · rw [List.mem_singleton.mp hother, ← hdelivery]
        exact (hnumber hsound).trans hsame.staged.ge
    have harmed : KeepsSettled host { w₁ with deliveries := w₁.deliveries ++ [delivery] }
        (host.arm gpu delivery resolved
          { w₁ with deliveries := w₁.deliveries ++ [delivery] }).2 :=
      arm_keepsSettled delivery resolved fun hsound => hsound.deliveries delivery (by simp)
    rw [bind_pure_apply]
    refine ⟨IsTrans.trans _ _ _ hdelivered harmed.schedules, fun dispatch w' h hne => ?_⟩
    obtain ⟨done, _, hdone⟩ := Option.map_eq_some_iff.mp (Prod.mk.inj h).1
    exact absurd hdone.symm hne

theorem submitGpuCommand_spec (host : VirtioHost σ) (gpu : VirtioGpu σ) {command : GpuQueuedCommand}
    (hnumber : w.Sound → command.number ≤ w.staged) :
    Schedules w (host.submitGpuCommand gpu command w).2 ∧
      ∀ dispatch w', host.submitGpuCommand gpu command w = (some dispatch, w') →
        dispatch ≠ some none → SameCommands w w' := by
  unfold VirtioHost.submitGpuCommand
  split
  · exact processDeferred_spec hnumber
  · refine ⟨Std.Refl.refl w, fun dispatch w' h _ => ?_⟩
    rw [← (Prod.mk.inj h).2]
    exact Std.Refl.refl w

theorem Schedules.of_sound (hstaged : w.staged ≤ w'.staged) (hhistory : w.history <+: w'.history)
    (h : w.Sound → Schedules w w') : Schedules w w' :=
  ⟨hstaged, hhistory, fun hbound hsound => (h hsound).sound hbound hsound⟩

theorem start_gpuCommands {earlier later : List GpuQueuedCommand} {command : GpuQueuedCommand}
    (hsplit : w.gpuCommands = earlier ++ command :: later) (hsound : w.Sound) :
    (w.start command.number).gpuCommands =
      earlier ++ { command with started := true } :: later := by
  have hsorted := hsound.history.consistent.sorted
  rw [hsplit] at hsorted
  change w.gpuCommands.map _ = _
  rw [hsplit]
  exact updateCommand_split hsorted _

theorem start_schedules {command : GpuQueuedCommand}
    (h : nextRunnableGpuCommand w.gpuCommands = some command) :
    Schedules w (w.start command.number) := by
  obtain ⟨earlier, later, hsplit, hstarted, hactive, hexcludes, horder⟩ :=
    nextRunnableGpuCommand_spec h
  refine .of_step (Nat.le_refl _) rfl rfl rfl fun _ hsound => ?_
  rw [start_gpuCommands hsplit hsound, hsplit]
  rw [hsplit] at hactive hexcludes
  exact .started w.staged earlier later command hstarted hactive hexcludes horder

theorem dispatchGpuCommand_schedules {command : GpuQueuedCommand}
    (h : nextRunnableGpuCommand w.gpuCommands = some command) :
    Schedules w (host.dispatchGpuCommand gpu command w).2 := by
  obtain ⟨earlier, later, hsplit, hidle, _⟩ := nextRunnableGpuCommand_spec h
  have hstart := start_schedules h
  have hnumber : (w.start command.number).Sound →
      command.number ≤ (w.start command.number).staged := by
    intro hsound
    have hmem : ({ command with started := true } : GpuQueuedCommand) ∈
        (w.start command.number).gpuCommands :=
      List.mem_map.mpr ⟨command, by rw [hsplit]; simp, if_pos rfl⟩
    have hle := hsound.history.consistent.numbered { command with started := true } hmem
    exact hle
  have hanswers : ∀ (w₁ : GpuWorld σ) (response : List U8),
      SameCommands (w.start command.number) w₁ →
        Schedules w (w₁.answer command.number response) := by
    intro w₁ response hsame
    have hbefore := IsTrans.trans _ _ _ hstart hsame.schedules
    refine .of_sound hbefore.staged (hbefore.history.trans (List.prefix_append _ _)) fun hsound => ?_
    have hsplit₁ := hsame.gpuCommands.trans (start_gpuCommands hsplit hsound)
    have hunanswered : command.response = none := by
      by_contra hanswered
      have hstarted := hsound.history.consistent.answered command (by simp [hsplit]) hanswered
      rw [hidle] at hstarted
      simp at hstarted
    have hanswer := answer_schedules command.number response hsplit₁ rfl hunanswered fun _ _ => rfl
    exact IsTrans.trans _ _ _ hbefore hanswer
  unfold VirtioHost.dispatchGpuCommand
  rw [modifyWorld_bind]
  have hphase := submitGpuCommand_spec host gpu hnumber
  rcases hdispatch : host.submitGpuCommand gpu command (w.start command.number) with
    ⟨_ | dispatch, w₁⟩
  · rw [hdispatch] at hphase
    rw [bind_of_none hdispatch]
    exact IsTrans.trans _ _ _ hstart hphase.1
  · rw [hdispatch] at hphase
    rw [bind_of_some hdispatch]
    rcases dispatch with _ | _ | response
    · have hsame := hphase.2 none w₁ rfl (by simp)
      rcases hresponse : runOutside (gpu.process command.request) w₁ with ⟨_ | response, w₂⟩
      · simp [runOutside, GpuStep.onOutside, onPart] at hresponse
      · dsimp only
        rw [bind_of_some hresponse]
        exact hanswers w₂ response
          (IsTrans.trans _ _ _ hsame ((runOutside_same _).at_success hresponse))
    · exact IsTrans.trans _ _ _ hstart hphase.1
    · exact hanswers w₁ response (hphase.2 _ w₁ rfl (by simp))

theorem dispatchRunnable_schedules (commands : ℕ) :
    Moves Schedules (host.dispatchRunnable gpu commands) := by
  induction commands with
  | zero => exact .pure false
  | succ commands ih =>
    intro w
    unfold VirtioHost.dispatchRunnable
    rw [getWorld_bind]
    cases hrunnable : nextRunnableGpuCommand w.gpuCommands with
    | none => exact Std.Refl.refl w
    | some command =>
      refine bind_related (dispatchGpuCommand_schedules hrunnable) fun _ w₁ _ => ?_
      exact (ih.bind fun _ => .pure true) w₁

/-! No dispatch fails. -/

theorem succeeds_attempt (m : Fallible (GpuWorld σ) α) : Succeeds m.attempt := fun _ h => nomatch h

theorem succeeds_getWorld : Succeeds (getWorld : GpuStep σ (GpuWorld σ)) := fun _ h => nomatch h

theorem succeeds_modifyWorld (change : GpuWorld σ → GpuWorld σ) : Succeeds (modifyWorld change) :=
  fun _ h => nomatch h

theorem succeeds_runOutside (m : σ → α × σ) : Succeeds (runOutside m) := fun _ h => nomatch h

theorem succeeds_completeLocked (processGpuQueue : BitVec 32 → GpuStep σ ℕ) (number : ℕ)
    (response : List U8) : Succeeds (host.completeLocked processGpuQueue number response) := by
  refine succeeds_getWorld.bind fun w => ?_
  split
  · exact .pure ()
  · split
    · exact .pure ()
    · refine (succeeds_modifyWorld _).bind fun _ => (succeeds_attempt _).bind fun result => ?_
      cases result with
      | none => exact succeeds_modifyWorld _
      | some done => exact .pure ()

theorem succeeds_arm (delivery : GpuDelivery) (resolved : Option Bool) :
    Succeeds (host.arm gpu delivery resolved) := by
  cases resolved with
  | none => exact .pure ()
  | some succeeded =>
    refine Succeeds.bind (succeeds_getWorld.bind fun w => ?_) fun response =>
      succeeds_completeLocked _ _ _
    split
    · exact succeeds_runOutside _
    · exact .pure []

theorem succeeds_processDeferred (command : GpuQueuedCommand) :
    Succeeds (host.processDeferred gpu command) := by
  unfold VirtioHost.processDeferred
  split
  · exact .pure none
  · refine (succeeds_runOutside _).bind fun submission => ?_
    cases submission with
    | completed response => exact .pure _
    | deferred resolved =>
      exact succeeds_getWorld.bind fun w => (succeeds_modifyWorld _).bind fun _ =>
        (succeeds_arm _ _).bind fun _ => .pure _

theorem succeeds_dispatchGpuCommand (command : GpuQueuedCommand) :
    Succeeds (host.dispatchGpuCommand gpu command) := by
  refine (succeeds_modifyWorld _).bind fun _ => Succeeds.bind ?_ fun dispatch => ?_
  · unfold VirtioHost.submitGpuCommand
    split
    · exact succeeds_processDeferred command
    · exact .pure none
  · rcases dispatch with _ | _ | response
    · exact (succeeds_runOutside _).bind fun _ => succeeds_modifyWorld _
    · exact .pure ()
    · exact succeeds_modifyWorld _

theorem succeeds_dispatchRunnable (commands : ℕ) : Succeeds (host.dispatchRunnable gpu commands) := by
  induction commands with
  | zero => exact .pure false
  | succ commands ih =>
    refine succeeds_getWorld.bind fun w => ?_
    cases nextRunnableGpuCommand w.gpuCommands with
    | none => exact .pure false
    | some command =>
      exact (succeeds_dispatchGpuCommand command).bind fun _ => ih.bind fun _ => .pure true

/-! ## Queues -/

theorem round_settles {queue : BitVec 32} {availableIndex : U16} {rounds : ℕ}
    (hnext : ∀ completed, Moves (KeepsSettled host)
      (host.processRounds gpu queue availableIndex rounds completed)) (completed : ℕ) (w : GpuWorld σ) :
    Settles host w (host.processRounds gpu queue availableIndex (rounds + 1) completed w).2 := by
  unfold VirtioHost.processRounds
  have hattempt : (host.stageGpuCommands queue availableIndex 65536).attempt w =
    (some (host.stageGpuCommands queue availableIndex 65536 w).1,
      (host.stageGpuCommands queue availableIndex 65536 w).2) := rfl
  have hstaged : Schedules w (host.stageGpuCommands queue availableIndex 65536 w).2 :=
    stageGpuCommands_schedules queue availableIndex 65536 w
  rw [bind_of_some hattempt, getWorld_bind]
  generalize host.stageGpuCommands queue availableIndex 65536 w = result at hstaged ⊢
  obtain ⟨staged, w₁⟩ := result
  rcases hdispatched : host.dispatchRunnable gpu w₁.gpuCommands.length w₁ with ⟨_ | dispatched, w₂⟩
  · exact absurd (congrArg Prod.fst hdispatched) (succeeds_dispatchRunnable _ w₁)
  have hrun := IsTrans.trans _ _ _ hstaged
    ((dispatchRunnable_schedules w₁.gpuCommands.length).at_success hdispatched)
  rw [bind_of_some hdispatched]
  have hretired : Settles host w (host.retireGpuCommands w₂).2 :=
    (retireGpuCommands_settles w₂).before hrun
  rcases hretire : host.retireGpuCommands w₂ with ⟨_ | retired, w₃⟩
  · rw [bind_of_none hretire]
    rwa [hretire] at hretired
  · rw [bind_of_some hretire]
    rw [hretire] at hretired
    refine hretired.then (ite_related (fun _ => Std.Refl.refl w₃) fun _ => ?_)
    rw [getWorld_bind]
    exact ite_related (fun _ => hnext _ w₃) fun _ => Std.Refl.refl w₃

theorem processRounds_keepsSettled (queue : BitVec 32) (availableIndex : U16) (rounds completed : ℕ) :
    Moves (KeepsSettled host) (host.processRounds gpu queue availableIndex rounds completed) := by
  induction rounds generalizing completed with
  | zero => exact .pure completed
  | succ rounds ih => exact fun w => (round_settles ih completed w).keepsSettled

theorem processGpuQueue_keepsSettled (queue : BitVec 32) :
    Moves (KeepsSettled host) (host.processGpuQueue gpu queue) := by
  intro w
  unfold VirtioHost.processGpuQueue
  rw [getWorld_bind]
  cases w.queues queue with
  | none => exact Std.Refl.refl w
  | some state =>
    refine ite_related (fun _ => Std.Refl.refl w) fun _ => ?_
    exact bind_related (onOutside_same_commands _ w).keepsSettled fun availableIndex w₁ _ =>
      processRounds_keepsSettled queue availableIndex _ 0 w₁

/-! ## Runs -/

theorem completeDeferredGpuCommandLocked_keepsSettled {number : ℕ} (response : List U8)
    (hnumber : w.Sound → number ≤ w.staged) :
    KeepsSettled host w (host.completeDeferredGpuCommandLocked gpu number response w).2 :=
  completeLocked_keepsSettled processGpuQueue_keepsSettled response hnumber

theorem keepsSettled_of_moves {m : GpuStep σ α} (h : Moves SameCommands m) :
    Moves (KeepsSettled host) m := fun w => (h w).keepsSettled

theorem raiseUsedBuffer_same : Moves SameCommands (modifyWorld (σ := σ) GpuWorld.raiseUsedBuffer) :=
  fun _ => ⟨rfl, rfl, rfl, rfl, rfl⟩

theorem notifyGpu_keepsSettled (queue : BitVec 32) :
    Moves (KeepsSettled host) (host.notifyGpu gpu queue) := by
  intro w
  unfold VirtioHost.notifyGpu
  rw [getWorld_bind]
  refine ite_related (fun _ => Std.Refl.refl w) fun _ => ?_
  refine ite_related (fun _ => ?_) fun _ => Std.Refl.refl w
  have hprocess : Moves (KeepsSettled host) (host.processGpuQueue gpu queue).attempt :=
    (processGpuQueue_keepsSettled queue).attempt
  refine hprocess.bind (fun completed => ?_) w
  split
  · exact keepsSettled_of_moves raiseUsedBuffer_same
  · exact .pure ()

theorem keepsSettled_of_same (hcommands : w'.gpuCommands = w.gpuCommands)
    (hstaged : w'.staged = w.staged) (hhistory : w'.history = w.history)
    (hdeliveries : w.Sound → ∀ delivery ∈ w'.deliveries, delivery.number ≤ w.staged)
    (hcompletions : w.Sound → ∀ completion ∈ w'.completions, completion.1 ≤ w.staged) :
    KeepsSettled host w w' where
  schedules :=
    { staged := hstaged.ge
      history := hhistory ▸ List.prefix_rfl
      sound := fun _ hsound =>
        { history := by
            rw [hhistory, hstaged, hcommands]
            exact hsound.history
          deliveries := hstaged ▸ hdeliveries hsound
          completions := hstaged ▸ hcompletions hsound } }
  settled _ _ _ hbefore := hcommands.symm ▸ hbefore

theorem resolveDelivery_keepsSettled (number : ℕ) (succeeded contended : Bool) :
    Moves (KeepsSettled host) (host.resolveDelivery gpu number succeeded contended) := by
  intro w
  unfold VirtioHost.resolveDelivery
  rw [getWorld_bind]
  cases hfound : w.deliveries.find? fun delivery => delivery.number = number && !delivery.resolved with
  | none => exact Std.Refl.refl w
  | some delivery =>
    have hmem := List.mem_of_find?_eq_some hfound
    have hnumber : delivery.number = number := by
      have hfinds := List.find?_some hfound
      simp only [Bool.and_eq_true, decide_eq_true_eq] at hfinds
      exact hfinds.1
    dsimp only
    rw [modifyWorld_bind]
    have hresolved : KeepsSettled host w { w with
        deliveries := w.deliveries.map fun delivery =>
          if delivery.number = number then { delivery with resolved := true } else delivery } := by
      refine keepsSettled_of_same rfl rfl rfl (fun hsound other hother => ?_) fun hsound =>
        hsound.completions
      obtain ⟨old, hold, rfl⟩ := List.mem_map.mp hother
      have hle := hsound.deliveries old hold
      split
      · exact hle
      · exact hle
    refine IsTrans.trans _ _ _ hresolved (bind_related (handleDelivery_same delivery succeeded _).keepsSettled
      fun response w₂ hhandled => ?_)
    have hsame := (handleDelivery_same delivery succeeded).at_success hhandled
    have hstaged : w₂.Sound → number ≤ w₂.staged := by
      intro hsound
      have hdelivery : ({ delivery with resolved := true } : GpuDelivery) ∈ w₂.deliveries := by
        rw [hsame.deliveries]
        exact List.mem_map.mpr ⟨delivery, hmem, if_pos hnumber⟩
      have hle := hsound.deliveries { delivery with resolved := true } hdelivery
      exact hnumber ▸ hle
    refine ite_related (fun _ => ?_) fun _ =>
      completeDeferredGpuCommandLocked_keepsSettled response hstaged
    refine keepsSettled_of_same rfl rfl rfl (fun hsound => hsound.deliveries)
      fun hsound completion hcompletion => ?_
    rcases List.mem_append.mp hcompletion with hold | hnew
    · exact hsound.completions completion hold
    · rw [List.mem_singleton.mp hnew]
      exact hstaged hsound

theorem runCompletion_keepsSettled : Moves (KeepsSettled host) (host.runCompletion gpu) := by
  intro w
  unfold VirtioHost.runCompletion
  rw [getWorld_bind]
  cases hcompletions : w.completions with
  | nil => exact Std.Refl.refl w
  | cons completion rest =>
    obtain ⟨number, response⟩ := completion
    refine bind_related (completeDeferredGpuCommandLocked_keepsSettled response fun hsound =>
      hsound.completions (number, response) (by rw [hcompletions]; simp)) fun _ w₁ _ => ?_
    exact keepsSettled_of_same rfl rfl rfl (fun hsound => hsound.deliveries)
      fun hsound completion hcompletion =>
        hsound.completions completion (List.mem_of_mem_tail hcompletion)

theorem resetGpu_keepsSettled : Moves (KeepsSettled host) (VirtioHost.resetGpu gpu) := fun w =>
  { schedules := .of_step (Nat.le_refl _) rfl rfl rfl fun _ _ => .reset w.staged w.gpuCommands
    settled := fun _ _ _ _ => settled_nil }

theorem handleGpu_keepsSettled (event : GpuEvent σ) :
    Moves (KeepsSettled host) (host.handleGpu gpu event) := by
  cases event with
  | notify queue => exact notifyGpu_keepsSettled queue
  | resolve number succeeded contended => exact resolveDelivery_keepsSettled number succeeded contended
  | complete => exact runCompletion_keepsSettled
  | configure => exact fun w => SameCommands.keepsSettled ⟨rfl, rfl, rfl, rfl, rfl⟩
  | acknowledge value => exact fun w => SameCommands.keepsSettled ⟨rfl, rfl, rfl, rfl, rfl⟩
  | reset => exact resetGpu_keepsSettled
  | outside change => exact keepsSettled_of_moves (onOutside_same_commands _)

theorem runGpu_keepsSettled (w : GpuWorld σ) (events : List (GpuEvent σ)) :
    KeepsSettled host w (host.runGpu gpu w events) := by
  induction events generalizing w with
  | nil => exact Std.Refl.refl w
  | cons event events ih =>
    exact IsTrans.trans _ _ _ (handleGpu_keepsSettled event w) (ih (host.stepGpu gpu w event))

end Moves

/-- The history is one of the schedule and was at every time, and no command is published twice. -/
structure GpuScheduled (w : GpuWorld σ) : Prop where
  history : GpuHistory w.history ⟨w.staged, w.gpuCommands⟩
  limits : ∀ before after : List GpuQueueEvent, w.history = before ++ after →
    ∃ schedule, GpuHistory before schedule ∧ schedule.Consistent
  once : ∀ number : ℕ, GpuHistory.publishedCount number w.history ≤ 1

/-- The command was staged before a reset. -/
def Superseded (history : List GpuQueueEvent) (number : ℕ) : Prop :=
  ∃ before after command, history = before ++ .reset :: after ∧
    GpuQueueEvent.staged command ∈ before ∧ command.number = number

/-- The descriptors of a control command have room for the response. -/
def GpuQueuedCommand.Fits (command : GpuQueuedCommand) (response : List U8) : Prop :=
  command.queue = controlQueue →
    response.length ≤ (command.responseDescriptors.map VirtioDescriptor.count).sum

/-- A command whose response fits is not left when all older ones of its queue have a response. -/
def PublishesAnswered (commands : List GpuQueuedCommand) : Prop :=
  ∀ command ∈ commands, ∀ response ∈ command.response, command.Fits response →
    ∃ other ∈ commands, other.number < command.number ∧ other.queue = command.queue ∧
      other.response = none

theorem GpuWorld.Sound.scheduled {w : GpuWorld σ} (h : w.Sound) : GpuScheduled w where
  history := h.history
  limits before after hsplit := by
    have hhistory := h.history
    rw [hsplit] at hhistory
    obtain ⟨schedule, hbefore⟩ := hhistory.at_earlier
    exact ⟨schedule, hbefore, hbefore.consistent⟩
  once number := (h.history.published_once number).1

theorem completion_superseded (host : VirtioHost σ) (gpu : VirtioGpu σ) {w : GpuWorld σ}
    (hsound : w.Sound) (hbound : w.staged < 2 ^ 64) {number : ℕ}
    (hsuperseded : Superseded w.history number) (response : List U8) :
    host.completeDeferredGpuCommandLocked gpu number response w = (some (), w) := by
  obtain ⟨before, after, command, hsplit, hstaged, rfl⟩ := hsuperseded
  have hhistory := hsound.history
  rw [hsplit] at hhistory
  obtain ⟨schedule, hbefore, hle, hlater⟩ := hhistory.after_reset
  have hold := hbefore.staged_le hstaged
  have hnone : (w.gpuCommands.find? fun other => other.token = commandToken command.number) = none := by
    rw [List.find?_eq_none]
    intro other hother htoken
    have hnumbered := hsound.history.consistent.numbered other hother
    have hnumber := commandToken_inj (Nat.lt_of_le_of_lt hnumbered hbound)
      (Nat.lt_of_le_of_lt (hold.trans hle) hbound) (of_decide_eq_true htoken)
    have hlt := hlater other hother
    omega
  unfold VirtioHost.completeDeferredGpuCommandLocked VirtioHost.completeLocked
  rw [getWorld_bind, hnone]
  rfl

theorem Settled.publishesAnswered {commands : List GpuQueuedCommand} (h : Settled commands)
    (hsorted : commands.Pairwise fun command other => command.number < other.number) :
    PublishesAnswered commands := by
  intro command hcommand response hresponse _
  obtain ⟨earlier, later, hsplit⟩ := List.append_of_mem hcommand
  obtain ⟨other, hother, hqueue, hnone⟩ := h.waits hsplit (by rw [hresponse]; simp)
  rw [hsplit, List.pairwise_append] at hsorted
  exact ⟨other, by rw [hsplit]; simp [hother], hsorted.2.2 other hother command List.mem_cons_self,
    hqueue, hnone⟩

/-- In every run that stages fewer commands than there are tokens, the commands keep to the schedule and
no completion of a command that was staged before a reset does anything. If all responses can be
delivered too, no command is left that could be published. -/
theorem gpuCommands_scheduled (host : VirtioHost σ) (gpu : VirtioGpu σ) (outside : σ)
    (events : List (GpuEvent σ))
    (hcount : (host.runGpu gpu (.initial outside) events).staged < 2 ^ 64) :
    GpuScheduled (host.runGpu gpu (.initial outside) events) ∧
      (∀ number response, Superseded (host.runGpu gpu (.initial outside) events).history number →
        host.completeDeferredGpuCommandLocked gpu number response
          (host.runGpu gpu (.initial outside) events) =
            (some (), host.runGpu gpu (.initial outside) events)) ∧
      (host.AllDeliverable (host.runGpu gpu (.initial outside) events).history →
        PublishesAnswered (host.runGpu gpu (.initial outside) events).gpuCommands) := by
  have hrun : KeepsSettled host (.initial outside) (host.runGpu gpu (.initial outside) events) :=
    runGpu_keepsSettled (.initial outside) events
  have hinitial : (GpuWorld.initial outside).Sound := ⟨.nil, by simp [GpuWorld.initial],
    by simp [GpuWorld.initial]⟩
  have hsound := hrun.schedules.sound hcount hinitial
  refine ⟨hsound.scheduled, fun number response hsuperseded =>
    completion_superseded host gpu hsound hcount hsuperseded response, fun hall => ?_⟩
  exact (hrun.settled hcount hinitial hall settled_nil).publishesAnswered
    hsound.history.consistent.sorted

/-! ## A concrete driver -/

instance decidableResponseFits (command : GpuQueuedCommand) (response : List U8) :
    Decidable (command.Fits response) :=
  inferInstanceAs (Decidable (_ → _))

instance (commands : List GpuQueuedCommand) : Decidable (PublishesAnswered commands) :=
  inferInstanceAs (Decidable (∀ command ∈ commands, ∀ response ∈ command.response, _ → _))

/-- A GPU that answers each request with a header. -/
def headerGpu : VirtioGpu (U64 → U8) where
  process _ memory := (List.replicate 24 0, memory)
  submit _ memory := (.completed (List.replicate 24 0), memory)
  finish _ _ memory := (List.replicate 24 0, memory)
  reset := id

/-- An available entry, with a request of 24 bytes and `room` bytes for its response. -/
def gpuEntry (room : U8) : U64 → U8 := fun address =>
  if address = 4097 then 64 else if address = 4104 then 24 else if address = 4108 then 1
  else if address = 4110 then 1 else if address = 4113 then 80 else if address = 4120 then room
  else if address = 4124 then 2 else if address = 8194 then 1 else 0

/-- The driver sets up both queues over the same rings and notifies them. -/
def gpuDriver : List (GpuEvent (U64 → U8)) :=
  [.configure 0 2 true 4096 8192 12288, .configure 1 2 true 4096 8192 12288, .notify 0, .notify 1]

/-- A response that does not fit keeps back the command of the other queue. -/
theorem cursorCommand_keptBack :
    ¬ PublishesAnswered
      (flatHost.runGpu headerGpu (.initial (gpuEntry 8)) gpuDriver).gpuCommands := by
  decide +kernel

theorem flatHost_copies (descriptors : List VirtioDescriptor) (response : List U8) :
    Succeeds (flatHost.copyResponseBytes descriptors response) := by
  induction descriptors generalizing response with
  | nil => exact .pure []
  | cons descriptor rest ih =>
    unfold VirtioHost.copyResponseBytes
    split
    · exact .pure []
    · exact Succeeds.bind (fun _ h => nomatch h) fun _ => (ih _).bind fun _ => .pure _

theorem flatHost_deliverable {command : GpuQueuedCommand} {response : List U8}
    (h : command.Fits response) : flatHost.Deliverable command response := by
  have hcopy : Succeeds (flatHost.copyGpuResponse command response) := by
    unfold VirtioHost.copyGpuResponse
    split
    · rename_i hcontrol
      rw [if_neg (Nat.not_lt.mpr (h hcontrol))]
      exact (flatHost_copies _ _).bind fun _ => .pure _
    · exact .pure _
  have hused : ∀ usedLength, Succeeds
      (flatHost.writeUsedElement command.descriptorIndex usedLength command.queueState) :=
    fun _ _ h => nomatch h
  exact hcopy.bind fun copied => (hused copied.1).bind fun _ => .pure copied

/-- A response of a header, or descriptors with room for one. -/
def GpuQueueEvent.isSmall : GpuQueueEvent → Bool
  | .staged command => 24 ≤ (command.responseDescriptors.map VirtioDescriptor.count).sum
  | .answered _ response => response.length ≤ 24
  | .started _ | .published _ _ _ _ | .reset => true

/-- With room for the response, each command is published. -/
theorem gpuCommands_published :
    GpuScheduled (flatHost.runGpu headerGpu (.initial (gpuEntry 24)) gpuDriver) ∧
      PublishesAnswered
        (flatHost.runGpu headerGpu (.initial (gpuEntry 24)) gpuDriver).gpuCommands ∧
      GpuHistory.publishedCount 2
        (flatHost.runGpu headerGpu (.initial (gpuEntry 24)) gpuDriver).history = 1 := by
  obtain ⟨hscheduled, _, hpublishes⟩ := gpuCommands_scheduled flatHost headerGpu (gpuEntry 24)
    gpuDriver (by decide +kernel)
  have hsmall : (flatHost.runGpu headerGpu (.initial (gpuEntry 24)) gpuDriver).history.all
      GpuQueueEvent.isSmall = true := by
    decide +kernel
  refine ⟨hscheduled, hpublishes fun command response hstaged hanswered => ?_, by decide +kernel⟩
  have hroom := of_decide_eq_true (List.all_eq_true.mp hsmall _ hstaged)
  have hlength := of_decide_eq_true (List.all_eq_true.mp hsmall _ hanswered)
  exact flatHost_deliverable fun _ => hlength.trans hroom

end Pinecone
