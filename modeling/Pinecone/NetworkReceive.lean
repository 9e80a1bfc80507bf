import Pinecone.VirtioServing

/-! Received frames wait in order or are delivered whole and once, unless a batch throws or a chain is
too short. -/

namespace Pinecone

variable {σ α : Type}

open VirtioStep Fallible

/-- The frames that wait, and the length of the packet that was copied for the first of them. -/
structure ReceiveProgress where
  waiting : List (List U8)
  copied : Option ℕ
  deriving DecidableEq

/-- A frame arrives behind the others. The first one is copied whole, with its header, and the used
element that follows has the length of the packet. -/
def ReceiveProgress.next (progress : ReceiveProgress) (event : QueueEvent) : Option ReceiveProgress :=
  match event with
  | .arrived frame => some { progress with waiting := progress.waiting ++ [frame] }
  | .copied headerLength frame _ written =>
    if progress.waiting.head? = some frame ∧ progress.copied = none ∧
        written = VirtioHost.receiveHeader headerLength ++ frame then
      some { progress with copied := some (headerLength + frame.length) }
    else none
  | .published _ usedLength =>
    if progress.copied = some usedLength.toNat then some ⟨progress.waiting.tail, none⟩ else none
  | .started | .failed | .taken _ _ | .diskWritten | .zeroed _ | .transmitted | .eventConsumed =>
    some progress

/-- From `pending` frames on, every frame that arrived waits in order or was delivered. -/
def Delivers (pending : List (List U8)) (log : List QueueEvent) (waiting : List (List U8)) : Prop :=
  log.foldlM ReceiveProgress.next ⟨pending, none⟩ = some ⟨waiting, none⟩

/-- No batch throws, and no chain is shorter than its packet, which has less than 2^32 bytes. -/
def QueueEvent.fits : QueueEvent → Prop
  | .failed => False
  | .copied headerLength frame capacity _ =>
    headerLength + frame.length ≤ capacity ∧ headerLength + frame.length < 2 ^ 32
  | .started | .taken _ _ | .diskWritten | .zeroed _ | .transmitted | .eventConsumed | .arrived _
  | .published _ _ => True

theorem receiveHeader_length (headerLength : ℕ) :
    (VirtioHost.receiveHeader headerLength).length = headerLength := by
  unfold VirtioHost.receiveHeader
  split <;> simp

theorem Delivers.append {pending waiting waiting' : List (List U8)} {log es : List QueueEvent}
    (h : Delivers pending log waiting) (h' : Delivers waiting es waiting') :
    Delivers pending (log ++ es) waiting' := by
  unfold Delivers at h h' ⊢
  rw [foldlM_append_option, h, Option.bind_some, h']

theorem Delivers.arrived (pending frames : List (List U8)) :
    Delivers pending (frames.map QueueEvent.arrived) (pending ++ frames) := by
  induction frames generalizing pending with
  | nil => simp [Delivers]
  | cons frame frames ih =>
    have hrest := ih (pending ++ [frame])
    rw [List.append_assoc] at hrest
    exact hrest

theorem Delivers.frame {headerLength capacity : ℕ} {frame : List U8} {frames : List (List U8)}
    {position head : U16} (hlength : headerLength + frame.length < 2 ^ 32) :
    Delivers (frame :: frames)
      [.taken position head,
        .copied headerLength frame capacity (VirtioHost.receiveHeader headerLength ++ frame),
        .published head (BitVec.ofNat 32 (headerLength + frame.length))] frames := by
  have hused : (BitVec.ofNat 32 (headerLength + frame.length)).toNat =
      headerLength + frame.length := by
    rw [BitVec.toNat_ofNat, Nat.mod_eq_of_lt hlength]
  simp [Delivers, ReceiveProgress.next, hused]

namespace VirtioWorld

/-- What the receive queue goes by is as it was. -/
structure SameReceive (w w' : VirtioWorld σ) : Prop where
  kind : w'.device.kind = w.device.kind
  pending : w'.device.pendingReceiveFrames = w.device.pendingReceiveFrames
  log : w'.log 0 = w.log 0

instance : Std.Refl (SameReceive : VirtioWorld σ → VirtioWorld σ → Prop) :=
  ⟨fun _ => ⟨rfl, rfl, rfl⟩⟩

instance : IsTrans (VirtioWorld σ) SameReceive :=
  ⟨fun _ _ _ h h' => ⟨h'.kind.trans h.kind, h'.pending.trans h.pending, h'.log.trans h.log⟩⟩

/-- The history of the receive queue went on, and the frames were delivered or wait if it fits. -/
structure Receives (w w' : VirtioWorld σ) : Prop where
  kind : w'.device.kind = w.device.kind
  delivers : ∃ es, w'.log 0 = w.log 0 ++ es ∧ ((∀ e ∈ es, e.fits) →
    Delivers w.device.pendingReceiveFrames es w'.device.pendingReceiveFrames)

theorem SameReceive.receives {w w' : VirtioWorld σ} (h : SameReceive w w') : Receives w w' := by
  refine ⟨h.kind, [], by rw [h.log, List.append_nil], fun _ => ?_⟩
  rw [h.pending]
  rfl

instance : Std.Refl (Receives : VirtioWorld σ → VirtioWorld σ → Prop) :=
  ⟨fun w => SameReceive.receives (Std.Refl.refl w)⟩

instance : IsTrans (VirtioWorld σ) Receives := by
  refine ⟨fun w w' w'' h h' => ⟨h'.kind.trans h.kind, ?_⟩⟩
  obtain ⟨es, hes, hdelivers⟩ := h.delivers
  obtain ⟨es', hes', hdelivers'⟩ := h'.delivers
  refine ⟨es ++ es', by rw [hes', hes, List.append_assoc], fun hfits => ?_⟩
  have hleft := hdelivers fun e he => hfits e (List.mem_append_left _ he)
  have hright := hdelivers' fun e he => hfits e (List.mem_append_right _ he)
  exact hleft.append hright

end VirtioWorld

open VirtioWorld

theorem receives_of_same {m : VirtioStep σ α} (h : Moves SameReceive m) : Moves Receives m :=
  fun w => (h w).receives

theorem onOutside_sameReceive (m : Fallible σ α) : Moves SameReceive (onOutside m) :=
  fun _ => ⟨rfl, rfl, rfl⟩

theorem getDevice_sameReceive : Moves SameReceive (getDevice : VirtioStep σ VirtioDevice) :=
  fun _ => ⟨rfl, rfl, rfl⟩

theorem modifyDevice_sameReceive {change : VirtioDevice → VirtioDevice}
    (hkind : ∀ device, (change device).kind = device.kind)
    (hpending : ∀ device, (change device).pendingReceiveFrames = device.pendingReceiveFrames) :
    Moves SameReceive (modifyDevice change : VirtioStep σ Unit) :=
  fun _ => ⟨hkind _, hpending _, rfl⟩

theorem record_sameReceive {queue : BitVec 32} (h : queue ≠ 0) (event : QueueEvent) :
    Moves SameReceive (record queue event : VirtioStep σ Unit) :=
  fun _ => ⟨rfl, rfl, Function.update_of_ne (Ne.symm h) _ _⟩

/-- The frames that wait are as they were. -/
def SamePending (w w' : VirtioWorld σ) : Prop :=
  w'.device.pendingReceiveFrames = w.device.pendingReceiveFrames

instance : Std.Refl (SamePending : VirtioWorld σ → VirtioWorld σ → Prop) := ⟨fun _ => rfl⟩

instance : IsTrans (VirtioWorld σ) SamePending := ⟨fun _ _ _ h h' => Eq.trans h' h⟩

theorem record_samePending (queue : BitVec 32) (event : QueueEvent) :
    Moves SamePending (record queue event : VirtioStep σ Unit) := fun _ => rfl

theorem onOutside_samePending (m : Fallible σ α) : Moves SamePending (onOutside m) := fun _ => rfl

namespace VirtioHost

variable (host : VirtioHost σ)

theorem copyPacket_written (descriptors : List VirtioDescriptor) (packet : List U8) (s : σ)
    {written : List U8} {s' : σ} (h : host.copyPacket descriptors packet s = (some written, s')) :
    written = packet.take (writableCount descriptors) := by
  induction descriptors generalizing packet s written s' with
  | nil =>
    simp only [copyPacket, Fallible.pure_apply, Prod.mk.injEq, Option.some.injEq] at h
    simp [writableCount, ← h.1]
  | cons descriptor rest ih =>
    rw [copyPacket] at h
    split at h
    · rename_i hwritable
      have hrest := ih _ _ h
      rw [hrest]
      simp [writableCount, hwritable]
    · rename_i hwritable
      have hcount : writableCount (descriptor :: rest) = descriptor.count + writableCount rest := by
        simp [writableCount, hwritable]
      split at h
      · rename_i hempty
        simp only [Fallible.pure_apply, Prod.mk.injEq, Option.some.injEq] at h
        rw [← h.1, hempty, List.take_nil]
      · dsimp only at h
        rcases hcopy : host.copyToGuest (packet.take descriptor.count) descriptor.address s
          with ⟨_ | _, s₁⟩
        · rw [bind_of_none hcopy] at h
          simp at h
        · rw [bind_of_some hcopy] at h
          rcases hnext : host.copyPacket rest (packet.drop descriptor.count) s₁ with ⟨_ | more, s₂⟩
          · rw [bind_of_none hnext] at h
            simp at h
          · rw [bind_of_some hnext] at h
            simp only [Fallible.pure_apply, Prod.mk.injEq, Option.some.injEq] at h
            have hmore := ih _ _ hnext
            rw [← h.1, hmore, hcount, List.take_add]

theorem writeNetworkReceiveFrame_spec (frame : List U8) (state : VirtioQueueState) (head : U16)
    (w : VirtioWorld σ) :
    match host.writeNetworkReceiveFrame frame state head w with
    | (none, w') => SameQueue 0 w w'
    | (some usedLength, w') => ∃ headerLength capacity, Grows 0 w w'
        [.copied headerLength frame capacity ((receiveHeader headerLength ++ frame).take capacity)] ∧
        usedLength = BitVec.ofNat 32 ((receiveHeader headerLength ++ frame).take capacity).length := by
  unfold writeNetworkReceiveFrame
  have hchain : SameQueue 0 w (onOutside (host.descriptorChain state head) w).2 := onOutside_same _ w
  rcases hdescriptors : onOutside (host.descriptorChain state head) w with ⟨_ | descriptors, w₁⟩
  · rw [bind_of_none hdescriptors]
    rw [hdescriptors] at hchain
    exact hchain
  · rw [bind_of_some hdescriptors, bind_of_some (show getDevice w₁ = (some w₁.device, w₁) from rfl)]
    rw [hdescriptors] at hchain
    generalize w₁.device.networkHeaderLength = headerLength
    have hcopy : SameQueue 0 w₁ (onOutside (host.copyPacket descriptors
        (receiveHeader headerLength ++ frame)) w₁).2 := onOutside_same _ w₁
    rcases hwritten : onOutside (host.copyPacket descriptors (receiveHeader headerLength ++ frame)) w₁
      with ⟨_ | written, w₂⟩
    · rw [bind_of_none hwritten]
      rw [hwritten] at hcopy
      exact IsTrans.trans _ _ _ hchain hcopy
    · rw [bind_of_some hwritten]
      rw [hwritten] at hcopy
      have hpacket : written = (receiveHeader headerLength ++ frame).take (writableCount descriptors) := by
        have houtside := congrArg Prod.fst hwritten
        change (host.copyPacket descriptors (receiveHeader headerLength ++ frame) w₁.outside).1 =
          some written at houtside
        exact host.copyPacket_written _ _ w₁.outside (Prod.ext houtside rfl)
      refine ⟨headerLength, writableCount descriptors, ?_, by rw [← hpacket]⟩
      rw [← hpacket]
      have hrecord := record_grows 0
        (.copied headerLength frame (writableCount descriptors) written) w₂
      exact (hchain.then_grows (hcopy.then_grows hrecord))

theorem receiveFrames_delivers (frames : List (List U8)) (availableIndex : U16)
    (state : VirtioQueueState) (w : VirtioWorld σ) :
    ∃ es, Grows 0 w (host.receiveFrames frames availableIndex state w).2 es ∧
      ∀ left, (host.receiveFrames frames availableIndex state w).1 = some left →
        (∀ e ∈ es, e.fits) → Delivers frames es left.2 := by
  induction frames generalizing availableIndex state w with
  | nil =>
    refine ⟨[], (Std.Refl.refl w : SameQueue 0 w w).grows, fun left hleft _ => ?_⟩
    obtain rfl := Option.some.inj hleft
    rfl
  | cons frame frames ih =>
    unfold receiveFrames
    split
    · refine ⟨[], (Std.Refl.refl w : SameQueue 0 w w).grows, fun left hleft _ => ?_⟩
      obtain rfl := Option.some.inj hleft
      rfl
    · have htake := host.takeEntry_spec 0 state w
      rcases htaken : host.takeEntry 0 state w with ⟨_ | head, w₁⟩
      · rw [bind_of_none htaken]
        rw [htaken] at htake
        exact ⟨[], htake.grows, by simp⟩
      · rw [bind_of_some htaken]
        rw [htaken] at htake
        have hcopied := host.writeNetworkReceiveFrame_spec frame state head w₁
        rcases hwrite : host.writeNetworkReceiveFrame frame state head w₁ with ⟨_ | usedLength, w₂⟩
        · rw [bind_of_none hwrite]
          rw [hwrite] at hcopied
          exact ⟨_, htake.then_same hcopied, by simp⟩
        · rw [bind_of_some hwrite]
          rw [hwrite] at hcopied
          obtain ⟨headerLength, capacity, hcopy, hused⟩ := hcopied
          have hpublish := host.publishUsedElement_spec 0 head usedLength state w₂
          rcases hresult : host.publishUsedElement 0 head usedLength state w₂ with ⟨_ | _, w₃⟩
          · rw [bind_of_none hresult]
            rw [hresult] at hpublish
            exact ⟨_, (htake.trans hcopy).then_same hpublish, by simp⟩
          · rw [bind_of_some hresult]
            rw [hresult] at hpublish
            have hraise := raiseUsedBuffer_same 0 w₃
            rw [bind_of_some (show raiseUsedBuffer w₃ = (some (), (raiseUsedBuffer w₃).2) from rfl)]
            generalize (raiseUsedBuffer w₃).2 = w₄ at hraise ⊢
            have hindex : SameQueue 0 w₄ (onOutside (host.readMemory16Acquire
                (state.driverAddress + 2)) w₄).2 := onOutside_same _ w₄
            have hentry := ((htake.trans hcopy).trans hpublish).then_same hraise
            rcases hnext : onOutside (host.readMemory16Acquire (state.driverAddress + 2)) w₄
              with ⟨_ | availableIndex', w₅⟩
            · rw [bind_of_none hnext]
              rw [hnext] at hindex
              exact ⟨_, hentry.then_same hindex, by simp⟩
            · rw [bind_of_some hnext]
              rw [hnext] at hindex
              obtain ⟨es, hes, hrest⟩ := ih availableIndex'
                { state with lastAvailableIndex := state.lastAvailableIndex + 1 } w₅
              refine ⟨_, (hentry.then_same hindex).trans hes, fun left hleft hfits => ?_⟩
              have htail := hrest left hleft fun e he => hfits e (List.mem_append_right _ he)
              obtain ⟨hcapacity, hlength⟩ : headerLength + frame.length ≤ capacity ∧
                  headerLength + frame.length < 2 ^ 32 :=
                hfits (.copied headerLength frame capacity
                  ((receiveHeader headerLength ++ frame).take capacity)) (by simp)
              have hwhole : (receiveHeader headerLength ++ frame).take capacity =
                  receiveHeader headerLength ++ frame := by
                refine List.take_of_length_le ?_
                rw [List.length_append, receiveHeader_length]
                exact hcapacity
              rw [hwhole, List.length_append, receiveHeader_length] at hused
              rw [hwhole, hused]
              exact (Delivers.frame hlength).append htail

theorem receiveFrames_samePending (frames : List (List U8)) (availableIndex : U16)
    (state : VirtioQueueState) :
    Moves SamePending (host.receiveFrames frames availableIndex state) := by
  induction frames generalizing availableIndex state with
  | nil => exact Moves.pure _
  | cons frame frames ih =>
    have htake : Moves SamePending (host.takeEntry 0 state) :=
      (onOutside_samePending _).bind fun _ => (record_samePending _ _).bind fun _ => Moves.pure _
    have hwrite : ∀ head, Moves SamePending (host.writeNetworkReceiveFrame frame state head) :=
      fun head => (onOutside_samePending _).bind fun _ => Moves.bind (fun _ => rfl) fun _ =>
        (onOutside_samePending _).bind fun _ => (record_samePending _ _).bind fun _ => Moves.pure _
    have hpublish : ∀ head usedLength,
        Moves SamePending (host.publishUsedElement 0 head usedLength state) :=
      fun head usedLength => (onOutside_samePending _).bind fun _ => record_samePending _ _
    have hraise : Moves SamePending (raiseUsedBuffer : VirtioStep σ Unit) := fun _ => rfl
    unfold receiveFrames
    split
    · exact Moves.pure _
    · exact htake.bind fun head => (hwrite head).bind fun used => (hpublish head used).bind fun _ =>
        hraise.bind fun _ => (onOutside_samePending _).bind fun _ => ih _ _

theorem record_arrived (frames : List (List U8)) (w : VirtioWorld σ) :
    (frames.forM (fun frame => record 0 (.arrived frame)) w).1 = some () ∧
      Grows 0 w (frames.forM (fun frame => record 0 (.arrived frame)) w).2
        (frames.map QueueEvent.arrived) ∧
      SamePending w (frames.forM (fun frame => record 0 (.arrived frame)) w).2 := by
  induction frames generalizing w with
  | nil => exact ⟨rfl, (Std.Refl.refl w : SameQueue 0 w w).grows, rfl⟩
  | cons frame frames ih =>
    obtain ⟨hsome, hgrows, hpending⟩ := ih (record 0 (.arrived frame) w).2
    exact ⟨hsome, (record_grows _ _ w).trans hgrows, hpending⟩

theorem receiveBackendFrames_spec (w : VirtioWorld σ) :
    ∃ frames, (host.receiveBackendFrames w).1 = some frames ∧
      Grows 0 w (host.receiveBackendFrames w).2 (frames.map QueueEvent.arrived) ∧
      SamePending w (host.receiveBackendFrames w).2 := by
  unfold receiveBackendFrames
  cases hbackend : host.networkBackend with
  | none => exact ⟨[], rfl, (Std.Refl.refl w : SameQueue 0 w w).grows, rfl⟩
  | some backend =>
    dsimp only
    refine ⟨(backend.receiveAll w.outside).1, ?_⟩
    rw [bind_of_some (show (onOutside fun outside => (some (backend.receiveAll outside).1,
        (backend.receiveAll outside).2) : VirtioStep σ (List (List U8))) w =
      (some (backend.receiveAll w.outside).1,
        { w with outside := (backend.receiveAll w.outside).2 }) from rfl)]
    obtain ⟨hsome, hgrows, hpending⟩ := record_arrived (backend.receiveAll w.outside).1
      { w with outside := (backend.receiveAll w.outside).2 }
    rw [bind_of_some (Prod.ext hsome rfl)]
    exact ⟨rfl, ⟨hgrows.kind, hgrows.state, hgrows.log⟩, hpending⟩

theorem processNetworkReceiveQueue_delivers (w : VirtioWorld σ) :
    ∃ es, (host.processNetworkReceiveQueue w).2.log 0 = w.log 0 ++ es ∧
      (host.processNetworkReceiveQueue w).2.device.kind = w.device.kind ∧
      ((host.processNetworkReceiveQueue w).1 = some () → (∀ e ∈ es, e.fits) →
        Delivers w.device.pendingReceiveFrames es
          (host.processNetworkReceiveQueue w).2.device.pendingReceiveFrames) := by
  unfold processNetworkReceiveQueue
  rw [bind_of_some (show getDevice w = (some w.device, w) from rfl)]
  cases hstate : w.device.queues 0 with
  | none => exact ⟨[], (List.append_nil _).symm, rfl, fun _ _ => rfl⟩
  | some state =>
    dsimp only
    split
    · exact ⟨[], (List.append_nil _).symm, rfl, fun _ _ => rfl⟩
    · generalize hemptied : (modifyDevice fun device : VirtioDevice =>
        { device with pendingReceiveFrames := [] } : VirtioStep σ Unit) = emptied
      have hempty : (emptied w).1 = some () ∧ Grows 0 w (emptied w).2 [] ∧
          (emptied w).2.device.pendingReceiveFrames = [] := by
        rw [← hemptied]
        exact ⟨rfl, ⟨rfl, rfl, (List.append_nil _).symm⟩, rfl⟩
      obtain ⟨hsome, hgrows, hnone⟩ := hempty
      rw [bind_of_some (show emptied w = (some (), (emptied w).2) from Prod.ext hsome rfl)]
      generalize (emptied w).2 = w₁ at hgrows hnone ⊢
      obtain ⟨frames, hframes, harrived, hpending⟩ := host.receiveBackendFrames_spec w₁
      rw [bind_of_some (show host.receiveBackendFrames w₁ =
        (some frames, (host.receiveBackendFrames w₁).2) from Prod.ext hframes rfl)]
      generalize (host.receiveBackendFrames w₁).2 = w₂ at harrived hpending ⊢
      have hbefore := hgrows.trans harrived
      rw [List.nil_append] at hbefore
      have hqueued : Delivers w.device.pendingReceiveFrames (frames.map QueueEvent.arrived)
          (w.device.pendingReceiveFrames ++ frames) := .arrived _ _
      have hwaiting : w₂.device.pendingReceiveFrames = [] := hpending.trans hnone
      split
      · rename_i hempty
        have hall : w.device.pendingReceiveFrames ++ frames = [] := List.isEmpty_iff.mp hempty
        refine ⟨_, hbefore.log, hbefore.kind, fun _ _ => ?_⟩
        rw [hall] at hqueued
        change Delivers _ _ w₂.device.pendingReceiveFrames
        rw [hwaiting]
        exact hqueued
      · have hindex : SameQueue 0 w₂ (onOutside (host.readMemory16Acquire
            (state.driverAddress + 2)) w₂).2 := onOutside_same _ w₂
        have hsame : SamePending w₂ (onOutside (host.readMemory16Acquire
            (state.driverAddress + 2)) w₂).2 := rfl
        rcases hread : onOutside (host.readMemory16Acquire (state.driverAddress + 2)) w₂
          with ⟨_ | availableIndex, w₃⟩
        · rw [bind_of_none hread]
          rw [hread] at hindex
          have hfinal := hbefore.then_same hindex
          exact ⟨_, hfinal.log, hfinal.kind, by simp⟩
        · rw [bind_of_some hread]
          rw [hread] at hindex hsame
          obtain ⟨es, hes, hdelivers⟩ := host.receiveFrames_delivers
            (w.device.pendingReceiveFrames ++ frames) availableIndex state w₃
          have hkept := host.receiveFrames_samePending
            (w.device.pendingReceiveFrames ++ frames) availableIndex state w₃
          have hbatch := (hbefore.then_same hindex).trans hes
          rcases hloop : host.receiveFrames (w.device.pendingReceiveFrames ++ frames) availableIndex
            state w₃ with ⟨_ | left, w₄⟩
          · rw [bind_of_none hloop]
            rw [hloop] at hbatch
            exact ⟨_, hbatch.log, hbatch.kind, by simp⟩
          · rw [bind_of_some hloop]
            rw [hloop] at hbatch hdelivers hkept
            refine ⟨_, hbatch.log, hbatch.kind, fun _ hfits => ?_⟩
            have htail := hdelivers left rfl fun e he => hfits e (List.mem_append_right _ he)
            change Delivers _ _ (left.2 ++ w₄.device.pendingReceiveFrames)
            have hnoneLeft : w₄.device.pendingReceiveFrames = [] :=
              (hkept.trans hsame).trans hwaiting
            rw [hnoneLeft, List.append_nil]
            exact hqueued.append htail

theorem batch_receives : Moves Receives (batch 0 host.processNetworkReceiveQueue) := by
  intro w
  have hstarted := record_grows 0 .started w
  have hpending : (record 0 .started w).2.device.pendingReceiveFrames =
      w.device.pendingReceiveFrames := record_samePending 0 .started w
  rw [(batch_spec w).2]
  generalize (record 0 .started w).2 = w₁ at hstarted hpending ⊢
  obtain ⟨es, hes, hkind, hdelivers⟩ := host.processNetworkReceiveQueue_delivers w₁
  have hlog : (host.processNetworkReceiveQueue w₁).2.log 0 = w.log 0 ++ ([.started] ++ es) := by
    rw [hes, hstarted.log, List.append_assoc]
  cases hresult : (host.processNetworkReceiveQueue w₁).1 with
  | none =>
    have hfailed := record_grows 0 .failed (host.processNetworkReceiveQueue w₁).2
    refine ⟨hfailed.kind.trans (hkind.trans hstarted.kind), [.started] ++ es ++ [.failed], ?_, ?_⟩
    · rw [hfailed.log, hlog, List.append_assoc]
    · intro hfits
      exact (hfits .failed (by simp)).elim
  | some result =>
    refine ⟨hkind.trans hstarted.kind, [.started] ++ es, hlog, fun hfits => ?_⟩
    have htail := hdelivers hresult fun e he => hfits e (List.mem_append_right _ he)
    have hstart : Delivers w.device.pendingReceiveFrames [.started] w.device.pendingReceiveFrames := rfl
    rw [hpending] at htail
    exact hstart.append htail

theorem pumpNetworkReceiveQueue_receives : Moves Receives host.pumpNetworkReceiveQueue := by
  refine (receives_of_same getDevice_sameReceive).bind fun device => ?_
  split
  · exact host.batch_receives.bind fun _ => Moves.pure _
  · exact Moves.pure _

/-! Transmitting a frame may pump the receive queue. The rest of it leaves the queue alone. -/

theorem readNetworkTransmitFrame_sameReceive (state : VirtioQueueState) (head : U16) :
    Moves SameReceive (host.readNetworkTransmitFrame state head) := by
  refine (onOutside_sameReceive _).bind fun descriptors => (onOutside_sameReceive _).bind fun bytes => ?_
  split
  · exact Moves.pure _
  · dsimp only
    split
    · exact Moves.bind (modifyDevice_sameReceive (fun _ => rfl) fun _ => rfl) fun _ => Moves.pure _
    · exact Moves.bind (modifyDevice_sameReceive (fun _ => rfl) fun _ => rfl) fun _ => Moves.pure _

theorem transmitFrame_receives {queue : BitVec 32} (h : queue ≠ 0) (frame : List U8) :
    Moves Receives (host.transmitFrame queue frame) := by
  unfold transmitFrame
  split
  · exact Moves.pure _
  · refine (receives_of_same (record_sameReceive h _)).bind fun _ =>
      (receives_of_same (onOutside_sameReceive _)).bind fun framesAvailable => ?_
    split
    · exact host.pumpNetworkReceiveQueue_receives
    · exact Moves.pure _

theorem processNetworkTransmit_receives {queue : BitVec 32} (h : queue ≠ 0) (state : VirtioQueueState)
    (head : U16) : Moves Receives (host.processNetworkTransmit queue state head) :=
  (receives_of_same (host.readNetworkTransmitFrame_sameReceive state head)).bind fun frame =>
    (host.transmitFrame_receives h frame).bind fun _ =>
      (receives_of_same getDevice_sameReceive).bind fun _ => Moves.pure _

theorem serveQueue_receives {queue : BitVec 32} (h : queue ≠ 0)
    {serve : VirtioQueueState → U16 → VirtioStep σ (BitVec 32)}
    (hserve : ∀ state head, Moves Receives (serve state head)) (wanted : VirtioDevice → Bool)
    (availableIndex : U16) (fuel : ℕ) (state : VirtioQueueState) (delivered : ℕ) :
    Moves Receives (host.serveQueue queue wanted serve (pure ()) availableIndex fuel state delivered) := by
  induction fuel generalizing state delivered with
  | zero => exact Moves.pure _
  | succ fuel ih =>
    have htake : Moves SameReceive (host.takeEntry queue state) :=
      (onOutside_sameReceive _).bind fun _ => (record_sameReceive h _).bind fun _ => Moves.pure _
    have hpublish : ∀ head usedLength,
        Moves SameReceive (host.publishUsedElement queue head usedLength state) :=
      fun head usedLength => (onOutside_sameReceive _).bind fun _ => record_sameReceive h _
    refine (receives_of_same getDevice_sameReceive).bind fun device => ?_
    split
    · exact Moves.pure _
    · exact (receives_of_same htake).bind fun head => (hserve state head).bind fun used =>
        (receives_of_same (hpublish head used)).bind fun _ => Moves.bind (Moves.pure ()) fun _ => ih _ _

theorem processNetworkTransmitQueue_receives {queue : BitVec 32} (h : queue ≠ 0) :
    Moves Receives (host.processNetworkTransmitQueue queue) := by
  have havailable : Moves SameReceive (host.availableQueue queue) := by
    refine getDevice_sameReceive.bind fun device => ?_
    split
    · exact Moves.pure _
    · split
      · exact Moves.pure _
      · exact (onOutside_sameReceive _).bind fun _ => Moves.pure _
  refine (receives_of_same havailable).bind fun available => ?_
  split
  · exact Moves.pure _
  · exact (host.serveQueue_receives h (host.processNetworkTransmit_receives h) _ _ _ _ _).bind
      fun served => receives_of_same (modifyDevice_sameReceive (fun _ => rfl) fun _ => rfl)

theorem batch_transmit_receives {queue : BitVec 32} (h : queue ≠ 0) :
    Moves Receives (batch queue (host.processNetworkTransmitQueue queue)) := by
  refine (receives_of_same (record_sameReceive h _)).bind fun _ =>
    (host.processNetworkTransmitQueue_receives h).attempt.bind fun result => ?_
  split
  · exact Moves.pure _
  · exact (receives_of_same (record_sameReceive h _)).bind fun _ => Moves.pure _

theorem notify_receives {w : VirtioWorld σ} (hkind : w.device.kind = .network) (notified : BitVec 32) :
    Receives w (host.notify notified w).2 := by
  have hnoted : Receives w (noted w notified) :=
    SameReceive.receives (show SameReceive w (noted w notified) from ⟨rfl, rfl, rfl⟩)
  have hraise : Moves Receives (raiseUsedBuffer : VirtioStep σ Unit) :=
    receives_of_same (modifyDevice_sameReceive (fun _ => rfl) fun _ => rfl)
  rw [host.notify_eq, hkind]
  split
  · exact hnoted
  · refine IsTrans.trans _ _ _ hnoted ?_
    dsimp only
    split_ifs
    · exact ((host.batch_transmit_receives (by decide)).bind fun _ => host.batch_receives.bind
        fun _ => hraise) _
    · exact (host.batch_receives.bind fun _ => hraise) _
    · exact hraise _

theorem injectNetworkReceiveFrame_receives (frame : List U8) :
    Moves Receives (host.injectNetworkReceiveFrame frame) := by
  intro w
  have harrived : Receives w (record 0 (.arrived frame) (modifyDevice (fun device : VirtioDevice =>
      { device with pendingReceiveFrames := device.pendingReceiveFrames ++ [frame] }) w).2).2 := by
    refine ⟨rfl, [.arrived frame], (record_grows _ _ _).log, fun _ => ?_⟩
    exact Delivers.arrived w.device.pendingReceiveFrames [frame]
  exact IsTrans.trans _ _ _ harrived (host.pumpNetworkReceiveQueue_receives _)

theorem step_receives {w : VirtioWorld σ} (hkind : w.device.kind = .network) (event : VirtioEvent σ) :
    Receives w (host.step w event) := by
  unfold step
  cases event with
  | notify notified => exact host.notify_receives hkind notified
  | pump => exact host.pumpNetworkReceiveQueue_receives w
  | inject frame => exact host.injectNetworkReceiveFrame_receives frame w
  | key code value =>
    change Receives w (host.enqueueKey code value w).2
    unfold enqueueKey
    rw [bind_of_some (show getDevice w = (some w.device, w) from rfl), if_neg (by simp [hkind])]
    exact Std.Refl.refl w
  | touches pending =>
    change Receives w (host.enqueueTouches pending w).2
    unfold enqueueTouches
    rw [bind_of_some (show getDevice w = (some w.device, w) from rfl), if_neg (by simp [hkind])]
    exact Std.Refl.refl w
  | acknowledge value => exact SameReceive.receives ⟨rfl, rfl, rfl⟩
  | outside change => exact SameReceive.receives ⟨rfl, rfl, rfl⟩

theorem run_receives {w : VirtioWorld σ} (hkind : w.device.kind = .network)
    (events : List (VirtioEvent σ)) : Receives w (host.run w events) := by
  induction events generalizing w with
  | nil => exact Std.Refl.refl w
  | cons event events ih =>
    have hstep := host.step_receives hkind event
    have hrest : Receives (host.step w event) (host.run (host.step w event) events) :=
      ih (hstep.kind.trans hkind)
    exact IsTrans.trans _ _ _ hstep hrest

/-- As long as no receive batch throws and every offered chain has room for its packet, each frame
that arrived waits in order or was delivered whole, once and in order. -/
theorem frames_delivered (w : VirtioWorld σ) (hkind : w.device.kind = .network)
    (hlog : w.log 0 = []) (events : List (VirtioEvent σ))
    (hfits : ∀ event ∈ (host.run w events).log 0, event.fits) :
    Delivers w.device.pendingReceiveFrames ((host.run w events).log 0)
      (host.run w events).device.pendingReceiveFrames := by
  obtain ⟨es, hes, hdelivers⟩ := (host.run_receives hkind events).delivers
  rw [hlog, List.nil_append] at hes
  rw [hes] at hfits ⊢
  exact hdelivers hfits

end VirtioHost

/-- A network device whose driver has set up its receive queue. -/
def smallReceiver (memory : U64 → U8) : VirtioWorld (U64 → U8) :=
  { smallNetwork memory with device := (smallNetwork memory).device.setQueue 0 smallQueue }

/-- An available entry with the given head. The chain of descriptor 0 is 12 writable bytes at 16384. -/
def receiveEntry (head : U8) : U64 → U8 := fun address =>
  if address = 4097 then 64 else if address = 4104 then 12 else if address = 4108 then 2
  else if address = 8194 then 1 else if address = 8196 then head else 0

instance (event : QueueEvent) : Decidable event.fits := by
  cases event <;> unfold QueueEvent.fits <;> infer_instance

instance (pending : List (List U8)) (log : List QueueEvent) (waiting : List (List U8)) :
    Decidable (Delivers pending log waiting) :=
  inferInstanceAs (Decidable (_ = _))

namespace VirtioHost

/-- A frame is gone when its entry names a descriptor that the queue does not have, and when its chain
has room for two of its three bytes only. -/
theorem frames_lost :
    (¬ Delivers [] ((flatHost.run (smallReceiver (receiveEntry 9)) [.inject [1, 2]]).log 0)
      (flatHost.run (smallReceiver (receiveEntry 9)) [.inject [1, 2]]).device.pendingReceiveFrames) ∧
    ¬ Delivers [] ((flatHost.run (smallReceiver (receiveEntry 0)) [.inject [1, 2, 3]]).log 0)
      (flatHost.run (smallReceiver (receiveEntry 0)) [.inject [1, 2, 3]]).device.pendingReceiveFrames := by
  decide +kernel

/-- A frame that fits is delivered, and the one behind it waits for another entry. -/
theorem frame_delivered :
    Delivers [] ((flatHost.run (smallReceiver (receiveEntry 0)) [.inject [1, 2], .inject [3]]).log 0)
      [[3]] := by
  have hdelivers := flatHost.frames_delivered (smallReceiver (receiveEntry 0)) rfl rfl
    [.inject [1, 2], .inject [3]] (by decide +kernel)
  have hwaiting : (flatHost.run (smallReceiver (receiveEntry 0))
      [.inject [1, 2], .inject [3]]).device.pendingReceiveFrames = [[3]] := by
    decide +kernel
  rw [hwaiting] at hdelivers
  exact hdelivers

end VirtioHost

end Pinecone
