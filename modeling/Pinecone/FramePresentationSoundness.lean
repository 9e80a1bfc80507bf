import Pinecone.FramePresentation
import Pinecone.Runs

/-! What the staging surface holds after an upload, for a source of frames that may start its
generations again. -/

namespace Pinecone

open FramePresentationScheduler

namespace VirtualFramebufferFrameLease

/-- The two have the same frame, whatever damage they give. -/
structure SameFrame (lease frame : VirtualFramebufferFrameLease) : Prop where
  metadata : lease.metadata = { frame.metadata with damage := lease.metadata.damage }
  byteCount : lease.byteCount = frame.byteCount
  bytes : lease.bytes = frame.bytes

/-- The frame has this pixel, with these bytes. -/
def HasPixel (frame : VirtualFramebufferFrameLease) (x y : ℤ) (pixel : Fin 4 → BitVec 8) : Prop :=
  frame.InFrame x y ∧ frame.pixel x y = pixel

theorem SameFrame.hasPixel {lease frame : VirtualFramebufferFrameLease} (h : lease.SameFrame frame)
    {x y : ℤ} {pixel : Fin 4 → BitVec 8} (hpixel : frame.HasPixel x y pixel) :
    lease.HasPixel x y pixel := by
  obtain ⟨hin, hbytes⟩ := hpixel
  refine ⟨?_, ?_⟩
  · rw [InFrame, h.metadata]
    exact hin
  · rw [← hbytes]
    funext byte
    rw [VirtualFramebufferFrameLease.pixel, h.bytes, h.metadata]
    rfl

end VirtualFramebufferFrameLease

/-- The latest frame that carried the generation; `source` has the newest first. -/
def latestFrame (source : List VirtualFramebufferFrameLease) (generation : U64) :
    Option VirtualFramebufferFrameLease :=
  source.find? fun frame => frame.metadata.generation == generation

/-- What a source with these frames leases: its newest frame, with damage that covers all of it
or, after a generation, all that differs from the latest frame of that generation. -/
structure LeasedFrom (source : List VirtualFramebufferFrameLease) (request : Option U64)
    (lease : VirtualFramebufferFrameLease) : Prop where
  newest : ∃ frame earlier, source = frame :: earlier ∧ lease.SameFrame frame
  full : request = none → ∀ x y, lease.InFrame x y → lease.Damages x y
  differs : ∀ generation base, request = some generation →
    latestFrame source generation = some base → ∀ x y, lease.InFrame x y →
      ¬ base.HasPixel x y (lease.pixel x y) → lease.Damages x y

/-- The scheduler, the staging surface and the source, with the lease last uploaded. -/
structure PresentationState where
  scheduler : FramePresentationScheduler
  surface : StagingSurface
  source : List VirtualFramebufferFrameLease
  uploaded : Option VirtualFramebufferFrameLease

inductive PresentationEvent
  | commit (frame : VirtualFramebufferFrameLease)
  | receive (metadata : VirtualFramebufferFrameMetadata)
  | requestRedraw
  | beginRefresh (acquireFrame : Option U64 → Option VirtualFramebufferFrameLease)
  | finishUpload (ticket : Ticket) (succeeded : Bool)
  | markQueued (ticket : Ticket)
  | complete (ticket : Ticket) (succeeded : Bool)
  | reset

inductive PresentationEntry
  | began (ticket : Ticket)
  | retired (ticket : Ticket)

/-- The ticket of the active slot. -/
def FramePresentationScheduler.tickets (scheduler : FramePresentationScheduler) : List Ticket :=
  scheduler.active.toList.map fun active => active.upload.ticket

/-- What the change of the scheduler retires. -/
def retirement (before after : FramePresentationScheduler) : List PresentationEntry :=
  if after.active.isNone then before.tickets.map .retired else []

/-- The presentations that began and are not retired. -/
def outstanding : List PresentationEntry → List Ticket
  | [] => []
  | .began ticket :: log => ticket :: outstanding log
  | .retired ticket :: log => (outstanding log).erase ticket

/-- The worker with this ticket is uploading. -/
def FramePresentationScheduler.IsUploading (scheduler : FramePresentationScheduler)
    (ticket : Ticket) : Prop :=
  ∃ active, scheduler.active = some active ∧ active.upload.ticket = ticket ∧
    active.phase = .uploading

/-- One call. The source may commit frames between the two leases of one refresh, and only the
active upload writes the surface: the planned rectangles, or anything when it fails. -/
inductive PresentationStep :
    PresentationState → PresentationEvent → PresentationState → List PresentationEntry → Prop
  | commit (s : PresentationState) (frame : VirtualFramebufferFrameLease) :
      PresentationStep s (.commit frame) { s with source := frame :: s.source } []
  | receive (s : PresentationState) (metadata : VirtualFramebufferFrameMetadata) :
      PresentationStep s (.receive metadata)
        { s with scheduler := s.scheduler.receive metadata } []
  | requestRedraw (s : PresentationState) :
      PresentationStep s .requestRedraw { s with scheduler := s.scheduler.requestRedraw } []
  | beginRefresh (s : PresentationState)
      (acquireFrame : Option U64 → Option VirtualFramebufferFrameLease)
      (committed : List VirtualFramebufferFrameLease)
      (hafter : ∀ generation lease, acquireFrame (some generation) = some lease →
        LeasedFrom s.source (some generation) lease)
      (hfull : ∀ lease, acquireFrame none = some lease →
        LeasedFrom (committed ++ s.source) none lease) :
      PresentationStep s (.beginRefresh acquireFrame)
        { s with
          scheduler := (s.scheduler.beginRefresh acquireFrame).2
          source := committed ++ s.source }
        ((s.scheduler.beginRefresh acquireFrame).1.toList.map fun upload => .began upload.ticket)
  | uploaded (s : PresentationState) (active : Active) (surface : StagingSurface)
      (hactive : s.scheduler.active = some active) (hphase : active.phase = .uploading)
      (hupload : s.surface.upload active.upload.lease = some surface) :
      PresentationStep s (.finishUpload active.upload.ticket true)
        { s with
          scheduler := (s.scheduler.finishUpload active.upload.ticket true).2
          surface := surface
          uploaded := some active.upload.lease }
        (retirement s.scheduler (s.scheduler.finishUpload active.upload.ticket true).2)
  | uploadFailed (s : PresentationState) (ticket : Ticket) (surface : StagingSurface)
      (huploading : s.scheduler.IsUploading ticket) :
      PresentationStep s (.finishUpload ticket false)
        { s with
          scheduler := (s.scheduler.finishUpload ticket false).2
          surface := surface }
        (retirement s.scheduler (s.scheduler.finishUpload ticket false).2)
  | finishUpload (s : PresentationState) (ticket : Ticket) (succeeded : Bool)
      (huploading : ¬ s.scheduler.IsUploading ticket) :
      PresentationStep s (.finishUpload ticket succeeded)
        { s with scheduler := (s.scheduler.finishUpload ticket succeeded).2 }
        (retirement s.scheduler (s.scheduler.finishUpload ticket succeeded).2)
  | markQueued (s : PresentationState) (ticket : Ticket) :
      PresentationStep s (.markQueued ticket)
        { s with scheduler := (s.scheduler.markQueued ticket).2 }
        (retirement s.scheduler (s.scheduler.markQueued ticket).2)
  | complete (s : PresentationState) (ticket : Ticket) (succeeded : Bool) :
      PresentationStep s (.complete ticket succeeded)
        { s with scheduler := (s.scheduler.complete ticket succeeded).2 }
        (retirement s.scheduler (s.scheduler.complete ticket succeeded).2)
  | reset (s : PresentationState) :
      PresentationStep s .reset { s with scheduler := s.scheduler.reset }
        (retirement s.scheduler s.scheduler.reset)

/-- Where the refresh takes damage after a generation, the latest frame of that generation is the
one that was uploaded: the source has not given its generation again. -/
def KeepsBaseline (s : PresentationState) : PresentationEvent → Prop
  | .beginRefresh acquireFrame => ∀ latestMetadata generation lease,
      s.scheduler.latestMetadata = some latestMetadata →
      s.scheduler.previousGeneration latestMetadata = some generation →
      acquireFrame (some generation) = some lease → generation ≤ lease.metadata.generation →
      ∃ base uploaded, latestFrame s.source generation = some base ∧
        s.uploaded = some uploaded ∧ uploaded.SameFrame base
  | _ => True

def PresentationState.Initial (s : PresentationState) : Prop :=
  s.scheduler = .initial ∧ s.uploaded = none

def presentation : LoggedSystem PresentationState PresentationEvent PresentationEntry where
  initial := PresentationState.Initial
  step := PresentationStep

/-- The runs whose source keeps the baselines. -/
def keptPresentation : LoggedSystem PresentationState PresentationEvent PresentationEntry where
  initial := PresentationState.Initial
  step := fun s event s' new => KeepsBaseline s event ∧ PresentationStep s event s' new

/-- The call of its worker or presenter that retires the slot. -/
def FramePresentationScheduler.RetiredByCall (scheduler : FramePresentationScheduler)
    (active : Active) : Prop :=
  match active.phase with
  | .uploading => (scheduler.finishUpload active.upload.ticket false).2.active = none
  | .ready => (scheduler.complete active.upload.ticket false).2.active = none
  | .queued => ∀ succeeded, (scheduler.complete active.upload.ticket succeeded).2.active = none

structure PresentsSoundly (log : List PresentationEntry) (s : PresentationState) : Prop where
  /-- The presentations that are not retired are the active one. -/
  single : outstanding log = s.scheduler.tickets
  foreign : ∀ ticket succeeded, s.scheduler.isActive ticket = false →
    (s.scheduler.finishUpload ticket succeeded).2 = s.scheduler ∧
      (s.scheduler.markQueued ticket).2 = s.scheduler ∧
      (s.scheduler.complete ticket succeeded).2 = s.scheduler
  stale : ∀ ticket succeeded, ticket.epoch ≠ s.scheduler.epoch →
    ∀ after ∈ [(s.scheduler.finishUpload ticket succeeded).2, (s.scheduler.markQueued ticket).2,
      (s.scheduler.complete ticket succeeded).2],
      after = s.scheduler ∨ after = { s.scheduler with active := none }
  retirable : ∀ active, s.scheduler.active = some active → s.scheduler.RetiredByCall active
  /-- The upload that succeeds leaves the complete leased frame. -/
  shown : ∀ active s' new, s.scheduler.active = some active → active.phase = .uploading →
    PresentationStep s (.finishUpload active.upload.ticket true) s' new →
    s'.surface.Shows active.upload.lease

/-! ## The slot -/

namespace FramePresentationScheduler

variable (scheduler : FramePresentationScheduler) (ticket : Ticket) (succeeded : Bool)

theorem foreign_calls {scheduler : FramePresentationScheduler} {ticket : Ticket}
    (h : scheduler.isActive ticket = false) :
    (scheduler.finishUpload ticket succeeded).2 = scheduler ∧
      (scheduler.markQueued ticket).2 = scheduler ∧
      (scheduler.complete ticket succeeded).2 = scheduler := by
  rcases hactive : scheduler.active with _ | active
  · simp only [finishUpload, markQueued, complete, hactive, and_self]
  · have hne : active.upload.ticket ≠ ticket := by
      simpa [isActive, hactive] using h
    simp only [finishUpload, markQueued, complete, hactive, ne_eq, hne, not_false_eq_true, true_or,
      if_true, and_self]

theorem stale_finishUpload {scheduler : FramePresentationScheduler} {ticket : Ticket}
    (h : ticket.epoch ≠ scheduler.epoch) :
    (scheduler.finishUpload ticket succeeded).2 = scheduler ∨
      (scheduler.finishUpload ticket succeeded).2 = { scheduler with active := none } := by
  unfold finishUpload
  split
  · exact .inl rfl
  · split
    · exact .inl rfl
    · exact .inr rfl

theorem stale_markQueued {scheduler : FramePresentationScheduler} {ticket : Ticket}
    (h : ticket.epoch ≠ scheduler.epoch) : (scheduler.markQueued ticket).2 = scheduler := by
  unfold markQueued
  split
  · rfl
  · rw [if_pos (.inr (.inr h))]

theorem stale_complete {scheduler : FramePresentationScheduler} {ticket : Ticket}
    (h : ticket.epoch ≠ scheduler.epoch) :
    (scheduler.complete ticket succeeded).2 = scheduler ∨
      (scheduler.complete ticket succeeded).2 = { scheduler with active := none } := by
  unfold complete
  split
  · exact .inl rfl
  · split
    · exact .inl rfl
    · exact .inr rfl

theorem retiredByCall {scheduler : FramePresentationScheduler} {active : Active}
    (h : scheduler.active = some active) : scheduler.RetiredByCall active := by
  unfold RetiredByCall
  split
  · next hphase =>
    simp only [finishUpload, h, hphase, ne_eq, not_true_eq_false, or_self, if_false]
    split_ifs
    · rfl
    · rfl
  · next hphase =>
    simp only [complete, h, hphase, ne_eq, not_true_eq_false, reduceCtorEq, and_self, or_true,
      or_self, if_false]
    split_ifs
    · rfl
    · rfl
  · next hphase =>
    intro succeeded
    simp only [complete, h, hphase, ne_eq, not_true_eq_false, true_or, or_self, if_false]
    split_ifs
    · rfl
    · rfl
    · rfl

theorem tickets_finishUpload : (scheduler.finishUpload ticket succeeded).2.tickets = scheduler.tickets ∨
    (scheduler.finishUpload ticket succeeded).2.active = none := by
  unfold finishUpload
  split
  · exact .inl rfl
  · next active hactive =>
    split_ifs
    · exact .inl rfl
    · exact .inr rfl
    · exact .inr rfl
    · exact .inl (by simp [tickets, hactive])

theorem tickets_markQueued : (scheduler.markQueued ticket).2.tickets = scheduler.tickets := by
  unfold markQueued
  split
  · rfl
  · next active hactive =>
    split_ifs
    · rfl
    · simp [tickets, hactive]

theorem tickets_complete : (scheduler.complete ticket succeeded).2.tickets = scheduler.tickets ∨
    (scheduler.complete ticket succeeded).2.active = none := by
  unfold complete
  split
  · exact .inl rfl
  · split_ifs
    · exact .inl rfl
    · exact .inr rfl
    · exact .inr rfl
    · exact .inr rfl

theorem tickets_reset :
    scheduler.reset.tickets = scheduler.tickets ∨ scheduler.reset.active = none := by
  rcases hactive : scheduler.active with _ | active
  · exact .inr (by simp [reset, hactive])
  · by_cases hready : active.phase = .ready
    · exact .inr (by simp [reset, hactive, hready])
    · exact .inl (by simp [reset, tickets, hactive, hready])

end FramePresentationScheduler

theorem outstanding_retirement {before after : FramePresentationScheduler}
    {log : List PresentationEntry} (h : outstanding log = before.tickets)
    (hafter : after.tickets = before.tickets ∨ after.active = none) :
    outstanding (retirement before after ++ log) = after.tickets := by
  rcases hslot : after.active with _ | active
  · have hnone : after.tickets = [] := by simp [tickets, hslot]
    have hretired : retirement before after = before.tickets.map .retired := by
      simp [retirement, hslot]
    rw [hretired, hnone]
    rcases hbefore : before.active with _ | active
    · have hempty : before.tickets = [] := by simp [tickets, hbefore]
      simpa [hempty] using h
    · have hone : before.tickets = [active.upload.ticket] := by simp [tickets, hbefore]
      simp [hone, outstanding, h]
  · have hkept : after.tickets = before.tickets := hafter.resolve_right (by simp [hslot])
    rw [hkept, ← h]
    simp [retirement, hslot]

theorem outstanding_beginRefresh {scheduler : FramePresentationScheduler}
    (acquireFrame : Option U64 → Option VirtualFramebufferFrameLease)
    {log : List PresentationEntry} (h : outstanding log = scheduler.tickets) :
    outstanding ((scheduler.beginRefresh acquireFrame).1.toList.map
        (fun upload => .began upload.ticket) ++ log) =
      (scheduler.beginRefresh acquireFrame).2.tickets := by
  unfold beginRefresh
  split
  · exact h
  · next hfree =>
    have hnone : scheduler.active = none := by
      simpa using (not_or.mp hfree).1
    split
    · exact h
    · split
      · exact h
      · have hempty : outstanding log = [] := by simp [h, tickets, hnone]
        simp [outstanding, tickets, hempty]

theorem single_of_step {log new : List PresentationEntry} {s s' : PresentationState}
    {event : PresentationEvent} (h : outstanding log = s.scheduler.tickets)
    (hstep : PresentationStep s event s' new) : outstanding (new ++ log) = s'.scheduler.tickets := by
  cases hstep with
  | commit frame => exact h
  | receive metadata =>
    have hkept : (s.scheduler.receive metadata).tickets = s.scheduler.tickets := by
      unfold FramePresentationScheduler.receive
      split
      · rfl
      · split
        · rfl
        · rfl
    exact h.trans hkept.symm
  | requestRedraw => exact h
  | beginRefresh acquireFrame => exact outstanding_beginRefresh acquireFrame h
  | uploaded => exact outstanding_retirement h (tickets_finishUpload _ _ _)
  | uploadFailed => exact outstanding_retirement h (tickets_finishUpload _ _ _)
  | finishUpload => exact outstanding_retirement h (tickets_finishUpload _ _ _)
  | markQueued => exact outstanding_retirement h (.inl (tickets_markQueued _ _))
  | complete => exact outstanding_retirement h (tickets_complete _ _ _)
  | reset => exact outstanding_retirement h (tickets_reset _)

/-! ## The surface -/

theorem FramePresentationUploadPlan.damage_of_make {metadata : VirtualFramebufferFrameMetadata}
    {requiresFullUpload : Bool} {plan : FramePresentationUploadPlan}
    (h : make metadata requiresFullUpload = some plan) :
    plan.damage = if requiresFullUpload then [⟨0, 0, metadata.width, metadata.height⟩]
      else metadata.damage.filter fun rectangle => 0 < rectangle.width && 0 < rectangle.height := by
  unfold make at h
  split_ifs at h with hlayout hdamage
  all_goals
    cases h
    simp_all

/-- The planned rectangles contain every pixel of the damage, and all of the frame where a full
upload is required. -/
theorem FramePresentationUploadPlan.contains_of_make {lease : VirtualFramebufferFrameLease}
    {requiresFullUpload : Bool} {plan : FramePresentationUploadPlan}
    (h : make lease.metadata requiresFullUpload = some plan) {x y : ℤ} (hin : lease.InFrame x y)
    (hdamage : requiresFullUpload = true ∨ lease.Damages x y) :
    plan.damage.any (fun rectangle => rectangle.Contains x y) = true := by
  have hplan := damage_of_make h
  rw [List.any_eq_true]
  cases requiresFullUpload with
  | true =>
    obtain ⟨hx, hx', hy, hy'⟩ := hin
    refine ⟨⟨0, 0, lease.metadata.width, lease.metadata.height⟩, by simp [hplan],
      decide_eq_true ⟨hx, ?_, hy, ?_⟩⟩
    · simpa using hx'
    · simpa using hy'
  | false =>
    obtain ⟨rectangle, hmem, hcontains⟩ := hdamage.resolve_left (by decide)
    refine ⟨rectangle, ?_, decide_eq_true hcontains⟩
    obtain ⟨hx, hx', hy, hy'⟩ := hcontains
    have hwidth : 0 < rectangle.width := by omega
    have hheight : 0 < rectangle.height := by omega
    simp [hplan, hmem, hwidth, hheight]

theorem StagingSurface.shows_of_upload {surface surface' : StagingSurface}
    {lease : VirtualFramebufferFrameLease} (h : surface.upload lease = some surface')
    (hrest : ∀ x y, lease.InFrame x y → ¬ lease.Damages x y →
      surface.pixel x y = lease.pixel x y) : surface'.Shows lease := by
  unfold upload at h
  dsimp only at h
  split at h
  · cases h
  · next plan hplan =>
    split_ifs at h with hbytes
    cases h
    refine ⟨rfl, rfl, fun x y hin => ?_⟩
    dsimp only
    split
    · rfl
    · next hout =>
      refine hrest x y hin fun hdamages => hout ?_
      exact FramePresentationUploadPlan.contains_of_make hplan hin (.inr hdamages)

/-- The surface is the frame that the scheduler counts as uploaded, and outside the damage of the
active upload it already is the leased frame. -/
structure SurfaceKept (s : PresentationState) : Prop where
  uploaded : ∀ metadata, s.scheduler.uploadedMetadata = some metadata →
    ∃ lease, s.uploaded = some lease ∧ lease.metadata = metadata ∧ s.surface.Shows lease
  active : ∀ active, s.scheduler.active = some active → active.phase = .uploading →
    ∀ x y, active.upload.lease.InFrame x y → ¬ active.upload.lease.Damages x y →
      s.surface.pixel x y = active.upload.lease.pixel x y
  stale : ∀ active, s.scheduler.active = some active →
    active.upload.ticket.epoch ≠ s.scheduler.epoch → s.scheduler.uploadedMetadata = none

theorem surfaceKept_of_initial {s : PresentationState} (h : s.Initial) : SurfaceKept s := by
  obtain ⟨hscheduler, -⟩ := h
  constructor
  all_goals simp [hscheduler, FramePresentationScheduler.initial]

/-- The call neither begins nor ends an upload. -/
structure KeepsUpload (before after : FramePresentationScheduler) : Prop where
  uploaded : after.uploadedMetadata = before.uploadedMetadata ∨ after.uploadedMetadata = none
  active : ∀ active, after.active = some active → ∃ old, before.active = some old ∧
    active.upload = old.upload ∧ (active.phase = .uploading → old.phase = .uploading)
  epoch : after.epoch = before.epoch ∨ after.uploadedMetadata = none

namespace KeepsUpload

variable {scheduler before after : FramePresentationScheduler}

theorem of_eq (huploaded : after.uploadedMetadata = before.uploadedMetadata)
    (hactive : after.active = before.active) (hepoch : after.epoch = before.epoch) :
    KeepsUpload before after :=
  ⟨.inl huploaded, fun active h => ⟨active, hactive ▸ h, rfl, id⟩, .inl hepoch⟩

theorem of_free (hactive : after.active = none)
    (huploaded : after.uploadedMetadata = before.uploadedMetadata ∨ after.uploadedMetadata = none)
    (hepoch : after.epoch = before.epoch) : KeepsUpload before after :=
  ⟨huploaded, fun active h => by simp [hactive] at h, .inl hepoch⟩

theorem receive (metadata : VirtualFramebufferFrameMetadata) :
    KeepsUpload scheduler (scheduler.receive metadata) := by
  unfold FramePresentationScheduler.receive
  split
  · exact of_eq rfl rfl rfl
  · split
    · exact of_eq rfl rfl rfl
    · exact of_eq rfl rfl rfl

theorem markQueued (ticket : Ticket) : KeepsUpload scheduler (scheduler.markQueued ticket).2 := by
  unfold FramePresentationScheduler.markQueued
  split
  · exact of_eq rfl rfl rfl
  · next active hactive =>
    split
    · exact of_eq rfl rfl rfl
    · refine ⟨.inl rfl, ?_, .inl rfl⟩
      rintro _ ⟨⟩
      exact ⟨active, hactive, rfl, nofun⟩

theorem complete (ticket : Ticket) (succeeded : Bool) :
    KeepsUpload scheduler (scheduler.complete ticket succeeded).2 := by
  unfold FramePresentationScheduler.complete
  split
  · exact of_eq rfl rfl rfl
  · split_ifs
    · exact of_eq rfl rfl rfl
    · exact of_free rfl (.inl rfl) rfl
    · exact of_free rfl (.inr rfl) rfl
    · exact of_free rfl (.inl rfl) rfl

theorem reset : KeepsUpload scheduler scheduler.reset := by
  refine ⟨.inr rfl, ?_, .inr rfl⟩
  intro active h
  rcases hbefore : scheduler.active with _ | old
  · simp [FramePresentationScheduler.reset, hbefore] at h
  · simp only [FramePresentationScheduler.reset, hbefore] at h
    split at h
    · cases h
    · cases h
      exact ⟨active, rfl, rfl, id⟩

theorem finishUpload {ticket : Ticket} (h : ¬ scheduler.IsUploading ticket) (succeeded : Bool) :
    KeepsUpload scheduler (scheduler.finishUpload ticket succeeded).2 := by
  unfold FramePresentationScheduler.finishUpload
  split
  · exact of_eq rfl rfl rfl
  · next active hactive =>
    have hforeign : active.upload.ticket ≠ ticket ∨ active.phase ≠ .uploading := by
      by_contra hboth
      obtain ⟨hticket, hphase⟩ := not_or.mp hboth
      exact h ⟨active, hactive, not_not.mp hticket, not_not.mp hphase⟩
    rw [if_pos hforeign]
    exact of_eq rfl rfl rfl

end KeepsUpload

theorem SurfaceKept.of_keepsUpload {s : PresentationState} (h : SurfaceKept s)
    {after : FramePresentationScheduler} (hkeeps : KeepsUpload s.scheduler after) :
    SurfaceKept { s with scheduler := after } where
  uploaded := by
    intro metadata hmetadata
    rcases hkeeps.uploaded with hsame | hnone
    · exact h.uploaded metadata (hsame ▸ hmetadata)
    · rw [hnone] at hmetadata
      cases hmetadata
  active := by
    intro active hslot hphase
    obtain ⟨before, hbefore, hupload, huploading⟩ := hkeeps.active active hslot
    rw [hupload]
    exact h.active before hbefore (huploading hphase)
  stale := by
    intro active hslot hstale
    rcases hkeeps.epoch with hsame | hnone
    · obtain ⟨before, hbefore, hupload, -⟩ := hkeeps.active active hslot
      rcases hkeeps.uploaded with hkept | hnone
      · change after.uploadedMetadata = none
        rw [hkept]
        refine h.stale before hbefore ?_
        rw [← hupload, ← hsame]
        exact hstale
      · exact hnone
    · exact hnone

/-! ## A refresh and its upload -/

theorem acquireLease_cases {acquireFrame : Option U64 → Option VirtualFramebufferFrameLease}
    {previousGeneration : Option U64} {lease : VirtualFramebufferFrameLease}
    (h : acquireLease acquireFrame previousGeneration = some lease) :
    acquireFrame none = some lease ∨ ∃ generation, previousGeneration = some generation ∧
      acquireFrame (some generation) = some lease ∧ generation ≤ lease.metadata.generation := by
  unfold acquireLease at h
  split at h
  · cases h
  · next first hfirst =>
    split at h
    · cases h
      exact .inl hfirst
    · next generation =>
      split at h
      · exact .inl h
      · next hnewer =>
        cases h
        exact .inr ⟨generation, rfl, hfirst, BitVec.not_lt.mp hnewer⟩

theorem beginRefresh_cases (scheduler : FramePresentationScheduler)
    (acquireFrame : Option U64 → Option VirtualFramebufferFrameLease) :
    (scheduler.beginRefresh acquireFrame).2 = scheduler ∨
      ∃ latestMetadata lease, scheduler.latestMetadata = some latestMetadata ∧
        acquireLease acquireFrame (scheduler.previousGeneration latestMetadata) = some lease ∧
        (scheduler.beginRefresh acquireFrame).2 = { scheduler with
          latestMetadata := some lease.metadata
          redrawRequested := false
          active := some ⟨⟨⟨scheduler.epoch, scheduler.uuids⟩, lease⟩, .uploading⟩
          uuids := scheduler.uuids + 1 } := by
  unfold FramePresentationScheduler.beginRefresh
  split
  · exact .inl rfl
  · split
    · exact .inl rfl
    · next latestMetadata hlatest =>
      split
      · exact .inl rfl
      · next lease hlease => exact .inr ⟨latestMetadata, lease, hlatest, hlease, rfl⟩

theorem uploadedMetadata_of_previousGeneration {scheduler : FramePresentationScheduler}
    {latestMetadata : VirtualFramebufferFrameMetadata} {generation : U64}
    (h : scheduler.previousGeneration latestMetadata = some generation) :
    ∃ metadata, scheduler.uploadedMetadata = some metadata := by
  unfold FramePresentationScheduler.previousGeneration at h
  split at h
  · cases h
  · next metadata hmetadata => exact ⟨metadata, hmetadata⟩

theorem SurfaceKept.undamaged {s : PresentationState} (h : SurfaceKept s)
    {generation : U64} {lease base uploaded : VirtualFramebufferFrameLease}
    {metadata : VirtualFramebufferFrameMetadata}
    (hmetadata : s.scheduler.uploadedMetadata = some metadata)
    (hlease : LeasedFrom s.source (some generation) lease)
    (hbase : latestFrame s.source generation = some base) (huploaded : s.uploaded = some uploaded)
    (hsame : uploaded.SameFrame base) {x y : ℤ} (hin : lease.InFrame x y)
    (hout : ¬ lease.Damages x y) : s.surface.pixel x y = lease.pixel x y := by
  have hbasePixel : base.HasPixel x y (lease.pixel x y) := by
    by_contra hdiffers
    exact hout (hlease.differs generation base rfl hbase x y hin hdiffers)
  obtain ⟨huploadedIn, huploadedPixel⟩ := hsame.hasPixel hbasePixel
  obtain ⟨shown, hshown, -, hsurface⟩ := h.uploaded metadata hmetadata
  rw [huploaded] at hshown
  cases hshown
  exact (hsurface.pixel x y huploadedIn).trans huploadedPixel

theorem SurfaceKept.beginRefresh {s : PresentationState} (h : SurfaceKept s)
    {acquireFrame : Option U64 → Option VirtualFramebufferFrameLease}
    {committed : List VirtualFramebufferFrameLease}
    (hafter : ∀ generation lease, acquireFrame (some generation) = some lease →
      LeasedFrom s.source (some generation) lease)
    (hfull : ∀ lease, acquireFrame none = some lease →
      LeasedFrom (committed ++ s.source) none lease)
    (hkeeps : KeepsBaseline s (.beginRefresh acquireFrame)) :
    SurfaceKept { s with
      scheduler := (s.scheduler.beginRefresh acquireFrame).2
      source := committed ++ s.source } := by
  rcases beginRefresh_cases s.scheduler acquireFrame with hsame | hbegan
  · rw [hsame]
    exact ⟨h.uploaded, h.active, h.stale⟩
  · obtain ⟨latestMetadata, lease, hlatest, hlease, hafterRefresh⟩ := hbegan
    rw [hafterRefresh]
    refine ⟨h.uploaded, ?_, ?_⟩
    · rintro _ ⟨⟩ - x y hin hout
      rcases acquireLease_cases hlease with hwhole | ⟨generation, hprevious, hpart, hnewer⟩
      · exact absurd ((hfull lease hwhole).full rfl x y hin) hout
      · obtain ⟨base, uploaded, hbase, huploaded, hsame⟩ :=
          hkeeps latestMetadata generation lease hlatest hprevious hpart hnewer
        obtain ⟨metadata, hmetadata⟩ := uploadedMetadata_of_previousGeneration hprevious
        exact h.undamaged hmetadata (hafter generation lease hpart) hbase huploaded hsame hin hout
    · rintro _ ⟨⟩ hstale
      exact absurd rfl hstale

theorem SurfaceKept.uploadSucceeds {s : PresentationState} (h : SurfaceKept s) {active : Active}
    {surface : StagingSurface} (hactive : s.scheduler.active = some active)
    (hphase : active.phase = .uploading)
    (hupload : s.surface.upload active.upload.lease = some surface) :
    surface.Shows active.upload.lease :=
  StagingSurface.shows_of_upload hupload (h.active active hactive hphase)

theorem SurfaceKept.finishUpload {s : PresentationState} (h : SurfaceKept s) {active : Active}
    {surface : StagingSurface} (hactive : s.scheduler.active = some active)
    (hphase : active.phase = .uploading)
    (hupload : s.surface.upload active.upload.lease = some surface) :
    SurfaceKept { s with
      scheduler := (s.scheduler.finishUpload active.upload.ticket true).2
      surface := surface
      uploaded := some active.upload.lease } := by
  have hshows := h.uploadSucceeds hactive hphase hupload
  by_cases hepoch : active.upload.ticket.epoch = s.scheduler.epoch
  · have hready : (s.scheduler.finishUpload active.upload.ticket true).2 = { s.scheduler with
        uploadedMetadata := some active.upload.lease.metadata
        active := some { active with phase := .ready } } := by
      simp [FramePresentationScheduler.finishUpload, hactive, hphase, hepoch]
    rw [hready]
    refine ⟨?_, ?_, ?_⟩
    · rintro _ ⟨⟩
      exact ⟨active.upload.lease, rfl, rfl, hshows⟩
    · rintro _ ⟨⟩ ⟨⟩
    · rintro _ ⟨⟩ hstale
      exact absurd hepoch hstale
  · have hfreed : (s.scheduler.finishUpload active.upload.ticket true).2 =
        { s.scheduler with active := none } := by
      simp [FramePresentationScheduler.finishUpload, hactive, hphase, hepoch]
    have hnone := h.stale active hactive hepoch
    rw [hfreed]
    refine ⟨?_, nofun, nofun⟩
    intro metadata hmetadata
    exact absurd (hnone.symm.trans hmetadata) (by simp)

theorem SurfaceKept.uploadFails {s : PresentationState} (h : SurfaceKept s) {ticket : Ticket}
    (huploading : s.scheduler.IsUploading ticket) (surface : StagingSurface) :
    SurfaceKept { s with
      scheduler := (s.scheduler.finishUpload ticket false).2
      surface := surface } := by
  obtain ⟨active, hactive, rfl, hphase⟩ := huploading
  have hfreed : (s.scheduler.finishUpload active.upload.ticket false).2 =
      { s.scheduler with active := none, uploadedMetadata := none } := by
    by_cases hepoch : active.upload.ticket.epoch = s.scheduler.epoch
    · simp [FramePresentationScheduler.finishUpload, hactive, hphase, hepoch]
    · have hnone := h.stale active hactive hepoch
      simp [FramePresentationScheduler.finishUpload, hactive, hphase, hepoch, ← hnone]
  rw [hfreed]
  exact ⟨nofun, nofun, nofun⟩

theorem surfaceKept_of_step {s s' : PresentationState} {event : PresentationEvent}
    {new : List PresentationEntry} (h : SurfaceKept s) (hkeeps : KeepsBaseline s event)
    (hstep : PresentationStep s event s' new) : SurfaceKept s' := by
  cases hstep with
  | commit frame => exact ⟨h.uploaded, h.active, h.stale⟩
  | receive metadata => exact h.of_keepsUpload (.receive metadata)
  | requestRedraw => exact ⟨h.uploaded, h.active, h.stale⟩
  | beginRefresh acquireFrame committed hafter hfull => exact h.beginRefresh hafter hfull hkeeps
  | uploaded active surface hactive hphase hupload => exact h.finishUpload hactive hphase hupload
  | uploadFailed ticket surface huploading => exact h.uploadFails huploading surface
  | finishUpload ticket succeeded huploading =>
    exact h.of_keepsUpload (.finishUpload huploading succeeded)
  | markQueued ticket => exact h.of_keepsUpload (.markQueued ticket)
  | complete ticket succeeded => exact h.of_keepsUpload (.complete ticket succeeded)
  | reset => exact h.of_keepsUpload .reset

/-! ## The runs -/

theorem SurfaceKept.shown {s s' : PresentationState} (h : SurfaceKept s) {active : Active}
    {new : List PresentationEntry} (hactive : s.scheduler.active = some active)
    (hphase : active.phase = .uploading)
    (hstep : PresentationStep s (.finishUpload active.upload.ticket true) s' new) :
    s'.surface.Shows active.upload.lease := by
  generalize hevent : PresentationEvent.finishUpload active.upload.ticket true = event at hstep
  cases hstep with
  | uploaded other surface hother hphase' hupload =>
    rw [hactive] at hother
    cases hother
    exact h.uploadSucceeds hactive hphase hupload
  | uploadFailed => cases hevent
  | finishUpload ticket succeeded huploading =>
    cases hevent
    exact absurd ⟨active, hactive, rfl, hphase⟩ huploading
  | _ => cases hevent

/-- In every run whose source keeps the baselines, the uploads that succeed leave the complete
leased frames. -/
theorem presentsSoundly_of_keptPresentation {log : List PresentationEntry}
    {s : PresentationState} (h : keptPresentation.Reachable log s) : PresentsSoundly log s := by
  have hinvariant : outstanding log = s.scheduler.tickets ∧ SurfaceKept s := by
    refine h.invariant (P := fun log s => outstanding log = s.scheduler.tickets ∧ SurfaceKept s)
      ?_ ?_
    · intro s hinitial
      refine ⟨?_, surfaceKept_of_initial hinitial⟩
      rw [hinitial.1]
      rfl
    · rintro log s event s' new - ⟨hsingle, hsurface⟩ ⟨hkeeps, hstep⟩
      exact ⟨single_of_step hsingle hstep, surfaceKept_of_step hsurface hkeeps hstep⟩
  obtain ⟨hsingle, hsurface⟩ := hinvariant
  refine ⟨hsingle, fun _ succeeded => foreign_calls succeeded, ?_,
    fun _ hactive => retiredByCall hactive,
    fun _ _ _ hactive hphase hstep => hsurface.shown hactive hphase hstep⟩
  intro ticket succeeded hstale after hafter
  simp only [List.mem_cons, List.not_mem_nil, or_false] at hafter
  obtain rfl | rfl | rfl := hafter
  · exact stale_finishUpload succeeded hstale
  · exact .inl (stale_markQueued hstale)
  · exact stale_complete succeeded hstale

/-! ## A generation given again -/

/-- A frame of two pixels, each of one byte value. -/
def twoPixelFrame (generation timestamp : U64) (left right : BitVec 8)
    (damage : List VirtualFramebufferDamage) : VirtualFramebufferFrameLease where
  metadata := ⟨2, 1, 8, 4, generation, timestamp, damage⟩
  byteCount := 8
  bytes := fun offset => if offset < 4 then left else right

theorem twoPixelFrame_inFrame {generation timestamp : U64} {left right : BitVec 8}
    {damage : List VirtualFramebufferDamage} {x y : ℤ}
    (h : (twoPixelFrame generation timestamp left right damage).InFrame x y) :
    (x = 0 ∨ x = 1) ∧ y = 0 := by
  obtain ⟨hx, hx', hy, hy'⟩ := h
  have hx2 : x < 2 := hx'
  have hy1 : y < 1 := hy'
  omega

def wholeDamage : List VirtualFramebufferDamage := [⟨0, 0, 2, 1⟩]

/-- The lease of the first frame, and of the last one after the first one's generation. -/
def firstLease : VirtualFramebufferFrameLease := twoPixelFrame 1 1 0 0 wholeDamage

def lastLease : VirtualFramebufferFrameLease := twoPixelFrame 2 4 2 1 [⟨0, 0, 1, 1⟩]

def firstSource : List VirtualFramebufferFrameLease := [twoPixelFrame 1 1 0 0 []]

/-- The source starts again at 0 with another picture, and gives 1 again. -/
def restartedSource : List VirtualFramebufferFrameLease :=
  [twoPixelFrame 2 4 2 1 [], twoPixelFrame 1 3 1 1 [], twoPixelFrame 0 2 1 1 [],
    twoPixelFrame 1 1 0 0 []]

theorem leasedFrom_firstSource : LeasedFrom firstSource none firstLease where
  newest := ⟨_, [], rfl, rfl, rfl, rfl⟩
  full := by
    intro _ x y hin
    obtain ⟨hx, rfl⟩ := twoPixelFrame_inFrame hin
    refine ⟨⟨0, 0, 2, 1⟩, List.mem_singleton_self _, ?_⟩
    rcases hx with rfl | rfl
    · decide
    · decide
  differs := nofun

theorem leasedFrom_restartedSource : LeasedFrom restartedSource (some 1) lastLease where
  newest := ⟨_, _, rfl, rfl, rfl, rfl⟩
  full := nofun
  differs := by
    rintro _ base ⟨⟩ hbase x y hin hdiffers
    obtain rfl : twoPixelFrame 1 3 1 1 [] = base := Option.some.inj hbase
    obtain ⟨hx, rfl⟩ := twoPixelFrame_inFrame hin
    rcases hx with rfl | rfl
    · exact ⟨⟨0, 0, 1, 1⟩, List.mem_singleton_self _, by decide⟩
    · refine absurd ⟨⟨by decide, by decide, by decide, by decide⟩, ?_⟩ hdiffers
      funext byte
      revert byte
      decide

def emptySurface : StagingSurface := ⟨0, 0, fun _ _ _ => 0⟩

def firstSurface : StagingSurface := (emptySurface.upload firstLease).getD emptySurface

def uploadingFirst : FramePresentationScheduler :=
  ((initial.receive firstLease.metadata).beginRefresh fun request =>
    if request = none then some firstLease else none).2

def presentedFirst : FramePresentationScheduler :=
  (((uploadingFirst.finishUpload ⟨0, 1⟩ true).2.markQueued ⟨0, 1⟩).2.complete ⟨0, 1⟩ true).2

def uploadingLast : FramePresentationScheduler :=
  ((presentedFirst.receive lastLease.metadata).beginRefresh fun request =>
    if request = some 1 then some lastLease else none).2

theorem uploadingFirst_reachable : ∃ log, keptPresentation.Reachable log
    ⟨uploadingFirst, emptySurface, firstSource, none⟩ := by
  have hinitial : keptPresentation.Reachable [] ⟨initial, emptySurface, firstSource, none⟩ :=
    .initial ⟨rfl, rfl⟩
  have hreceived := @LoggedSystem.Reachable.step _ _ _ keptPresentation _ _ _ _
    (.receive firstLease.metadata) hinitial ⟨trivial, .receive _ firstLease.metadata⟩
  refine ⟨_, hreceived.step ⟨?_, .beginRefresh _ (fun request =>
    if request = none then some firstLease else none) [] ?_ ?_⟩⟩
  · rintro _ _ _ ⟨⟩ ⟨⟩
  · rintro _ _ ⟨⟩
  · rintro _ ⟨⟩
    exact leasedFrom_firstSource

theorem Reachable.of_kept {log : List PresentationEntry} {s : PresentationState}
    (h : keptPresentation.Reachable log s) : presentation.Reachable log s := by
  induction h with
  | initial hinitial => exact .initial hinitial
  | step _ hstep ih => exact .step ih hstep.2

theorem uploadingLast_reachable : ∃ log, presentation.Reachable log
    ⟨uploadingLast, firstSurface, restartedSource, some firstLease⟩ := by
  obtain ⟨log, hbegan⟩ := uploadingFirst_reachable
  have huploaded := (Reachable.of_kept hbegan).step
    (.uploaded _ ⟨⟨⟨0, 1⟩, firstLease⟩, .uploading⟩ firstSurface rfl rfl rfl)
  have hqueued := huploaded.step (.markQueued _ ⟨0, 1⟩)
  have hcompleted := hqueued.step (.complete _ ⟨0, 1⟩ true)
  have hrestarted := hcompleted.step (.commit _ (twoPixelFrame 0 2 1 1 []))
  have hagain := hrestarted.step (.commit _ (twoPixelFrame 1 3 1 1 []))
  have hlast := hagain.step (.commit _ (twoPixelFrame 2 4 2 1 []))
  have hreceived := hlast.step (.receive _ lastLease.metadata)
  refine ⟨_, hreceived.step (.beginRefresh _ (fun request =>
    if request = some 1 then some lastLease else none) [] ?_ ?_)⟩
  · intro generation lease hlease
    split at hlease
    · next hrequest =>
      cases hrequest
      cases hlease
      exact leasedFrom_restartedSource
    · cases hlease
  · rintro _ ⟨⟩

theorem presentsSoundly_uploadingFirst : ∃ log, keptPresentation.Reachable log
    ⟨uploadingFirst, emptySurface, firstSource, none⟩ ∧
      PresentsSoundly log ⟨uploadingFirst, emptySurface, firstSource, none⟩ := by
  obtain ⟨log, h⟩ := uploadingFirst_reachable
  exact ⟨log, h, presentsSoundly_of_keptPresentation h⟩

/-- A source that starts again and passes the generation of the upload leaves a stale pixel. -/
theorem not_presentsSoundly_of_restart : ¬ ∀ log s, presentation.Reachable log s →
    PresentsSoundly log s := by
  intro h
  obtain ⟨log, hreachable⟩ := uploadingLast_reachable
  have hshown := (h log _ hreachable).shown ⟨⟨⟨0, 2⟩, lastLease⟩, .uploading⟩ _ _ rfl rfl
    (.uploaded _ _ ((firstSurface.upload lastLease).getD firstSurface) rfl rfl rfl)
  have hpixel := hshown.pixel 1 0 ⟨by decide, by decide, by decide, by decide⟩
  have hbyte := congrFun hpixel 0
  revert hbyte
  decide

end Pinecone
