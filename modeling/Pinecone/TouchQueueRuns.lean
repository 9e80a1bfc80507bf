import Pinecone.TouchQueueSoundness

/-! What a touch queue delivers in every run, of the events that it was offered. -/

namespace Pinecone

open TimestampedTouchEvent

namespace TouchMotionQueue

variable {q q' : TouchMotionQueue} {delivered accepted : List TimestampedTouchEvent}
  {event : TimestampedTouchEvent} {nowNanoseconds : ℕ}

theorem Sound.refused (h : q.Sound delivered accepted)
    (houtcome : q.enqueue event nowNanoseconds = q'.refuse event) (hq' : q'.Sound delivered accepted) :
    (q.enqueue event nowNanoseconds).1.Sound delivered (accepted ++ q.queuedBy event nowNanoseconds) := by
  have hnone : q.queuedBy event nowNanoseconds = [] := by
    rw [queuedBy, houtcome]
    rfl
  rw [hnone, List.append_nil, houtcome]
  exact hq'.refuse event

theorem Sound.taken {samples : List TimestampedTouchEvent}
    (houtcome : q.enqueue event nowNanoseconds = (q', true))
    (hsamples : q.samplesOf event nowNanoseconds = samples)
    (hq' : q'.Sound delivered (accepted ++ samples)) :
    (q.enqueue event nowNanoseconds).1.Sound delivered (accepted ++ q.queuedBy event nowNanoseconds) := by
  have hqueued : q.queuedBy event nowNanoseconds = samples := by
    rw [queuedBy, houtcome]
    exact hsamples
  rw [hqueued, houtcome]
  exact hq'

theorem samplesOf_held {phase : TouchPhase} (hphase : q.phaseOf event = phase)
    (hdown : phase.isDown = true) : q.samplesOf event nowNanoseconds =
      [sampleOf event phase (q.timestampOf event nowNanoseconds)] := by
  unfold samplesOf
  dsimp only
  rw [hphase, if_neg]
  rintro ⟨hup, -⟩
  rw [hdown] at hup
  cases hup

theorem Sound.enqueue (h : q.Sound delivered accepted) (event : TimestampedTouchEvent)
    (nowNanoseconds : ℕ) :
    (q.enqueue event nowNanoseconds).1.Sound delivered
      (accepted ++ q.queuedBy event nowNanoseconds) := by
  by_cases hcontradicts : event.phase.any (·.isDown != event.isDown) = true
  · exact h.refused (if_pos hcontradicts) h
  by_cases hcontact : q.rejectingContact = true
  · have houtcome : q.enqueue event nowNanoseconds =
        (if event.isDown then q else { q with rejectingContact := false }).refuse event := by
      unfold TouchMotionQueue.enqueue
      rw [if_neg hcontradicts]
      exact if_pos hcontact
    refine h.refused houtcome ?_
    split
    · exact h
    · obtain ⟨⟨past, hpast, hfollows, hplaced⟩, hidle⟩ := h
      exact ⟨⟨past, hpast, ⟨hfollows.trail, hfollows.bounded, hfollows.roomy⟩, hplaced⟩,
        fun hfalse => Bool.noConfusion hfalse⟩
  rw [Bool.not_eq_true] at hcontact
  have hopen : ¬q.rejectingContact = true := by rw [hcontact]; exact Bool.noConfusion
  cases hphase : q.phaseOf event with
  | down =>
    have houtcome : q.enqueue event nowNanoseconds =
        if q.active then q.refuse event
        else
          if (q.makeRoom (q.capacity - 3)).capacity - 3 < (q.makeRoom (q.capacity - 3)).count then
            TouchMotionQueue.refuse { q.makeRoom (q.capacity - 3) with
              rejectingContact := true
              rejectedGestureCount := (q.makeRoom (q.capacity - 3)).rejectedGestureCount + 1 } event
          else (TouchMotionQueue.accept { q.makeRoom (q.capacity - 3) with active := true } event
            .down nowNanoseconds, true) := by
      unfold TouchMotionQueue.enqueue
      rw [if_neg hcontradicts]
      dsimp only
      refine (if_neg hopen).trans ?_
      simp only [hphase]
    by_cases hactive : q.active = true
    · rw [if_pos hactive] at houtcome
      exact h.refused houtcome h
    · rw [if_neg hactive] at houtcome
      obtain ⟨hfull, hfits⟩ := @Sound.down _ _ event _ h (by simpa using hactive) hcontact nowNanoseconds
      split at houtcome
      · rename_i hlimit
        exact h.refused houtcome (hfull hlimit)
      · rename_i hlimit
        exact Sound.taken houtcome (samplesOf_held hphase rfl) (hfits hlimit)
  | move =>
    have houtcome : q.enqueue event nowNanoseconds =
        if q.active then
          if (q.makeRoom (q.capacity - 3)).capacity - 3 < (q.makeRoom (q.capacity - 3)).count then
            (q.makeRoom (q.capacity - 3)).refuse event
          else ((q.makeRoom (q.capacity - 3)).accept event .move nowNanoseconds, true)
        else q.refuse event := by
      unfold TouchMotionQueue.enqueue
      rw [if_neg hcontradicts]
      dsimp only
      refine (if_neg hopen).trans ?_
      simp only [hphase]
    by_cases hactive : q.active = true
    · rw [if_pos hactive] at houtcome
      obtain ⟨hfull, hfits⟩ := @Sound.move _ _ event _ h hactive hcontact nowNanoseconds
      split at houtcome
      · rename_i hlimit
        exact h.refused houtcome (hfull hlimit)
      · rename_i hlimit
        exact Sound.taken houtcome (samplesOf_held hphase rfl) (hfits hlimit)
    · rw [if_neg hactive] at houtcome
      exact h.refused houtcome h
  | up =>
    have houtcome : q.enqueue event nowNanoseconds =
        if q.active then (q.accept event (q.phaseOf event) nowNanoseconds, true)
        else q.refuse event := by
      unfold TouchMotionQueue.enqueue
      rw [if_neg hcontradicts]
      dsimp only
      refine (if_neg hopen).trans ?_
      simp only [hphase]
    by_cases hactive : q.active = true
    · rw [if_pos hactive] at houtcome
      exact Sound.taken houtcome rfl (h.release hactive (by rw [hphase]; rfl) nowNanoseconds)
    · rw [if_neg hactive] at houtcome
      exact h.refused houtcome h
  | cancel =>
    have houtcome : q.enqueue event nowNanoseconds =
        if q.active then (q.accept event (q.phaseOf event) nowNanoseconds, true)
        else q.refuse event := by
      unfold TouchMotionQueue.enqueue
      rw [if_neg hcontradicts]
      dsimp only
      refine (if_neg hopen).trans ?_
      simp only [hphase]
    by_cases hactive : q.active = true
    · rw [if_pos hactive] at houtcome
      exact Sound.taken houtcome rfl (h.release hactive (by rw [hphase]; rfl) nowNanoseconds)
    · rw [if_neg hactive] at houtcome
      exact h.refused houtcome h

theorem Sound.deliver {amount : ℕ} (h : q.Sound delivered accepted) :
    TouchMotionQueue.Sound { q with entries := q.entries.drop amount }
      (delivered ++ (q.entries.take amount).map TouchEntry.event) accepted := by
  obtain ⟨⟨past, hpast, hfollows, hplaced⟩, hidle⟩ := h
  have hwhole : past ++ q.entries.take amount ++ q.entries.drop amount = past ++ q.entries := by
    rw [List.append_assoc, List.take_append_drop]
  have hcount : (q.entries.drop amount).length ≤ q.count := by
    rw [List.length_drop]
    exact Nat.sub_le _ _
  refine ⟨⟨past ++ q.entries.take amount, ?_, ⟨?_, ?_, fun hactive => ?_⟩, ?_⟩, hidle⟩
  · rw [List.map_append, hpast]
  · change TouchTrail (past ++ q.entries.take amount ++ q.entries.drop amount) _ _ _
    rw [hwhole]
    exact hfollows.trail
  · exact hcount.trans hfollows.bounded
  · have hroomy := hfollows.roomy hactive
    change (q.entries.drop amount).length + 2 ≤ q.capacity
    omega
  · intro hactive last hlast
    change last ∈ (past ++ q.entries.take amount ++ q.entries.drop amount).getLast? at hlast
    rw [hwhole] at hlast
    exact hplaced hactive last hlast

end TouchMotionQueue

/-! ## Runs -/

/-- The samples that the guest has got. -/
def touchDelivered : List TouchLogEntry → List TimestampedTouchEvent
  | [] => []
  | .delivered sample :: log => touchDelivered log ++ [sample]
  | .accepted _ _ _ :: log | .refused _ _ :: log => touchDelivered log

/-- The samples of the events that were accepted. -/
def touchAccepted : List TouchLogEntry → List TimestampedTouchEvent
  | [] => []
  | .accepted _ _ samples :: log => touchAccepted log ++ samples
  | .delivered _ :: log | .refused _ _ :: log => touchAccepted log

theorem touchDelivered_append (samples : List TimestampedTouchEvent) (log : List TouchLogEntry) :
    touchDelivered ((samples.map TouchLogEntry.delivered).reverse ++ log) =
      touchDelivered log ++ samples := by
  induction samples using List.reverseRecOn with
  | nil => exact (List.append_nil _).symm
  | append_singleton samples sample ih =>
    rw [List.map_append, List.reverse_append, List.map_singleton, List.reverse_singleton,
      List.singleton_append, List.cons_append, touchDelivered, ih, List.append_assoc]

theorem touchAccepted_append (samples : List TimestampedTouchEvent) (log : List TouchLogEntry) :
    touchAccepted ((samples.map TouchLogEntry.delivered).reverse ++ log) = touchAccepted log := by
  induction samples using List.reverseRecOn with
  | nil => rfl
  | append_singleton samples sample ih =>
    rw [List.map_append, List.reverse_append, List.map_singleton, List.reverse_singleton,
      List.singleton_append, List.cons_append, touchAccepted, ih]

/-- An event that ends a contact. -/
def TouchLogEntry.EndsContact : TouchLogEntry → Prop
  | .accepted event _ _ | .refused event _ =>
    event.isDown = false ∧ event.phase.any (·.isDown != event.isDown) = false
  | .delivered _ => False

/-- A contact has been rejected for want of room and has not ended. -/
def ContactRejected (log : List TouchLogEntry) : Prop :=
  ∃ event, LoggedSince (.refused event true) TouchLogEntry.EndsContact log

/-- What the samples of an accepted event say: its phase at its point, after a move there. -/
def SamplesOfEvent (event : TimestampedTouchEvent) (phase : TouchPhase)
    (samples : List TimestampedTouchEvent) : Prop :=
  ∃ moves sample, samples = moves ++ [sample] ∧ sample.phase = some phase ∧
    sample.point = event.point ∧ moves.length ≤ 1 ∧
      ∀ move ∈ moves, move.phase = some .move ∧ move.point = event.point

namespace TouchMotionQueue

variable {q q' : TouchMotionQueue} {log : List TouchLogEntry}

theorem samplesOf_event (q : TouchMotionQueue) (event : TimestampedTouchEvent) (nowNanoseconds : ℕ) :
    SamplesOfEvent event (q.phaseOf event) (q.samplesOf event nowNanoseconds) := by
  unfold samplesOf
  dsimp only
  split
  · exact ⟨[finalMoveOf event _], _, rfl, rfl, rfl, le_rfl, by simp [finalMoveOf, point]⟩
  · exact ⟨[], _, rfl, rfl, rfl, Nat.zero_le _, by simp⟩

theorem Sound.step (h : q.Sound (touchDelivered log) (touchAccepted log)) (op : TouchOp) :
    (q.step op).1.Sound (touchDelivered ((q.step op).2 ++ log))
      (touchAccepted ((q.step op).2 ++ log)) := by
  cases op with
  | enqueue event nowNanoseconds =>
    have hnext := h.enqueue event nowNanoseconds
    unfold queuedBy at hnext
    unfold TouchMotionQueue.step
    dsimp only
    by_cases htaken : (q.enqueue event nowNanoseconds).2 = true
    · rw [if_pos htaken] at hnext ⊢
      exact hnext
    · rw [if_neg htaken, List.append_nil] at hnext
      rw [if_neg htaken]
      exact hnext
  | popFirst =>
    have hnext := @Sound.deliver _ _ _ 1 h
    unfold TouchMotionQueue.step popFirst
    cases hentries : q.entries with
    | nil => exact h
    | cons entry rest =>
      rw [hentries] at hnext
      exact hnext
  | drain maxCount =>
    have hnext := @Sound.deliver _ _ _ (min q.count (max 0 maxCount).toNat) h
    unfold TouchMotionQueue.step drain
    dsimp only
    rw [touchDelivered_append, touchAccepted_append]
    exact hnext
  | drainTraceDispositions => exact h.of_same ⟨rfl, rfl, rfl, rfl, rfl, rfl⟩ rfl

theorem Sound.initial (h : q.Initial) : q.Sound [] [] := by
  refine ⟨⟨[], rfl, ⟨?_, ?_, fun hactive => ?_⟩, fun hactive => ?_⟩, fun _ => h.active⟩
  · rw [h.entries, h.active]
    exact .nil
  · rw [count, h.entries]
    exact Nat.zero_le _
  · rw [h.active] at hactive
    cases hactive
  · rw [h.active] at hactive
    cases hactive

theorem sound_of_reachable (h : touchSystem.Reachable log q) :
    q.Sound (touchDelivered log) (touchAccepted log) := by
  refine @LoggedSystem.Reachable.invariant _ _ _ _
    (fun log q => q.Sound (touchDelivered log) (touchAccepted log)) (fun q => Sound.initial) ?_ _ _ h
  rintro log q op q' new - hsound hstep
  have hnext := hsound.step op
  rw [show q.step op = (q', new) from hstep] at hnext
  exact hnext

end TouchMotionQueue

/-! ## Rejected contacts -/

theorem contactRejected_cons {entry : TouchLogEntry} {log : List TouchLogEntry}
    (h : ContactRejected (entry :: log)) : (∃ event, entry = .refused event true) ∨
      (ContactRejected log ∧ ¬ entry.EndsContact) := by
  obtain ⟨event, later, earlier, hlog, hlater⟩ := h
  cases later with
  | nil => exact .inl ⟨event, (List.cons.inj hlog).1⟩
  | cons first later =>
    obtain ⟨rfl, rfl⟩ := List.cons.inj hlog
    exact .inr ⟨⟨event, later, earlier, rfl, fun other hmem =>
      hlater other (List.mem_cons_of_mem _ hmem)⟩, hlater _ List.mem_cons_self⟩

theorem contactRejected_append {samples : List TimestampedTouchEvent} {log : List TouchLogEntry}
    (h : ContactRejected ((samples.map TouchLogEntry.delivered).reverse ++ log)) :
    ContactRejected log := by
  induction samples using List.reverseRecOn with
  | nil => exact h
  | append_singleton samples sample ih =>
    rw [List.map_append, List.reverse_append, List.map_singleton, List.reverse_singleton,
      List.singleton_append, List.cons_append] at h
    rcases contactRejected_cons h with ⟨_, hrefused⟩ | ⟨hearlier, -⟩
    · cases hrefused
    · exact ih hearlier

/-- What a log says of the events offered. -/
structure TouchLogOk (log : List TouchLogEntry) : Prop where
  samples : ∀ event phase samples, .accepted event phase samples ∈ log →
    SamplesOfEvent event phase samples
  rejected : ∀ later event phase samples earlier,
    log = later ++ .accepted event phase samples :: earlier → ¬ ContactRejected earlier

namespace TouchLogOk

variable {log : List TouchLogEntry}

theorem nil : TouchLogOk [] :=
  ⟨fun _ _ _ hmem => by simp at hmem, fun _ _ _ _ _ hlog => by simp at hlog⟩

theorem cons {entry : TouchLogEntry} (h : TouchLogOk log)
    (haccepted : ∀ event phase samples, entry = .accepted event phase samples →
      SamplesOfEvent event phase samples ∧ ¬ ContactRejected log) : TouchLogOk (entry :: log) := by
  refine ⟨fun event phase samples hmem => ?_, fun later event phase samples earlier hlog => ?_⟩
  · rcases List.mem_cons.mp hmem with heq | hmem
    · exact (haccepted event phase samples heq.symm).1
    · exact h.samples event phase samples hmem
  · cases later with
    | nil =>
      obtain ⟨rfl, rfl⟩ := List.cons.inj hlog
      exact (haccepted event phase samples rfl).2
    | cons first later =>
      obtain ⟨-, hlog'⟩ := List.cons.inj hlog
      exact h.rejected later event phase samples earlier hlog'

theorem append (h : TouchLogOk log) (samples : List TimestampedTouchEvent) :
    TouchLogOk ((samples.map TouchLogEntry.delivered).reverse ++ log) := by
  induction samples using List.reverseRecOn with
  | nil => exact h
  | append_singleton samples sample ih =>
    rw [List.map_append, List.reverse_append, List.map_singleton, List.reverse_singleton,
      List.singleton_append, List.cons_append]
    exact ih.cons fun _ _ _ hentry => by cases hentry

end TouchLogOk

namespace TouchMotionQueue

variable {q q' : TouchMotionQueue} {log : List TouchLogEntry}

theorem enqueue_rejecting (h : q.rejectingContact = true) (event : TimestampedTouchEvent)
    (nowNanoseconds : ℕ) : (q.enqueue event nowNanoseconds).2 = false ∧
      (¬ (event.isDown = false ∧ event.phase.any (·.isDown != event.isDown) = false) →
        (q.enqueue event nowNanoseconds).1.rejectingContact = true) := by
  have hrefuse : ∀ q' : TouchMotionQueue,
      (q'.refuse event).1.rejectingContact = q'.rejectingContact :=
    fun q' => (noteDisposition_same q' event "rejected").rejectingContact
  unfold enqueue
  by_cases hcontradicts : event.phase.any (·.isDown != event.isDown) = true
  · rw [if_pos hcontradicts]
    exact ⟨rfl, fun _ => (hrefuse q).trans h⟩
  · rw [if_neg hcontradicts]
    dsimp only
    rw [if_pos h]
    refine ⟨rfl, fun hends => ?_⟩
    have hdown : event.isDown = true := by
      by_contra hup
      exact hends ⟨by simpa using hup, by simpa using hcontradicts⟩
    rw [if_pos hdown]
    exact (hrefuse q).trans h

/-- The queue knows of a rejected contact, and the log of no event taken from it. -/
structure Rejecting (q : TouchMotionQueue) (log : List TouchLogEntry) : Prop where
  known : ContactRejected log → q.rejectingContact = true
  log : TouchLogOk log

theorem Rejecting.step (h : q.Rejecting log) (op : TouchOp) :
    (q.step op).1.Rejecting ((q.step op).2 ++ log) := by
  cases op with
  | enqueue event nowNanoseconds =>
    have hrejecting := fun hcontact => enqueue_rejecting (h.known hcontact) event nowNanoseconds
    have hsamples := q.samplesOf_event event nowNanoseconds
    unfold TouchMotionQueue.step
    dsimp only
    generalize q.enqueue event nowNanoseconds = outcome at hrejecting ⊢
    by_cases htaken : outcome.2 = true
    · rw [if_pos htaken]
      refine ⟨fun hcontact => ?_, h.log.cons fun _ _ _ hentry => ?_⟩
      · rcases contactRejected_cons hcontact with ⟨_, hrefused⟩ | ⟨hearlier, -⟩
        · cases hrefused
        · rw [(hrejecting hearlier).1] at htaken
          cases htaken
      · cases hentry
        refine ⟨hsamples, fun hearlier => ?_⟩
        rw [(hrejecting hearlier).1] at htaken
        cases htaken
    · rw [if_neg htaken]
      refine ⟨fun hcontact => ?_, h.log.cons fun _ _ _ hentry => by cases hentry⟩
      rcases contactRejected_cons hcontact with ⟨_, hrefused⟩ | ⟨hearlier, hends⟩
      · have hrejects := (TouchLogEntry.refused.inj hrefused).2
        rw [Bool.and_eq_true] at hrejects
        exact hrejects.1
      · exact (hrejecting hearlier).2 hends
  | popFirst =>
    unfold TouchMotionQueue.step popFirst
    cases hentries : q.entries with
    | nil => exact h
    | cons entry rest =>
      exact ⟨fun hcontact => h.known (@contactRejected_append [entry.event] log hcontact),
        h.log.append [entry.event]⟩
  | drain maxCount =>
    exact ⟨fun hcontact => h.known (contactRejected_append hcontact), h.log.append _⟩
  | drainTraceDispositions => exact ⟨h.known, h.log⟩

theorem rejecting_of_reachable (h : touchSystem.Reachable log q) : q.Rejecting log := by
  refine @LoggedSystem.Reachable.invariant _ _ _ _ (fun log q => q.Rejecting log) ?_ ?_ _ _ h
  · rintro q -
    refine ⟨fun hcontact => ?_, .nil⟩
    obtain ⟨event, hsince⟩ := hcontact
    cases hsince.mem
  · rintro log q op q' new - hrejecting hstep
    have hnext := hrejecting.step op
    rw [show q.step op = (q', new) from hstep] at hnext
    exact hnext

end TouchMotionQueue

/-! ## The delivered samples -/

/-- What a run of a touch queue comes to. -/
structure TouchQueueWellFormed (log : List TouchLogEntry) (q : TouchMotionQueue) : Prop where
  bounded : q.count ≤ q.capacity
  ordered : ∃ times : List ℕ, (touchDelivered log).map TimestampedTouchEvent.timestampNanoseconds =
    times.map some ∧ times.Pairwise (· ≤ ·)
  gestures : ∃ gestures contact, touchDelivered log = gestureSamples gestures contact
  pending : ∃ gestures contact, touchDelivered log ++ q.entries.map TouchEntry.event =
    gestureSamples gestures contact
  edges : touchEdges (touchDelivered log ++ q.entries.map TouchEntry.event) =
    touchEdges (touchAccepted log)
  sublist : (touchDelivered log ++ q.entries.map TouchEntry.event).Sublist (touchAccepted log)
  log : TouchLogOk log

theorem TouchTrail.gestures {front rest : List TouchEntry} {active : Bool} {lastTimestamp : ℕ}
    {accepted : List TimestampedTouchEvent}
    (h : TouchTrail (front ++ rest) active lastTimestamp accepted) :
    ∃ gestures contact, front.map TouchEntry.event = gestureSamples gestures contact := by
  refine exists_gestures ?_ fun first hfirst => ?_
  · refine (List.isChain_map _).mpr ?_
    exact h.joined.left_of_append.imp fun _ _ hjoined => hjoined.1
  · cases front with
    | nil => cases hfirst
    | cons entry front =>
      obtain rfl : entry.event = first := Option.some.inj hfirst
      exact h.head entry rfl

theorem TouchTrail.times {entries : List TouchEntry} {active : Bool} {lastTimestamp : ℕ}
    {accepted : List TimestampedTouchEvent}
    (h : TouchTrail entries active lastTimestamp accepted) {front : List TouchEntry}
    (hfront : front.Sublist entries) :
    ∃ times : List ℕ, (front.map TouchEntry.event).map TimestampedTouchEvent.timestampNanoseconds =
      times.map some ∧ times.Pairwise (· ≤ ·) := by
  have hstamp : ∀ entry ∈ front, entry.event.timestampNanoseconds =
      some (entry.event.timestampNanoseconds.getD 0) := by
    intro entry hmem
    obtain ⟨time, htime, -⟩ := h.timed entry (hfront.mem hmem)
    rw [htime]
    rfl
  refine ⟨front.map fun entry => entry.event.timestampNanoseconds.getD 0, ?_, ?_⟩
  · rw [List.map_map, List.map_map]
    exact List.map_congr_left hstamp
  · rw [List.pairwise_map]
    refine List.Pairwise.imp_of_mem ?_ (h.ordered.sublist hfront)
    intro before after hbefore hafter hle
    exact hle _ (hstamp before hbefore) _ (hstamp after hafter)

/-- A queue never overflows, and delivers its contacts whole, in order of time, with a release at the
last position of each. -/
theorem touchQueue_wellFormed {log : List TouchLogEntry} {q : TouchMotionQueue}
    (h : touchSystem.Reachable log q) : TouchQueueWellFormed log q := by
  obtain ⟨⟨past, hpast, ⟨htrail, hbounded, -⟩, -⟩, -⟩ := TouchMotionQueue.sound_of_reachable h
  have hwhole : (past ++ q.entries).map TouchEntry.event =
      touchDelivered log ++ q.entries.map TouchEntry.event := by
    rw [List.map_append, hpast]
  refine ⟨hbounded, ?_, ?_, ?_, ?_, ?_, (TouchMotionQueue.rejecting_of_reachable h).log⟩
  · rw [← hpast]
    exact htrail.times (List.sublist_append_left past q.entries)
  · rw [← hpast]
    exact htrail.gestures
  · rw [← hwhole]
    rw [← List.append_nil (past ++ q.entries)] at htrail
    exact htrail.gestures
  · rw [← hwhole]
    exact htrail.edges
  · rw [← hwhole]
    exact htrail.sublist

/-- A contact at one point, through a queue of four entries. -/
def tapQueue : TouchMotionQueue where
  capacity := 4
  maximumPendingMotionSamplesPerGesture := some 2
  four_le := le_rfl
  two_le := by simp
  entries := []
  active := false
  rejectingContact := false
  lastPoint := none
  lastTimestamp := 0
  discardedMotionCount := 0
  rejectedGestureCount := 0
  traceDispositions := []

def tapRun : TouchMotionQueue × List TouchLogEntry :=
  LoggedSystem.runSteps TouchMotionQueue.step
    [.enqueue ⟨1, 2, true, none, some .down, none⟩ 10, .enqueue ⟨3, 2, true, some 11, none, none⟩ 9,
      .popFirst, .enqueue ⟨3, 2, false, some 4, none, none⟩ 12, .drain 8] (tapQueue, [])

theorem tapQueue_initial : tapQueue.Initial := ⟨rfl, rfl, rfl, rfl, rfl, rfl, rfl, rfl⟩

theorem touchQueue_wellFormed_tap : TouchQueueWellFormed tapRun.2 tapRun.1 := by
  have hinitial : touchSystem.Reachable [] tapQueue := .initial tapQueue_initial
  exact touchQueue_wellFormed (@LoggedSystem.Reachable.runSteps _ _ _ touchSystem _ _ (tapQueue, []) hinitial
    fun _ _ _ => rfl)

end Pinecone
