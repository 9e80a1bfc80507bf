import Mathlib.Data.List.DropRight
import Pinecone.TouchTrails

/-! The touch queue in every run. -/

namespace Pinecone

open TimestampedTouchEvent

namespace TouchMotionQueue

variable {q q' : TouchMotionQueue} {past : List TouchEntry} {accepted : List TimestampedTouchEvent}
  {event : TimestampedTouchEvent} {entry : TouchEntry}

/-- What the queue holds follows what it has delivered. -/
structure Follows (q : TouchMotionQueue) (past : List TouchEntry)
    (accepted : List TimestampedTouchEvent) : Prop where
  trail : TouchTrail (past ++ q.entries) q.active q.lastTimestamp accepted
  bounded : q.count ≤ q.capacity
  roomy : q.active = true → q.count + 2 ≤ q.capacity

/-- The motion of a contact is known as far as it is queued. -/
def Placed (q : TouchMotionQueue) (past : List TouchEntry) : Prop :=
  q.active = true → ∀ last ∈ (past ++ q.entries).getLast?, q.lastPoint = some last.event.point

/-! ## Notes of dropped samples -/

/-- Only entries and notes differ. -/
structure SameContact (q q' : TouchMotionQueue) : Prop where
  capacity : q'.capacity = q.capacity
  maximum : q'.maximumPendingMotionSamplesPerGesture = q.maximumPendingMotionSamplesPerGesture
  active : q'.active = q.active
  rejectingContact : q'.rejectingContact = q.rejectingContact
  lastPoint : q'.lastPoint = q.lastPoint
  lastTimestamp : q'.lastTimestamp = q.lastTimestamp

theorem SameContact.refl : SameContact q q := ⟨rfl, rfl, rfl, rfl, rfl, rfl⟩

theorem SameContact.trans {q'' : TouchMotionQueue} (h : SameContact q q')
    (h' : SameContact q' q'') : SameContact q q'' :=
  ⟨h'.capacity.trans h.capacity, h'.maximum.trans h.maximum, h'.active.trans h.active,
    h'.rejectingContact.trans h.rejectingContact, h'.lastPoint.trans h.lastPoint,
    h'.lastTimestamp.trans h.lastTimestamp⟩

theorem noteDisposition_same (q : TouchMotionQueue) (event : TimestampedTouchEvent)
    (reason : String) : SameContact q (q.noteDisposition event reason) := by
  unfold noteDisposition
  split
  · exact .refl
  · exact ⟨rfl, rfl, rfl, rfl, rfl, rfl⟩

@[simp]
theorem noteDisposition_entries (q : TouchMotionQueue) (event : TimestampedTouchEvent)
    (reason : String) : (q.noteDisposition event reason).entries = q.entries := by
  unfold noteDisposition
  split <;> rfl

theorem noteDispositions_same (noted : List TouchEntry) (reason : String) (q : TouchMotionQueue) :
    SameContact q (noted.foldl (fun q entry => q.noteDisposition entry.event reason) q) ∧
      (noted.foldl (fun q entry => q.noteDisposition entry.event reason) q).entries = q.entries := by
  induction noted generalizing q with
  | nil => exact ⟨.refl, rfl⟩
  | cons entry noted ih =>
    obtain ⟨hsame, hentries⟩ := ih (q.noteDisposition entry.event reason)
    refine ⟨(noteDisposition_same q entry.event reason).trans hsame, ?_⟩
    rw [List.foldl_cons, hentries, noteDisposition_entries]

theorem Follows.shrink (h : q.Follows past accepted) (hsame : SameContact q q')
    (htrail : TouchTrail (past ++ q'.entries) q.active q.lastTimestamp accepted)
    (hcount : q'.count ≤ q.count) : q'.Follows past accepted := by
  refine ⟨?_, ?_, fun hactive => ?_⟩
  · rw [hsame.active, hsame.lastTimestamp]
    exact htrail
  · rw [hsame.capacity]
    exact hcount.trans h.bounded
  · rw [hsame.active] at hactive
    have hroomy := h.roomy hactive
    rw [hsame.capacity]
    omega

/-! ## Room -/

theorem evict_same (q : TouchMotionQueue) (entry : TouchEntry) : SameContact q (q.evict entry) := by
  have hnoted := noteDisposition_same q entry.event "droppedMotion"
  exact ⟨hnoted.capacity, hnoted.maximum, hnoted.active, hnoted.rejectingContact, hnoted.lastPoint,
    hnoted.lastTimestamp⟩

theorem evict_split (h : q.entries.find? TouchEntry.evictable = some entry) :
    entry.evictable = true ∧ ∃ front rest, q.entries = front ++ entry :: rest ∧
      (q.evict entry).entries = front ++ rest := by
  obtain ⟨hevictable, front, rest, hsplit, hfront⟩ := List.find?_eq_some_iff_append.mp h
  refine ⟨hevictable, front, rest, hsplit, ?_⟩
  have hnone : ∀ other ∈ front, ¬ other.evictable = true := by simpa using hfront
  change (q.noteDisposition entry.event "droppedMotion").entries.eraseP TouchEntry.evictable = _
  rw [noteDisposition_entries, hsplit, List.eraseP_append_right _ hnone,
    List.eraseP_cons_of_pos hevictable]

theorem Follows.evict (h : q.Follows past accepted)
    (hfind : q.entries.find? TouchEntry.evictable = some entry) :
    (q.evict entry).Follows past accepted ∧ (q.evict entry).count + 1 = q.count := by
  obtain ⟨hevictable, front, rest, hsplit, hevicted⟩ := evict_split hfind
  have hcount : (q.evict entry).count + 1 = q.count := by
    rw [count, count, hsplit, hevicted]
    simp only [List.length_append, List.length_cons]
    omega
  have hmove : entry.isMove = true := by
    rw [TouchEntry.evictable, Bool.and_eq_true] at hevictable
    exact hevictable.1
  have htrail := h.trail
  rw [hsplit, ← List.append_assoc] at htrail
  have hnext : ∀ next ∈ rest.head?, ¬ next.event.IsRelease := by
    intro next hnext hrelease
    have hjoined : entry.Joined next :=
      (List.isChain_cons.mp (List.isChain_append.mp htrail.joined).2.1).1 next hnext
    rw [hjoined.2 hrelease] at hevictable
    cases hevictable
  refine ⟨h.shrink (evict_same q entry) ?_ (by omega), hcount⟩
  rw [hevicted, ← List.append_assoc]
  exact htrail.without hmove hnext

theorem Follows.makeRoomLoop (limit : ℕ) (turns : ℕ) (h : q.Follows past accepted)
    (hturns : q.count ≤ turns) :
    (makeRoomLoop limit turns q).Follows past accepted ∧
      SameContact q (TouchMotionQueue.makeRoomLoop limit turns q) ∧
      (TouchMotionQueue.makeRoomLoop limit turns q).count ≤ q.count ∧
      (limit < (TouchMotionQueue.makeRoomLoop limit turns q).count →
        (TouchMotionQueue.makeRoomLoop limit turns q).entries.find? TouchEntry.evictable = none ∧
        (q.count ≤ limit + 1 → TouchMotionQueue.makeRoomLoop limit turns q = q)) := by
  induction turns generalizing q with
  | zero =>
    refine ⟨h, .refl, le_rfl, fun hlimit => ?_⟩
    change limit < q.count at hlimit
    omega
  | succ turns ih =>
    unfold TouchMotionQueue.makeRoomLoop
    split
    · split
      · rename_i hfind
        exact ⟨h, .refl, le_rfl, fun _ => ⟨hfind, fun _ => rfl⟩⟩
      · rename_i entry hfind
        obtain ⟨hevicted, hcount⟩ := h.evict hfind
        obtain ⟨hfollows, hsame, hle, hdone⟩ := ih hevicted (by omega)
        refine ⟨hfollows, (evict_same q entry).trans hsame, by omega, fun hlimit => ?_⟩
        exact ⟨(hdone hlimit).1, fun hfull => by omega⟩
    · exact ⟨h, .refl, le_rfl, fun hlimit => absurd hlimit ‹_›⟩

theorem Follows.makeRoom (limit : ℕ) (h : q.Follows past accepted) :
    (q.makeRoom limit).Follows past accepted ∧ SameContact q (q.makeRoom limit) ∧
      (limit < (q.makeRoom limit).count → q.count ≤ limit + 1 → q.makeRoom limit = q) := by
  obtain ⟨hfollows, hsame, -, hdone⟩ := h.makeRoomLoop limit q.count le_rfl
  exact ⟨hfollows, hsame, fun hlimit => (hdone hlimit).2⟩

/-! ## Compaction -/

/-- Where the moves after the last other entry begin. -/
def motionStart (q : TouchMotionQueue) : ℕ := (q.lastEdge.map (· + 1)).getD 0

theorem motionStart_spec (q : TouchMotionQueue) : q.motionStart ≤ q.count ∧
    ∀ entry ∈ q.entries.drop q.motionStart, entry.isMove = true := by
  unfold motionStart lastEdge
  cases hfind : q.entries.reverse.findIdx? fun entry => !entry.isMove with
  | none =>
    refine ⟨Nat.zero_le _, fun entry hmem => ?_⟩
    have hall := List.findIdx?_eq_none_iff.mp hfind entry
      (List.mem_reverse.mpr (List.mem_of_mem_drop hmem))
    simpa using hall
  | some index =>
    obtain ⟨hlt, -, hmoves⟩ := List.findIdx?_eq_some_iff_getElem.mp hfind
    rw [List.length_reverse] at hlt
    have hstart : q.count - 1 - index + 1 = q.entries.length - index := by
      change q.entries.length - 1 - index + 1 = _
      omega
    simp only [Option.map_some, Option.getD_some]
    rw [hstart]
    refine ⟨Nat.sub_le _ _, fun entry hmem => ?_⟩
    have htake : entry ∈ q.entries.reverse.take index := by
      rw [List.take_reverse]
      exact List.mem_reverse.mpr hmem
    obtain ⟨place, hplace, rfl⟩ := List.mem_take_iff_getElem.mp htake
    simpa using hmoves place (by omega)

/-- The block of the entries from `start` on is dropped. -/
def dropBlock (q : TouchMotionQueue) (start excess : ℕ) : TouchMotionQueue :=
  let noted := ((q.entries.drop start).take excess).foldl
    (fun q entry => q.noteDisposition entry.event "coalesced") q
  { noted with
    entries := noted.entries.take start ++ noted.entries.drop (start + excess)
    discardedMotionCount := noted.discardedMotionCount + excess }

theorem dropBlock_same (q : TouchMotionQueue) (start excess : ℕ) :
    SameContact q (q.dropBlock start excess) := by
  obtain ⟨hsame, -⟩ := noteDispositions_same ((q.entries.drop start).take excess) "coalesced" q
  exact ⟨hsame.capacity, hsame.maximum, hsame.active, hsame.rejectingContact, hsame.lastPoint,
    hsame.lastTimestamp⟩

theorem dropBlock_entries (q : TouchMotionQueue) (start excess : ℕ) :
    (q.dropBlock start excess).entries = q.entries.take start ++ q.entries.drop (start + excess) := by
  obtain ⟨-, hentries⟩ := noteDispositions_same ((q.entries.drop start).take excess) "coalesced" q
  rw [dropBlock, hentries]

theorem dropBlock_count (q : TouchMotionQueue) (start excess : ℕ) :
    (q.dropBlock start excess).count ≤ q.count := by
  rw [count, count, dropBlock_entries, List.length_append, List.length_take, List.length_drop]
  omega

theorem Follows.dropBlock {start excess : ℕ} (h : q.Follows past accepted) (hplaced : q.Placed past)
    (hmoves : ∀ entry ∈ q.entries.drop start, entry.isMove = true)
    (hleft : start + excess < q.count) :
    (q.dropBlock start excess).Follows past accepted ∧ (q.dropBlock start excess).Placed past := by
  obtain ⟨entry, rest, hrest⟩ := List.exists_cons_of_ne_nil
    (show q.entries.drop (start + excess) ≠ [] by rwa [ne_eq, List.drop_eq_nil_iff, not_le])
  have hsplit : q.entries.drop start = (q.entries.drop start).take excess ++ entry :: rest := by
    rw [← hrest, ← List.drop_drop, List.take_append_drop]
  have hwhole : q.entries = q.entries.take start ++
      ((q.entries.drop start).take excess ++ entry :: rest) := by
    rw [← hsplit, List.take_append_drop]
  have hentries := q.dropBlock_entries start excess
  rw [hrest] at hentries
  have htrail := h.trail
  rw [hwhole, ← List.append_assoc] at htrail
  have hentry : entry.isMove = true := hmoves entry (by rw [hsplit]; simp)
  have hblock : ∀ other ∈ (q.entries.drop start).take excess, other.isMove = true :=
    fun other hmem => hmoves other (List.mem_of_mem_take hmem)
  refine ⟨h.shrink (q.dropBlock_same start excess) ?_ ?_, fun hactive last hlast => ?_⟩
  · rw [hentries, ← List.append_assoc]
    exact htrail.without_block hblock hentry
  · exact q.dropBlock_count start excess
  · rw [(q.dropBlock_same start excess).active] at hactive
    rw [(q.dropBlock_same start excess).lastPoint]
    refine hplaced hactive last ?_
    rw [hwhole, ← List.append_assoc]
    rw [hentries, ← List.append_assoc] at hlast
    rw [List.getLast?_append_of_ne_nil _ (List.cons_ne_nil _ _)] at hlast
    rw [List.getLast?_append_of_ne_nil _ (by simp),
      List.getLast?_append_of_ne_nil _ (List.cons_ne_nil _ _)]
    exact hlast

theorem Follows.compact (h : q.Follows past accepted) (hplaced : q.Placed past) :
    q.compactPendingMotionHistory.Follows past accepted ∧
      q.compactPendingMotionHistory.Placed past ∧
      SameContact q q.compactPendingMotionHistory ∧
      q.compactPendingMotionHistory.count ≤ q.count := by
  unfold compactPendingMotionHistory
  split
  · exact ⟨h, hplaced, .refl, le_rfl⟩
  · rename_i limit hlimit
    have htwo := q.two_le limit hlimit
    obtain ⟨hstart, hmoves⟩ := q.motionStart_spec
    dsimp only
    split
    · exact ⟨h, hplaced, .refl, le_rfl⟩
    · rename_i hexcess
      change ¬ q.count - q.motionStart - limit = 0 at hexcess
      have hleft : q.motionStart + (q.count - q.motionStart - limit) < q.count := by omega
      obtain ⟨hfollows, hplaced'⟩ := h.dropBlock hplaced hmoves hleft
      exact ⟨hfollows, hplaced', q.dropBlock_same _ _, (q.dropBlock_count _ _)⟩

/-! ## Events accepted -/

theorem le_timestampOf (q : TouchMotionQueue) (event : TimestampedTouchEvent) (nowNanoseconds : ℕ) :
    q.lastTimestamp ≤ q.timestampOf event nowNanoseconds :=
  le_max_left _ _

theorem Follows.accept_down (h : q.Follows past accepted) (hinactive : q.active = false)
    (hroom : ¬ q.capacity - 3 < q.count) (nowNanoseconds : ℕ) :
    let accepting := TouchMotionQueue.accept { q with active := true } event .down nowNanoseconds
    accepting.Follows past
        (accepted ++ [sampleOf event .down (q.timestampOf event nowNanoseconds)]) ∧
      accepting.Placed past ∧ accepting.rejectingContact = q.rejectingContact := by
  intro accepting
  let sample := sampleOf event .down (q.timestampOf event nowNanoseconds)
  have hentries : accepting.entries = q.entries ++ [⟨sample, false⟩] := rfl
  have hcount : accepting.count = q.count + 1 := by
    rw [count, hentries, List.length_append]
    rfl
  have hfour := q.four_le
  refine ⟨⟨?_, ?_, fun _ => ?_⟩, fun _ last hlast => ?_, rfl⟩
  · rw [hentries, ← List.append_assoc]
    refine h.trail.concat (fun last hlast => ⟨.down (h.trail.released hinactive last hlast) rfl, ?_⟩)
      (fun _ => rfl) rfl (q.le_timestampOf event nowNanoseconds) (fun _ => .inl rfl) ?_
    · rintro (hup | hup) <;> cases hup
    · intro hfalse
      cases hfalse
  · rw [hcount]
    change q.count + 1 ≤ q.capacity
    omega
  · rw [hcount]
    change q.count + 1 + 2 ≤ q.capacity
    omega
  · rw [hentries, ← List.append_assoc, List.getLast?_concat] at hlast
    obtain rfl := Option.some.inj hlast
    rfl

theorem Follows.accept_move (h : q.Follows past accepted) (hactive : q.active = true)
    (hroom : ¬ q.capacity - 3 < q.count) (nowNanoseconds : ℕ) :
    let accepting := q.accept event .move nowNanoseconds
    accepting.Follows past
        (accepted ++ [sampleOf event .move (q.timestampOf event nowNanoseconds)]) ∧
      accepting.Placed past ∧ accepting.rejectingContact = q.rejectingContact := by
  intro accepting
  let sample := sampleOf event .move (q.timestampOf event nowNanoseconds)
  let appended : TouchMotionQueue := { q with
    lastTimestamp := q.timestampOf event nowNanoseconds
    lastPoint := some (event.x, event.y)
    entries := q.entries ++ [⟨sample, false⟩] }
  have hcount : appended.count = q.count + 1 := List.length_append
  have hfour := q.four_le
  obtain ⟨before, hbefore, hheld⟩ := h.trail.held hactive
  have hjoined : ∀ last ∈ (past ++ q.entries).getLast?, last.Joined ⟨sample, false⟩ := by
    intro last hlast
    obtain rfl : before = last := Option.some.inj (hbefore.symm.trans hlast)
    refine ⟨.move hheld rfl, ?_⟩
    rintro (hup | hup) <;> cases hup
  have hnonempty : past ++ q.entries ≠ [] := by
    intro hnil
    rw [hnil] at hbefore
    cases hbefore
  have happended : appended.Follows past (accepted ++ [sample]) := by
    refine ⟨?_, ?_, fun _ => ?_⟩
    · change TouchTrail (past ++ (q.entries ++ [TouchEntry.mk sample false])) q.active _ _
      rw [← List.append_assoc]
      refine h.trail.concat hjoined (fun hnil => absurd hnil hnonempty) rfl
        (q.le_timestampOf event nowNanoseconds) (fun _ => .inr rfl) fun hinactive => ?_
      rw [hactive] at hinactive
      cases hinactive
    · rw [hcount]
      change q.count + 1 ≤ q.capacity
      omega
    · rw [hcount]
      change q.count + 1 + 2 ≤ q.capacity
      omega
  have hplaced : appended.Placed past := by
    intro _ last hlast
    change last ∈ (past ++ (q.entries ++ [TouchEntry.mk sample false])).getLast? at hlast
    rw [← List.append_assoc, List.getLast?_concat] at hlast
    obtain rfl := Option.some.inj hlast
    rfl
  obtain ⟨hfollows, hplaced', hsame, -⟩ := happended.compact hplaced
  exact ⟨hfollows, hplaced', hsame.rejectingContact⟩

theorem isRelease_of_up {phase : TouchPhase} (hphase : phase.isDown = false) (timestamp : ℕ) :
    (sampleOf event phase timestamp).IsRelease := by
  cases phase with
  | down => cases hphase
  | move => cases hphase
  | up => exact .inl rfl
  | cancel => exact .inr rfl

theorem protectLast_append (past entries : List TouchEntry) : ∃ past',
    past'.map TouchEntry.event = past.map TouchEntry.event ∧
      protectLast (past ++ entries) = past' ++ protectLast entries := by
  rcases entries.eq_nil_or_concat' with rfl | ⟨front, last, rfl⟩
  · refine ⟨protectLast past, TouchTrail.protectLast_events past, ?_⟩
    rw [List.append_nil]
    exact (List.append_nil _).symm
  · refine ⟨past, rfl, ?_⟩
    unfold protectLast
    rw [← List.append_assoc, List.getLast?_concat, List.getLast?_concat, List.dropLast_concat,
      List.dropLast_concat]
    dsimp only
    split <;> simp only [List.append_assoc]

theorem Follows.accept_release (h : q.Follows past accepted) (hplaced : q.Placed past)
    (hactive : q.active = true) {phase : TouchPhase} (hphase : phase.isDown = false)
    (nowNanoseconds : ℕ) :
    let accepting := q.accept event phase nowNanoseconds
    let timestamp := q.timestampOf event nowNanoseconds
    let samples := if q.lastPoint ≠ some (event.x, event.y) then
        [finalMoveOf event timestamp, sampleOf event phase timestamp]
      else [sampleOf event phase timestamp]
    accepting.active = false ∧ accepting.rejectingContact = q.rejectingContact ∧
      ∃ past', past'.map TouchEntry.event = past.map TouchEntry.event ∧
        accepting.Follows past' (accepted ++ samples) := by
  intro accepting timestamp samples
  let sample := sampleOf event phase timestamp
  have hrelease : sample.IsRelease := isRelease_of_up hphase timestamp
  have hreleased : accepting = { q.endContact event timestamp with
      lastTimestamp := timestamp
      entries := (q.endContact event timestamp).entries ++ [⟨sample, false⟩] } := by
    cases phase with
    | down => cases hphase
    | move => cases hphase
    | up => rfl
    | cancel => rfl
  have hroomy := h.roomy hactive
  obtain ⟨before, hbefore, hheld⟩ := h.trail.held hactive
  have hnonempty : past ++ q.entries ≠ [] := by
    intro hnil
    rw [hnil] at hbefore
    cases hbefore
  refine ⟨by rw [hreleased]; rfl, by rw [hreleased]; rfl, ?_⟩
  by_cases hpoint : q.lastPoint ≠ some (event.x, event.y)
  · have hsamples : samples = [finalMoveOf event timestamp, sample] := if_pos hpoint
    have hentries : accepting.entries = q.entries ++ [TouchEntry.mk (finalMoveOf event timestamp) true]
        ++ [TouchEntry.mk sample false] := by
      rw [hreleased]
      change (if q.lastPoint ≠ some (event.x, event.y) then _ else _) ++ _ = _
      rw [if_pos hpoint]
    have hmoved : TouchTrail ((past ++ q.entries) ++ [TouchEntry.mk (finalMoveOf event timestamp) true])
        true timestamp (accepted ++ [finalMoveOf event timestamp]) := by
      refine h.trail.concat (fun last hlast => ?_) (fun hnil => absurd hnil hnonempty) rfl
        (q.le_timestampOf event nowNanoseconds) (fun _ => .inr rfl) Bool.noConfusion
      obtain rfl : before = last := Option.some.inj (hbefore.symm.trans hlast)
      refine ⟨.move hheld rfl, ?_⟩
      rintro (hup | hup) <;> cases hup
    refine ⟨past, rfl, ?_, ?_, fun hfalse => ?_⟩
    · rw [hentries, hsamples, hreleased]
      rw [← List.append_assoc, ← List.append_assoc,
        List.append_cons accepted (finalMoveOf event timestamp) [sample]]
      have hafter : ∀ last ∈ ((past ++ q.entries) ++
          [TouchEntry.mk (finalMoveOf event timestamp) true]).getLast?,
            last.Joined (TouchEntry.mk sample false) := by
        intro last hlast
        rw [List.getLast?_concat] at hlast
        obtain rfl := Option.some.inj hlast
        exact ⟨.release (.inr rfl) hrelease rfl, fun _ => rfl⟩
      exact hmoved.concat hafter (fun hnil => by simp at hnil) rfl le_rfl
        (fun hopen : false = true => Bool.noConfusion hopen) fun _ => hrelease
    · have hcount : accepting.count = q.count + 2 := by
        rw [count, hentries]
        simp [count]
      rw [hcount, hreleased]
      exact hroomy
    · rw [hreleased] at hfalse
      cases hfalse
  · have hsamples : samples = [sample] := if_neg hpoint
    rw [not_not] at hpoint
    have hentries : accepting.entries = protectLast q.entries ++ [TouchEntry.mk sample false] := by
      rw [hreleased]
      change (if q.lastPoint ≠ some (event.x, event.y) then _ else _) ++ _ = _
      rw [if_neg (not_not.mpr hpoint)]
    obtain ⟨past', hevents, hprotect⟩ := protectLast_append past q.entries
    refine ⟨past', hevents, ?_, ?_, fun hfalse => ?_⟩
    · rw [hentries, hsamples, hreleased, ← List.append_assoc, ← hprotect]
      have hafter : ∀ last ∈ (protectLast (past ++ q.entries)).getLast?,
          last.Joined (TouchEntry.mk sample false) := by
        intro last hlast
        obtain ⟨other, hother, hheld'⟩ := h.trail.protect.held hactive
        obtain rfl : other = last := Option.some.inj (hother.symm.trans hlast)
        have hkept := TouchTrail.protectLast_kept hlast
        have hmap := congrArg List.getLast? (TouchTrail.protectLast_events (past ++ q.entries))
        rw [List.getLast?_map, List.getLast?_map, hlast, hbefore] at hmap
        have hbeforePoint := hplaced hactive before hbefore
        rw [hpoint] at hbeforePoint
        have hsame : other.event = before.event := Option.some.inj hmap
        refine ⟨.release hheld' hrelease ?_, fun _ => hkept⟩
        rw [hsame]
        exact Option.some.inj hbeforePoint
      have hprotected : protectLast (past ++ q.entries) ≠ [] := by
        intro hnil
        have hmap := TouchTrail.protectLast_events (past ++ q.entries)
        rw [hnil] at hmap
        exact absurd (List.map_eq_nil_iff.mp hmap.symm) hnonempty
      exact h.trail.protect.concat hafter (fun hnil => absurd hnil hprotected) rfl
        (q.le_timestampOf event nowNanoseconds)
        (fun hopen : false = true => Bool.noConfusion hopen) fun _ => hrelease
    · have hlength : (protectLast q.entries).length = q.entries.length := by
        have hmap := congrArg List.length (TouchTrail.protectLast_events q.entries)
        rwa [List.length_map, List.length_map] at hmap
      have hcount : accepting.count = q.count + 1 := by
        rw [count, hentries, List.length_append, hlength]
        rfl
      rw [hcount, hreleased]
      change q.count + 1 ≤ q.capacity
      omega
    · rw [hreleased] at hfalse
      cases hfalse

/-! ## Calls -/

/-- The queue after `delivered` samples out of the `accepted` ones. -/
structure Sound (q : TouchMotionQueue) (delivered accepted : List TimestampedTouchEvent) : Prop where
  follows : ∃ past, past.map TouchEntry.event = delivered ∧ q.Follows past accepted ∧ q.Placed past
  idle : q.rejectingContact = true → q.active = false

theorem Sound.of_same {delivered : List TimestampedTouchEvent} (h : q.Sound delivered accepted)
    (hsame : SameContact q q') (hentries : q'.entries = q.entries) : q'.Sound delivered accepted := by
  obtain ⟨⟨past, hpast, hfollows, hplaced⟩, hidle⟩ := h
  refine ⟨⟨past, hpast, hfollows.shrink hsame ?_ ?_, fun hactive => ?_⟩, fun hrejecting => ?_⟩
  · rw [hentries]
    exact hfollows.trail
  · rw [count, count, hentries]
  · rw [hsame.active] at hactive
    rw [hentries, hsame.lastPoint]
    exact hplaced hactive
  · rw [hsame.rejectingContact] at hrejecting
    rw [hsame.active]
    exact hidle hrejecting

theorem Sound.refuse {delivered : List TimestampedTouchEvent} (h : q.Sound delivered accepted)
    (event : TimestampedTouchEvent) : (q.refuse event).1.Sound delivered accepted :=
  h.of_same (noteDisposition_same q event "rejected") (noteDisposition_entries q event "rejected")

/-- What the queue holds of an event that it has taken or refused. -/
def queuedBy (q : TouchMotionQueue) (event : TimestampedTouchEvent) (nowNanoseconds : ℕ) :
    List TimestampedTouchEvent :=
  if (q.enqueue event nowNanoseconds).2 then q.samplesOf event nowNanoseconds else []

theorem Sound.down {delivered : List TimestampedTouchEvent} (h : q.Sound delivered accepted)
    (hinactive : q.active = false) (hcontact : q.rejectingContact = false) (nowNanoseconds : ℕ) :
    let roomy := q.makeRoom (q.capacity - 3)
    (roomy.capacity - 3 < roomy.count → TouchMotionQueue.Sound { roomy with
      rejectingContact := true
      rejectedGestureCount := roomy.rejectedGestureCount + 1 } delivered accepted) ∧
    (¬ roomy.capacity - 3 < roomy.count →
      (TouchMotionQueue.accept { roomy with active := true } event .down nowNanoseconds).Sound delivered
        (accepted ++ [sampleOf event .down (q.timestampOf event nowNanoseconds)])) := by
  intro roomy
  obtain ⟨⟨past, hpast, hfollows, -⟩, -⟩ := h
  obtain ⟨hroomy, hsame, -⟩ := hfollows.makeRoom (q.capacity - 3)
  have hidle : roomy.active = false := hsame.active.trans hinactive
  refine ⟨fun hfull => ⟨⟨past, hpast, ⟨hroomy.trail, hroomy.bounded, hroomy.roomy⟩,
    fun hactive => ?_⟩, fun _ => hidle⟩, fun hfits => ?_⟩
  · rw [hidle] at hactive
    cases hactive
  · obtain ⟨hdown, hplaced, hrejecting⟩ :=
      @Follows.accept_down _ _ _ event hroomy hidle hfits nowNanoseconds
    have htime : roomy.timestampOf event nowNanoseconds = q.timestampOf event nowNanoseconds := by
      rw [timestampOf, timestampOf, hsame.lastTimestamp]
    rw [htime] at hdown
    refine ⟨⟨past, hpast, hdown, hplaced⟩, fun hcontact' => ?_⟩
    rw [hrejecting, hsame.rejectingContact, hcontact] at hcontact'
    cases hcontact'

theorem Sound.move {delivered : List TimestampedTouchEvent} (h : q.Sound delivered accepted)
    (hactive : q.active = true) (hcontact : q.rejectingContact = false) (nowNanoseconds : ℕ) :
    let roomy := q.makeRoom (q.capacity - 3)
    (roomy.capacity - 3 < roomy.count → roomy.Sound delivered accepted) ∧
    (¬ roomy.capacity - 3 < roomy.count →
      (roomy.accept event .move nowNanoseconds).Sound delivered
        (accepted ++ [sampleOf event .move (q.timestampOf event nowNanoseconds)])) := by
  intro roomy
  obtain ⟨⟨past, hpast, hfollows, hplaced⟩, hidle⟩ := h
  obtain ⟨hroomy, hsame, hfull⟩ := hfollows.makeRoom (q.capacity - 3)
  refine ⟨fun hlimit => ?_, fun hfits => ?_⟩
  · -- A contact has at most one entry too many, so nothing has been dropped.
    have hcount := hfollows.roomy hactive
    have hfour := q.four_le
    have hlimit' : q.capacity - 3 < roomy.count := by
      rw [← hsame.capacity]
      exact hlimit
    have hunchanged : roomy = q := hfull hlimit' (by omega)
    rw [hunchanged]
    exact ⟨⟨past, hpast, hfollows, hplaced⟩, hidle⟩
  · obtain ⟨hmove, hplaced', hrejecting⟩ :=
      @Follows.accept_move _ _ _ event hroomy (hsame.active.trans hactive) hfits nowNanoseconds
    have htime : roomy.timestampOf event nowNanoseconds = q.timestampOf event nowNanoseconds := by
      rw [timestampOf, timestampOf, hsame.lastTimestamp]
    rw [htime] at hmove
    refine ⟨⟨past, hpast, hmove, hplaced'⟩, fun hcontact' => ?_⟩
    rw [hrejecting, hsame.rejectingContact, hcontact] at hcontact'
    cases hcontact'

theorem Sound.release {delivered : List TimestampedTouchEvent} (h : q.Sound delivered accepted)
    (hactive : q.active = true) (hphase : (q.phaseOf event).isDown = false) (nowNanoseconds : ℕ) :
    (q.accept event (q.phaseOf event) nowNanoseconds).Sound delivered
      (accepted ++ q.samplesOf event nowNanoseconds) := by
  obtain ⟨⟨past, hpast, hfollows, hplaced⟩, -⟩ := h
  obtain ⟨hreleased, -, past', hevents, hfollows'⟩ :=
    @Follows.accept_release _ _ _ event hfollows hplaced hactive _ hphase nowNanoseconds
  have hsamples : q.samplesOf event nowNanoseconds =
      if q.lastPoint ≠ some (event.x, event.y) then
        [finalMoveOf event (q.timestampOf event nowNanoseconds),
          sampleOf event (q.phaseOf event) (q.timestampOf event nowNanoseconds)]
      else [sampleOf event (q.phaseOf event) (q.timestampOf event nowNanoseconds)] := by
    unfold samplesOf
    dsimp only
    by_cases hpoint : q.lastPoint ≠ some (event.x, event.y)
    · rw [if_pos ⟨hphase, hpoint⟩, if_pos hpoint]
    · rw [if_neg fun hboth => hpoint hboth.2, if_neg hpoint]
  rw [hsamples]
  refine ⟨⟨past', hevents.trans hpast, hfollows', fun hactive' => ?_⟩, fun _ => hreleased⟩
  rw [hreleased] at hactive'
  cases hactive'

end TouchMotionQueue

end Pinecone
