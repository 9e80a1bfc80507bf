import Pinecone.TouchGestures

/-! All that a touch queue has delivered and still holds, as one list of entries. -/

namespace Pinecone

open TimestampedTouchEvent TouchMotionQueue

/-- The entry may come right after the other. Motion before a release is there to stay. -/
def TouchEntry.Joined (before after : TouchEntry) : Prop :=
  Follows before.event after.event ∧ (after.event.IsRelease → before.evictable = false)

/-- The samples that are not moves. -/
def touchEdges (samples : List TimestampedTouchEvent) : List TimestampedTouchEvent :=
  samples.filter fun sample => sample.phase ≠ some .move

/-- The entries delivered and pending, out of the samples of the events accepted. -/
structure TouchTrail (entries : List TouchEntry) (active : Bool) (lastTimestamp : ℕ)
    (accepted : List TimestampedTouchEvent) : Prop where
  joined : entries.IsChain TouchEntry.Joined
  head : ∀ first ∈ entries.head?, first.event.phase = some .down
  held : active = true → ∃ last ∈ entries.getLast?, last.event.IsHeld
  released : active = false → ∀ last ∈ entries.getLast?, last.event.IsRelease
  timed : ∀ entry ∈ entries, ∃ time, entry.event.timestampNanoseconds = some time ∧
    time ≤ lastTimestamp
  ordered : entries.Pairwise fun before after =>
    ∀ time ∈ before.event.timestampNanoseconds, ∀ time' ∈ after.event.timestampNanoseconds,
      time ≤ time'
  sublist : (entries.map TouchEntry.event).Sublist accepted
  edges : touchEdges (entries.map TouchEntry.event) = touchEdges accepted

namespace TouchTrail

variable {entries front rest block : List TouchEntry} {entry : TouchEntry} {active active' : Bool}
  {lastTimestamp time : ℕ} {accepted : List TimestampedTouchEvent}

theorem nil : TouchTrail [] false lastTimestamp [] :=
  ⟨.nil, by simp, by simp, by simp, by simp, .nil, List.nil_sublist _, rfl⟩

/-! ## Motion left out -/

theorem front_ne_nil (h : TouchTrail (front ++ entry :: rest) active lastTimestamp accepted)
    (hmove : entry.isMove = true) : front ≠ [] := by
  rintro rfl
  have hdown := h.head entry rfl
  simp [TouchEntry.isMove, hdown] at hmove

theorem before_isHeld (h : TouchTrail (front ++ entry :: rest) active lastTimestamp accepted)
    (hmove : entry.isMove = true) {before : TouchEntry} (hlast : before ∈ front.getLast?) :
    before.event.IsHeld := by
  have hjoined : TouchEntry.Joined before entry :=
    (List.isChain_append.mp h.joined).2.2 before hlast entry rfl
  have hphase : entry.event.phase = some .move := by simpa [TouchEntry.isMove] using hmove
  cases hjoined.1 with
  | down _ hdown => simp [hphase] at hdown
  | move hheld => exact hheld
  | release hheld => exact hheld

theorem joined_without (h : TouchTrail (front ++ entry :: rest) active lastTimestamp accepted)
    (hmove : entry.isMove = true) (hnext : ∀ next ∈ rest.head?, ¬ next.event.IsRelease) :
    (front ++ rest).IsChain TouchEntry.Joined := by
  obtain ⟨hfront, hrest, -⟩ := List.isChain_append.mp h.joined
  rw [List.isChain_cons] at hrest
  refine List.isChain_append.mpr ⟨hfront, hrest.2, fun before hbefore next hafter => ?_⟩
  have hheld := h.before_isHeld hmove hbefore
  have hphase : entry.event.phase = some .move := by simpa [TouchEntry.isMove] using hmove
  refine ⟨?_, fun hrelease => absurd hrelease (hnext next hafter)⟩
  cases (hrest.1 next hafter).1 with
  | down hrelease => rcases hrelease with hup | hup <;> simp [hphase] at hup
  | move _ hmoves => exact .move hheld hmoves
  | release _ hrelease => exact absurd hrelease (hnext next hafter)

theorem without (h : TouchTrail (front ++ entry :: rest) active lastTimestamp accepted)
    (hmove : entry.isMove = true) (hnext : ∀ next ∈ rest.head?, ¬ next.event.IsRelease) :
    TouchTrail (front ++ rest) active lastTimestamp accepted := by
  have hne := h.front_ne_nil hmove
  have hphase : entry.event.phase = some .move := by simpa [TouchEntry.isMove] using hmove
  have hsub : (front ++ rest).Sublist (front ++ entry :: rest) :=
    (List.Sublist.refl front).append (List.sublist_cons_self entry rest)
  have hlast : rest ≠ [] → (front ++ rest).getLast? = (front ++ entry :: rest).getLast? := by
    intro hrest
    rw [List.getLast?_append_of_ne_nil _ hrest, List.getLast?_append_of_ne_nil _ (by simp),
      List.getLast?_cons_of_ne_nil hrest]
  refine ⟨h.joined_without hmove hnext, fun first hfirst => h.head first ?_, fun hactive => ?_,
    fun hinactive last hmem => ?_, fun other hmem => h.timed other (hsub.mem hmem),
    h.ordered.sublist hsub, (hsub.map _).trans h.sublist, ?_⟩
  · rw [List.head?_append_of_ne_nil _ hne] at hfirst ⊢
    exact hfirst
  · by_cases hrest : rest = []
    · subst hrest
      obtain ⟨before, hbefore⟩ := Option.isSome_iff_exists.mp (List.getLast?_isSome.mpr hne)
      refine ⟨before, ?_, h.before_isHeld hmove hbefore⟩
      rwa [List.append_nil]
    · rw [hlast hrest]
      exact h.held hactive
  · by_cases hrest : rest = []
    · subst hrest
      have hrelease := h.released hinactive entry (by simp)
      rcases hrelease with hup | hup <;> simp [hphase] at hup
    · rw [hlast hrest] at hmem
      exact h.released hinactive last hmem
  · rw [← h.edges]
    simp [touchEdges, hphase]

theorem without_block (hmoves : ∀ other ∈ block, other.isMove = true)
    (hentry : entry.isMove = true)
    (h : TouchTrail (front ++ (block ++ entry :: rest)) active lastTimestamp accepted) :
    TouchTrail (front ++ entry :: rest) active lastTimestamp accepted := by
  induction block with
  | nil => exact h
  | cons first others ih =>
    have hnext : ∀ next ∈ (others ++ entry :: rest).head?, ¬ next.event.IsRelease := by
      have hall : ∀ next ∈ (others ++ entry :: rest).head?, next.isMove = true := by
        intro next hnext
        cases others with
        | nil =>
          obtain rfl : entry = next := Option.some.inj hnext
          exact hentry
        | cons other others =>
          obtain rfl : other = next := Option.some.inj hnext
          exact hmoves other (by simp)
      intro next hmem hrelease
      have hphase := hall next hmem
      rcases hrelease with hup | hup <;> simp [TouchEntry.isMove, hup] at hphase
    exact ih (fun other hmem => hmoves other (List.mem_cons_of_mem _ hmem))
      (h.without (hmoves first List.mem_cons_self) hnext)

/-! ## Samples added -/

theorem concat (h : TouchTrail entries active lastTimestamp accepted)
    (hjoined : ∀ last ∈ entries.getLast?, last.Joined entry)
    (hhead : entries = [] → entry.event.phase = some .down)
    (htime : entry.event.timestampNanoseconds = some time) (hlast : lastTimestamp ≤ time)
    (hheld : active' = true → entry.event.IsHeld)
    (hreleased : active' = false → entry.event.IsRelease) :
    TouchTrail (entries ++ [entry]) active' time (accepted ++ [entry.event]) := by
  refine ⟨?_, fun first hfirst => ?_, fun hactive => ⟨entry, by simp, hheld hactive⟩,
    fun hinactive last hmem => ?_, fun other hmem => ?_, ?_, ?_, ?_⟩
  · refine List.isChain_append.mpr ⟨h.joined, .singleton _, fun last hmem next hnext => ?_⟩
    obtain rfl : entry = next := Option.some.inj hnext
    exact hjoined last hmem
  · by_cases hnil : entries = []
    · subst hnil
      obtain rfl : entry = first := Option.some.inj hfirst
      exact hhead rfl
    · rw [List.head?_append_of_ne_nil _ hnil] at hfirst
      exact h.head first hfirst
  · rw [List.getLast?_concat] at hmem
    obtain rfl : entry = last := Option.some.inj hmem
    exact hreleased hinactive
  · rcases List.mem_append.mp hmem with hmem | hmem
    · obtain ⟨earlier, hearlier, hle⟩ := h.timed other hmem
      exact ⟨earlier, hearlier, hle.trans hlast⟩
    · rw [List.mem_singleton.mp hmem]
      exact ⟨time, htime, le_rfl⟩
  · refine List.pairwise_append.mpr ⟨h.ordered, List.pairwise_singleton _ _, ?_⟩
    intro other hmem next hnext earlier hearlier later hlater
    rw [List.mem_singleton.mp hnext, htime] at hlater
    obtain rfl : time = later := Option.some.inj hlater
    obtain ⟨stamp, hstamp, hle⟩ := h.timed other hmem
    rw [hstamp] at hearlier
    obtain rfl : stamp = earlier := Option.some.inj hearlier
    exact hle.trans hlast
  · rw [List.map_append]
    exact h.sublist.append (List.Sublist.refl _)
  · have hedges := h.edges
    simp only [touchEdges] at hedges ⊢
    rw [List.map_append, List.filter_append, List.filter_append, hedges]
    rfl

/-! ## The last motion kept for good -/

theorem protectLast_events (entries : List TouchEntry) :
    (protectLast entries).map TouchEntry.event = entries.map TouchEntry.event := by
  rcases entries.eq_nil_or_concat' with rfl | ⟨front, last, rfl⟩
  · rfl
  · unfold protectLast
    rw [List.getLast?_concat]
    dsimp only
    split
    · rw [List.dropLast_concat]
      simp
    · rfl

theorem protectLast_kept {last : TouchEntry} (h : last ∈ (protectLast entries).getLast?) :
    last.evictable = false := by
  rcases entries.eq_nil_or_concat' with rfl | ⟨front, other, rfl⟩
  · cases h
  · unfold protectLast at h
    rw [List.getLast?_concat] at h
    dsimp only at h
    split at h
    · rw [List.getLast?_concat] at h
      obtain rfl := Option.some.inj h
      simp [TouchEntry.evictable]
    · rename_i hother
      rw [List.getLast?_concat] at h
      obtain rfl := Option.some.inj h
      simp [TouchEntry.evictable, hother]

theorem relabel {front : List TouchEntry} {last last' : TouchEntry} (hevent : last'.event = last.event)
    (h : TouchTrail (front ++ [last]) active lastTimestamp accepted) :
    TouchTrail (front ++ [last']) active lastTimestamp accepted := by
  have hmem : ∀ entry ∈ front ++ [last'], ∃ entry' ∈ front ++ [last], entry.event = entry'.event := by
    intro entry hentry
    rcases List.mem_append.mp hentry with hfront | hlast
    · exact ⟨entry, List.mem_append_left _ hfront, rfl⟩
    · rw [List.mem_singleton.mp hlast]
      exact ⟨last, by simp, hevent⟩
  have hmap : (front ++ [last']).map TouchEntry.event = (front ++ [last]).map TouchEntry.event := by
    simp [hevent]
  obtain ⟨hfront, -, hjoin⟩ := List.isChain_append.mp h.joined
  refine ⟨?_, ?_, fun hactive => ?_, fun hinactive other hother => ?_, fun entry hentry => ?_, ?_, ?_,
    ?_⟩
  · refine List.isChain_append.mpr ⟨hfront, .singleton _, fun before hbefore next hnext => ?_⟩
    obtain rfl : last' = next := Option.some.inj hnext
    have hbetween : before.Joined last := hjoin before hbefore last rfl
    unfold TouchEntry.Joined at hbetween ⊢
    rwa [hevent]
  · intro first hfirst
    by_cases hnil : front = []
    · subst hnil
      obtain rfl : last' = first := Option.some.inj hfirst
      rw [hevent]
      exact h.head last rfl
    · rw [List.head?_append_of_ne_nil _ hnil] at hfirst
      refine h.head first ?_
      rwa [List.head?_append_of_ne_nil _ hnil]
  · obtain ⟨other, hother, hheld⟩ := h.held hactive
    rw [List.getLast?_concat] at hother
    obtain rfl : last = other := Option.some.inj hother
    exact ⟨last', by simp, hevent ▸ hheld⟩
  · rw [List.getLast?_concat] at hother
    obtain rfl : last' = other := Option.some.inj hother
    rw [hevent]
    exact h.released hinactive last (by simp)
  · obtain ⟨entry', hentry', heq⟩ := hmem entry hentry
    rw [heq]
    exact h.timed entry' hentry'
  · have hordered := h.ordered
    rw [List.pairwise_append] at hordered ⊢
    refine ⟨hordered.1, List.pairwise_singleton _ _, fun before hbefore next hnext => ?_⟩
    rw [List.mem_singleton.mp hnext, hevent]
    exact hordered.2.2 before hbefore last (by simp)
  · rw [hmap]
    exact h.sublist
  · rw [hmap]
    exact h.edges

theorem protect (h : TouchTrail entries active lastTimestamp accepted) :
    TouchTrail (protectLast entries) active lastTimestamp accepted := by
  rcases entries.eq_nil_or_concat' with rfl | ⟨front, last, rfl⟩
  · exact h
  · unfold protectLast
    rw [List.getLast?_concat]
    dsimp only
    split
    · rw [List.dropLast_concat]
      have hevent : ({ last with finalMove := true } : TouchEntry).event = last.event := rfl
      exact h.relabel hevent
    · exact h

end TouchTrail

end Pinecone
