import Mathlib.Data.List.Chain
import Pinecone.TouchQueue

/-! What the guest is to see of a contact: a down, moves, and a release at the last of their points.
The gestures of a list of samples are a matter of its neighbours. -/

namespace Pinecone

namespace TimestampedTouchEvent

def point (event : TimestampedTouchEvent) : BitVec 32 × BitVec 32 := (event.x, event.y)

def IsRelease (event : TimestampedTouchEvent) : Prop :=
  event.phase = some .up ∨ event.phase = some .cancel

/-- A contact goes on after the sample. -/
def IsHeld (event : TimestampedTouchEvent) : Prop :=
  event.phase = some .down ∨ event.phase = some .move

theorem IsHeld.not_isRelease {event : TimestampedTouchEvent} (h : event.IsHeld) :
    ¬ event.IsRelease := by
  rintro (hup | hup) <;> rcases h with h | h <;> simp [h] at hup

/-- The sample may be delivered right after the other. -/
inductive Follows (before after : TimestampedTouchEvent) : Prop
  | down : before.IsRelease → after.phase = some .down → Follows before after
  | move : before.IsHeld → after.phase = some .move → Follows before after
  | release : before.IsHeld → after.IsRelease → after.point = before.point → Follows before after

end TimestampedTouchEvent

open TimestampedTouchEvent

/-- A contact that is not released yet. -/
structure TouchContact where
  down : TimestampedTouchEvent
  moves : List TimestampedTouchEvent
  down_phase : down.phase = some .down
  moves_phase : ∀ sample ∈ moves, sample.phase = some .move

namespace TouchContact

def samples (contact : TouchContact) : List TimestampedTouchEvent := contact.down :: contact.moves

/-- The sample delivered last. -/
def last (contact : TouchContact) : TimestampedTouchEvent :=
  contact.samples.getLast (List.cons_ne_nil _ _)

theorem last_isHeld (contact : TouchContact) : contact.last.IsHeld := by
  have hmem : contact.last ∈ contact.samples := List.getLast_mem _
  rcases List.mem_cons.mp hmem with hdown | hmove
  · rw [hdown]
    exact .inl contact.down_phase
  · exact .inr (contact.moves_phase _ hmove)

/-- The contact with one move more. -/
def extend (contact : TouchContact) (next : TimestampedTouchEvent)
    (h : next.phase = some .move) : TouchContact where
  down := contact.down
  moves := contact.moves ++ [next]
  down_phase := contact.down_phase
  moves_phase sample hsample := by
    rcases List.mem_append.mp hsample with hmem | hmem
    · exact contact.moves_phase sample hmem
    · rw [List.mem_singleton.mp hmem]
      exact h

end TouchContact

/-- A contact with its release, which is at the position delivered before it. -/
structure TouchGesture where
  contact : TouchContact
  release : TimestampedTouchEvent
  release_phase : release.IsRelease
  release_point : release.point = contact.last.point

def TouchGesture.samples (gesture : TouchGesture) : List TimestampedTouchEvent :=
  gesture.contact.samples ++ [gesture.release]

/-- Whole gestures, and what there is of another one. -/
def gestureSamples (gestures : List TouchGesture) (contact : Option TouchContact) :
    List TimestampedTouchEvent :=
  gestures.flatMap TouchGesture.samples ++ (contact.map TouchContact.samples).getD []

section gestures

variable {gestures : List TouchGesture} {samples : List TimestampedTouchEvent}
  {last next : TimestampedTouchEvent}

theorem last_isRelease (h : (gestureSamples gestures none).getLast? = some last) :
    last.IsRelease := by
  rcases gestures.eq_nil_or_concat' with rfl | ⟨front, gesture, rfl⟩
  · simp [gestureSamples] at h
  · simp only [gestureSamples, List.flatMap_append, List.flatMap_singleton, TouchGesture.samples,
      Option.map_none, Option.getD_none, List.append_nil, ← List.append_assoc,
      List.getLast?_concat] at h
    cases h
    exact gesture.release_phase

theorem last_contact {contact : TouchContact}
    (h : (gestureSamples gestures (some contact)).getLast? = some last) : last = contact.last := by
  have hne : contact.samples ≠ [] := List.cons_ne_nil _ _
  simp only [gestureSamples, Option.map_some, Option.getD_some,
    List.getLast?_append_of_ne_nil _ hne, List.getLast?_eq_getLast_of_ne_nil hne] at h
  exact (Option.some.inj h).symm

theorem exists_gestures (hchain : samples.IsChain Follows)
    (hhead : ∀ first ∈ samples.head?, first.phase = some .down) :
    ∃ gestures contact, samples = gestureSamples gestures contact := by
  induction samples using List.reverseRecOn with
  | nil => exact ⟨[], none, rfl⟩
  | append_singleton front next ih =>
    rcases front.eq_nil_or_concat' with rfl | ⟨before, last, rfl⟩
    · exact ⟨[], some ⟨next, [], hhead next rfl, by simp⟩, rfl⟩
    · have hfront : ∀ first ∈ (before ++ [last]).head?, first.phase = some .down := by
        intro first hfirst
        refine hhead first ?_
        rw [List.head?_append_of_ne_nil _ (by simp)]
        exact hfirst
      obtain ⟨gestures, contact, heq⟩ := ih hchain.left_of_append hfront
      have hfollows : Follows last next := by
        rw [List.append_assoc, List.singleton_append, List.isChain_append_cons_cons] at hchain
        exact hchain.2.1
      have hlast : (gestureSamples gestures contact).getLast? = some last := by
        rw [← heq, List.getLast?_concat]
      rw [heq]
      cases contact with
      | none =>
        have hrelease := last_isRelease hlast
        cases hfollows with
        | down _ hdown =>
          exact ⟨gestures, some ⟨next, [], hdown, by simp⟩,
            by simp [gestureSamples, TouchContact.samples]⟩
        | move hheld => exact absurd hrelease hheld.not_isRelease
        | release hheld => exact absurd hrelease hheld.not_isRelease
      | some contact =>
        obtain rfl := last_contact hlast
        have hheld := contact.last_isHeld
        cases hfollows with
        | down hrelease => exact absurd hrelease hheld.not_isRelease
        | move _ hmove =>
          exact ⟨gestures, some (contact.extend next hmove),
            by simp [gestureSamples, TouchContact.samples, TouchContact.extend]⟩
        | release _ hrelease hpoint =>
          exact ⟨gestures ++ [⟨contact, next, hrelease, hpoint⟩], none,
            by simp [gestureSamples, TouchGesture.samples]⟩

end gestures

end Pinecone
