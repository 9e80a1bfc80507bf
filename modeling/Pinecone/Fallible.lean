import Mathlib.Data.List.Basic

/-! Computations over a state that may fail part way: a failure keeps what was done to the
state before it. -/

def Fallible (S α : Type) : Type :=
  S → Option α × S

namespace Fallible

variable {S T α β : Type}

/-- The first computation fails, or the second goes on from its state. -/
protected def bind (m : Fallible S α) (f : α → Fallible S β) : Fallible S β := fun s =>
  match m s with
  | (some a, s') => f a s'
  | (none, s') => (none, s')

instance : Monad (Fallible S) where
  pure a := fun s => (some a, s)
  bind := Fallible.bind

def fail : Fallible S α := fun s => (none, s)

def ofOption : Option α → Fallible S α
  | some a => pure a
  | none => fail

def guard (condition : Bool) : Fallible S Unit :=
  if condition then pure () else fail

/-- The result of `m`, which never fails, and whether it succeeded. -/
def attempt (m : Fallible S α) : Fallible S (Option α) := fun s => (some (m s).1, (m s).2)

/-- The first success of the two: the second goes on from where the first failed. -/
def orElse (m n : Fallible S α) : Fallible S α := do
  match ← m.attempt with
  | some a => pure a
  | none => n

/-- `m` on the part of the state that `get` reads and `set` replaces. -/
def onPart (get : S → T) (set : S → T → S) (m : Fallible T α) : Fallible S α := fun s =>
  ((m (get s)).1, set s (m (get s)).2)

theorem bind_apply (m : Fallible S α) (f : α → Fallible S β) (s : S) :
    (m >>= f) s = match m s with
      | (some a, s') => f a s'
      | (none, s') => (none, s') := rfl

theorem pure_apply (a : α) (s : S) : (pure a : Fallible S α) s = (some a, s) := rfl

theorem bind_of_some {m : Fallible S α} {f : α → Fallible S β} {s s' : S} {a : α}
    (h : m s = (some a, s')) : (m >>= f) s = f a s' := by
  rw [bind_apply, h]

theorem bind_of_none {m : Fallible S α} {f : α → Fallible S β} {s s' : S}
    (h : m s = (none, s')) : (m >>= f) s = (none, s') := by
  rw [bind_apply, h]

theorem guard_bind {condition : Bool} (h : condition = true) (f : Unit → Fallible S β) :
    (guard condition >>= f) = f () := by
  rw [h]
  rfl

/-- `m` keeps `p`, whether it fails or not. -/
def Keeps (p : S → Prop) (m : Fallible S α) : Prop :=
  ∀ s, p s → p (m s).2

/-- `m` keeps `p` when it fails. -/
def KeepsOnFailure (p : S → Prop) (m : Fallible S α) : Prop :=
  ∀ s, p s → (m s).1 = none → p (m s).2

def Succeeds (m : Fallible S α) : Prop :=
  ∀ s, (m s).1 ≠ none

variable {p : S → Prop} {m n : Fallible S α} {f : α → Fallible S β}

namespace Keeps

theorem pure (a : α) : Keeps p (pure a : Fallible S α) :=
  fun _ hs => hs

theorem fail : Keeps p (fail : Fallible S α) :=
  fun _ hs => hs

theorem bind (hm : Keeps p m) (hf : ∀ a, Keeps p (f a)) : Keeps p (m >>= f) := by
  intro s hs
  have hms := hm s hs
  rcases hresult : m s with ⟨_ | a, s'⟩
  · rw [bind_of_none hresult]
    rwa [hresult] at hms
  · rw [bind_of_some hresult]
    rw [hresult] at hms
    exact hf a s' hms

theorem ofOption (value : Option α) : Keeps p (ofOption value) := by
  cases value with
  | none => exact fail
  | some a => exact pure a

theorem guard (condition : Bool) : Keeps p (guard condition) := by
  cases condition with
  | false => exact fail
  | true => exact pure ()

theorem attempt (hm : Keeps p m) : Keeps p m.attempt :=
  fun s hs => hm s hs

theorem orElse (hm : Keeps p m) (hn : Keeps p n) : Keeps p (m.orElse n) :=
  hm.attempt.bind fun
    | some a => pure a
    | none => hn

theorem forM {items : List β} {g : β → Fallible S Unit} (hg : ∀ item ∈ items, Keeps p (g item)) :
    Keeps p (items.forM g) := by
  induction items with
  | nil => exact pure ()
  | cons item items ih =>
    have hitem := hg item List.mem_cons_self
    have hrest := ih fun other hother => hg other (List.mem_cons_of_mem _ hother)
    exact hitem.bind fun _ => hrest

theorem foldlM {items : List β} {g : α → β → Fallible S α}
    (hg : ∀ a item, Keeps p (g a item)) (a : α) : Keeps p (items.foldlM g a) := by
  induction items generalizing a with
  | nil => exact pure a
  | cons item items ih =>
    rw [List.foldlM_cons]
    exact (hg a item).bind ih

theorem mapM {items : List β} {g : β → Fallible S α} (hg : ∀ item, Keeps p (g item)) :
    Keeps p (items.mapM' g) := by
  induction items with
  | nil => exact pure []
  | cons item items ih => exact (hg item).bind fun _ => ih.bind fun _ => pure _

end Keeps

namespace KeepsOnFailure

theorem of_keeps (hm : Keeps p m) : KeepsOnFailure p m :=
  fun s hs _ => hm s hs

theorem of_succeeds (hm : Succeeds m) : KeepsOnFailure p m :=
  fun s _ hnone => absurd hnone (hm s)

theorem bind (hm : Keeps p m) (hf : ∀ a, KeepsOnFailure p (f a)) :
    KeepsOnFailure p (m >>= f) := by
  intro s hs hnone
  have hms := hm s hs
  rcases hresult : m s with ⟨_ | a, s'⟩
  · rw [bind_of_none hresult]
    rwa [hresult] at hms
  · rw [bind_of_some hresult] at hnone ⊢
    rw [hresult] at hms
    exact hf a s' hms hnone

theorem bind_succeeds (hm : KeepsOnFailure p m) (hf : ∀ a, Succeeds (f a)) :
    KeepsOnFailure p (m >>= f) := by
  intro s hs hnone
  have hms := hm s hs
  rcases hresult : m s with ⟨_ | a, s'⟩
  · rw [bind_of_none hresult]
    rw [hresult] at hms
    exact hms rfl
  · rw [bind_of_some hresult] at hnone
    exact absurd hnone (hf a s')

theorem orElse (hm : KeepsOnFailure p m) (hn : KeepsOnFailure p n) :
    KeepsOnFailure p (m.orElse n) := by
  intro s hs hnone
  rcases hresult : m s with ⟨_ | a, s'⟩
  · have hs' : p s' := by simpa [hresult] using hm s hs
    have horElse : m.orElse n s = n s' := by
      change (m.attempt >>= _) s = _
      rw [bind_of_some (show m.attempt s = (some none, s') by simp [attempt, hresult])]
    rw [horElse] at hnone ⊢
    exact hn s' hs' hnone
  · have horElse : m.orElse n s = (some a, s') := by
      change (m.attempt >>= _) s = _
      rw [bind_of_some (show m.attempt s = (some (some a), s') by simp [attempt, hresult])]
      rfl
    simp [horElse] at hnone

end KeepsOnFailure

namespace Succeeds

theorem pure (a : α) : Succeeds (pure a : Fallible S α) :=
  fun _ h => nomatch h

theorem bind (hm : Succeeds m) (hf : ∀ a, Succeeds (f a)) : Succeeds (m >>= f) := by
  intro s
  rcases hresult : m s with ⟨_ | a, s'⟩
  · exact absurd (congrArg Prod.fst hresult) (hm s)
  · rw [bind_of_some hresult]
    exact hf a s'

theorem forM {items : List β} {g : β → Fallible S Unit} (hg : ∀ item, Succeeds (g item)) :
    Succeeds (items.forM g) := by
  induction items with
  | nil => exact pure ()
  | cons item items ih => exact (hg item).bind fun _ => ih

end Succeeds

end Fallible
