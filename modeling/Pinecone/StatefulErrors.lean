import Mathlib.Logic.Basic

/-! Pre- and postconditions for actions that may fail and keep the state that they have reached
when they do. -/

namespace Pinecone

universe u

variable {ε σ α β : Type u} {m : EStateM ε σ α} {f : α → EStateM ε σ β} {s s' : σ} {a : α} {b : β}
  {e : ε}

/-- The state in which an action ends, however it ends. -/
def finalState : EStateM.Result ε σ α → σ
  | .ok _ s => s
  | .error _ s => s

theorem bind_of_ok (h : m s = .ok a s') : (m >>= f) s = f a s' := by
  change EStateM.bind m f s = _
  simp only [EStateM.bind, h]

theorem bind_of_error (h : m s = .error e s') : (m >>= f) s = .error e s' := by
  change EStateM.bind m f s = _
  simp only [EStateM.bind, h]

theorem bind_eq_ok (h : (m >>= f) s = .ok b s') : ∃ a s₁, m s = .ok a s₁ ∧ f a s₁ = .ok b s' := by
  cases hm : m s with
  | ok a s₁ => exact ⟨a, s₁, rfl, (bind_of_ok hm).symm.trans h⟩
  | error e s₁ =>
    rw [bind_of_error hm] at h
    cases h

theorem map_eq_ok {g : α → β} (h : (g <$> m) s = .ok b s') : ∃ a, m s = .ok a s' ∧ g a = b := by
  change EStateM.map g m s = _ at h
  unfold EStateM.map at h
  cases hm : m s with
  | ok a s₁ =>
    simp only [hm] at h
    cases h
    exact ⟨a, rfl, rfl⟩
  | error e s₁ =>
    simp only [hm] at h
    cases h

theorem modify_eq {change : σ → σ} :
    (modify change : EStateM ε σ PUnit) s = .ok PUnit.unit (change s) := rfl

theorem get_eq : (get : EStateM ε σ σ) s = .ok s s := rfl

/-! ## Triples -/

/-- From a state of `P` the action ends in `Q`, or fails in `E`. -/
def Ensures (P : σ → Prop) (m : EStateM ε σ α) (Q : α → σ → Prop) (E : σ → Prop) : Prop :=
  ∀ s, P s → match m s with
    | .ok a s' => Q a s'
    | .error _ s' => E s'

variable {P P' : σ → Prop} {Q Q' : α → σ → Prop} {R : β → σ → Prop} {E E' : σ → Prop}

namespace Ensures

theorem of_ok (h : ∀ s, P s → ∃ a s', m s = .ok a s' ∧ Q a s') : Ensures P m Q E := by
  intro s hs
  obtain ⟨a, s', hm, hq⟩ := h s hs
  rw [hm]
  exact hq

theorem at_ok (h : Ensures P m Q E) (hs : P s) (hm : m s = .ok a s') : Q a s' := by
  have := h s hs
  rwa [hm] at this

theorem at_error (h : Ensures P m Q E) (hs : P s) (hm : m s = .error e s') : E s' := by
  have := h s hs
  rwa [hm] at this

theorem exists_ok (h : Ensures P m Q fun _ => False) (hs : P s) : ∃ a s', m s = .ok a s' ∧ Q a s' := by
  cases hm : m s with
  | ok a s' => exact ⟨a, s', rfl, h.at_ok hs hm⟩
  | error e s' => exact (h.at_error hs hm).elim

theorem at_finalState (h : Ensures P m (fun _ => E) E) (hs : P s) : E (finalState (m s)) := by
  cases hm : m s with
  | ok a s' => exact h.at_ok hs hm
  | error e s' => exact h.at_error hs hm

theorem of_finalState (h : ∀ s, P s → E (finalState (m s))) : Ensures P m (fun _ => E) E := by
  intro s hs
  have hfinal := h s hs
  cases hm : m s with
  | ok a s' =>
    rw [hm] at hfinal
    exact hfinal
  | error e s' =>
    rw [hm] at hfinal
    exact hfinal

theorem mono (h : Ensures P m Q E) (hP : ∀ s, P' s → P s) (hQ : ∀ a s, Q a s → Q' a s)
    (hE : ∀ s, E s → E' s) : Ensures P' m Q' E' := by
  intro s hs
  cases hm : m s with
  | ok a s' => exact hQ a s' (h.at_ok (hP s hs) hm)
  | error e s' => exact hE s' (h.at_error (hP s hs) hm)

theorem pure (h : ∀ s, P s → Q a s) : Ensures P (pure a : EStateM ε σ α) Q E := h

theorem throw (h : ∀ s, P s → E s) : Ensures P (throw e : EStateM ε σ α) Q E := h

theorem bind (hm : Ensures P m Q E) (hf : ∀ a, Ensures (Q a) (f a) R E) : Ensures P (m >>= f) R E := by
  intro s hs
  cases h : m s with
  | ok a s' =>
    rw [bind_of_ok h]
    exact hf a s' (hm.at_ok hs h)
  | error e s' =>
    rw [bind_of_error h]
    exact hm.at_error hs h

theorem get_bind {f : σ → EStateM ε σ β} (h : ∀ s, P s → Ensures (fun s' => s' = s) (f s) R E) :
    Ensures P (get >>= f) R E := fun s hs => h s hs s rfl

theorem modify {change : σ → σ} {Q : PUnit → σ → Prop} (h : ∀ s, P s → Q PUnit.unit (change s)) :
    Ensures P (modify change : EStateM ε σ PUnit) Q E := h

theorem ite {c : Prop} [Decidable c] {n : EStateM ε σ α} (hm : c → Ensures P m Q E)
    (hn : ¬ c → Ensures P n Q E) : Ensures P (if c then m else n) Q E := by
  split
  · exact hm ‹_›
  · exact hn ‹_›

theorem forM_remaining {I : List β → σ → Prop} {body : β → EStateM ε σ PUnit} {items : List β}
    (h : ∀ item ∈ items, ∀ rest, Ensures (I (item :: rest)) (body item) (fun _ => I rest) E) :
    Ensures (I items) (items.forM body) (fun _ => I []) E := by
  induction items with
  | nil => exact pure fun _ hs => hs
  | cons item rest ih =>
    exact (h item (by simp) rest).bind fun _ => ih fun other ho => h other (by simp [ho])

theorem forM {I : σ → Prop} {body : β → EStateM ε σ PUnit} {items : List β}
    (h : ∀ item ∈ items, Ensures I (body item) (fun _ => I) E) :
    Ensures I (items.forM body) (fun _ => I) E :=
  @forM_remaining ε σ β E (fun _ => I) body items fun item hi _ => h item hi

theorem foldlM {I : α → σ → Prop} {body : α → β → EStateM ε σ α} {items : List β}
    (h : ∀ a, ∀ item ∈ items, Ensures (I a) (body a item) I E) (a : α) :
    Ensures (I a) (items.foldlM body a) I E := by
  induction items generalizing a with
  | nil => exact pure fun _ hs => hs
  | cons item rest ih =>
    exact (h a item (by simp)).bind fun a' => ih (fun a other ho => h a other (by simp [ho])) a'

end Ensures

end Pinecone
