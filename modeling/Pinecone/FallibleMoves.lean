import Mathlib.Order.Defs.Unbundled
import Pinecone.Fallible

/-! Where a fallible computation can take its state, whether it fails or not. -/

namespace Fallible

variable {S α β : Type}

/-- The state after `m` is related to the state before. -/
def Moves (R : S → S → Prop) (m : Fallible S α) : Prop := ∀ s, R s (m s).2

variable {R : S → S → Prop} {m n : Fallible S α} {f : α → Fallible S β}

theorem bind_related [IsTrans S R] {s : S} (hm : R s (m s).2)
    (hf : ∀ a s', m s = (some a, s') → R s' (f a s').2) : R s ((m >>= f) s).2 := by
  rcases hresult : m s with ⟨_ | a, s'⟩
  · rw [bind_of_none hresult]
    rwa [hresult] at hm
  · rw [bind_of_some hresult]
    rw [hresult] at hm
    exact IsTrans.trans _ _ _ hm (hf a s' hresult)

theorem bind_pure_apply (m : Fallible S α) (change : α → β) (s : S) :
    (m >>= fun a => (Pure.pure (change a) : Fallible S β)) s = ((m s).1.map change, (m s).2) := by
  rcases hresult : m s with ⟨_ | a, s'⟩
  · rw [bind_of_none hresult]
    rfl
  · rw [bind_of_some hresult]
    rfl

theorem ite_related {c : Prop} [Decidable c] {s : S} (hm : c → R s (m s).2)
    (hn : ¬ c → R s (n s).2) : R s ((if c then m else n) s).2 := by
  split
  · exact hm ‹_›
  · exact hn ‹_›

namespace Moves

theorem at_success (hm : Moves R m) {s s' : S} {a : α} (h : m s = (some a, s')) : R s s' := by
  have hms := hm s
  rwa [h] at hms

theorem pure [Std.Refl R] (a : α) : Moves R (pure a : Fallible S α) := fun s => Std.Refl.refl s

theorem fail [Std.Refl R] : Moves R (fail : Fallible S α) := fun s => Std.Refl.refl s

theorem bind [IsTrans S R] (hm : Moves R m) (hf : ∀ a, Moves R (f a)) : Moves R (m >>= f) :=
  fun s => bind_related (hm s) fun a s' _ => hf a s'

theorem attempt (hm : Moves R m) : Moves R m.attempt := fun s => hm s

theorem forM [Std.Refl R] [IsTrans S R] {items : List β} {g : β → Fallible S Unit}
    (hg : ∀ item, Moves R (g item)) : Moves R (items.forM g) := by
  induction items with
  | nil => exact pure ()
  | cons item items ih => exact (hg item).bind fun _ => ih

end Moves

end Fallible
