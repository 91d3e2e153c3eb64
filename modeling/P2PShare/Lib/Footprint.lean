import Mathlib

/-!
Operations that work on parts of a state.

`view k s` is what the state `s` has in the place `k`. An operation answers and changes the
state.

* `Footprint`: the places that an operation may change and those that it looks at besides.
* `Footprint.comm` (**the rule**): two operations of which neither changes a place of the
  other commute, and each is answered as if it came first.
-/

universe u v w

variable {κ : Type u} {σ : Type v} {ρ₁ ρ₂ : Type w} {V : κ → Type w}

/-- The operation changes nothing outside `W`, and its answer and what it makes of `W` are
determined by what is in `W` and in `R`. -/
structure Footprint (view : (k : κ) → σ → V k) (f : σ → ρ₁ × σ) (W R : Set κ) : Prop where
  frame : ∀ s, ∀ k ∉ W, view k (f s).2 = view k s
  reply : ∀ s t, (∀ k ∈ W ∪ R, view k s = view k t) → (f s).1 = (f t).1
  result : ∀ s t, (∀ k ∈ W ∪ R, view k s = view k t) → ∀ k ∈ W, view k (f s).2 = view k (f t).2

namespace Footprint

variable {view : (k : κ) → σ → V k} {f : σ → ρ₁ × σ} {g : σ → ρ₂ × σ} {W₁ R₁ W₂ R₂ : Set κ}

/-- What an operation sees behind another one that does not change its places. -/
lemma agree (hf : Footprint view f W₁ R₁) (hdisj : Disjoint W₁ (W₂ ∪ R₂)) (s : σ) :
    ∀ k ∈ W₂ ∪ R₂, view k (f s).2 = view k s :=
  fun k hk => hf.frame s k fun hW => hdisj.ne_of_mem hW hk rfl

/-- **The rule for operations in different places.** -/
theorem comm (hext : ∀ s t, (∀ k, view k s = view k t) → s = t)
    (hf : Footprint view f W₁ R₁) (hg : Footprint view g W₂ R₂)
    (hfg : Disjoint W₁ (W₂ ∪ R₂)) (hgf : Disjoint W₂ (W₁ ∪ R₁)) (s : σ) :
    (g (f s).2).1 = (g s).1 ∧ (f (g s).2).1 = (f s).1 ∧ (g (f s).2).2 = (f (g s).2).2 := by
  have hg' := hf.agree hfg s
  have hf' := hg.agree hgf s
  refine ⟨hg.reply _ _ hg', hf.reply _ _ hf', hext _ _ fun k => ?_⟩
  by_cases h₁ : k ∈ W₁
  · have h₂ : k ∉ W₂ := fun h₂ => hfg.ne_of_mem h₁ (.inl h₂) rfl
    calc view k (g (f s).2).2 = view k (f s).2 := hg.frame _ k h₂
      _ = view k (f (g s).2).2 := (hf.result _ _ hf' k h₁).symm
  · by_cases h₂ : k ∈ W₂
    · calc view k (g (f s).2).2 = view k (g s).2 := hg.result _ _ hg' k h₂
        _ = view k (f (g s).2).2 := (hf.frame _ k h₁).symm
    · calc view k (g (f s).2).2 = view k s := (hg.frame _ k h₂).trans (hf.frame s k h₁)
        _ = view k (f (g s).2).2 := ((hf.frame _ k h₁).trans (hg.frame s k h₂)).symm

end Footprint
