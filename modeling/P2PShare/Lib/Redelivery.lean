import P2PShare.Lib.Runs

/-!
Delivering a block of operations a second time.

`act s e` is the state after the operation `e`. A block leads from some state to
`f`, and is then delivered again from `f` on.

* `again`: the two deliveries side by side.
* `Echoes`: a value that is in the second delivery what it was in the first, or
  what it is at the end.
* `again_eq` (**the rule**): a relation between the two deliveries that their
  steps keep, and that identifies the states at the end, makes the second one end
  in `f` as well.
-/

universe u v

variable {σ : Type u} {ε : Type v}

/-- One operation in both deliveries. -/
def again (act : σ → ε → σ) (z : σ × σ) (e : ε) : Option (σ × σ) := some (act z.1 e, act z.2 e)

/-- **The rule for a second delivery.** A step may use where the first one
ends. -/
theorem again_eq {act : σ → ε → σ} {R : σ → σ → Prop} {ok : σ × σ → ε → Prop} {f : σ}
    (hstep : ∀ {x y : σ} {e : ε} {rest : List ε}, R x y → ok (x, y) e →
      rest.foldl act (act x e) = f → R (act x e) (act y e))
    (hend : ∀ {y : σ}, R f y → y = f) {block : List ε} {x y : σ}
    (hfirst : block.foldl act x = f) (hR : R x y) (hmeets : Meets (again act) ok (x, y) block) :
    block.foldl act y = f := by
  induction block generalizing x y with
  | nil =>
      obtain rfl : x = f := hfirst
      exact hend hR
  | cons e block ih =>
      obtain ⟨hok, hrest⟩ := hmeets
      exact ih hfirst (hstep hR hok hfirst) (hrest _ rfl)

/-- The value `y` of the second delivery is the value `x` of the first one or the
value `f` at the end. -/
def Echoes {α : Type u} (x y f : α) : Prop := y = x ∨ y = f

namespace Echoes

variable {α β : Type u} {x y f : α}

lemma same (x f : α) : Echoes x x f := .inl rfl

lemma last (x f : α) : Echoes x f f := .inr rfl

/-- Where it differs from the first delivery it is the last value. -/
lemma eq_last (h : Echoes x y f) (hne : y ≠ x) : y = f := h.resolve_left hne

end Echoes
