import Mathlib.Tactic

/-!
Two replicas that apply their own operations at once and send them to each
other in order.

* `Confluent`: operations act on states; two that are enabled together and do
  not clash commute and leave each other enabled.
* `Confluent.pass`: an operation moves past a queue that it does not clash with.
* `Agree` (**the invariant of the pair**): once each replica has applied what is
  on its way to it, the two are equal. It survives an operation that clashes
  with nothing on its way to the replica (`Agree.issue`) and every delivery
  (`Agree.deliver`), and with nothing on its way the states are equal
  (`Agree.eq`).
-/

universe u v

section

variable {σ : Type u} {α : Type v}

/-- Operations of a replicated state. The invariant `inv` holds of every state,
`en s a` says that `a` may come from a replica in state `s`, and `clash` relates
the operations that depend on their order. -/
structure Confluent (act : σ → α → σ) (inv : σ → Prop) (en : σ → α → Prop)
    (clash : α → α → Prop) : Prop where
  inv_act : ∀ {s : σ} (a : α), inv s → inv (act s a)
  symm : ∀ {a b : α}, clash a b → clash b a
  stable : ∀ {s : σ} {a b : α}, inv s → en s a → en s b → ¬ clash a b → en (act s b) a
  comm : ∀ {s : σ} {a b : α}, inv s → en s a → en s b → ¬ clash a b →
    act (act s a) b = act (act s b) a

/-- Each operation of the queue is enabled when its turn comes. -/
def EnAll (act : σ → α → σ) (en : σ → α → Prop) : σ → List α → Prop
  | _, [] => True
  | s, a :: q => en s a ∧ EnAll act en (act s a) q

variable {act : σ → α → σ} {inv : σ → Prop} {en : σ → α → Prop} {clash : α → α → Prop}

lemma enAll_concat {s : σ} {q : List α} {a : α} :
    EnAll act en s (q ++ [a]) ↔ EnAll act en s q ∧ en (q.foldl act s) a := by
  induction q generalizing s with
  | nil => simp [EnAll]
  | cons b q ih => simp [EnAll, ih, and_assoc]

namespace Confluent

variable (h : Confluent act inv en clash)

include h

/-- An operation moves past a queue that it does not clash with, and both stay
enabled. -/
lemma pass {s : σ} {a : α} {q : List α} (hinv : inv s) (ha : en s a) (hq : EnAll act en s q)
    (hc : ∀ b ∈ q, ¬ clash a b) :
    q.foldl act (act s a) = act (q.foldl act s) a ∧ EnAll act en (act s a) q ∧
      en (q.foldl act s) a := by
  induction q generalizing s with
  | nil => exact ⟨rfl, trivial, ha⟩
  | cons b q ih =>
      obtain ⟨hb, hrest⟩ := hq
      have hab : ¬ clash a b := hc b List.mem_cons_self
      have hba : ¬ clash b a := fun hclash => hab (h.symm hclash)
      have hswap : act (act s a) b = act (act s b) a := h.comm hinv ha hb hab
      obtain ⟨heq, hen, hlast⟩ := ih (h.inv_act b hinv) (h.stable hinv ha hb hab) hrest
        fun x hx => hc x (List.mem_cons_of_mem b hx)
      refine ⟨?_, ⟨h.stable hinv hb ha hba, ?_⟩, hlast⟩
      · rw [List.foldl_cons, List.foldl_cons, hswap, heq]
      · rw [hswap]
        exact hen

end Confluent

/-- **The invariant of the pair**: the left and the right replica, what is on
its way to the right and what is on its way to the left. -/
structure Agree (act : σ → α → σ) (inv : σ → Prop) (en : σ → α → Prop) (left right : σ)
    (toRight toLeft : List α) : Prop where
  invLeft : inv left
  invRight : inv right
  enRight : EnAll act en right toRight
  enLeft : EnAll act en left toLeft
  drained : toLeft.foldl act left = toRight.foldl act right

namespace Agree

variable {left right : σ} {toRight toLeft : List α} {a : α}

/-- Equal replicas with nothing on its way agree. -/
lemma refl {s : σ} (hs : inv s) : Agree act inv en s s [] [] := ⟨hs, hs, trivial, trivial, rfl⟩

lemma swap (h : Agree act inv en left right toRight toLeft) :
    Agree act inv en right left toLeft toRight :=
  ⟨h.invRight, h.invLeft, h.enLeft, h.enRight, h.drained.symm⟩

/-- The left replica applies an operation and sends it. -/
lemma issue (hc : Confluent act inv en clash) (h : Agree act inv en left right toRight toLeft)
    (ha : en left a) (hclash : ∀ b ∈ toLeft, ¬ clash a b) :
    Agree act inv en (act left a) right (toRight ++ [a]) toLeft := by
  obtain ⟨heq, hen, hlast⟩ := hc.pass h.invLeft ha h.enLeft hclash
  refine ⟨hc.inv_act a h.invLeft, h.invRight, ?_, hen, ?_⟩
  · rw [enAll_concat]
    exact ⟨h.enRight, h.drained ▸ hlast⟩
  · calc toLeft.foldl act (act left a) = act (toLeft.foldl act left) a := heq
      _ = act (toRight.foldl act right) a := by rw [h.drained]
      _ = (toRight ++ [a]).foldl act right := by rw [List.foldl_concat]

/-- The right replica applies what comes next. -/
lemma deliver (hc : Confluent act inv en clash)
    (h : Agree act inv en left right (a :: toRight) toLeft) :
    Agree act inv en left (act right a) toRight toLeft :=
  ⟨h.invLeft, hc.inv_act a h.invRight, h.enRight.2, h.enLeft, h.drained⟩

/-- With nothing on its way the replicas are equal. -/
lemma eq (h : Agree act inv en left right [] []) : left = right := h.drained

end Agree

end
