import Mathlib.Tactic

/-!
Runs of a transition system whose steps are chosen by events.

* `Run step ok s₀ s`: `s` is reached from `s₀` by steps whose event met `ok` in
  the state before it.
* `Run.invariant` (**the invariant rule**): what holds at the start and is kept
  by every such step holds in every state reached.
* `exec`: the state after a given list of events; `Run.of_exec` turns it into a
  run, and `exec_invariant` is the invariant rule for it.
* `Throughout` and `throughout_iff_meets`: what holds in every state that given
  events lead to, and the condition on them under which it does.
* `meets_congr`: two conditions on the events that come to the same.
* `potential_le` (**the potential rule**): what given events cost in total.
* `getElem?_set_or` and `sum_map_set`: a list of components of which one moves.
-/

universe u v

variable {σ : Type u} {ε : Type v}

/-- The states reached from `s₀`. An event that cannot happen in a state has no
step there. -/
inductive Run (step : σ → ε → Option σ) (ok : σ → ε → Prop) (s₀ : σ) : σ → Prop
  | start : Run step ok s₀ s₀
  | step {s s' : σ} {e : ε} (h : Run step ok s₀ s) (hok : ok s e) (hstep : step s e = some s') :
      Run step ok s₀ s'

/-- The state after these events, if each of them can happen when its turn comes. -/
def exec (step : σ → ε → Option σ) : σ → List ε → Option σ
  | s, [] => some s
  | s, e :: es => (step s e).bind fun s' => exec step s' es

/-- Each of these events meets `ok` when its turn comes. -/
def Meets (step : σ → ε → Option σ) (ok : σ → ε → Prop) : σ → List ε → Prop
  | _, [] => True
  | s, e :: es => ok s e ∧ ∀ s' ∈ step s e, Meets step ok s' es

instance decidableMeets {step : σ → ε → Option σ} {ok : σ → ε → Prop}
    [∀ s e, Decidable (ok s e)] : ∀ (s : σ) (es : List ε), Decidable (Meets step ok s es)
  | _, [] => .isTrue trivial
  | s, e :: es =>
      have : ∀ s', Decidable (Meets step ok s' es) := fun s' => decidableMeets s' es
      inferInstanceAs (Decidable (ok s e ∧ ∀ s' ∈ step s e, Meets step ok s' es))

variable {step : σ → ε → Option σ} {ok : σ → ε → Prop} {s₀ : σ}

namespace Run

/-- **The invariant rule.** -/
theorem invariant {I : σ → Prop} (hstart : I s₀)
    (hkeep : ∀ {s s' : σ} {e : ε}, I s → ok s e → step s e = some s' → I s') {s : σ}
    (h : Run step ok s₀ s) : I s := by
  induction h with
  | start => exact hstart
  | step _ hok hstep ih => exact hkeep ih hok hstep

lemma trans {s₁ s : σ} (h₁ : Run step ok s₀ s₁) (h : Run step ok s₁ s) : Run step ok s₀ s := by
  induction h with
  | start => exact h₁
  | step _ hok hstep ih => exact .step ih hok hstep

/-- A run that is given by its events. -/
lemma of_exec {es : List ε} (hmeets : Meets step ok s₀ es) {s : σ}
    (hexec : exec step s₀ es = some s) : Run step ok s₀ s := by
  induction es generalizing s₀ with
  | nil =>
      obtain rfl : s₀ = s := Option.some.inj hexec
      exact .start
  | cons e es ih =>
      obtain ⟨s₁, hstep, hrest⟩ := Option.bind_eq_some_iff.mp hexec
      obtain ⟨hok, hmeets⟩ := hmeets
      have hfirst : Run step ok s₀ s₁ := .step .start hok hstep
      exact hfirst.trans (ih (hmeets s₁ hstep) hrest)

end Run

/-- Events that meet `ok` in every state. -/
lemma meets_of_always {es : List ε} (h : ∀ e ∈ es, ∀ s, ok s e) (s : σ) : Meets step ok s es := by
  induction es generalizing s with
  | nil => trivial
  | cons e es ih =>
      exact ⟨h e List.mem_cons_self s,
        fun s' _ => ih (fun x hx => h x (List.mem_cons_of_mem e hx)) s'⟩

/-- Where `ok` looks at the event only, so does `Meets`. -/
lemma meets_of_forall {p : ε → Prop} {es : List ε} (h : ∀ e ∈ es, p e) (s : σ) :
    Meets step (fun _ => p) s es :=
  meets_of_always (fun e he _ => h e he) s

/-- Events that meet `ok` one part after the other. -/
lemma meets_append {es es' : List ε} {s s' : σ} (hexec : exec step s es = some s') :
    Meets step ok s (es ++ es') ↔ Meets step ok s es ∧ Meets step ok s' es' := by
  induction es generalizing s with
  | nil =>
      obtain rfl : s = s' := Option.some.inj hexec
      exact ⟨fun h => ⟨trivial, h⟩, fun h => h.2⟩
  | cons e es ih =>
      obtain ⟨s₁, hstep, hrest⟩ := Option.bind_eq_some_iff.mp hexec
      have honly : ∀ {p : σ → Prop}, (∀ s₂ ∈ step s e, p s₂) ↔ p s₁ := by
        intro p
        rw [hstep]
        simp
      rw [List.cons_append, Meets, Meets, honly, honly, ih hrest, and_assoc]

/-! ### Given events -/

lemma exec_append (es es' : List ε) (s : σ) :
    exec step s (es ++ es') = (exec step s es).bind fun s' => exec step s' es' := by
  induction es generalizing s with
  | nil => rfl
  | cons e es ih =>
      rw [List.cons_append, exec, exec, Option.bind_assoc]
      exact congrArg _ (funext ih)

/-- What every step keeps is kept by given events. -/
lemma exec_invariant {I : σ → Prop} (hkeep : ∀ {s s' : σ} {e : ε}, I s → step s e = some s' → I s')
    {es : List ε} {s : σ} (hstart : I s₀) (hexec : exec step s₀ es = some s) : I s := by
  have hmeets : Meets step (fun _ _ => True) s₀ es :=
    meets_of_forall (p := fun _ => True) (fun _ _ => trivial) s₀
  exact (Run.of_exec hmeets hexec).invariant hstart fun hI _ hstep => hkeep hI hstep

/-- Every state that these events lead to satisfies `I`, the first one included. -/
def Throughout (step : σ → ε → Option σ) (I : σ → Prop) : σ → List ε → Prop
  | s, [] => I s
  | s, e :: es => I s ∧ ∀ s' ∈ step s e, Throughout step I s' es

variable {I J : σ → Prop}

lemma Throughout.head {es : List ε} (h : Throughout step I s₀ es) : I s₀ := by
  cases es with
  | nil => exact h
  | cons e es => exact h.1

/-- **Where each event keeps `I` exactly under a condition**, `I` holds throughout
exactly if each event meets it. `J` is what holds in any case. -/
theorem throughout_iff_meets
    (hstep : ∀ {s : σ} {e : ε}, J s → I s → ∃ s', step s e = some s' ∧ J s' ∧ (I s' ↔ ok s e))
    {es : List ε} (hJ : J s₀) (hI : I s₀) : Throughout step I s₀ es ↔ Meets step ok s₀ es := by
  induction es generalizing s₀ with
  | nil => exact iff_of_true hI trivial
  | cons e es ih =>
      obtain ⟨s₁, hs₁, hJ₁, hiff⟩ := hstep (e := e) hJ hI
      constructor
      · rintro ⟨-, hrest⟩
        have hI₁ : I s₁ := (hrest s₁ hs₁).head
        refine ⟨hiff.mp hI₁, fun s' hs' => ?_⟩
        obtain rfl := Option.some.inj (hs₁.symm.trans hs')
        exact (ih hJ₁ hI₁).mp (hrest s₁ hs₁)
      · rintro ⟨hok, hrest⟩
        have hI₁ : I s₁ := hiff.mpr hok
        refine ⟨hI, fun s' hs' => ?_⟩
        obtain rfl := Option.some.inj (hs₁.symm.trans hs')
        exact (ih hJ₁ hI₁).mpr (hrest s₁ hs₁)

/-- **Two conditions that come to the same** where `I` holds, which every event that meets them
keeps. -/
theorem meets_congr {ok' : σ → ε → Prop} (hiff : ∀ {s : σ} {e : ε}, I s → (ok s e ↔ ok' s e))
    (hkeep : ∀ {s s' : σ} {e : ε}, I s → ok s e → step s e = some s' → I s') {es : List ε}
    (hI : I s₀) : Meets step ok s₀ es ↔ Meets step ok' s₀ es := by
  induction es generalizing s₀ with
  | nil => exact Iff.rfl
  | cons e es ih =>
      constructor
      · rintro ⟨hok, hrest⟩
        exact ⟨(hiff hI).mp hok, fun s' hs' => (ih (hkeep hI hok hs')).mp (hrest s' hs')⟩
      · rintro ⟨hok, hrest⟩
        have hok := (hiff hI).mpr hok
        exact ⟨hok, fun s' hs' => (ih (hkeep hI hok hs')).mpr (hrest s' hs')⟩

/-! ### Costs -/

/-- **The potential rule**: where each event costs at most what the potential loses and the
event itself brings in, so do all of them together. -/
theorem potential_le (cost gain : ε → ℕ) {V : σ → ℕ}
    (hstep : ∀ {s s' : σ} {e : ε}, I s → step s e = some s' →
      I s' ∧ V s' + cost e ≤ V s + gain e)
    {es : List ε} {s : σ} (hI : I s₀) (hexec : exec step s₀ es = some s) :
    V s + (es.map cost).sum ≤ V s₀ + (es.map gain).sum := by
  induction es generalizing s₀ with
  | nil =>
      obtain rfl : s₀ = s := Option.some.inj hexec
      exact le_rfl
  | cons e es ih =>
      obtain ⟨s₁, hs₁, hrest⟩ := Option.bind_eq_some_iff.mp hexec
      obtain ⟨hI₁, hle⟩ := hstep hI hs₁
      have hlater := ih hI₁ hrest
      rw [List.map_cons, List.map_cons, List.sum_cons, List.sum_cons]
      omega

/-! ### One of several -/

section

variable {α : Type*}

/-- What is at a place of a list after another has been written. -/
lemma getElem?_set_or {l : List α} {w w' : ℕ} {x x' y : α} (hx : l[w]? = some x)
    (hy : (l.set w x')[w']? = some y) : w' = w ∧ y = x' ∨ w' ≠ w ∧ l[w']? = some y := by
  by_cases hw : w' = w
  · subst hw
    have hlt := (List.getElem?_eq_some_iff.mp hx).1
    rw [List.getElem?_set_self hlt] at hy
    exact .inl ⟨rfl, (Option.some.inj hy).symm⟩
  · rw [List.getElem?_set_ne (Ne.symm hw)] at hy
    exact .inr ⟨hw, hy⟩

/-- A sum over a list of which one element is replaced. -/
lemma sum_map_set {l : List α} {w : ℕ} {x : α} (f : α → ℕ) (hx : l[w]? = some x) (x' : α) :
    ((l.set w x').map f).sum + f x = (l.map f).sum + f x' := by
  induction l generalizing w with
  | nil => simp at hx
  | cons y l ih =>
      cases w with
      | zero =>
          obtain rfl : y = x := by simpa using hx
          simp only [List.set_cons_zero, List.map_cons, List.sum_cons]
          omega
      | succ w =>
          have hrest := ih (by simpa using hx)
          simp only [List.set_cons_succ, List.map_cons, List.sum_cons]
          omega

end
