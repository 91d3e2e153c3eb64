import P2PShare.Lib.Runs

/-!
Threads that share out numbered jobs by a counter that each of them increments atomically.

* `Jobs`: how many jobs there are, where each begins and what one step of it does; it ends with
  a result or makes everybody stop. `Jobs.Yields` are the results a job can have.
* `Pool.step`: a thread looks at the stop flag, takes the next number, works, or writes the
  result of its job into the slot of the job. The counter wraps around at `wrap`.
* `Sound` (**the invariant**): the counter has not wrapped around, the numbers have been taken in
  order, each by one thread, and a job that was taken is in hand or its result is in its slot.
* `steps_le` and `exists_step`: a pool comes to its end in every schedule; `Sound.results`: then
  every job was taken once and has one of its results.
-/

/-! ### Jobs -/

/-- What a step of a job leads to: more work, a result, or the end of everything. -/
inductive Work (τ ρ : Type)
  | more (t : τ)
  | result (r : ρ)
  | abort

/-- Numbered jobs that do not depend on each other. -/
structure Jobs (τ ε ρ : Type) where
  count : ℕ
  start : ℕ → τ
  step : ℕ → τ → ε → Option (Work τ ρ)

namespace Jobs

variable {τ ε ρ : Type} (J : Jobs τ ε ρ)

/-- The job can get here. -/
inductive Within (i : ℕ) : τ → Prop
  | start : Within i (J.start i)
  | step {t t' : τ} {e : ε} (h : Within i t) (hstep : J.step i t e = some (.more t')) : Within i t'

/-- The job can end with this result. -/
def Yields (i : ℕ) (r : ρ) : Prop := ∃ t e, J.Within i t ∧ J.step i t e = some (.result r)

end Jobs

/-! ### The pool -/

/-- Where a thread is: about to look at the stop flag, about to take a number, at work on a job,
or at its end. -/
inductive Duty (τ : Type)
  | ready
  | armed
  | busy (i : ℕ) (t : τ)
  | ended
deriving DecidableEq

/-- Whether the thread has come to its end, as a number. -/
def Duty.gone {τ : Type} : Duty τ → ℕ
  | .ended => 1
  | .ready | .armed | .busy .. => 0

/-- The steps that the thread can take before it takes another number. -/
def Duty.cost {τ : Type} (rank : ℕ → τ → ℕ) : Duty τ → ℕ
  | .ended => 0
  | .armed => 1
  | .ready => 2
  | .busy i t => rank i t + 3

/-- What a thread does next. -/
inductive Deed (ε : Type)
  | look
  | claim
  | work (e : ε)

/-- What the jobs meet satisfies `p`. -/
def Deed.All {ε : Type} (p : ε → Prop) : Deed ε → Prop
  | .work e => p e
  | .look | .claim => True

instance {ε : Type} (p : ε → Prop) [DecidablePred p] : ∀ a : Deed ε, Decidable (a.All p)
  | .work e => inferInstanceAs (Decidable (p e))
  | .look | .claim => .isTrue trivial

/-- The threads with what they share: the counter, the stop flag and the slots for the results;
and for the record which thread has taken which number. -/
structure Pool (τ ρ : Type) where
  next : ℕ
  stop : Bool
  slots : ℕ → Option ρ
  workers : List (Duty τ)
  claims : List (ℕ × ℕ)

namespace Pool

variable {τ ε ρ : Type}

/-- Before the threads have started. -/
def start (workers : ℕ) : Pool τ ρ := ⟨0, false, fun _ => none, List.replicate workers .ready, []⟩

/-- A thread goes on. -/
def move (s : Pool τ ρ) (w : ℕ) (d : Duty τ) : Pool τ ρ := { s with workers := s.workers.set w d }

/-- One step of one thread. -/
def step (J : Jobs τ ε ρ) (wrap : ℕ) (s : Pool τ ρ) (e : ℕ × Deed ε) : Option (Pool τ ρ) :=
  match s.workers[e.1]?, e.2 with
  | some .ready, .look => some (s.move e.1 (if s.stop then .ended else .armed))
  | some .armed, .claim =>
      if s.next < J.count then
        some
          { s.move e.1 (.busy s.next (J.start s.next)) with
            next := (s.next + 1) % wrap
            claims := s.claims ++ [(e.1, s.next)] }
      else some { s.move e.1 .ended with next := (s.next + 1) % wrap }
  | some (.busy i t), .work a =>
      match J.step i t a with
      | none => none
      | some (.more t') => some (s.move e.1 (.busy i t'))
      | some (.result r) =>
          some { s.move e.1 .ready with slots := Function.update s.slots i (some r) }
      | some .abort => some { s.move e.1 .ended with stop := true }
  | _, _ => none

/-- All threads have been joined. -/
def Joined (s : Pool τ ρ) : Prop := ∀ d ∈ s.workers, d = .ended

variable {J : Jobs τ ε ρ} {wrap : ℕ} {s s' : Pool τ ρ}

/-- **What a step does.** -/
inductive Stepped (J : Jobs τ ε ρ) (wrap : ℕ) (s : Pool τ ρ) (w : ℕ) : Deed ε → Pool τ ρ → Prop
  | looked (hw : s.workers[w]? = some .ready) :
      Stepped J wrap s w .look (s.move w (if s.stop then .ended else .armed))
  | claimed (hw : s.workers[w]? = some .armed) (hlt : s.next < J.count) :
      Stepped J wrap s w .claim
        { s.move w (.busy s.next (J.start s.next)) with
          next := (s.next + 1) % wrap
          claims := s.claims ++ [(w, s.next)] }
  | exhausted (hw : s.workers[w]? = some .armed) (hge : J.count ≤ s.next) :
      Stepped J wrap s w .claim { s.move w .ended with next := (s.next + 1) % wrap }
  | worked {i : ℕ} {t t' : τ} {e : ε} (hw : s.workers[w]? = some (.busy i t))
      (hjob : J.step i t e = some (.more t')) : Stepped J wrap s w (.work e) (s.move w (.busy i t'))
  | finished {i : ℕ} {t : τ} {e : ε} {r : ρ} (hw : s.workers[w]? = some (.busy i t))
      (hjob : J.step i t e = some (.result r)) :
      Stepped J wrap s w (.work e)
        { s.move w .ready with slots := Function.update s.slots i (some r) }
  | aborted {i : ℕ} {t : τ} {e : ε} (hw : s.workers[w]? = some (.busy i t))
      (hjob : J.step i t e = some .abort) :
      Stepped J wrap s w (.work e) { s.move w .ended with stop := true }

lemma step_stepped {w : ℕ} {a : Deed ε} (h : s.step J wrap (w, a) = some s') :
    Stepped J wrap s w a s' := by
  unfold step at h
  dsimp only at h
  split at h
  · next hw =>
      obtain rfl := Option.some.inj h
      exact .looked hw
  · next hw =>
      split at h
      · next hlt =>
          obtain rfl := Option.some.inj h
          exact .claimed hw hlt
      · next hge =>
          obtain rfl := Option.some.inj h
          exact .exhausted hw (Nat.le_of_not_lt hge)
  · next i t e hw =>
      split at h
      · cases h
      · next t' hjob =>
          obtain rfl := Option.some.inj h
          exact .worked hw hjob
      · next r hjob =>
          obtain rfl := Option.some.inj h
          exact .finished hw hjob
      · next hjob =>
          obtain rfl := Option.some.inj h
          exact .aborted hw hjob
  · cases h

/-! ### The invariant -/

/-- How many threads have come to their end. -/
def ended (s : Pool τ ρ) : ℕ := (s.workers.map Duty.gone).sum

/-- **The invariant** of a pool of `n` threads. -/
structure Sound (J : Jobs τ ε ρ) (n : ℕ) (s : Pool τ ρ) : Prop where
  length : s.workers.length = n
  counter : s.next ≤ J.count + s.ended
  taken : s.claims.map Prod.snd = List.range (min s.next J.count)
  busy : ∀ (w i : ℕ) (t : τ), s.workers[w]? = some (.busy i t) →
    (w, i) ∈ s.claims ∧ J.Within i t ∧ s.slots i = none
  slots : ∀ i r, s.slots i = some r → i < min s.next J.count ∧ J.Yields i r
  held : s.stop = false → ∀ i < min s.next J.count,
    (s.slots i).isSome ∨ ∃ (w : ℕ) (t : τ), s.workers[w]? = some (.busy i t)
  drained : s.stop = false → ∀ w : ℕ, s.workers[w]? = some .ended → J.count ≤ s.next

lemma ended_le (s : Pool τ ρ) : s.ended ≤ s.workers.length := by
  have hsum := List.sum_le_card_nsmul (s.workers.map Duty.gone) 1 fun x hx => by
    obtain ⟨d, -, rfl⟩ := List.mem_map.mp hx
    cases d <;> simp [Duty.gone]
  rw [List.length_map, smul_eq_mul, mul_one] at hsum
  exact hsum

lemma ended_move {w : ℕ} {d : Duty τ} (hw : s.workers[w]? = some d) (d' : Duty τ) :
    (s.move w d').ended + d.gone = s.ended + d'.gone := sum_map_set Duty.gone hw d'

/-- A thread that is still there has not been counted. -/
lemma ended_lt {w : ℕ} {d : Duty τ} (hw : s.workers[w]? = some d) (hd : d.gone = 0) :
    s.ended < s.workers.length := by
  have hmove := ended_move hw .ended
  have hle := (s.move w .ended).ended_le
  rw [show (s.move w .ended).workers.length = s.workers.length from List.length_set] at hle
  rw [hd, Duty.gone] at hmove
  omega

namespace Sound

variable {n : ℕ}

lemma start (J : Jobs τ ε ρ) (n : ℕ) : (start n : Pool τ ρ).Sound J n where
  length := List.length_replicate
  counter := Nat.zero_le _
  taken := by simp [Pool.start]
  busy w i t hw := by
    obtain ⟨-, hd⟩ := List.mem_replicate.mp (List.mem_of_getElem? hw)
    cases hd
  slots i r hr := by cases hr
  held _ i hi := by simp [Pool.start] at hi
  drained _ w hw := by
    obtain ⟨-, hd⟩ := List.mem_replicate.mp (List.mem_of_getElem? hw)
    cases hd

/-- **A number is taken once.** -/
lemma claim_unique (h : s.Sound J n) {w w' i : ℕ} (hw : (w, i) ∈ s.claims)
    (hw' : (w', i) ∈ s.claims) : w = w' := by
  have hnodup : (s.claims.map Prod.snd).Nodup := by
    rw [h.taken]
    exact List.nodup_range
  have hsame := List.inj_on_of_nodup_map hnodup hw hw' rfl
  exact congrArg Prod.fst hsame

/-- A number that was taken is that of a job. -/
lemma lt_of_claim (h : s.Sound J n) {w i : ℕ} (hw : (w, i) ∈ s.claims) :
    i < min s.next J.count := by
  rw [← List.mem_range, ← h.taken]
  exact List.mem_map_of_mem hw

/-- The counter has not wrapped around. -/
lemma next_mod (h : s.Sound J n) (hwrap : J.count + n < wrap) {w : ℕ}
    (hw : s.workers[w]? = some .armed) : (s.next + 1) % wrap = s.next + 1 := by
  have hcounter := h.counter
  have hlt := ended_lt hw rfl
  rw [h.length] at hlt
  exact Nat.mod_eq_of_lt (by omega)

variable {w : ℕ} {d d' : Duty τ}

/-- The counter is ahead of the jobs by no more than the threads that have ended. -/
lemma counter_move (h : s.Sound J n) (hw : s.workers[w]? = some d) (hd : d.gone = 0)
    (d' : Duty τ) : s.next + d'.gone ≤ J.count + (s.move w d').ended := by
  have hcounter := h.counter
  have hended := ended_move hw d'
  omega

/-- What is in hand after a thread has moved on to something else than a job. -/
lemma busy_move (h : s.Sound J n) (hw : s.workers[w]? = some d) (hd' : ∀ i t, d' ≠ .busy i t)
    {w' i : ℕ} {t : τ} (hbusy : (s.move w d').workers[w']? = some (.busy i t)) :
    w' ≠ w ∧ (w', i) ∈ s.claims ∧ J.Within i t ∧ s.slots i = none := by
  rcases getElem?_set_or hw hbusy with ⟨-, heq⟩ | ⟨hne, hold⟩
  · exact absurd heq.symm (hd' i t)
  · exact ⟨hne, h.busy w' i t hold⟩

/-- What the threads have in hand after a thread that did not work on it has moved. -/
lemma held_move (h : s.Sound J n) (hw : s.workers[w]? = some d) {i : ℕ}
    (hd : ∀ t, d ≠ .busy i t) (hstop : s.stop = false) (hi : i < min s.next J.count) :
    (s.slots i).isSome ∨ ∃ (w' : ℕ) (t : τ), (s.move w d').workers[w']? = some (.busy i t) := by
  rcases h.held hstop i hi with hslot | ⟨w', t, hbusy⟩
  · exact .inl hslot
  · refine .inr ⟨w', t, ?_⟩
    have hne : w ≠ w' := by
      rintro rfl
      exact hd t (Option.some.inj (hw.symm.trans hbusy))
    rw [move, List.getElem?_set_ne hne]
    exact hbusy

/-- Who has ended after a thread has moved on had ended before. -/
lemma drained_move (h : s.Sound J n) (hw : s.workers[w]? = some d) (hd' : d' ≠ .ended)
    (hstop : s.stop = false) {w' : ℕ} (hended : (s.move w d').workers[w']? = some .ended) :
    J.count ≤ s.next := by
  rcases getElem?_set_or hw hended with ⟨-, heq⟩ | ⟨-, hold⟩
  · exact absurd heq.symm hd'
  · exact h.drained hstop w' hold

lemma length_move (h : s.Sound J n) (w : ℕ) (d : Duty τ) : (s.move w d).workers.length = n :=
  List.length_set.trans h.length

/-- The stop flag is looked at. -/
lemma looked (h : s.Sound J n) (hw : s.workers[w]? = some .ready) :
    (s.move w (if s.stop then .ended else .armed)).Sound J n where
  length := h.length_move w _
  counter := (Nat.le_add_right _ _).trans (h.counter_move hw rfl _)
  taken := h.taken
  busy w' i t hb := by
    have hnew : ∀ i t, (if s.stop then Duty.ended else Duty.armed : Duty τ) ≠ .busy i t := by
      intro i t
      split <;> rintro ⟨⟩
    exact (h.busy_move hw hnew hb).2
  slots := h.slots
  held hstop i hi := h.held_move hw (by rintro t ⟨⟩) hstop hi
  drained hstop w' hw' := by
    have hno : s.stop = false := hstop
    have harmed : (s.move w .armed).workers[w']? = some .ended := by simpa [hno] using hw'
    have hnext : J.count ≤ s.next := h.drained_move hw (by rintro ⟨⟩) hno harmed
    exact hnext

/-- A number is taken: it is in hand. -/
lemma claimed (h : s.Sound J n) (hwrap : J.count + n < wrap) (hw : s.workers[w]? = some .armed)
    (hlt : s.next < J.count) :
    Sound J n
      { s.move w (.busy s.next (J.start s.next)) with
        next := (s.next + 1) % wrap
        claims := s.claims ++ [(w, s.next)] } := by
  have hmin : min s.next J.count = s.next := Nat.min_eq_left hlt.le
  have hmin' : min (s.next + 1) J.count = s.next + 1 := Nat.min_eq_left hlt
  have hfree : s.slots s.next = none := by
    by_contra hsome
    obtain ⟨r, hr⟩ := Option.ne_none_iff_exists'.mp hsome
    exact absurd (h.slots _ r hr).1 (by omega)
  rw [h.next_mod hwrap hw]
  refine ⟨h.length_move w _, Nat.le_add_right_of_le hlt, ?_, fun w' i t hb => ?_, fun i r hr => ?_,
    fun hstop i hi => ?_, fun hstop w' hw' => ?_⟩
  · show (s.claims ++ [(w, s.next)]).map Prod.snd = List.range (min (s.next + 1) J.count)
    rw [List.map_append, h.taken, hmin, hmin', List.range_succ]
    rfl
  · rcases getElem?_set_or hw hb with ⟨rfl, heq⟩ | ⟨-, hold⟩
    · obtain ⟨rfl, rfl⟩ := Duty.busy.inj heq
      exact ⟨List.mem_append_right _ (List.mem_singleton_self _), .start, hfree⟩
    · obtain ⟨hclaim, hrest⟩ := h.busy w' i t hold
      exact ⟨List.mem_append_left _ hclaim, hrest⟩
  · obtain ⟨hi, hyields⟩ := h.slots i r hr
    refine ⟨?_, hyields⟩
    show i < min (s.next + 1) J.count
    omega
  · have hi' : i < min (s.next + 1) J.count := hi
    by_cases hnew : i = s.next
    · subst hnew
      exact .inr ⟨w, _, List.getElem?_set_self (List.getElem?_eq_some_iff.mp hw).1⟩
    · exact h.held_move hw (by rintro t ⟨⟩) hstop (by omega)
  · exact absurd (h.drained_move hw (by rintro ⟨⟩) hstop hw') (by omega)

/-- There is no number left. -/
lemma exhausted (h : s.Sound J n) (hwrap : J.count + n < wrap)
    (hw : s.workers[w]? = some .armed) (hge : J.count ≤ s.next) :
    Sound J n { s.move w .ended with next := (s.next + 1) % wrap } := by
  have hmin : min (s.next + 1) J.count = min s.next J.count := by omega
  rw [h.next_mod hwrap hw]
  refine ⟨h.length_move w _, h.counter_move hw rfl .ended, ?_,
    fun w' i t hb => (h.busy_move hw (by rintro i t ⟨⟩) hb).2, fun i r hr => ?_,
    fun hstop i hi => ?_, fun _ _ _ => Nat.le_succ_of_le hge⟩
  · show s.claims.map Prod.snd = List.range (min (s.next + 1) J.count)
    rw [hmin, h.taken]
  · show i < min (s.next + 1) J.count ∧ _
    rw [hmin]
    exact h.slots i r hr
  · have hi' : i < min (s.next + 1) J.count := hi
    exact h.held_move hw (by rintro t ⟨⟩) hstop (by omega)

/-- A job goes on. -/
lemma worked (h : s.Sound J n) {i : ℕ} {t t' : τ} {e : ε} (hw : s.workers[w]? = some (.busy i t))
    (hjob : J.step i t e = some (.more t')) : (s.move w (.busy i t')).Sound J n := by
  obtain ⟨hclaim, hwithin, hfree⟩ := h.busy w i t hw
  refine ⟨h.length_move w _, h.counter_move hw rfl (.busy i t'), h.taken,
    fun w' i' t'' hb => ?_, h.slots,
    fun hstop i' hi' => ?_, fun hstop w' hw' => h.drained_move hw (by rintro ⟨⟩) hstop hw'⟩
  · rcases getElem?_set_or hw hb with ⟨rfl, heq⟩ | ⟨-, hold⟩
    · obtain ⟨rfl, rfl⟩ := Duty.busy.inj heq
      exact ⟨hclaim, hwithin.step hjob, hfree⟩
    · exact h.busy w' i' t'' hold
  · by_cases hi : i' = i
    · subst hi
      exact .inr ⟨w, t', List.getElem?_set_self (List.getElem?_eq_some_iff.mp hw).1⟩
    · exact h.held_move hw (fun t'' heq => hi (Duty.busy.inj heq).1.symm) hstop hi'

/-- The result of a job is in its slot, and the job in nobody's hand. -/
lemma finished (h : s.Sound J n) {i : ℕ} {t : τ} {e : ε} {r : ρ}
    (hw : s.workers[w]? = some (.busy i t)) (hjob : J.step i t e = some (.result r)) :
    Sound J n { s.move w .ready with slots := Function.update s.slots i (some r) } := by
  obtain ⟨hclaim, hwithin, -⟩ := h.busy w i t hw
  have hlt := h.lt_of_claim hclaim
  refine ⟨h.length_move w _, h.counter_move hw rfl .ready, h.taken, fun w' i' t' hb => ?_,
    fun i' r' hr' => ?_, fun hstop i' hi' => ?_,
    fun hstop w' hw' => h.drained_move hw (by rintro ⟨⟩) hstop hw'⟩
  · obtain ⟨hne, hclaim', hwithin', hfree'⟩ := h.busy_move hw (by rintro i t ⟨⟩) hb
    have hi' : i' ≠ i := by
      rintro rfl
      exact hne (h.claim_unique hclaim' hclaim)
    exact ⟨hclaim', hwithin', (Function.update_of_ne hi' _ _).trans hfree'⟩
  · have hr : Function.update s.slots i (some r) i' = some r' := hr'
    by_cases hi' : i' = i
    · subst hi'
      obtain rfl : r = r' := by simpa using hr
      exact ⟨hlt, t, _, hwithin, hjob⟩
    · rw [Function.update_of_ne hi'] at hr
      exact h.slots i' r' hr
  · show (Function.update s.slots i (some r) i').isSome ∨ _
    by_cases hi : i' = i
    · subst hi
      exact .inl (by simp)
    · rw [Function.update_of_ne hi]
      exact h.held_move hw (fun t' heq => hi (Duty.busy.inj heq).1.symm) hstop hi'

/-- Everybody is to stop: nothing is asked of the jobs any more. -/
lemma aborted (h : s.Sound J n) {i : ℕ} {t : τ} (hw : s.workers[w]? = some (.busy i t)) :
    Sound J n { s.move w .ended with stop := true } where
  length := h.length_move w _
  counter := (Nat.le_add_right _ _).trans (h.counter_move hw rfl _)
  taken := h.taken
  busy _ _ _ hb := (h.busy_move hw (by rintro i t ⟨⟩) hb).2
  slots := h.slots
  held := nofun
  drained := nofun

/-- **The step lemma.** -/
theorem step (h : s.Sound J n) (hwrap : J.count + n < wrap) {e : ℕ × Deed ε}
    (hstep : s.step J wrap e = some s') : s'.Sound J n := by
  obtain ⟨w, a⟩ := e
  cases step_stepped hstep with
  | looked hw => exact h.looked hw
  | claimed hw hlt => exact h.claimed hwrap hw hlt
  | exhausted hw hge => exact h.exhausted hwrap hw hge
  | worked hw hjob => exact h.worked hw hjob
  | finished hw hjob => exact h.finished hw hjob
  | aborted hw _ => exact h.aborted hw

/-- **What a pool comes to**: every number has been taken once, in order, and every job has
one of its results. -/
theorem results (h : s.Sound J n) (hn : 0 < n) (hjoined : s.Joined) (hstop : s.stop = false) :
    s.claims.map Prod.snd = List.range J.count ∧ (∀ i < J.count, ∃! w, (w, i) ∈ s.claims) ∧
      ∀ i < J.count, ∃ r, s.slots i = some r ∧ J.Yields i r := by
  have hlt : 0 < s.workers.length := by
    rw [h.length]
    exact hn
  have hfirst : s.workers[0]? = some .ended := by
    rw [List.getElem?_eq_getElem hlt, hjoined _ (List.getElem_mem hlt)]
  have hmin : min s.next J.count = J.count := Nat.min_eq_right (h.drained hstop 0 hfirst)
  refine ⟨hmin ▸ h.taken, fun i hi => ?_, fun i hi => ?_⟩
  · have hmem : i ∈ s.claims.map Prod.snd := by
      rw [h.taken, hmin]
      exact List.mem_range.mpr hi
    obtain ⟨⟨w, j⟩, hw, rfl⟩ := List.mem_map.mp hmem
    exact ⟨w, hw, fun w' hw' => h.claim_unique hw' hw⟩
  rcases h.held hstop i (by omega) with hslot | ⟨w, t, hbusy⟩
  · obtain ⟨r, hr⟩ := Option.isSome_iff_exists.mp hslot
    exact ⟨r, hr, (h.slots i r hr).2⟩
  · cases hjoined _ (List.mem_of_getElem? hbusy)

/-- **No thread waits for another**: where a job can always go on, so can the pool. -/
theorem exists_step (h : s.Sound J n) {p : ε → Prop}
    (hgo : ∀ i t, i < J.count → J.Within i t → ∃ e, p e ∧ (J.step i t e).isSome)
    (hnot : ¬ s.Joined) :
    ∃ e : ℕ × Deed ε, e.2.All p ∧ (s.step J wrap e).isSome := by
  have hlive : ∃ d ∈ s.workers, d ≠ .ended := by
    by_contra hno
    push Not at hno
    exact hnot hno
  obtain ⟨d, hd, hne⟩ := hlive
  obtain ⟨w, hw⟩ := List.mem_iff_getElem?.mp hd
  cases d with
  | ended => exact absurd rfl hne
  | ready => exact ⟨(w, .look), trivial, by simp [Pool.step, hw]⟩
  | armed =>
      by_cases hlt : s.next < J.count
      · exact ⟨(w, .claim), trivial, by simp [Pool.step, hw, hlt]⟩
      · exact ⟨(w, .claim), trivial, by simp [Pool.step, hw, hlt]⟩
  | busy i t =>
      obtain ⟨hclaim, hwithin, -⟩ := h.busy w i t hw
      have hi := h.lt_of_claim hclaim
      obtain ⟨e, hp, hsome⟩ := hgo i t (by omega) hwithin
      obtain ⟨x, hx⟩ := Option.isSome_iff_exists.mp hsome
      cases x with
      | more t' => exact ⟨(w, .work e), hp, by simp [Pool.step, hw, hx]⟩
      | result r => exact ⟨(w, .work e), hp, by simp [Pool.step, hw, hx]⟩
      | abort => exact ⟨(w, .work e), hp, by simp [Pool.step, hw, hx]⟩

end Sound

variable {n : ℕ}

/-- **The run lemma.** -/
theorem sound_run {ok : Pool τ ρ → ℕ × Deed ε → Prop} (hwrap : J.count + n < wrap)
    (hrun : Run (step J wrap) ok (start n) s) : s.Sound J n :=
  hrun.invariant (.start J n) fun h _ hstep => h.step hwrap hstep

/-- Where no job is given up, the stop flag stays down. -/
lemma stop_run {p : ε → Prop} (hp : ∀ i t e, p e → J.step i t e ≠ some .abort)
    (hrun : Run (step J wrap) (fun _ e => e.2.All p) (start n) s) : s.stop = false := by
  refine hrun.invariant (I := fun s => s.stop = false) rfl fun {s s' e} hI hok hstep => ?_
  obtain ⟨w, a⟩ := e
  cases step_stepped hstep with
  | looked | claimed | exhausted | worked | finished => exact hI
  | aborted hw hjob => exact absurd hjob (hp _ _ _ hok)

/-! ### The end of a pool -/

/-- The steps that a pool can take. -/
def budget (J : Jobs τ ε ρ) (rank : ℕ → τ → ℕ) (b : ℕ) (s : Pool τ ρ) : ℕ :=
  (J.count - s.next) * (b + 3) + (s.workers.map (Duty.cost rank)).sum

/-- The costs of the threads after one of them has moved. -/
lemma sum_cost_move (rank : ℕ → τ → ℕ) {w : ℕ} {d : Duty τ} (hw : s.workers[w]? = some d)
    (d' : Duty τ) :
    ((s.move w d').workers.map (Duty.cost rank)).sum + d.cost rank =
      (s.workers.map (Duty.cost rank)).sum + d'.cost rank :=
  sum_map_set _ hw d'

/-- A thread that has less before it than it had brings the pool closer to its end. -/
lemma budget_move {rank : ℕ → τ → ℕ} {b w : ℕ} {d d' : Duty τ} (hw : s.workers[w]? = some d)
    (hcost : d'.cost rank < d.cost rank) :
    budget J rank b (s.move w d') + 1 ≤ budget J rank b s := by
  have hsum := sum_cost_move rank hw d'
  show (J.count - s.next) * (b + 3) + ((s.move w d').workers.map (Duty.cost rank)).sum + 1 ≤
    (J.count - s.next) * (b + 3) + _
  omega

/-- **Every step uses something up.** -/
lemma budget_step {rank : ℕ → τ → ℕ} {b : ℕ} (hstart : ∀ i < J.count, rank i (J.start i) ≤ b)
    (hrank : ∀ i t e t', J.step i t e = some (.more t') → rank i t' < rank i t)
    (h : s.Sound J n) (hwrap : J.count + n < wrap) {e : ℕ × Deed ε}
    (hstep : s.step J wrap e = some s') : budget J rank b s' + 1 ≤ budget J rank b s := by
  obtain ⟨w, a⟩ := e
  cases step_stepped hstep with
  | looked hw =>
      refine budget_move hw ?_
      split <;> simp [Duty.cost]
  | claimed hw hlt =>
      -- the job comes out of those that are left
      have hsum := sum_cost_move rank hw (.busy s.next (J.start s.next))
      have hle := hstart s.next hlt
      have hsplit : (J.count - s.next) * (b + 3) =
          (J.count - (s.next + 1)) * (b + 3) + (b + 3) := by
        rw [← Nat.succ_mul]
        congr 1
        omega
      rw [Duty.cost, Duty.cost] at hsum
      rw [budget, budget, hsplit, h.next_mod hwrap hw]
      show (J.count - (s.next + 1)) * (b + 3) +
        ((s.move w (.busy s.next (J.start s.next))).workers.map (Duty.cost rank)).sum + 1 ≤ _
      omega
  | exhausted hw hge =>
      have hmove : budget J rank b (s.move w .ended) + 1 ≤ budget J rank b s :=
        budget_move hw Nat.zero_lt_one
      have hleft : J.count - (s.next + 1) ≤ J.count - s.next := by omega
      rw [h.next_mod hwrap hw]
      refine (Nat.succ_le_succ (Nat.add_le_add_right ?_ _)).trans hmove
      exact Nat.mul_le_mul_right _ hleft
  | @worked i t t' e hw hjob => exact budget_move hw (Nat.add_lt_add_right (hrank i t e t' hjob) 3)
  | finished hw hjob =>
      have hmove : budget J rank b (s.move w .ready) + 1 ≤ budget J rank b s := by
        refine budget_move hw ?_
        rw [Duty.cost, Duty.cost]
        omega
      exact hmove
  | aborted hw hjob =>
      have hmove : budget J rank b (s.move w .ended) + 1 ≤ budget J rank b s :=
        budget_move hw (Nat.succ_pos _)
      exact hmove

/-- **A pool comes to its end**: how many steps it can take in any schedule. -/
theorem steps_le (rank : ℕ → τ → ℕ) (b : ℕ) (hstart : ∀ i < J.count, rank i (J.start i) ≤ b)
    (hrank : ∀ i t e t', J.step i t e = some (.more t') → rank i t' < rank i t)
    (hwrap : J.count + n < wrap) {es : List (ℕ × Deed ε)}
    (hexec : exec (step J wrap) (start n) es = some s) :
    es.length ≤ J.count * (b + 3) + 2 * n := by
  have hle := potential_le (I := fun s => s.Sound J n) (V := budget J rank b) (fun _ => 1)
    (fun _ => 0) (fun hI hstep => ⟨hI.step hwrap hstep, budget_step hstart hrank hI hwrap hstep⟩)
    (.start J n) hexec
  have hbudget : budget J rank b (start n : Pool τ ρ) = J.count * (b + 3) + 2 * n := by
    simp [budget, start, Duty.cost, Nat.mul_comm n 2]
  rw [hbudget] at hle
  simp only [List.map_const', List.sum_replicate, smul_eq_mul, mul_one, mul_zero] at hle
  omega

end Pool
