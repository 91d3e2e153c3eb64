import P2PShare.Client.Round

/-!
A round of a download comes to its end: how often its workers can pop the queue, and how
many steps they can take.

* `Act.pops` and `Act.connects`: the events that are counted.
* `Worker.budget`: how many pops a worker can make before it marks a piece or gives up;
  `WorkerPhase.rank`: how many steps it can take before it pops again. `Paid` says how
  they change in a step.
* `Round.budget`: three pops for each missing piece, and what the workers have left. A
  piece that is marked pays for the failures that the success makes a worker forget.
* `round_ends` (**a round ends**): the bounds for every order of steps and everything that
  the workers can meet.
-/

namespace P2PShare

/-- A look at the queue. -/
def Act.pops : Act → ℕ
  | .pop => 1
  | _ => 0

/-- A peer is reached. -/
def Act.connects : Act → ℕ
  | .connect true => 1
  | _ => 0

/-! ### One worker -/

/-- How often a worker that has not failed may pop until it marks a piece or gives up. What
it has in its hands it has popped already. -/
def WorkerPhase.tries : WorkerPhase → ℕ
  | connecting | ended => 0
  | fetching _ | writing .. | failing _ => 2
  | top | counting | resetting | reading | sending _ => 3

namespace Worker

/-- The pops that a worker can make without marking a piece. -/
def budget (x : Worker) : ℕ := x.phase.tries - x.failures

/-- More than the steps that a worker can take between two pops: a piece has fewer than
`2 ^ 32` bytes, and each `pwrite` writes one of them at least. -/
def stretch : ℕ := 2 ^ 32 + 7

end Worker

/-- The steps that a worker can take until it pops or ends; a worker that connects gets
three pops. -/
def WorkerPhase.rank : WorkerPhase → ℕ
  | connecting => 3 * Worker.stretch + 1
  | top | ended => 0
  | fetching _ => 2 ^ 32 + 6
  | writing _ data put => 5 + (data.length - put)
  | failing _ => 1
  | counting => 4
  | resetting => 3
  | reading => 2
  | sending _ => 1

/-- A worker that goes on has not failed three times in a row. -/
def Worker.Patient (x : Worker) : Prop := x.phase ≠ .ended → x.failures < maxConsecutiveFailures

namespace Round

/-- How many pieces are missing. -/
def lacking (st : PieceStore) : ℕ := (missing st).length

/-- A piece that is marked is missing no longer. -/
lemma lacking_mark (st : PieceStore) {i : ℕ} (hi : i < st.pieceCount) (hhave : st.have' i = false) :
    lacking (st.mark i) + 1 = lacking st := by
  have hmem : i ∈ missing st := by
    rw [missing, List.mem_filter]
    exact ⟨List.mem_range.mpr hi, by simp [hhave]⟩
  have hnodup : (missing st).Nodup := List.nodup_range.filter _
  have herase : missing (st.mark i) = (missing st).erase i := by
    rw [hnodup.erase_eq_filter, missing, missing, List.filter_filter]
    refine List.filter_congr fun j _ => ?_
    rw [have'_mark st hi]
    by_cases hij : i = j
    · simp [hij]
    · simp [hij, Ne.symm hij]
  rw [lacking, lacking, herase, List.length_erase_of_mem hmem]
  have hpos := List.length_pos_of_mem hmem
  omega

end Round

section

open Round

variable {H : Str → Str} {job : DownloadJob} {s s' : Shared} {x x' : Worker} {a : Act}

/-- **What a step costs and who pays for it**: a pop is paid for by the worker's budget,
and a budget that grows by a piece that is marked; every step is paid for by the rank or
by a pop. -/
structure Paid (s : Shared) (x : Worker) (a : Act) (s' : Shared) (x' : Worker) : Prop where
  patient : x'.Patient
  pop : 3 * lacking s'.store + x'.budget + a.pops ≤ 3 * lacking s.store + x.budget + 3 * a.connects
  step : Worker.stretch * (3 * lacking s'.store + x'.budget) + x'.phase.rank + 1 ≤
    Worker.stretch * (3 * lacking s.store + x.budget) + x.phase.rank

/-- A step that is paid for by the rank. -/
lemma Paid.of_rank (hpatient : x'.Patient) (hpops : a.pops = 0)
    (hbudget : 3 * lacking s'.store + x'.budget ≤ 3 * lacking s.store + x.budget)
    (hrank : x'.phase.rank < x.phase.rank) : Paid s x a s' x' := by
  have hstretch := Nat.mul_le_mul_left Worker.stretch hbudget
  exact ⟨hpatient, by omega, by omega⟩

/-- A step that is paid for by the budget. -/
lemma Paid.of_budget (hpatient : x'.Patient) (hpops : a.pops ≤ 1)
    (hbudget : 3 * lacking s'.store + x'.budget + 1 ≤ 3 * lacking s.store + x.budget)
    (hrank : x'.phase.rank < Worker.stretch) : Paid s x a s' x' := by
  have hstretch := Nat.mul_le_mul_left Worker.stretch hbudget
  rw [Nat.mul_succ] at hstretch
  exact ⟨hpatient, by omega, by omega⟩

/-- A step within a turn, or within an announcement. -/
lemma Paid.walk {p : WorkerPhase} (hfew : x.failures < 3) (hpops : a.pops = 0)
    (hlack : lacking s'.store = lacking s.store) (htries : p.tries = x.phase.tries)
    (hrank : p.rank < x.phase.rank) : Paid s x a s' { x with phase := p } := by
  have hbudget : Worker.budget { x with phase := p } = x.budget := by
    rw [Worker.budget, Worker.budget, htries]
  refine .of_rank (fun _ => hfew) hpops ?_ hrank
  rw [hlack, hbudget]

/-- **The step lemma.** -/
lemma Worker.step_paid (hpatient : x.Patient)
    (hhand : ∀ i, x.phase.hand = some i → i < s.store.pieceCount ∧ s.store.have' i = false)
    (h : x.step H job s a = some (s', x')) : Paid s x a s' x' := by
  have hended : x.phase ≠ .ended := by
    intro hphase
    simp [Worker.step, hphase] at h
  have hfew : x.failures < 3 := hpatient hended
  unfold Worker.step at h
  split at h
  · next ok hphase =>
      obtain ⟨rfl, rfl⟩ := Prod.mk.inj (Option.some.inj h)
      -- a worker that has reached its peer may fail three times
      cases ok with
      | true =>
          refine ⟨fun _ => hfew, ?_, ?_⟩
          · simp only [budget, WorkerPhase.tries, hphase, Act.pops, Act.connects, if_true]
            omega
          · simp only [budget, WorkerPhase.tries, WorkerPhase.rank, hphase, stretch, if_true]
            omega
      | false =>
          refine .of_rank (fun hne => absurd rfl hne) rfl ?_ (by simp [WorkerPhase.rank, hphase])
          simp [budget, WorkerPhase.tries, hphase]
  · next hphase =>
      split at h
      · obtain ⟨rfl, rfl⟩ := Prod.mk.inj (Option.some.inj h)
        refine .of_budget (fun hne => absurd rfl hne) le_rfl ?_ (Nat.succ_pos _)
        simp only [budget, WorkerPhase.tries, hphase]
        omega
      · obtain ⟨rfl, rfl⟩ := Prod.mk.inj (Option.some.inj h)
        refine .of_budget (fun _ => hfew) le_rfl ?_ (Nat.lt_succ_self _)
        simp only [budget, WorkerPhase.tries, hphase]
        omega
  · next index reply hphase =>
      split at h
      · obtain ⟨rfl, rfl⟩ := Prod.mk.inj (Option.some.inj h)
        exact .walk hfew rfl rfl (by rw [hphase]; rfl) (by simp [hphase, WorkerPhase.rank])
      · next data hdata =>
          split at h
          · next hok =>
              obtain ⟨rfl, rfl⟩ := Prod.mk.inj (Option.some.inj h)
              -- what is accepted has the length of the piece
              have hlen : data.length < 2 ^ 32 := by
                rw [(of_decide_eq_true hok).2.1]
                exact s.store.pieceLen_lt index
              refine .walk hfew rfl rfl (by rw [hphase]; rfl) ?_
              rw [hphase, WorkerPhase.rank, WorkerPhase.rank]
              omega
          · obtain ⟨rfl, rfl⟩ := Prod.mk.inj (Option.some.inj h)
            exact .walk hfew rfl rfl (by rw [hphase]; rfl) (by simp [hphase, WorkerPhase.rank])
  · next index data put k hphase =>
      split at h
      · cases h
      · next hput =>
          have hfail : WorkerPhase.rank (.failing index) < x.phase.rank := by
            rw [hphase, WorkerPhase.rank, WorkerPhase.rank]
            omega
          split at h
          · obtain ⟨rfl, rfl⟩ := Prod.mk.inj (Option.some.inj h)
            exact .walk hfew rfl rfl (by rw [hphase]; rfl) hfail
          · obtain ⟨rfl, rfl⟩ := Prod.mk.inj (Option.some.inj h)
            exact .walk hfew rfl rfl (by rw [hphase]; rfl) hfail
          · next k =>
              split at h
              · cases h
              · obtain ⟨rfl, rfl⟩ := Prod.mk.inj (Option.some.inj h)
                refine .walk hfew rfl rfl (by rw [hphase]; rfl) ?_
                rw [hphase, WorkerPhase.rank, WorkerPhase.rank]
                omega
  · next index data put hphase =>
      split at h
      · next hput =>
          obtain ⟨rfl, rfl⟩ := Prod.mk.inj (Option.some.inj h)
          obtain ⟨hi, hhave⟩ := hhand index (by rw [hphase]; rfl)
          have hmark := lacking_mark s.store hi hhave
          -- one piece less is missing, which pays for three more pops
          refine .of_rank (fun _ => by decide) rfl ?_ ?_
          · simp only [budget, WorkerPhase.tries, hphase]
            omega
          · simp only [WorkerPhase.rank, hphase]
            omega
      · cases h
  · next index hphase =>
      obtain ⟨rfl, rfl⟩ := Prod.mk.inj (Option.some.inj h)
      -- a failure costs one try of the three
      by_cases hlast : maxConsecutiveFailures ≤ x.failures + 1
      · rw [if_pos hlast]
        refine .of_rank (fun hne => absurd rfl hne) rfl ?_ (by simp [WorkerPhase.rank, hphase])
        simp only [budget, WorkerPhase.tries]
        omega
      · rw [if_neg hlast]
        refine .of_rank (fun _ => not_le.mp hlast) rfl ?_ (by simp [WorkerPhase.rank, hphase])
        simp only [budget, WorkerPhase.tries, hphase]
        omega
  · next late hphase =>
      obtain ⟨rfl, rfl⟩ := Prod.mk.inj (Option.some.inj h)
      by_cases hdue : announceEveryPieces ≤ s.sinceAnnounce + 1 ∨ late = true
      · rw [if_pos hdue]
        exact .walk hfew rfl rfl (by rw [hphase]; rfl) (by simp [hphase, WorkerPhase.rank])
      · rw [if_neg hdue]
        exact .walk hfew rfl rfl (by rw [hphase]; rfl) (by simp [hphase, WorkerPhase.rank])
  · next hphase =>
      obtain ⟨rfl, rfl⟩ := Prod.mk.inj (Option.some.inj h)
      exact .walk hfew rfl rfl (by rw [hphase]; rfl) (by simp [hphase, WorkerPhase.rank])
  · next hphase =>
      obtain ⟨rfl, rfl⟩ := Prod.mk.inj (Option.some.inj h)
      exact .walk hfew rfl rfl (by rw [hphase]; rfl) (by simp [hphase, WorkerPhase.rank])
  · next bits hphase =>
      obtain ⟨rfl, rfl⟩ := Prod.mk.inj (Option.some.inj h)
      exact .walk hfew rfl rfl (by rw [hphase]; rfl) (by simp [hphase, WorkerPhase.rank])
  · cases h

end

/-- Whether a worker has not connected yet. -/
def Worker.waiting (x : Worker) : ℕ := if x.phase = .connecting then 1 else 0

/-- It is only then that it connects. -/
lemma Worker.step_waiting {H : Str → Str} {job : DownloadJob} {s s' : Shared} {x x' : Worker}
    {a : Act} (h : x.step H job s a = some (s', x')) : x'.waiting + a.connects ≤ x.waiting := by
  by_cases hphase : x.phase = .connecting
  · have hwait : x.waiting = 1 := if_pos hphase
    cases a with
    | connect ok =>
        obtain ⟨rfl, rfl⟩ : s = s' ∧ { x with phase := if ok then .top else .ended } = x' := by
          simpa [Worker.step, hphase] using h
        rw [hwait]
        cases ok with
        | true => simp [Worker.waiting, Act.connects]
        | false => simp [Worker.waiting, Act.connects]
    | _ => simp [Worker.step, hphase] at h
  · have hconnects : a.connects = 0 := by
      cases a with
      | connect ok =>
          cases hp : x.phase <;> simp_all [Worker.step]
      | _ => rfl
    have hlater : x'.phase ≠ .connecting := by
      unfold Worker.step at h
      grind
    rw [Worker.waiting, if_neg hlater, hconnects]
    exact Nat.zero_le _

namespace Round

variable {H : Str → Str} {job : DownloadJob} {r r' : Round}

/-- Three pops for each missing piece, and what the workers have left. -/
def budget (r : Round) : ℕ := 3 * lacking r.store + (r.workers.map Worker.budget).sum

/-- The steps that are paid for. -/
def rank (r : Round) : ℕ := Worker.stretch * r.budget + (r.workers.map fun x => x.phase.rank).sum

/-- What holds in every state of a round: an index in a worker's hands is missing, and
the workers that go on are patient. -/
structure Ending (r : Round) : Prop where
  places : r.OnePlace
  patient : ∀ x ∈ r.workers, x.Patient

lemma ending_start (s : Shared) (workers : ℕ) : (start s workers).Ending where
  places := onePlace_start s workers
  patient := by
    intro x hx _
    obtain ⟨-, rfl⟩ := List.mem_replicate.mp hx
    decide

/-- **A step of the round** costs what the step of its worker costs. -/
lemma Ending.step (h : r.Ending) {e : ℕ × Act} (hstep : r.step H job e = some r') :
    r'.Ending ∧ r'.budget + e.2.pops ≤ r.budget + 3 * e.2.connects ∧ r'.rank + 1 ≤ r.rank := by
  have hplaces := h.places.step hstep
  obtain ⟨x, s', x', hx, hworker, rfl⟩ := step_worker hstep
  obtain ⟨hpatient, hbudget, hrank⟩ := Worker.step_paid (h.patient x (List.mem_of_getElem? hx))
    (fun i hi => ⟨(h.places.of_hand hx hi).1, (h.places.of_hand hx hi).2.1⟩) hworker
  have hsum := sum_map_set Worker.budget hx x'
  have hranks := sum_map_set (fun x => x.phase.rank) hx x'
  refine ⟨⟨hplaces, fun y hy => ?_⟩, ?_, ?_⟩
  · rcases List.mem_or_eq_of_mem_set hy with hold | rfl
    · exact h.patient y hold
    · exact hpatient
  · simp only [budget]
    omega
  · simp only [rank, budget]
    rw [Worker.stretch] at hrank ⊢
    omega

/-- How many workers have not connected yet. -/
def waiting (r : Round) : ℕ := (r.workers.map Worker.waiting).sum

/-- A worker connects once. -/
lemma step_waiting {e : ℕ × Act} (hstep : r.step H job e = some r') :
    r'.waiting + e.2.connects ≤ r.waiting := by
  obtain ⟨x, s', x', hx, hworker, rfl⟩ := step_worker hstep
  have hle := Worker.step_waiting hworker
  have hsum := sum_map_set Worker.waiting hx x'
  simp only [waiting]
  omega

/-- **A round ends**: for `n` queued indices and `W` workers that have reached their peers
there are at most `3 * n + 3 * W` pops, in whatever order the workers go on and whatever
they meet, and no run takes more steps than a bound that only depends on `n` and on the
number of workers. -/
theorem round_ends (H : Str → Str) (job : DownloadJob) (s : Shared) (workers : ℕ)
    {es : List (ℕ × Act)} (hexec : exec (step H job) (start s workers) es = some r) :
    let n := (start s workers).queue.length
    (es.map fun e => e.2.pops).sum ≤ 3 * n + 3 * (es.map fun e => e.2.connects).sum ∧
      (es.map fun e => e.2.connects).sum ≤ workers ∧
      es.length ≤ (2 ^ 32 + 7) * (3 * n + 3 * workers) + workers := by
  intro n
  have hbudget₀ : (start s workers).budget = 3 * n := by
    simp [budget, start, lacking, Worker.budget, WorkerPhase.tries, n]
  have hrank₀ : (start s workers).rank = Worker.stretch * (3 * n + 3 * workers) + workers := by
    have hworkers : ((start s workers).workers.map fun x => x.phase.rank).sum =
        workers * (3 * Worker.stretch + 1) := by
      simp [start, WorkerPhase.rank]
    rw [rank, hbudget₀, hworkers]
    ring
  refine ⟨?_, ?_, ?_⟩
  · have hpops := potential_le (fun e : ℕ × Act => e.2.pops) (fun e => 3 * e.2.connects)
      (V := budget) (fun hI hstep => ⟨(hI.step hstep).1, (hI.step hstep).2.1⟩)
      (ending_start s workers) hexec
    rw [hbudget₀, List.sum_map_mul_left] at hpops
    omega
  · have hconnects := potential_le (fun e : ℕ × Act => e.2.connects) (fun _ => 0)
      (V := waiting) (I := fun _ => True) (fun _ hstep => ⟨trivial, step_waiting hstep⟩)
      trivial hexec
    have hwaiting₀ : (start s workers).waiting = workers := by
      simp [waiting, start, Worker.waiting]
    simp only [hwaiting₀, List.map_const', List.sum_replicate, smul_zero] at hconnects
    omega
  · have hsteps := potential_le (fun _ : ℕ × Act => 1) (fun _ => 0) (V := rank)
      (fun hI hstep => ⟨(hI.step hstep).1, (hI.step hstep).2.2⟩) (ending_start s workers) hexec
    simp only [List.map_const', List.sum_replicate, smul_eq_mul, mul_one, mul_zero] at hsteps
    rw [hrank₀, Worker.stretch] at hsteps
    omega

theorem round_ends_twoWorkers :
    (twoWorkers.map fun e => e.2.pops).sum ≤ 3 * 1 + 3 * 2 ∧
      twoWorkers.length ≤ (2 ^ 32 + 7) * (3 * 1 + 3 * 2) + 2 := by
  have hexec : exec (step id oneByte) (start nothing 2) twoWorkers =
      some ((exec (step id oneByte) (start nothing 2) twoWorkers).get (by decide +kernel)) :=
    (Option.some_get (by decide +kernel)).symm
  have hqueue : (start nothing 2).queue.length = 1 := by decide +kernel
  have hconnects : (twoWorkers.map fun e => e.2.connects).sum = 2 := by decide +kernel
  have hends := round_ends id oneByte nothing 2 hexec
  dsimp only at hends
  rw [hqueue, hconnects] at hends
  exact ⟨hends.1, hends.2.2⟩

end Round

end P2PShare
