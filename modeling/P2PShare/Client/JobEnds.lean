import P2PShare.Client.Leftover

/-!
A download job comes to its end.

* `JobEvent.pops`, `JobEvent.connects`, `JobEvent.threads`: the events that are counted.
* `Stage.rank`: the steps of `run_job` itself that are left, round by round.
* `Download.rank`: those and the steps of the workers. What the workers of a round may still pop
  is paid for by the pieces that are missing, so rounds do not add to it.
* `exists_step` (**progress**): a job that has not ended can go on.
* `job_ends`: five rounds at most, and no run takes more steps than a bound that only depends on
  the pieces that are missing and the threads that are created.
-/

namespace P2PShare

namespace JobEvent

/-- A look at the queue. -/
def pops : JobEvent → ℕ
  | worker _ a => a.pops
  | _ => 0

/-- A worker reaches its peer. -/
def connects : JobEvent → ℕ
  | worker _ a => a.connects
  | _ => 0

/-- A round begins. -/
def begins : JobEvent → ℕ
  | begin _ => 1
  | _ => 0

/-- The threads that are created. -/
def threads : JobEvent → ℕ
  | begin peers => peers * connsPerPeer peers
  | _ => 0

end JobEvent

/-- What is left of `run_job` after so many rounds: five steps for each round, and three behind
the loop. -/
def Stage.rank (rounds : ℕ) : Stage → ℕ
  | between => 5 * (maxRounds - rounds) + 3
  | running => 5 * (maxRounds - rounds) + 2
  | resetting => 5 * (maxRounds - rounds) + 1
  | reading => 5 * (maxRounds - rounds)
  | sending _ => 5 * (maxRounds - rounds) - 1
  | sharing => 2
  | shared => 1
  | done | failed => 0

/-- How many rounds can still begin. -/
def Stage.roundsLeft (rounds : ℕ) : Stage → ℕ
  | between => maxRounds - rounds
  | running | resetting | reading | sending _ => maxRounds - rounds - 1
  | sharing | shared | done | failed => 0

namespace Round

lemma budget_start (s : Shared) (workers : ℕ) :
    (start s workers).budget = 3 * lacking s.store := by
  simp [budget, start, Worker.budget, WorkerPhase.tries]

lemma rank_start (s : Shared) (workers : ℕ) : (start s workers).rank =
    Worker.stretch * (3 * lacking s.store) + (3 * Worker.stretch + 1) * workers := by
  have hworkers : ((start s workers).workers.map fun x => x.phase.rank).sum =
      workers * (3 * Worker.stretch + 1) := by
    simp [start, WorkerPhase.rank]
  rw [rank, budget_start, hworkers]
  ring

/-- What is missing is within the budget, and that within the steps. -/
lemma lacking_le_budget (r : Round) : 3 * lacking r.store ≤ r.budget := Nat.le_add_right _ _

lemma stretch_lacking_le (r : Round) : Worker.stretch * (3 * lacking r.store) ≤ r.rank :=
  (Nat.mul_le_mul_left _ r.lacking_le_budget).trans (Nat.le_add_right _ _)

end Round

namespace Download

open Round

variable {H : Str → Str} {job : DownloadJob} {d d' : Download}

/-- The steps that are paid for. -/
def rank (d : Download) : ℕ := d.toRound.rank + d.stage.rank d.rounds

/-- What a step costs. -/
structure Costs (d : Download) (e : JobEvent) (d' : Download) : Prop where
  begins : d'.stage.roundsLeft d'.rounds + e.begins ≤ d.stage.roundsLeft d.rounds
  pops : d'.budget + e.pops ≤ d.budget + 3 * e.connects
  step : d'.rank + 1 ≤ d.rank + (3 * Worker.stretch + 1) * e.threads

/-- A step of `run_job` itself. -/
lemma Costs.walk {e : JobEvent} (hround : d'.toRound.budget = d.toRound.budget)
    (hrank : d'.toRound.rank = d.toRound.rank) (hpops : e.pops = 0)
    (hleft : d'.stage.roundsLeft d'.rounds + e.begins ≤ d.stage.roundsLeft d.rounds)
    (hstage : d'.stage.rank d'.rounds < d.stage.rank d.rounds) : d.Costs e d' := by
  refine ⟨hleft, by omega, ?_⟩
  rw [rank, rank, hrank]
  omega

/-- **The step lemma.** -/
lemma Counted.step_costs (h : d.Counted) {e : JobEvent} (hstep : d.step H job e = some d') :
    d.Costs e d' := by
  unfold Download.step at hstep
  split at hstep
  · next w a hstage =>
      obtain ⟨r, hr, rfl⟩ := Option.map_eq_some_iff.mp hstep
      -- a step of a worker pays out of the budget of the round
      obtain ⟨-, hbudget, hrank⟩ := (h.ending hstage).step hr
      refine ⟨le_rfl, hbudget, ?_⟩
      simp only [rank, JobEvent.threads]
      omega
  · next peers hstage =>
      split at hstep
      · next hloop =>
          have hfew := hloop.1
          split at hstep
          · split at hstep
            · cases hstep
            · obtain rfl := Option.some.inj hstep
              refine .walk rfl rfl rfl ?_ ?_
              · simp only [hstage, Stage.roundsLeft, JobEvent.begins]
                omega
              · simp only [hstage, Stage.rank]
                omega
          · obtain rfl := Option.some.inj hstep
            -- the pops of the new workers are paid for by what is missing
            have hlack := d.lacking_le_budget
            have hstretch := d.stretch_lacking_le
            refine ⟨?_, ?_, ?_⟩
            · simp only [hstage, Stage.roundsLeft, JobEvent.begins]
              omega
            · simp only [budget_start, JobEvent.pops]
              omega
            · simp only [rank, rank_start, hstage, Stage.rank, JobEvent.threads]
              omega
      · cases hstep
  · next hstage =>
      split at hstep
      · obtain rfl := Option.some.inj hstep
        exact .walk rfl rfl rfl (by simp [hstage, Stage.roundsLeft, JobEvent.begins])
          (by simp [hstage, Stage.rank])
      · cases hstep
  · next hstage =>
      obtain rfl := Option.some.inj hstep
      exact .walk rfl rfl rfl (by simp [hstage, Stage.roundsLeft, JobEvent.begins])
        (by simp [hstage, Stage.rank])
  · next hstage =>
      have hfew := h.inRound (by rw [hstage]; trivial)
      obtain rfl := Option.some.inj hstep
      refine .walk rfl rfl rfl (by simp [hstage, Stage.roundsLeft, JobEvent.begins]) ?_
      simp only [hstage, Stage.rank]
      omega
  · next bits hstage =>
      have hfew := h.inRound (by rw [hstage]; trivial)
      obtain rfl := Option.some.inj hstep
      refine .walk rfl rfl rfl ?_ ?_
      · simp only [hstage, Stage.roundsLeft, JobEvent.begins]
        omega
      · simp only [hstage, Stage.rank]
        omega
  · next hstage =>
      split at hstep
      · cases hstep
      · obtain rfl := Option.some.inj hstep
        -- whole or not, the job does not come back to a round
        cases hcomplete : d.store.complete with
        | true =>
            exact .walk rfl rfl rfl (by simp [Stage.roundsLeft, JobEvent.begins])
              (by simp [hstage, Stage.rank])
        | false =>
            exact .walk rfl rfl rfl (by simp [Stage.roundsLeft, JobEvent.begins])
              (by simp [hstage, Stage.rank])
  · next hstage =>
      obtain rfl := Option.some.inj hstep
      exact .walk rfl rfl rfl (by simp [hstage, Stage.roundsLeft, JobEvent.begins])
        (by simp [hstage, Stage.rank])
  · next hstage =>
      obtain rfl := Option.some.inj hstep
      exact .walk rfl rfl rfl (by simp [hstage, Stage.roundsLeft, JobEvent.begins])
        (by simp [hstage, Stage.rank])
  · cases hstep

/-! ### Progress -/

/-- A worker that has not ended can go on. -/
lemma exists_worker_step (H : Str → Str) (job : DownloadJob) (s : Shared) {x : Worker}
    (hphase : x.phase ≠ .ended) : ∃ a, (x.step H job s a).isSome := by
  obtain ⟨p, n⟩ := x
  cases p with
  | connecting => exact ⟨.connect false, rfl⟩
  | top =>
      refine ⟨.pop, ?_⟩
      cases hlast : s.queue.getLast? with
      | none => simp [Worker.step, hlast]
      | some i => simp [Worker.step, hlast]
  | fetching i => exact ⟨.fetch none, rfl⟩
  | writing i data put =>
      by_cases hput : data.length ≤ put
      · exact ⟨.mark, by simp [Worker.step, hput]⟩
      · exact ⟨.pwrite none, by simp [Worker.step, hput]⟩
  | failing i => exact ⟨.giveBack, rfl⟩
  | counting => exact ⟨.count false, rfl⟩
  | resetting => exact ⟨.reset, rfl⟩
  | reading => exact ⟨.read, rfl⟩
  | sending bits => exact ⟨.send true, rfl⟩
  | ended => exact absurd rfl hphase

/-- **Progress**: a job that has not ended can go on. -/
lemma exists_step (H : Str → Str) (job : DownloadJob) (d : Download) (hdone : d.stage ≠ .done)
    (hfailed : d.stage ≠ .failed) : ∃ e, (d.step H job e).isSome := by
  cases hstage : d.stage with
  | between =>
      by_cases hloop : d.rounds < maxRounds ∧ d.store.complete = false
      · exact ⟨.begin 1, by simp [Download.step, hstage, hloop]⟩
      · exact ⟨.finish, by simp only [Download.step, hstage, if_neg hloop, Option.isSome_some]⟩
  | running =>
      by_cases hended : ∀ x ∈ d.workers, x.phase = .ended
      · exact ⟨.join, by simp only [Download.step, hstage, if_pos hended, Option.isSome_some]⟩
      · simp only [not_forall] at hended
        obtain ⟨x, hx, hphase⟩ := hended
        obtain ⟨w, hw, rfl⟩ := List.getElem_of_mem hx
        obtain ⟨a, hworker⟩ := exists_worker_step H job d.toShared hphase
        obtain ⟨⟨s', x'⟩, hworker⟩ := Option.isSome_iff_exists.mp hworker
        exact ⟨.worker w a, by
          simp [Download.step, hstage, Round.step, List.getElem?_eq_getElem hw, hworker]⟩
  | resetting => exact ⟨.reset, by simp [Download.step, hstage]⟩
  | reading => exact ⟨.read, by simp [Download.step, hstage]⟩
  | sending bits => exact ⟨.send true, by simp [Download.step, hstage]⟩
  | sharing => exact ⟨.addShare, by simp [Download.step, hstage]⟩
  | shared => exact ⟨.setDone, by simp [Download.step, hstage]⟩
  | done => exact absurd hstage hdone
  | failed => exact absurd hstage hfailed

/-- **A job ends**: it begins five rounds at most; over all of them its workers pop the queue three
times for each piece that is missing at the start and for each worker that reaches its peer; no run
takes more steps than a bound that only depends on the missing pieces and on the threads; and as
long as the job is neither done nor failed it can go on. -/
theorem job_ends (H : Str → Str) (job : DownloadJob) (st : PieceStore) {es : List JobEvent}
    (hexec : exec (step H job) (start st) es = some d) :
    let n := (missing st).length
    (es.map JobEvent.begins).sum ≤ maxRounds ∧
      (es.map JobEvent.pops).sum ≤ 3 * n + 3 * (es.map JobEvent.connects).sum ∧
      es.length ≤ (2 ^ 32 + 7) * (3 * n + 3 * (es.map JobEvent.threads).sum) +
        (es.map JobEvent.threads).sum + 28 ∧
      (d.stage ≠ .done → d.stage ≠ .failed → ∃ e, (d.step H job e).isSome) := by
  intro n
  have hcosts : ∀ {d d' : Download} {e : JobEvent}, d.Counted → d.step H job e = some d' →
      d'.Counted ∧ d.Costs e d' := fun hI hstep => ⟨(hI.step hstep).1, hI.step_costs hstep⟩
  have hbudget₀ : (start st).budget = 3 * n := by
    simp [budget, start, lacking, n]
  have hrank₀ : (start st).rank = Worker.stretch * (3 * n) + 28 := by
    simp [rank, Round.rank, budget, start, lacking, Stage.rank, maxRounds, n]
  refine ⟨?_, ?_, ?_, exists_step H job d⟩
  · have hbegins := potential_le JobEvent.begins (fun _ => 0)
      (V := fun d : Download => d.stage.roundsLeft d.rounds)
      (fun hI hstep => ⟨(hcosts hI hstep).1, (hcosts hI hstep).2.begins⟩) (counted_start st) hexec
    simp only [List.map_const', List.sum_replicate, smul_zero, start, Stage.roundsLeft] at hbegins
    omega
  · have hpops := potential_le JobEvent.pops (fun e => 3 * e.connects)
      (V := fun d : Download => d.budget)
      (fun hI hstep => ⟨(hcosts hI hstep).1, (hcosts hI hstep).2.pops⟩) (counted_start st) hexec
    rw [hbudget₀, List.sum_map_mul_left] at hpops
    omega
  · have hsteps := potential_le (fun _ : JobEvent => 1)
      (fun e => (3 * Worker.stretch + 1) * e.threads) (V := rank)
      (fun hI hstep => ⟨(hcosts hI hstep).1, (hcosts hI hstep).2.step⟩) (counted_start st) hexec
    simp only [List.map_const', List.sum_replicate, smul_eq_mul, mul_one,
      List.sum_map_mul_left] at hsteps
    rw [hrank₀, Worker.stretch] at hsteps
    omega

theorem job_ends_unreached :
    (unreached.map JobEvent.begins).sum ≤ 5 ∧ (unreached.map JobEvent.pops).sum ≤ 3 * 1 := by
  have hexec : exec (step id oneByte) (start nothing.store) unreached =
      some ((exec (step id oneByte) (start nothing.store) unreached).get (by decide +kernel)) :=
    (Option.some_get (by decide +kernel)).symm
  obtain ⟨hbegins, hpops, -⟩ := job_ends id oneByte nothing.store hexec
  have hmissing : (missing nothing.store).length = 1 := by decide +kernel
  have hconnects : (unreached.map JobEvent.connects).sum = 0 := by decide +kernel
  rw [hmissing, hconnects] at hpops
  exact ⟨hbegins, hpops⟩

end Download

end P2PShare
