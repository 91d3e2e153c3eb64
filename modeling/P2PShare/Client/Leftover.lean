import P2PShare.Client.Download
import P2PShare.Client.RoundEnds

/-!
What a round of a download leaves behind, and when a job fails.

* `Round.missing_perm`: the pieces that are missing are those in the queue and those in the
  hands of the workers.
* `Worker.owes`: a worker is at work, or it has given up. `Worker.step_owes` is what its steps
  do to that.
* `Accounted` (**the invariant**): once a worker has found the queue empty, no more pieces are
  missing than there are workers that owe one.
* `few_left`: a round in which a worker lasts to the end leaves at most as many pieces as
  workers have given up.
* `failed_unlucky`: a job fails only after five rounds, in each of which no worker has reached
  its peer or one of them has given up.
-/

namespace P2PShare

open PieceStore

/-! ### What is missing -/

namespace Round

variable {H : Str → Str} {job : DownloadJob} {r r' : Round}

/-- The indices in the hands of the workers. -/
def inHand (r : Round) : List ℕ := r.workers.filterMap fun x => x.phase.hand

/-- **What is missing** is in the queue or in a worker's hands. -/
lemma missing_perm (h : r.OnePlace) : (missing r.store).Perm (r.queue ++ r.inHand) := by
  rw [List.perm_iff_count]
  intro i
  have hone := h i
  have hhand : r.inHand.count i = handed r.workers i := by
    rw [inHand, handed, List.count_filterMap, List.count_eq_countP, List.countP_map]
    exact List.countP_congr fun x _ => by simp
  rw [places] at hone
  rw [count_missing, List.count_append, hhand]
  by_cases hi : i < r.store.pieceCount
  · cases hhave : r.store.have' i with
    | false =>
        simp only [hi, hhave, Bool.toNat_false, and_self, if_true] at hone ⊢
        omega
    | true =>
        simp only [hi, hhave, Bool.toNat_true, if_true, Bool.true_eq_false, and_false,
          if_false] at hone ⊢
        omega
  · simp only [hi, false_and, if_false] at hone ⊢
    omega

lemma lacking_eq (h : r.OnePlace) : lacking r.store = r.queue.length + r.inHand.length := by
  rw [lacking, (missing_perm h).length_eq, List.length_append]

end Round

/-! ### Workers that owe a piece -/

/-- The worker has given up. -/
def Worker.GaveUp (x : Worker) : Prop := maxConsecutiveFailures ≤ x.failures

instance (x : Worker) : Decidable x.GaveUp := inferInstanceAs (Decidable (_ ≤ _))

/-- The worker has reached its peer and goes on. -/
def WorkerPhase.AtWork : WorkerPhase → Prop
  | connecting | ended => False
  | top | fetching _ | writing _ _ _ | failing _ | counting | resetting | reading | sending _ =>
    True

instance : ∀ p : WorkerPhase, Decidable p.AtWork
  | .connecting | .ended => .isFalse id
  | .top | .fetching _ | .writing _ _ _ | .failing _ | .counting | .resetting | .reading
  | .sending _ => .isTrue trivial

/-- Whoever has an index in hand is at work. -/
lemma WorkerPhase.atWork_of_hand {p : WorkerPhase} {i : ℕ} (h : p.hand = some i) : p.AtWork := by
  cases p with
  | fetching | writing | failing => trivial
  | connecting | ended => cases h
  | top | counting | resetting | reading | sending => trivial

/-- The worker is at work or has given up. -/
def Worker.owes (x : Worker) : ℕ := if x.phase.AtWork ∨ x.GaveUp then 1 else 0

namespace Worker

variable {H : Str → Str} {job : DownloadJob} {s s' : Shared} {x x' : Worker} {a : Act}

lemma owes_of_atWork (h : x.phase.AtWork) : x.owes = 1 := if_pos (.inl h)

lemma owes_of_gaveUp (h : x.GaveUp) : x.owes = 1 := if_pos (.inr h)

lemma owes_le (x : Worker) : x.owes ≤ 1 := by
  rw [owes]
  split
  · exact le_rfl
  · exact Nat.zero_le _

/-- **What a step does to what is owed**: the worker finds the queue empty, or it owes what it
owed, and once at work it ends by giving up only. -/
inductive Owed (s : Shared) (x : Worker) (s' : Shared) (x' : Worker) : Prop
  | exhausted (hqueue : s.queue = []) (hstore : s'.store = s.store) (hqueue' : s'.queue = s.queue)
      (hended : x'.phase = .ended)
  | goesOn (hlack : Round.lacking s'.store ≤ Round.lacking s.store) (howes : x.owes ≤ x'.owes)
      (hwork : x.phase.AtWork → x'.phase.AtWork ∨ x'.GaveUp)

/-- A worker that is at work after the step. -/
lemma Owed.of_atWork (hlack : Round.lacking s'.store ≤ Round.lacking s.store)
    (hwork : x'.phase.AtWork) : Owed s x s' x' :=
  .goesOn hlack ((owes_le x).trans (owes_of_atWork hwork).ge) fun _ => .inl hwork

lemma step_owes (hpatient : x.Patient)
    (hhand : ∀ i, x.phase.hand = some i → i < s.store.pieceCount ∧ s.store.have' i = false)
    (h : x.step H job s a = some (s', x')) : Owed s x s' x' := by
  unfold Worker.step at h
  split at h
  · next ok hphase =>
      obtain ⟨rfl, rfl⟩ := Prod.mk.inj (Option.some.inj h)
      have hfew : ¬ x.GaveUp := Nat.not_le.mpr (hpatient (by rw [hphase]; decide))
      have hidle : ¬ x.phase.AtWork := by rw [hphase]; exact id
      refine .goesOn le_rfl ?_ fun hwork => absurd hwork hidle
      rw [owes, if_neg (not_or.mpr ⟨hidle, hfew⟩)]
      exact Nat.zero_le _
  · next hphase =>
      split at h
      · next hlast =>
          obtain ⟨rfl, rfl⟩ := Prod.mk.inj (Option.some.inj h)
          -- the queue is empty, and the worker ends without having given up
          exact .exhausted (List.getLast?_eq_none_iff.mp hlast) rfl rfl rfl
      · obtain ⟨rfl, rfl⟩ := Prod.mk.inj (Option.some.inj h)
        exact .of_atWork le_rfl trivial
  · split at h
    · obtain ⟨rfl, rfl⟩ := Prod.mk.inj (Option.some.inj h)
      exact .of_atWork le_rfl trivial
    · split at h
      · obtain ⟨rfl, rfl⟩ := Prod.mk.inj (Option.some.inj h)
        exact .of_atWork le_rfl trivial
      · obtain ⟨rfl, rfl⟩ := Prod.mk.inj (Option.some.inj h)
        exact .of_atWork le_rfl trivial
  · split at h
    · cases h
    · split at h
      · obtain ⟨rfl, rfl⟩ := Prod.mk.inj (Option.some.inj h)
        exact .of_atWork le_rfl trivial
      · obtain ⟨rfl, rfl⟩ := Prod.mk.inj (Option.some.inj h)
        exact .of_atWork le_rfl trivial
      · split at h
        · cases h
        · obtain ⟨rfl, rfl⟩ := Prod.mk.inj (Option.some.inj h)
          exact .of_atWork le_rfl trivial
  · next index data put hphase =>
      split at h
      · obtain ⟨rfl, rfl⟩ := Prod.mk.inj (Option.some.inj h)
        -- a piece that is marked is missing no longer
        obtain ⟨hlt, hhave⟩ := hhand index (by rw [hphase]; rfl)
        have hmark := Round.lacking_mark s.store hlt hhave
        refine .of_atWork ?_ trivial
        dsimp only
        omega
      · cases h
  · next index hphase =>
      obtain ⟨rfl, rfl⟩ := Prod.mk.inj (Option.some.inj h)
      by_cases hlast : maxConsecutiveFailures ≤ x.failures + 1
      · have hgave : GaveUp ⟨.ended, x.failures + 1⟩ := hlast
        rw [if_pos hlast]
        exact .goesOn le_rfl ((owes_le x).trans (owes_of_gaveUp hgave).ge) fun _ => .inr hgave
      · rw [if_neg hlast]
        exact .of_atWork le_rfl trivial
  · next late hphase =>
      obtain ⟨rfl, rfl⟩ := Prod.mk.inj (Option.some.inj h)
      refine .of_atWork le_rfl ?_
      dsimp only
      split
      · trivial
      · trivial
  · obtain ⟨rfl, rfl⟩ := Prod.mk.inj (Option.some.inj h)
    exact .of_atWork le_rfl trivial
  · obtain ⟨rfl, rfl⟩ := Prod.mk.inj (Option.some.inj h)
    exact .of_atWork le_rfl trivial
  · obtain ⟨rfl, rfl⟩ := Prod.mk.inj (Option.some.inj h)
    exact .of_atWork le_rfl trivial
  · cases h

end Worker

/-! ### The end of a round -/

namespace Round

variable {H : Str → Str} {job : DownloadJob} {r r' : Round}

/-- How many workers owe a piece. -/
def owing (r : Round) : ℕ := (r.workers.map Worker.owes).sum

/-- What is in hand is owed. -/
lemma length_inHand_le (r : Round) : r.inHand.length ≤ r.owing := by
  rw [inHand, owing]
  induction r.workers with
  | nil => exact le_rfl
  | cons x workers ih =>
      rw [List.map_cons, List.sum_cons]
      cases hhand : x.phase.hand with
      | none =>
          rw [List.filterMap_cons, hhand]
          dsimp only
          omega
      | some i =>
          rw [List.filterMap_cons, hhand, Worker.owes_of_atWork (WorkerPhase.atWork_of_hand hhand)]
          dsimp only
          rw [List.length_cons]
          omega

/-- **The invariant**: the worker `w` has reached its peer, and once it has found the queue
empty no more pieces are missing than are owed. -/
structure Accounted (w : ℕ) (r : Round) : Prop where
  ending : r.Ending
  reached : ∃ x, r.workers[w]? = some x ∧
    (x.phase.AtWork ∨ x.GaveUp ∨ lacking r.store ≤ r.owing)

/-- **The step lemma.** -/
lemma Accounted.step {w : ℕ} (h : r.Accounted w) {e : ℕ × Act}
    (hstep : r.step H job e = some r') : r'.Accounted w := by
  have hending := (h.ending.step hstep).1
  refine ⟨hending, ?_⟩
  obtain ⟨y, hy, hstate⟩ := h.reached
  obtain ⟨x, s', x', hx, hworker, rfl⟩ := step_worker hstep
  have howed := Worker.step_owes (h.ending.patient x (List.mem_of_getElem? hx))
    (fun i hi => ⟨(h.ending.places.of_hand hx hi).1, (h.ending.places.of_hand hx hi).2.1⟩) hworker
  have hsum := sum_map_set Worker.owes hx x'
  have hlt := (List.getElem?_eq_some_iff.mp hx).1
  have hmoved : w = e.1 → ∃ z, (r.workers.set e.1 x')[w]? = some z ∧ x = y ∧ z = x' := by
    rintro rfl
    exact ⟨x', List.getElem?_set_self hlt, Option.some.inj (hx.symm.trans hy), rfl⟩
  have hstays : w ≠ e.1 → (r.workers.set e.1 x')[w]? = some y := fun hne => by
    rw [List.getElem?_set_ne (Ne.symm hne), hy]
  have hanyone : ∃ z, (r.workers.set e.1 x')[w]? = some z := by
    by_cases hw : w = e.1
    · exact ⟨x', by rw [hw, List.getElem?_set_self hlt]⟩
    · exact ⟨y, hstays hw⟩
  cases howed with
  | exhausted hqueue hstore hqueue' hended =>
      -- nothing is queued, so all that is missing is in hand
      have hlack := lacking_eq hending.places
      have hhands := length_inHand_le ⟨s', r.workers.set e.1 x'⟩
      dsimp only at hlack
      rw [hqueue', hqueue, List.length_nil, Nat.zero_add] at hlack
      obtain ⟨z, hz⟩ := hanyone
      exact ⟨z, hz, .inr (.inr (hlack.trans_le hhands))⟩
  | goesOn hlack howes hwork =>
      have howing : lacking r.store ≤ r.owing →
          lacking s'.store ≤ owing ⟨s', r.workers.set e.1 x'⟩ := by
        intro hle
        rw [owing] at hle ⊢
        dsimp only
        omega
      by_cases hw : w = e.1
      · obtain ⟨z, hz, rfl, rfl⟩ := hmoved hw
        refine ⟨z, hz, ?_⟩
        rcases hstate with hbusy | hgave | hle
        · exact (hwork hbusy).imp_right .inl
        · -- a worker that has given up takes no step
          have hended : x.phase = .ended := by
            by_contra hne
            exact absurd hgave (Nat.not_le.mpr (h.ending.patient x (List.mem_of_getElem? hx) hne))
          simp [Worker.step, hended] at hworker
        · exact .inr (.inr (howing hle))
      · exact ⟨y, hstays hw, hstate.imp_right (Or.imp_right howing)⟩

/-- A worker that has just reached its peer. -/
lemma accounted_connect {w : ℕ} (h : r.Ending) (hstep : r.step H job (w, .connect true) = some r') :
    r'.Accounted w := by
  refine ⟨(h.step hstep).1, ?_⟩
  obtain ⟨x, s', x', hx, hworker, rfl⟩ := step_worker hstep
  have hlt := (List.getElem?_eq_some_iff.mp hx).1
  refine ⟨x', List.getElem?_set_self hlt, .inl ?_⟩
  obtain ⟨p, n⟩ := x
  cases p with
  | connecting =>
      obtain ⟨-, rfl⟩ := Prod.mk.inj (Option.some.inj hworker)
      trivial
  | _ => simp [Worker.step] at hworker

/-- A worker that has reached its peer in the course of a round. -/
lemma accounted_of_reached {s : Shared} {workers : ℕ} {es : List (ℕ × Act)}
    (hexec : exec (step H job) (start s workers) es = some r) {w : ℕ}
    (hreached : (w, .connect true) ∈ es) : r.Accounted w := by
  obtain ⟨before, after, rfl⟩ := List.append_of_mem hreached
  rw [exec_append] at hexec
  obtain ⟨r₁, hbefore, hexec⟩ := Option.bind_eq_some_iff.mp hexec
  obtain ⟨r₂, hconnect, hafter⟩ := Option.bind_eq_some_iff.mp hexec
  have hending : r₁.Ending :=
    exec_invariant (fun hI hstep => (hI.step hstep).1) (ending_start s workers) hbefore
  exact exec_invariant (fun hI hstep => hI.step hstep) (accounted_connect hending hconnect) hafter

/-- At the end, whoever owes a piece has given up. -/
lemma owing_of_ended (hended : ∀ x ∈ r.workers, x.phase = .ended) :
    r.owing = r.workers.countP fun x => x.GaveUp := by
  rw [owing]
  generalize r.workers = workers at hended
  induction workers with
  | nil => rfl
  | cons x workers ih =>
      have hidle : ¬ x.phase.AtWork := by
        rw [hended x List.mem_cons_self]
        exact id
      have hrest := ih fun y hy => hended y (List.mem_cons_of_mem x hy)
      rw [List.map_cons, List.sum_cons, hrest, List.countP_cons, Worker.owes]
      simp only [hidle, false_or, decide_eq_true_eq]
      omega

lemma lacking_eq_zero {st : PieceStore} : lacking st = 0 ↔ st.complete = true := by
  rw [lacking, List.length_eq_zero_iff, missing, List.filter_eq_nil_iff, complete_iff]
  refine forall_congr' fun i => ?_
  rw [List.mem_range]
  exact forall_congr' fun hi => by simp [PieceStore.have', hi]

/-- At the end of a round in which the worker has not given up, what is missing is owed by those
who have. -/
lemma Accounted.lacking_le {w : ℕ} (h : r.Accounted w) (hended : ∀ x ∈ r.workers, x.phase = .ended)
    (hlasts : ∀ x, r.workers[w]? = some x → ¬ x.GaveUp) :
    lacking r.store ≤ r.workers.countP fun x => x.GaveUp := by
  obtain ⟨x, hx, hstate⟩ := h.reached
  have hidle : ¬ x.phase.AtWork := by
    rw [hended x (List.mem_of_getElem? hx)]
    exact id
  rw [← owing_of_ended hended]
  exact (hstate.resolve_left hidle).resolve_left (hlasts x hx)

/-- Where nobody has given up, nothing is missing. -/
lemma Accounted.complete {w : ℕ} (h : r.Accounted w) (hended : ∀ x ∈ r.workers, x.phase = .ended)
    (hnobody : ∀ x ∈ r.workers, ¬ x.GaveUp) : r.store.complete = true := by
  have hle := h.lacking_le hended fun x hx => hnobody x (List.mem_of_getElem? hx)
  have hnone : r.workers.countP (fun x => x.GaveUp) = 0 :=
    List.countP_eq_zero.mpr fun y hy => by simpa using hnobody y hy
  rw [hnone] at hle
  exact lacking_eq_zero.mp (Nat.le_zero.mp hle)

/-- **What a round leaves behind**: if a worker that has reached its peer lasts to the end, no
more pieces are missing than workers have given up, so the file is whole if nobody has. -/
theorem few_left (H : Str → Str) (job : DownloadJob) (s : Shared) (workers : ℕ)
    {es : List (ℕ × Act)} (hexec : exec (step H job) (start s workers) es = some r)
    (hended : ∀ x ∈ r.workers, x.phase = .ended) {w : ℕ} (hreached : (w, .connect true) ∈ es)
    (hlasts : ∀ x, r.workers[w]? = some x → ¬ x.GaveUp) :
    lacking r.store ≤ r.workers.countP (fun x => x.GaveUp) ∧
      ((∀ x ∈ r.workers, ¬ x.GaveUp) → r.store.complete = true) := by
  have haccounted := accounted_of_reached hexec hreached
  exact ⟨haccounted.lacking_le hended hlasts, haccounted.complete hended⟩

/-- Two workers: the first gives up the only piece behind the back of the second. -/
def givenUp : List (ℕ × Act) :=
  [(0, .connect true), (1, .connect true), (0, .pop), (1, .pop), (0, .fetch none), (0, .giveBack),
    (0, .pop), (0, .fetch none), (0, .giveBack), (0, .pop), (0, .fetch none), (0, .giveBack)]

theorem few_left_givenUp :
    lacking ((exec (step id oneByte) (start nothing 2) givenUp).get (by decide +kernel)).store ≤
      1 := by
  have hexec : exec (step id oneByte) (start nothing 2) givenUp =
      some ((exec (step id oneByte) (start nothing 2) givenUp).get (by decide +kernel)) :=
    (Option.some_get (by decide +kernel)).symm
  obtain ⟨hle, -⟩ := few_left id oneByte nothing 2 hexec (w := 1) (by decide +kernel)
    (by decide +kernel) (by decide +kernel)
  exact hle.trans (by decide +kernel)

/-- No step loses a piece that is held. -/
lemma lacking_step (h : r.Ending) {e : ℕ × Act} (hstep : r.step H job e = some r') :
    lacking r'.store ≤ lacking r.store := by
  obtain ⟨x, s', x', hx, hworker, rfl⟩ := step_worker hstep
  have howed := Worker.step_owes (h.patient x (List.mem_of_getElem? hx))
    (fun i hi => ⟨(h.places.of_hand hx hi).1, (h.places.of_hand hx hi).2.1⟩) hworker
  cases howed with
  | exhausted _ hstore => exact (congrArg lacking hstore).le
  | goesOn hlack => exact hlack

end Round

/-! ### The rounds of a job -/

/-- `run_job` is in the body of the loop. -/
def Stage.InRound : Stage → Prop
  | running | resetting | reading | sending _ => True
  | between | sharing | shared | done | failed => False

namespace Download

open Round

variable {H : Str → Str} {job : DownloadJob} {d d' : Download}

/-- In a round, a worker moves or the round is over. -/
lemma running_cases (hstage : d.stage = .running) {e : JobEvent}
    (hstep : d.step H job e = some d') :
    (∃ w a r, e = .worker w a ∧ d.toRound.step H job (w, a) = some r ∧
        d' = { d with toRound := r }) ∨
      (∀ x ∈ d.workers, x.phase = .ended) ∧ d' = { d with stage := .resetting } := by
  cases e with
  | worker w a =>
      simp only [Download.step, hstage] at hstep
      obtain ⟨r, hr, rfl⟩ := Option.map_eq_some_iff.mp hstep
      exact .inl ⟨w, a, r, rfl, hr, by rw [hstage]⟩
  | join =>
      simp only [Download.step, hstage] at hstep
      split at hstep
      · next hended => exact .inr ⟨hended, (Option.some.inj hstep).symm⟩
      · cases hstep
  | begin | reset | read | send | finish | addShare | setDone =>
      simp [Download.step, hstage] at hstep

/-- Outside a round, no worker moves. -/
lemma workers_cases (hstage : d.stage ≠ .running) {e : JobEvent}
    (hstep : d.step H job e = some d') :
    (∀ w a, e ≠ .worker w a) ∧
      (d'.workers = d.workers ∨ ∃ n, d'.workers = List.replicate n ⟨.connecting, 0⟩) := by
  have hnot : ∀ w a, e ≠ .worker w a := by
    rintro w a rfl
    cases hstage' : d.stage with
    | running => exact hstage hstage'
    | _ => simp [Download.step, hstage'] at hstep
  refine ⟨hnot, ?_⟩
  cases step_stepped hstep with
  | worker hrun => exact absurd hrun hstage
  | begin n => exact .inr ⟨n, rfl⟩
  | quiet _ hworkers => exact .inl hworkers

/-- The rounds of a job are counted, and one that has failed has been through all of them. -/
structure Counted (d : Download) : Prop where
  ending : d.stage = .running → d.toRound.Ending
  few : d.rounds ≤ maxRounds
  inRound : d.stage.InRound → d.rounds < maxRounds
  failed : d.stage = .failed → d.rounds = maxRounds ∧ d.store.complete = false

lemma counted_start (st : PieceStore) : (start st).Counted where
  ending := by rintro ⟨⟩
  few := Nat.zero_le _
  inRound := False.elim
  failed := by rintro ⟨⟩

/-- **The step lemma.** -/
lemma Counted.step (h : d.Counted) {e : JobEvent} (hstep : d.step H job e = some d') :
    d'.Counted ∧ lacking d'.store ≤ lacking d.store := by
  unfold Download.step at hstep
  split at hstep
  · next w a hstage =>
      obtain ⟨r, hr, rfl⟩ := Option.map_eq_some_iff.mp hstep
      have hending := h.ending hstage
      refine ⟨⟨fun _ => (hending.step hr).1, h.few, h.inRound, ?_⟩, lacking_step hending hr⟩
      simp [hstage]
  · next peers hstage =>
      split at hstep
      · next hloop =>
          split at hstep
          · split at hstep
            · cases hstep
            · obtain rfl := Option.some.inj hstep
              exact ⟨⟨by simp [hstage], hloop.1, by simp [hstage, Stage.InRound],
                by simp [hstage]⟩, le_rfl⟩
          · obtain rfl := Option.some.inj hstep
            exact ⟨⟨fun _ => ending_start _ _, h.few, fun _ => hloop.1, by simp⟩, le_rfl⟩
      · cases hstep
  · next hstage =>
      split at hstep
      · obtain rfl := Option.some.inj hstep
        exact ⟨⟨by simp, h.few, fun _ => h.inRound (by rw [hstage]; trivial), by simp⟩, le_rfl⟩
      · cases hstep
  · next hstage =>
      obtain rfl := Option.some.inj hstep
      exact ⟨⟨by simp, h.few, fun _ => h.inRound (by rw [hstage]; trivial), by simp⟩, le_rfl⟩
  · next hstage =>
      obtain rfl := Option.some.inj hstep
      exact ⟨⟨by simp, h.few, fun _ => h.inRound (by rw [hstage]; trivial), by simp⟩, le_rfl⟩
  · next bits hstage =>
      obtain rfl := Option.some.inj hstep
      exact ⟨⟨by simp, h.inRound (by rw [hstage]; trivial), False.elim, by simp⟩, le_rfl⟩
  · split at hstep
    · cases hstep
    · next hloop =>
        obtain rfl := Option.some.inj hstep
        have hfew := h.few
        cases hcomplete : d.store.complete with
        | true => exact ⟨⟨by simp, hfew, by simp [Stage.InRound], by simp⟩, le_rfl⟩
        | false =>
            refine ⟨⟨by simp, hfew, by simp [Stage.InRound], fun _ => ⟨?_, hcomplete⟩⟩, le_rfl⟩
            -- the loop is left for the last time: all rounds are used up
            rw [not_and] at hloop
            by_contra hne
            exact hloop (lt_of_le_of_ne hfew hne) hcomplete
  · obtain rfl := Option.some.inj hstep
    exact ⟨⟨by simp, h.few, by simp [Stage.InRound], by simp⟩, le_rfl⟩
  · obtain rfl := Option.some.inj hstep
    exact ⟨⟨by simp, h.few, by simp [Stage.InRound], by simp⟩, le_rfl⟩
  · cases hstep

/-- Events of workers. -/
def ofWorkers (ws : List (ℕ × Act)) : List JobEvent := ws.map fun e => .worker e.1 e.2

/-- In a round, events of workers are those of the round. -/
lemma exec_ofWorkers (hstage : d.stage = .running) (ws : List (ℕ × Act)) :
    exec (step H job) d (ofWorkers ws) =
      (exec (Round.step H job) d.toRound ws).map fun r => { d with toRound := r } := by
  induction ws generalizing d with
  | nil => rfl
  | cons e ws ih =>
      have hstep : d.step H job (.worker e.1 e.2) =
          (d.toRound.step H job e).map fun r => { d with toRound := r } := by
        simp only [Download.step, hstage]
      rw [ofWorkers, List.map_cons, exec, exec, hstep]
      cases d.toRound.step H job e with
      | none => rfl
      | some r => exact ih (d := { d with toRound := r }) hstage

/-- A round in which workers move has been started. -/
lemma begin_cases {peers : ℕ} (hstep : d.step H job (.begin peers) = some d') :
    d'.stage = .between ∨ d'.stage = .running ∧ ∃ s n, d'.toRound = Round.start s n := by
  unfold Download.step at hstep
  split at hstep
  · next heq => cases heq
  · next hstage heq =>
      split at hstep
      · split at hstep
        · split at hstep
          · cases hstep
          · obtain rfl := Option.some.inj hstep
            exact .inl hstage
        · obtain rfl := Option.some.inj hstep
          exact .inr ⟨rfl, _, _, rfl⟩
      · cases hstep
  all_goals first | (next heq => cases heq) | cases hstep

/-- A round is over when all its workers have ended. -/
lemma join_cases (hstep : d.step H job .join = some d') :
    (∀ x ∈ d.workers, x.phase = .ended) ∧ d'.toRound = d.toRound := by
  unfold Download.step at hstep
  split at hstep
  · next heq => cases heq
  · next heq => cases heq
  · next hstage heq =>
      split at hstep
      · next hended =>
          obtain rfl := Option.some.inj hstep
          exact ⟨hended, rfl⟩
      · cases hstep
  all_goals first | (next heq => cases heq) | cases hstep

/-- **A lucky round makes the file whole**: a worker reaches its peer, and none gives up. -/
lemma complete_of_lucky {peers : ℕ} {ws : List (ℕ × Act)}
    (hexec : exec (step H job) d (.begin peers :: (ofWorkers ws ++ [.join])) = some d') {w : ℕ}
    (hreached : (w, .connect true) ∈ ws) (hnobody : ∀ x ∈ d'.workers, ¬ x.GaveUp) :
    d'.store.complete = true := by
  obtain ⟨d₁, hbegin, hexec⟩ := Option.bind_eq_some_iff.mp hexec
  rw [exec_append] at hexec
  obtain ⟨d₂, hworkers, hexec⟩ := Option.bind_eq_some_iff.mp hexec
  obtain ⟨d₃, hjoin, hexec⟩ := Option.bind_eq_some_iff.mp hexec
  obtain rfl : d₃ = d' := Option.some.inj hexec
  obtain ⟨hended, hround⟩ := join_cases hjoin
  rcases begin_cases hbegin with hstage | ⟨hstage, s, n, hstart⟩
  · -- without a round no worker moves
    obtain ⟨e, ws, rfl⟩ := List.exists_cons_of_ne_nil (List.ne_nil_of_mem hreached)
    simp [ofWorkers, exec, Download.step, hstage] at hworkers
  · rw [exec_ofWorkers hstage, hstart] at hworkers
    obtain ⟨r, hr, rfl⟩ := Option.map_eq_some_iff.mp hworkers
    rw [hround] at hnobody ⊢
    exact (accounted_of_reached hr hreached).complete hended hnobody

/-- **When a job fails**: it has been through five rounds and some piece is missing, and in each
of its rounds with peers no worker has reached its peer or one of them has given up. -/
theorem failed_unlucky (H : Str → Str) (job : DownloadJob) (st : PieceStore) {es : List JobEvent}
    (hexec : exec (step H job) (start st) es = some d) (hfailed : d.stage = .failed) :
    (d.rounds = maxRounds ∧ d.store.complete = false) ∧
      ∀ (before after : List JobEvent) (peers : ℕ) (ws : List (ℕ × Act)) (d₀ d₁ : Download),
        es = before ++ (.begin peers :: (ofWorkers ws ++ [.join])) ++ after →
        exec (step H job) (start st) before = some d₀ →
        exec (step H job) d₀ (.begin peers :: (ofWorkers ws ++ [.join])) = some d₁ →
        (∀ w, (w, .connect true) ∉ ws) ∨ ∃ x ∈ d₁.workers, x.GaveUp := by
  have hcounted : d.Counted :=
    exec_invariant (fun hI hstep => (hI.step hstep).1) (counted_start st) hexec
  refine ⟨hcounted.failed hfailed, fun before after peers ws d₀ d₁ hes hbefore hround => ?_⟩
  by_contra hlucky
  simp only [not_or, not_forall, not_not, not_exists, not_and] at hlucky
  obtain ⟨⟨w, hreached⟩, hnobody⟩ := hlucky
  have hwhole := complete_of_lucky hround hreached hnobody
  have hcounted₁ : d₁.Counted := by
    refine exec_invariant (fun hI hstep => (hI.step hstep).1) ?_ hround
    exact exec_invariant (fun hI hstep => (hI.step hstep).1) (counted_start st) hbefore
  -- what is whole stays whole, and the job fails in a file that is not
  have hafter : exec (step H job) d₁ after = some d := by
    rw [hes, exec_append, exec_append, hbefore] at hexec
    simpa [hround] using hexec
  have hnone : lacking d₁.store = 0 := lacking_eq_zero.mpr hwhole
  have hkept : d.Counted ∧ lacking d.store = 0 := by
    refine exec_invariant (I := fun d => d.Counted ∧ lacking d.store = 0) (fun hI hstep => ?_)
      ⟨hcounted₁, hnone⟩ hafter
    obtain ⟨hI, hzero⟩ := hI
    obtain ⟨hnext, hle⟩ := hI.step hstep
    refine ⟨hnext, ?_⟩
    omega
  have hcomplete := lacking_eq_zero.mp hkept.2
  rw [(hcounted.failed hfailed).2] at hcomplete
  cases hcomplete

/-- Five rounds with one peer that is not reached. -/
def unreached : List JobEvent :=
  (List.replicate 5 ((.begin 1 ::
    (ofWorkers ((List.range 8).map fun w => (w, .connect false)) ++ [.join])) ++
      [.reset, .read, .send true])).flatten ++ [.finish]

theorem failed_unlucky_unreached :
    ((exec (step id oneByte) (start nothing.store) unreached).get (by decide +kernel)).rounds =
      5 := by
  have hexec : exec (step id oneByte) (start nothing.store) unreached =
      some ((exec (step id oneByte) (start nothing.store) unreached).get (by decide +kernel)) :=
    (Option.some_get (by decide +kernel)).symm
  exact (failed_unlucky id oneByte nothing.store hexec (by decide +kernel)).1.1

end Download

end P2PShare
