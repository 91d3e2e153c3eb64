import P2PShare.Pair.Uplink

/-!
Restarts of tracker 1: its sequence numbers start at 1 again while tracker 0
keeps its mark.

* `Rebooted`: tracker 1 has just started and tracker 0 is up with a user.
* `recorded_processed`: in the runs whose steps meet `Keeps`, whenever the link
  is quiet every op that tracker 1 has recorded since its latest start has been
  processed by tracker 0.
* `below_the_mark`: an op that is recorded while the link is down, with a number
  that tracker 0 has seen from the process before, is never sent.
-/

namespace P2PShare

namespace Pair

variable {H : Str → Str} {c₀ c : Pair}

/-- Tracker 1 has just started; tracker 0 has a user, any log and any mark. -/
structure Rebooted (c : Pair) : Prop where
  acceptor : c .acceptor = .start
  down : (c .dialer).phase = .down
  inbox : (c .dialer).inbox = []
  processed : (c .dialer).processed = []
  user : ∃ uid, uid ∈ (c .dialer).state.users

lemma Rebooted.upright (h : c.Rebooted) : c.Upright where
  ok := by
    rw [uplink, h.acceptor, h.down, h.inbox, h.processed]
    exact Outbox.Ok.blank 1 (c .dialer).server.tracker.appliedPeerSeq
  pending m hm := by
    rw [h.acceptor] at hm
    cases hm
  user := h.user
  asks request hrequest := by
    rw [h.down] at hrequest
    cases hrequest
  unasked hm := by
    rw [h.acceptor] at hm
    cases hm
  unfilled blob hm := by
    rw [h.inbox] at hm
    cases hm
  answered hup := by
    rw [h.down] at hup
    cases hup

/-- **No op of tracker 1 is invisible** to tracker 0 in the runs that keep the
outbox in order, whatever number of restarts they have. -/
theorem recorded_processed (h₀ : c₀.Rebooted)
    (h : Run (step H) (fun c e => e.Spares .dialer ∧ c.Keeps H e) c₀ c) (hquiet : c.Quiet) :
    ∀ op ∈ (c .acceptor).recorded, op ∈ (c .dialer).processed := by
  have hup : c.Upright := h.invariant h₀.upright fun hI hok hstep => hI.step hok.1 hok.2 hstep
  exact fun op hop => hup.mem_processed hquiet hop

/-- Tracker 0 has one user and has applied one op of the process that tracker 1
was before. -/
def afterCrash : Pair
  | .dialer =>
      let state := TrackerState.init.after id (.createUser [1] [2])
      { Side.start with server := ⟨⟨state, 1, 1, []⟩, fun _ => none⟩ }
  | .acceptor => .start

lemma afterCrash_rebooted : afterCrash.Rebooted := by
  refine ⟨rfl, rfl, rfl, rfl, [1], ?_⟩
  decide

/-- Tracker 1 asks for a snapshot and loads it. -/
def bootstrapping : List Event :=
  linking ++ [.deliver .acceptor, .deliver .dialer, .deliver .acceptor]


theorem recorded_processed_newcomer :
    let c := (exec (step id) afterCrash
      (bootstrapping ++ newcomer .acceptor ++ [.deliver .dialer, .deliver .acceptor])).get
        (by decide +kernel)
    ∀ op ∈ (c .acceptor).recorded, op ∈ (c .dialer).processed :=
  recorded_processed (H := id) afterCrash_rebooted
    (Run.of_exec (by decide +kernel) (Option.some_get _).symm) (by decide +kernel)

/-- **Below the mark**: a user who registers while the link is down gets the
number that tracker 0 has already seen. -/
theorem below_the_mark :
    ∃ c₀ c : Pair, c₀.Rebooted ∧ Run (step id) (fun _ e => e.Spares .dialer) c₀ c ∧ c.Quiet ∧
      ∃ op ∈ (c .acceptor).recorded, op ∉ (c .dialer).processed := by
  have hspares : ∀ e ∈ bootstrapping ++ [.drop] ++ newcomer .acceptor ++ linking ++
      [.deliver .acceptor],
      e.Spares .dialer := by
    decide
  refine ⟨afterCrash, (exec (step id) afterCrash (bootstrapping ++ [.drop] ++ newcomer .acceptor ++
    linking ++ [.deliver .acceptor])).get (by decide +kernel), afterCrash_rebooted, ?_,
    by decide +kernel, by decide +kernel⟩
  exact Run.of_exec (meets_of_forall hspares afterCrash) (Option.some_get _).symm

end Pair

end P2PShare
