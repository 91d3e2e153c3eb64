import P2PShare.Tracker.Server

/-!
What a request changes, by the status it is answered with.

* `MsgType.replicated`: the eight request types that are replicated.
* `isSome_record`: a request hands an op to `record_and_replicate` exactly if it
  is of one of these types and is answered with `ST_OK`.
* `refused_changes_nothing`: any other status leaves the state, the log and the
  next sequence number.
-/

namespace P2PShare

open Cursor Reader

/-- The request types whose effect is replicated. -/
def MsgType.replicated : List MsgType :=
  [createUser, createGroup, joinGroup, leaveGroup, acceptRequest, uploadFile, stopShare, havePieces]

namespace Session

variable {H : Str → Str} {s : TrackerState} {σ : Session} {payload : Str}

/-- A request that records exactly when it succeeds, and then under its type. -/
def RecordsIfOk (t : MsgType) (o : Outcome) : Prop :=
  (o.record.isSome ↔ o.status = .ok) ∧ ∀ rep ∈ o.record, rep.1 = t.code

lemma recordsIfOk_refuse (t : MsgType) {st : Status} (hst : st ≠ .ok) :
    RecordsIfOk t (refuse s σ st) := by
  refine ⟨?_, fun rep hrep => by cases hrep⟩
  simp [refuse, answer, hst]

lemma recordsIfOk_mutate (t : MsgType) (g : Get (Call × Str)) :
    RecordsIfOk t (mutate H s σ t payload g) := by
  rw [mutate, parsed]
  split
  · exact recordsIfOk_refuse t (by decide)
  · next c hc =>
      dsimp only
      split
      · next hok => exact ⟨by simp [hok], fun rep hrep => by cases hrep; rfl⟩
      · next hne => exact ⟨by simp [hne], fun rep hrep => by cases hrep⟩

lemma RecordsIfOk.loggedIn {t : MsgType} {o : Outcome} (h : RecordsIfOk t o) :
    RecordsIfOk t (Session.loggedIn s σ o) := by
  rw [Session.loggedIn]
  split
  · exact recordsIfOk_refuse t (by decide)
  · exact h

/-- The eight requests record when they succeed. -/
lemma recordsIfOk_dispatch {t : MsgType} (ht : t ∈ MsgType.replicated) :
    RecordsIfOk t (dispatch H s σ t.code payload) := by
  rw [dispatch, MsgType.ofCode_code]
  cases t with
  | createUser => exact recordsIfOk_mutate _ _
  | createGroup | joinGroup | leaveGroup | acceptRequest | uploadFile | stopShare | havePieces =>
      exact (recordsIfOk_mutate _ _).loggedIn
  | _ => exact absurd ht (by decide)

/-- No other request records anything. -/
lemma record_eq_none {type : UInt16} (hother : ∀ t ∈ MsgType.replicated, type ≠ t.code) :
    (dispatch H s σ type payload).record = none := by
  have hserved := dispatch_served H s σ type payload
  generalize dispatch H s σ type payload = o at hserved
  cases hserved with
  | @mutated t g c rep s' htype hreq =>
      refine absurd htype (hother t ?_)
      cases t <;> first | decide | cases hreq
  | answered | loggedIn | loggedOut | gone => rfl

/-- **When a request is recorded**: if it is of one of the eight types and
succeeds. -/
theorem isSome_record (H : Str → Str) (s : TrackerState) (σ : Session) (type : UInt16)
    (payload : Str) :
    (dispatch H s σ type payload).record.isSome ↔
      (dispatch H s σ type payload).status = .ok ∧ ∃ t ∈ MsgType.replicated, type = t.code := by
  by_cases h : ∃ t ∈ MsgType.replicated, type = t.code
  · obtain ⟨t, ht, rfl⟩ := h
    rw [(recordsIfOk_dispatch ht).1]
    exact ⟨fun hok => ⟨hok, t, ht, rfl⟩, fun hok => hok.1⟩
  · have hnone : (dispatch H s σ type payload).record = none :=
      record_eq_none fun t ht htype => h ⟨t, ht, htype⟩
    simp [hnone, h]

/-- A request that is not answered with `ST_OK` leaves the state. -/
lemma state_of_status_ne {type : UInt16} (h : (dispatch H s σ type payload).status ≠ .ok) :
    (dispatch H s σ type payload).state = s := by
  have hserved := dispatch_served H s σ type payload
  generalize dispatch H s σ type payload = o at hserved h
  cases hserved with
  | answered | gone => rfl
  | loggedIn | loggedOut | mutated => exact absurd rfl h

end Session

namespace Server

variable {H : Str → Str} {sv : Server} {fd : ℕ} {σ : Session}

/-- What a request records is what `dispatch` hands to `record_and_replicate`,
under the next sequence number. -/
lemma serve_request_record (hσ : sv.sessions fd = some σ) (type : UInt16) (payload : Str)
    (now : UInt64) :
    (sv.serve H (.request fd type payload now)).1 =
      (σ.dispatch H sv.tracker.state type payload).record.map fun rep =>
        sv.tracker.nextOp rep.1 rep.2 now := by
  rw [serve, apply, hσ]
  dsimp only
  cases (σ.dispatch H sv.tracker.state type payload).record with
  | none => rfl
  | some rep => rfl

/-- A request that records nothing leaves the log. -/
lemma serve_request_quiet (hσ : sv.sessions fd = some σ) {type : UInt16} {payload : Str}
    (h : ¬ ((σ.dispatch H sv.tracker.state type payload).status = .ok ∧
      ∃ t ∈ MsgType.replicated, type = t.code)) (now : UInt64) :
    (sv.serve H (.request fd type payload now)).2.tracker.log = sv.tracker.log ∧
      (sv.serve H (.request fd type payload now)).2.tracker.nextSeq = sv.tracker.nextSeq := by
  have hnone : (sv.serve H (.request fd type payload now)).1 = none := by
    rw [serve_request_record hσ, Option.not_isSome_iff_eq_none.mp (mt
      (Session.isSome_record H sv.tracker.state σ type payload).mp h)]
    rfl
  obtain ⟨-, hlog, hnext, -⟩ := (serve_did H sv (.request fd type payload now)).log_eq
  exact ⟨hlog.trans (by simp [hnone]), hnext.trans (by simp [hnone])⟩

/-- A request leaves the tracker as it is exactly if the dispatch leaves the state and
records no op. -/
lemma serve_request_idle (hσ : sv.sessions fd = some σ) {type : UInt16} {payload : Str}
    (now : UInt64) :
    let o := σ.dispatch H sv.tracker.state type payload
    (sv.serve H (.request fd type payload now)).2.tracker = sv.tracker ↔
      o.state = sv.tracker.state ∧ o.record = none := by
  intro o
  obtain ⟨happlied, hlog, hnext, -⟩ := (serve_did H sv (.request fd type payload now)).log_eq
  have hstate : (sv.serve H (.request fd type payload now)).2.tracker.state = o.state :=
    (serve_request hσ type payload now).1
  have hrecord : (sv.serve H (.request fd type payload now)).1 =
      o.record.map fun rep => sv.tracker.nextOp rep.1 rep.2 now :=
    serve_request_record hσ type payload now
  rw [hrecord] at hlog hnext
  constructor
  · intro hsame
    rw [hsame] at hstate hnext
    refine ⟨hstate.symm, ?_⟩
    cases hrep : o.record with
    | none => rfl
    | some rep => simp [hrep] at hnext
  · rintro ⟨hkept, hnone⟩
    rw [hnone] at hlog hnext
    cases htracker : (sv.serve H (.request fd type payload now)).2.tracker with
    | mk state nextSeq applied log =>
        simp only [htracker, hkept] at hstate hnext happlied hlog
        simp [hstate, hnext, happlied, hlog]

/-- A request that is not answered with `ST_OK` leaves the tracker. -/
lemma serve_request_refused (hσ : sv.sessions fd = some σ) {type : UInt16} {payload : Str}
    (hne : (σ.dispatch H sv.tracker.state type payload).status ≠ .ok) (now : UInt64) :
    (sv.serve H (.request fd type payload now)).2.tracker = sv.tracker := by
  refine (serve_request_idle hσ now).mpr ⟨Session.state_of_status_ne hne, ?_⟩
  by_contra hsome
  have hrecord := (Session.isSome_record H sv.tracker.state σ type payload).mp
    (Option.isSome_iff_ne_none.mpr hsome)
  exact hne hrecord.1

/-- **A refused request changes nothing**, a replicated one that succeeds appends
one op under the next sequence number, and every other request appends none. -/
theorem refused_changes_nothing (hσ : sv.sessions fd = some σ) (type : UInt16) (payload : Str)
    (now : UInt64) :
    let status := (σ.dispatch H sv.tracker.state type payload).status
    let r := sv.serve H (.request fd type payload now)
    (status ≠ .ok → r.2.tracker = sv.tracker) ∧
    (status = .ok → (∃ t ∈ MsgType.replicated, type = t.code) →
      ∃ op : Op, op.seq = sv.tracker.nextSeq ∧ op.type = type ∧
        r.2.tracker.log = sv.tracker.log ++ [op] ∧
        r.2.tracker.nextSeq = sv.tracker.nextSeq + 1) ∧
    (¬ (status = .ok ∧ ∃ t ∈ MsgType.replicated, type = t.code) →
      r.2.tracker.log = sv.tracker.log ∧ r.2.tracker.nextSeq = sv.tracker.nextSeq) := by
  intro status r
  refine ⟨fun hne => serve_request_refused hσ hne now, fun hok htype => ?_,
    fun h => serve_request_quiet hσ h now⟩
  have hrecord : r.1 = (σ.dispatch H sv.tracker.state type payload).record.map fun rep =>
      sv.tracker.nextOp rep.1 rep.2 now := serve_request_record hσ type payload now
  obtain ⟨-, hlog, hnext, -⟩ := (serve_did H sv (.request fd type payload now)).log_eq
  obtain ⟨rep, hrep⟩ := Option.isSome_iff_exists.mp
    ((Session.isSome_record H sv.tracker.state σ type payload).mpr ⟨hok, htype⟩)
  obtain ⟨t, ht, rfl⟩ := htype
  refine ⟨sv.tracker.nextOp rep.1 rep.2 now, rfl, ?_, ?_, ?_⟩
  · exact (Session.recordsIfOk_dispatch ht).2 rep hrep
  · exact hlog.trans (by rw [show (serve H sv _).1 = _ from hrecord, hrep]; rfl)
  · exact hnext.trans (by rw [show (serve H sv _).1 = _ from hrecord, hrep]; rfl)

/-- A group that exists is created again. -/
theorem refused_changes_nothing_twice :
    let σ : Session := ⟨[8], [4], 0, by decide, by decide⟩
    let s := [Call.createUser [8] [2], .createGroup [5] [8]].foldl (TrackerState.after id) .init
    let sv : Server := ⟨{ Tracker.start with state := s }, fun _ => some σ⟩
    (sv.serve id (.request 7 MsgType.createGroup.code (putStr [5]) 0)).2.tracker = sv.tracker := by
  intro σ s sv
  have hσ : sv.sessions 7 = some σ := rfl
  exact (refused_changes_nothing hσ _ _ _).1 (by decide +kernel)

end Server

end P2PShare
