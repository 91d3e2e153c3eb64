import P2PShare.Tracker.Server

/-!
The accounts of a tracker: its user ids with their password hashes.

* `TrackerState.accounts`, `DirOp.accounts`, `SyncMsg.accounts`: those of a
  state, that of a registration, and what a message brings.
* `Unambiguous`: no user id has two hashes.
* `mem_accounts_act`, `mem_accounts_process`: without ambiguity an operation or
  a message adds the accounts it brings.
* `Server.Did.accounts_cases`: what a client event does to the accounts.
-/

namespace P2PShare

/-- A user id and a password hash. -/
abbrev Account := Str × Str

/-- No user id has two hashes. -/
def Unambiguous (accounts : List Account) : Prop :=
  ∀ a ∈ accounts, ∀ b ∈ accounts, a.1 = b.1 → a = b

instance (accounts : List Account) : Decidable (Unambiguous accounts) :=
  inferInstanceAs (Decidable (∀ _ ∈ _, ∀ _ ∈ _, _ → _))

lemma Unambiguous.mono {accounts accounts' : List Account} (h : Unambiguous accounts)
    (hsub : accounts' ⊆ accounts) : Unambiguous accounts' := fun a ha b hb =>
  h a (hsub ha) b (hsub hb)

/-- New accounts beside these. -/
lemma Unambiguous.append {accounts accounts' : List Account} (h : Unambiguous accounts)
    (h' : Unambiguous accounts') (hnew : ∀ a ∈ accounts', ∀ b ∈ accounts, b.1 = a.1 → b = a) :
    Unambiguous (accounts ++ accounts') := by
  intro a ha b hb hid
  rcases List.mem_append.mp ha with ha | ha <;> rcases List.mem_append.mp hb with hb | hb
  · exact h a ha b hb hid
  · exact hnew b hb a ha hid
  · exact (hnew a ha b hb hid.symm).symm
  · exact h' a ha b hb hid

/-- The accounts of a state. -/
def TrackerState.accounts (s : TrackerState) : List Account := s.directory.users.toList

/-- The account that an operation registers. -/
def DirOp.accounts : DirOp → List Account
  | .addUser uid hash => [(uid, hash)]
  | .nop | .group .. => []

/-- It is one at most. -/
lemma DirOp.unambiguous_accounts (o : DirOp) : Unambiguous o.accounts := by
  intro a ha b hb _
  cases o with
  | addUser uid hash => rw [List.mem_singleton.mp ha, List.mem_singleton.mp hb]
  | nop | group => cases ha

namespace TrackerState

variable {s s' : TrackerState} {a : Account}

lemma mem_accounts : a ∈ s.accounts ↔ s.directory.users[a.1]? = some a.2 := by
  rw [accounts]
  exact Std.ExtTreeMap.mem_toList_iff_getElem?_eq_some

lemma unambiguous_accounts (s : TrackerState) : Unambiguous s.accounts := by
  intro a ha b hb hid
  rw [mem_accounts] at ha hb
  rw [hid, hb] at ha
  exact Prod.ext hid (Option.some.inj ha).symm

/-- An empty state has none. -/
lemma accounts_of_isEmpty (h : s.isEmpty = true) : s.accounts = [] := by
  refine List.eq_nil_iff_forall_not_mem.mpr fun a ha => ?_
  have hmem : a.1 ∈ s.directory.users := by
    rw [Std.ExtTreeMap.mem_iff_isSome_getElem?, mem_accounts.mp ha]
    rfl
  rw [isEmpty_eq_false (mem_directory_users.mp hmem)] at h
  cases h

/-- **An operation adds its account**, unless the id is taken by another hash. -/
theorem mem_accounts_act {o : DirOp} (hdir : s'.directory = s.directory.act o)
    (hclear : Unambiguous (s.accounts ++ o.accounts)) :
    a ∈ s'.accounts ↔ a ∈ s.accounts ∨ a ∈ o.accounts := by
  rw [mem_accounts, hdir]
  cases o with
  | nop => simp [Directory.act, DirOp.accounts, mem_accounts]
  | group gid op => simp [Directory.act, DirOp.accounts, mem_accounts]
  | addUser uid hash =>
      have hnew : (uid, hash) ∈ s.accounts ++ (DirOp.addUser uid hash).accounts :=
        List.mem_append_right _ List.mem_cons_self
      by_cases huid : uid ∈ s.directory.users
      · rw [Directory.act_addUser_of_mem huid, ← mem_accounts]
        refine (or_iff_left_of_imp fun ha => ?_).symm
        obtain rfl := List.mem_singleton.mp ha
        obtain ⟨hash', hhash'⟩ := Option.isSome_iff_exists.mp
          (Std.ExtTreeMap.mem_iff_isSome_getElem?.mp huid)
        have hold : (uid, hash') ∈ s.accounts := mem_accounts.mpr hhash'
        rw [hclear _ hnew _ (List.mem_append_left _ hold) rfl]
        exact hold
      · rw [Directory.act_addUser_of_notMem huid, Std.ExtTreeMap.getElem?_insert, mem_accounts]
        obtain ⟨id, h⟩ := a
        by_cases hid : uid = id
        · subst hid
          simp [DirOp.accounts, Std.ExtTreeMap.getElem?_eq_none huid, eq_comm]
        · have hcmp : compare uid id ≠ .eq := fun hc => hid (Std.LawfulEqCmp.eq_of_compare hc)
          simp [DirOp.accounts, hcmp, Ne.symm hid]

end TrackerState

/-! ### What messages bring -/

/-- The account that an op registers on a peer. -/
def Op.accounts (H : Str → Str) (op : Op) : List Account := (op.dirOp H).accounts

namespace SyncMsg

/-- The accounts that a message brings: the one that an op registers, or those
of a snapshot. A snapshot that is too long is never read. -/
def accounts (H : Str → Str) : SyncMsg → List Account
  | op o => o.accounts H
  | snapshotData blob =>
      if (snapshotData blob).Sendable then (TrackerState.init.restore blob).2.accounts else []
  | hello _ | catchup _ | ack _ | snapshotRequest => []

/-- A snapshot that can be read. -/
def Loads (m : SyncMsg) : Prop := m.type = .syncSnapshotData ∧ m.Sendable

instance (m : SyncMsg) : Decidable m.Loads := inferInstanceAs (Decidable (_ ∧ _))

/-- A snapshot brings the accounts of the state it is taken of. -/
lemma accounts_snapshot {H : Str → Str} {s : TrackerState} (hs : s.WellFormed)
    (hsend : (snapshotData s.snapshot).Sendable) :
    (snapshotData s.snapshot).accounts H = s.accounts := by
  rw [accounts, if_pos hsend, hs.restore _ hsend]

end SyncMsg

/-- The accounts that these messages bring. -/
def accountsIn (H : Str → Str) (msgs : List SyncMsg) : List Account :=
  msgs.flatMap (SyncMsg.accounts H)

section

variable {H : Str → Str} (msgs msgs' : List SyncMsg) (m : SyncMsg) (ops : List Op)

@[simp] lemma accountsIn_nil : accountsIn H [] = [] := rfl

@[simp] lemma accountsIn_append :
    accountsIn H (msgs ++ msgs') = accountsIn H msgs ++ accountsIn H msgs' := List.flatMap_append

@[simp] lemma accountsIn_cons : accountsIn H (m :: msgs) = m.accounts H ++ accountsIn H msgs :=
  List.flatMap_cons

variable {msgs m}

lemma mem_accountsIn {a : Account} : a ∈ accountsIn H msgs ↔ ∃ m ∈ msgs, a ∈ m.accounts H :=
  List.mem_flatMap

lemma accountsIn_mono {msgs' : List SyncMsg} (h : msgs ⊆ msgs') :
    accountsIn H msgs ⊆ accountsIn H msgs' := by
  intro a ha
  obtain ⟨m, hm, ham⟩ := mem_accountsIn.mp ha
  exact mem_accountsIn.mpr ⟨m, h hm, ham⟩

/-- A message that is neither an op nor a snapshot brings none. -/
lemma accounts_eq_nil (hop : m.type ≠ .syncOp) (hdata : m.type ≠ .syncSnapshotData) :
    m.accounts H = [] := by
  cases m with
  | op op => exact absurd rfl hop
  | snapshotData blob => exact absurd rfl hdata
  | hello | catchup | ack | snapshotRequest => rfl

/-- **A message adds the accounts it brings** to a tracker that processes it, and
one that is no snapshot takes none away. -/
lemma mem_accounts_process {t : Tracker} (hsend : m.Sendable)
    (hdata : ∀ blob, m = .snapshotData blob → ∃ s : TrackerState, s.WellFormed ∧ blob = s.snapshot)
    (hclear : Unambiguous (t.state.accounts ++ m.accounts H)) {a : Account} :
    a ∈ (t.process H m).2.state.accounts ↔
      a ∈ m.accounts H ∨ m.type ≠ .syncSnapshotData ∧ a ∈ t.state.accounts := by
  cases m with
  | op op =>
      have hdir : (t.process H (.op op)).2.state.directory = t.state.directory.act (op.dirOp H) :=
        directory_applyRemote H t.state op
      rw [TrackerState.mem_accounts_act hdir hclear]
      exact ⟨fun h => h.symm.imp_right fun h => ⟨by simp [SyncMsg.type], h⟩,
        fun h => (h.imp_right And.right).symm⟩
  | snapshotData blob =>
      obtain ⟨s, hs, rfl⟩ := hdata blob rfl
      have hstate : (t.process H (.snapshotData s.snapshot)).2.state = s := by
        show (t.state.restore s.snapshot).2 = s
        rw [hs.restore _ hsend]
      rw [hstate, SyncMsg.accounts_snapshot hs hsend]
      exact (or_iff_left (by simp [SyncMsg.type])).symm
  | hello | catchup | ack | snapshotRequest =>
      simp [Tracker.process, SyncMsg.accounts, SyncMsg.type, Tracker.trim]

end

/-! ### What clients do -/

/-- The account that a call registers. -/
def Call.accounts (H : Str → Str) (c : Call) : List Account := (c.dirOp H).accounts

lemma Call.accounts_of_ne {H : Str → Str} {c : Call} (h : c.type ≠ .createUser) :
    c.accounts H = [] := by
  cases c with
  | createUser uid pwd => exact absurd rfl h
  | login | logout | stopShare | updateBitfield => rfl
  | createGroup | joinGroup | leaveGroup | acceptRequest | addFile =>
      rw [accounts, dirOp]
      split <;> rfl

/-- The call of an op is of the type of the op. -/
lemma type_of_opCall {type : UInt16} {payload : Str} {c : Call}
    (h : opCall type payload = some c) : type = c.type.code := by
  obtain ⟨t, ht, h⟩ := Option.bind_eq_some_iff.mp h
  obtain ⟨g, hg, h⟩ := Option.bind_eq_some_iff.mp h
  rw [((decode_eq_some_iff (codec_op hg)).mp h).1.1]
  exact MsgType.eq_code ht

namespace Server

variable {H : Str → Str} {sv : Server} {ev : ClientEvent}

/-- **A registration is recorded as it is made**, and nothing else is recorded as
one. -/
lemma accounts_of_accepted {c : Call} {op : Op} (hacc : ev.Accepted H sv c)
    (htype : op.type = c.type.code)
    (hpeer : ev.Faithful sv → opCall op.type op.payload = some c) :
    op.accounts H = c.accounts H := by
  by_cases hc : c.type = .createUser
  · have hfaith : ev.Faithful sv := by
      cases ev with
      | request fd type payload now =>
          obtain ⟨σ, hσ, hcall⟩ := Option.bind_eq_some_iff.mp hacc.1
          obtain ⟨t, ht, hlocal⟩ := Option.bind_eq_some_iff.mp hcall
          intro σ' t' _ htype' _
          obtain rfl : t = t' := MsgType.code_injective ((MsgType.eq_code ht).symm.trans htype')
          rw [(Session.type_of_localCall hlocal).1] at hc
          rw [hc]
          exact List.nil_prefix
      | connect fd ip hip => trivial
      | disconnect fd => trivial
    rw [Op.accounts, Op.dirOp, hpeer hfaith]
    rfl
  · rw [Call.accounts_of_ne hc, Op.accounts, Op.dirOp]
    cases hcall : opCall op.type op.payload with
    | none => rfl
    | some c' =>
        have htype' := (type_of_opCall hcall).symm.trans htype
        refine Call.accounts_of_ne fun hc' => hc ?_
        rw [← MsgType.code_injective htype', hc']

/-- What a client event does to the accounts: nothing, or what the one call does
that it records. -/
lemma Did.accounts_cases {o : Option Op} {t : Tracker} (h : Did H sv ev o t) :
    (o = none ∧ t.state.directory = sv.tracker.state.directory) ∨
    ∃ c op, o = some op ∧ ev.Accepted H sv c ∧ op.accounts H = c.accounts H ∧
      t.state.directory = sv.tracker.state.directory.act (c.dirOp H) := by
  cases h with
  | nothing => exact .inl ⟨rfl, rfl⟩
  | login hran => exact .inl ⟨rfl, hran.directory_eq⟩
  | logout _ hran => exact .inl ⟨rfl, hran.directory_eq⟩
  | mutated hacc hran _ htype _ hpeer =>
      exact .inr ⟨_, _, rfl, hacc, accounts_of_accepted hacc htype hpeer, hran.directory_eq⟩

/-- An account of the recorded op is one that an accepted call registers. -/
lemma Did.accounts_accepted {o : Option Op} {t : Tracker} (h : Did H sv ev o t) {a : Account}
    (ha : a ∈ accountsIn H (o.toList.map .op)) : ∃ c, ev.Accepted H sv c ∧ a ∈ c.accounts H := by
  rcases h.accounts_cases with ⟨rfl, -⟩ | ⟨c, op, rfl, hacc, hop, -⟩
  · cases ha
  · refine ⟨c, hacc, ?_⟩
    simpa [SyncMsg.accounts, hop] using ha

/-- **What a client event registers**: the accounts of the op that it records are
those it adds, unless an id is taken by another hash. -/
lemma Did.mem_accounts {o : Option Op} {t : Tracker} (h : Did H sv ev o t)
    (hnew : ∀ c, ev.Accepted H sv c → ∀ a ∈ c.accounts H, ∀ b ∈ sv.tracker.state.accounts,
      b.1 = a.1 → b = a) :
    (∀ a, a ∈ t.state.accounts ↔
        a ∈ sv.tracker.state.accounts ∨ a ∈ accountsIn H (o.toList.map .op)) ∧
      Unambiguous (accountsIn H (o.toList.map .op)) := by
  rcases h.accounts_cases with ⟨rfl, hdir⟩ | ⟨c, op, rfl, hacc, hop, hdir⟩
  · refine ⟨fun a => ?_, fun a ha => (by cases ha)⟩
    rw [TrackerState.mem_accounts, hdir, TrackerState.mem_accounts]
    simp
  · have honly : accountsIn H ((some op).toList.map .op) = c.accounts H := by
      simp [SyncMsg.accounts, hop]
    have hone : Unambiguous (c.accounts H) := (c.dirOp H).unambiguous_accounts
    rw [honly]
    refine ⟨fun a => TrackerState.mem_accounts_act hdir ?_, hone⟩
    exact sv.tracker.state.unambiguous_accounts.append hone (hnew c hacc)

end Server

end P2PShare
