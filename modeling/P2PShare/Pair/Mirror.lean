import P2PShare.Pair.Recovery

/-!
A tracker whose clients all use the other one.

* `land`: what a message on its way to a tracker makes of its directory.
* `Side.Waiting`: a tracker has asked for a snapshot and has not loaded it yet.
* `Pair.OneSided`: only one tracker has clients, it records nothing while it is waiting, and
  the link is lost only before the other one has got anything.
* `Held.OneSided` (**the condition**): that, and it records nothing while it has an answer in
  hand.
* `Mirror` (**the invariant**): the messages on their way to the other tracker make its
  directory that of the first, once its request for a snapshot has been answered.
* `directory_mirrored`: in these runs the directories are equal whenever the link is quiet,
  however often the other tracker has started again.
-/

namespace P2PShare

namespace TrackerState

variable {H : Str → Str} {s s' : TrackerState} {c : Call}

lemma eq_init_of_isEmpty (h : s.isEmpty = true) : s = init := by
  rw [isEmpty, Bool.and_eq_true, Std.ExtTreeMap.isEmpty_iff, Std.ExtTreeMap.isEmpty_iff] at h
  exact TrackerState.ext h.1 h.2

@[simp] lemma isEmpty_init : init.isEmpty = true := rfl

/-- Trackers with one directory are empty together. -/
lemma isEmpty_directory (hdir : s.directory = s'.directory) : s.isEmpty = s'.isEmpty := by
  have hview : ∀ s : TrackerState,
      s.isEmpty = (s.directory.users.isEmpty && s.directory.groups.isEmpty) := by
    intro s
    rw [Bool.eq_iff_iff]
    simp [isEmpty, directory, Std.ExtTreeMap.isEmpty_iff, Std.ExtTreeMap.map_eq_empty_iff]
  rw [hview, hview, hdir]

/-- **A call that succeeds** leaves a tracker with a user. -/
lemma Ran.isEmpty_eq_false (hran : Ran H s c s') (hs : s.WellFormed) : s'.isEmpty = false := by
  have hgroup : ∀ {gid : Str} {grp : Group}, s.groups[gid]? = some grp → grp.owner ∈ s.users :=
    fun hg => (hs.group _ _ hg).member _ (hs.group _ _ hg).owner
  cases hran with
  | createUser | login | logout => exact isEmpty_eq_false Std.ExtTreeMap.mem_insert_self
  | createGroup _ _ huser => exact isEmpty_eq_false (s := s.setGroup _ _) huser
  | joinGroup _ _ hg => exact isEmpty_eq_false (s := s.setGroup _ _) (hgroup hg)
  | dissolve _ _ hg => exact isEmpty_eq_false (s := { s with groups := _ }) (hgroup hg)
  | handoff _ _ hg => exact isEmpty_eq_false (s := s.setGroup _ _) (hgroup hg)
  | leave _ _ hg => exact isEmpty_eq_false (s := s.setGroup _ _) (hgroup hg)
  | acceptRequest _ _ _ hg => exact isEmpty_eq_false (s := s.setGroup _ _) (hgroup hg)
  | addSeeder _ _ _ hg => exact isEmpty_eq_false (s := s.setGroup _ _) (hgroup hg)
  | addFile _ _ _ hg => exact isEmpty_eq_false (s := s.setGroup _ _) (hgroup hg)
  | stopShare _ _ _ hg => exact isEmpty_eq_false (s := s.setGroup _ _) (hgroup hg)
  | updateBitfield _ _ _ hg => exact isEmpty_eq_false (s := s.setGroup _ _) (hgroup hg)

end TrackerState

/-! ### Messages and directories -/

/-- What a message makes of the directory of the tracker that processes it. -/
def SyncMsg.land (H : Str → Str) (d : Directory) : SyncMsg → Directory
  | .op o => d.act (o.dirOp H)
  | .snapshotData blob => (TrackerState.init.restore blob).2.directory
  | .hello _ | .catchup _ | .ack _ | .snapshotRequest => d

/-- The directory of a tracker when it has processed what is on its way. -/
def Side.landed (H : Str → Str) (x : Side) : Directory :=
  x.inbox.foldl (SyncMsg.land H) x.state.directory

/-- The message leaves an empty tracker empty. -/
def SyncMsg.Void : SyncMsg → Prop
  | .op _ => False
  | .snapshotData blob => blob = TrackerState.init.snapshot
  | .hello _ | .catchup _ | .ack _ | .snapshotRequest => True

/-- The tracker `y` has asked `x` for a snapshot, or is about to, and has not loaded it. -/
def Side.Waiting (y x : Side) : Prop :=
  y.Requested x ∨ ∃ m ∈ y.inbox, m.type = .syncSnapshotData

instance (y x : Side) : Decidable (y.Waiting x) :=
  inferInstanceAs (Decidable ((_ ∨ _) ∨ ∃ _ ∈ _, _))

namespace SyncMsg

variable {H : Str → Str} {m : SyncMsg} {d : Directory} {t : Tracker}

lemma land_of_ne (hop : m.type ≠ .syncOp) (hdata : m.type ≠ .syncSnapshotData) :
    m.land H d = d := by
  cases m with
  | op => exact absurd rfl hop
  | snapshotData => exact absurd rfl hdata
  | hello | catchup | ack | snapshotRequest => rfl

/-- Messages of these types change nothing where they land. -/
lemma foldl_land {msgs : List SyncMsg} (hno : ∀ m ∈ msgs, m.IsPlain ∨ m.IsRequest)
    (hop : opsIn msgs = []) (d : Directory) : msgs.foldl (land H) d = d := by
  induction msgs with
  | nil => rfl
  | cons m msgs ih =>
      rw [opsIn_cons, List.append_eq_nil_iff] at hop
      rw [List.foldl_cons, land_of_ne]
      · exact ih (fun m' hm' => hno m' (List.mem_cons_of_mem m hm')) hop.2
      · intro htype
        cases m with
        | op => cases hop.1
        | _ => cases htype
      · intro htype
        have hm := hno m List.mem_cons_self
        simp [IsPlain, IsRequest, htype] at hm

/-- **What a tracker processes lands** as the message says. -/
lemma land_process (hm : m.Sendable) (hdata : ∀ blob, m = .snapshotData blob →
      ∃ s : TrackerState, s.WellFormed ∧ blob = s.snapshot) :
    (t.process H m).2.state.directory = m.land H t.state.directory := by
  cases m with
  | op op => exact directory_applyRemote H t.state op
  | snapshotData blob =>
      obtain ⟨s, hs, rfl⟩ := hdata blob rfl
      show (t.state.restore s.snapshot).2.directory =
        (TrackerState.init.restore s.snapshot).2.directory
      rw [hs.restore t.state hm, hs.restore .init hm]
  | hello | catchup | ack | snapshotRequest => rfl

/-- The snapshot of an empty tracker leaves it empty. -/
lemma restore_init (s : TrackerState) :
    s.restore TrackerState.init.snapshot = (true, .init) :=
  TrackerState.WellFormed.init.restore s (by decide)

end SyncMsg

/-- A tracker that asks for a snapshot is empty. -/
lemma Side.isEmpty_of_request {x : Side} {r : Role} (h : SyncMsg.snapshotRequest ∈ x.request r) :
    x.state.isEmpty = true := by
  by_contra hfull
  have hfull : ¬ x.server.tracker.state.isEmpty = true := hfull
  cases r <;> simp [Side.request, Tracker.dialRequest, Tracker.acceptRequest, hfull] at h

/-! ### The tracker and its mirror -/

/-- The tracker `x` opens a link with a hello. -/
structure Greets (x y : Side) : Prop where
  early : x.phase = .down ∨ x.phase = .hello → y.inbox = [] ∧ y.phase = .down
  late : y.phase = .down → (x.phase = .down ∨ x.phase = .hello) ∨
    ∃ i rest, y.inbox = .hello i :: rest

/-- **The invariant** of a tracker `y` with the role `p` and the tracker `x` that mirrors it. -/
structure Mirror (H : Str → Str) (p : Role) (x y : Side) : Prop where
  bare : x.server.tracker.log = []
  asks : ∀ m ∈ x.phase.pending, m = .snapshotRequest
  sends : ∀ m ∈ y.inbox, m.type ≠ .syncOp ∧ m.type ≠ .syncCatchup
  idle : ¬ x.phase.Tested → x.state.isEmpty = true
  synced : x.phase.Tested → x.Requested y ∨ y.phase.linked = true ∧
    ((∀ m ∈ x.inbox, m.Sendable) → x.landed H = y.state.directory)
  void : y.state.isEmpty = true → x.state.isEmpty = true ∧ ∀ m ∈ x.inbox, m.Void
  waits : y.Waiting x → y.state.isEmpty = true
  back : ∀ blob, SyncMsg.snapshotData blob ∈ y.inbox → blob = TrackerState.init.snapshot
  session : y.phase ≠ .client
  greets : p = .acceptor → Greets x y

namespace Mirror

variable {H : Str → Str} {p : Role} {x x' y y' : Side}

/-- Without a link, and with a mirror that has nothing. -/
lemma of_cut (hx : x.phase = .down ∧ x.inbox = []) (hy : y.phase = .down ∧ y.inbox = [])
    (hempty : x.state.isEmpty = true) (hbare : x.server.tracker.log = []) : Mirror H p x y where
  bare := hbare
  asks m hm := by simp [hx.1, Phase.pending] at hm
  sends m hm := by simp [hy.2] at hm
  idle _ := hempty
  synced ht := by simp [hx.1, Phase.Tested] at ht
  void _ := ⟨hempty, by simp [hx.2]⟩
  waits hw := by simp [Side.Waiting, Side.Requested, hx.2, hy.1, hy.2, Phase.pending] at hw
  back blob hblob := by simp [hy.2] at hblob
  session := by simp [hy.1]
  greets _ := ⟨fun _ => ⟨hy.2, hy.1⟩, fun _ => .inl (.inl hx.1)⟩

/-- A client event of the tracker. -/
lemma client (h : Mirror H p x y) {ev : ClientEvent} {o : Option Op}
    (hwf : y.state.WellFormed) (hdid : Server.Did H y.server ev o y'.server.tracker)
    (hphase : y'.phase = y.phase) (hinbox : y'.inbox = y.inbox) (hfaith : ev.Faithful y.server)
    (hok : ev.Accepts H y.server → ¬ y.Waiting x) :
    Mirror H p { x with inbox := x.inbox ++ if y.phase.linked then o.toList.map .op else [] }
      y' := by
  have hgreets : ∀ x' : Side, x'.phase = x.phase → p = .acceptor → Greets x' y' := by
    intro x' hx' hp
    obtain ⟨hearly, hlate⟩ := h.greets hp
    constructor
    · rwa [hx', hphase, hinbox]
    · rwa [hx', hphase, hinbox]
  have hreq : ∀ x' : Side, x'.phase = x.phase → (x'.Requested y' ↔ x.Requested y) := by
    intro x' hx'
    rw [Side.Requested, Side.Requested, hx', hinbox]
  -- nothing is recorded, or one op, which lands as the call did
  rcases hdid.directory_cases with ⟨rfl, hdir⟩ | ⟨call, op, rfl, hacc, hran, hpeer⟩
  · have hempty : y'.state.isEmpty = y.state.isEmpty := TrackerState.isEmpty_directory hdir
    have hsame :
        (if y.phase.linked then (none : Option Op).toList.map SyncMsg.op else []) = [] := by
      simp
    rw [hsame, List.append_nil]
    refine ⟨h.bare, h.asks, hinbox ▸ h.sends, h.idle, fun ht => ?_, ?_, fun hw => ?_,
      hinbox ▸ h.back, hphase ▸ h.session, hgreets _ rfl⟩
    · rw [hreq x rfl, hphase]
      exact (h.synced ht).imp_right fun hs => ⟨hs.1, fun hsend => (hs.2 hsend).trans hdir.symm⟩
    · rw [hempty]
      exact h.void
    · rw [hempty]
      refine h.waits ?_
      rwa [Side.Waiting, Side.Requested, hphase, hinbox] at hw
  · have hfull : y'.state.isEmpty = false := hran.isEmpty_eq_false hwf
    refine ⟨h.bare, h.asks, hinbox ▸ h.sends, h.idle, fun ht => ?_, fun he => ?_, fun hw => ?_,
      hinbox ▸ h.back, hphase ▸ h.session, hgreets _ rfl⟩
    · refine (h.synced ht).imp (hreq _ rfl).mpr fun hs => ⟨hphase ▸ hs.1, fun hsend => ?_⟩
      rw [hs.1, if_pos rfl] at hsend ⊢
      have hold := hs.2 fun m hm => hsend m (List.mem_append_left _ hm)
      have hop : op.dirOp H = call.dirOp H := by rw [Op.dirOp, hpeer hfaith]
      show (x.inbox ++ [SyncMsg.op op]).foldl (SyncMsg.land H) x.state.directory = _
      rw [List.foldl_append]
      show (x.landed H).act (op.dirOp H) = _
      rw [hold, hop]
      exact hran.directory_eq.symm
    · rw [hfull] at he
      cases he
    -- while a snapshot is awaited the condition excludes what is accepted
    · refine absurd ?_ (hok hacc.accepts)
      rw [Side.Waiting, Side.Requested, hphase, hinbox] at hw
      rw [Side.Waiting, Side.Requested]
      refine hw.imp_left (Or.imp_right fun hmem => ?_)
      refine (List.mem_append.mp hmem).resolve_right fun hnew => ?_
      obtain ⟨op', -, heq⟩ := List.mem_map.mp (pushed_subset _ _ hnew)
      cases heq

/-- The tracker goes on setting up the link, and sends no ops. -/
lemma receive (h : Mirror H p x y) {phase : Phase} {msgs : List SyncMsg}
    (hno : ∀ m ∈ msgs, m.IsPlain ∨ m.IsRequest) (hop : opsIn msgs = [])
    (hlink : y.phase.linked = true → phase.linked = true) (hclient : phase ≠ .client)
    (hrole : p = .acceptor → y.phase ≠ .down ∧ phase ≠ .down)
    (hwaits : Side.Waiting { y with phase := phase } { x with inbox := x.inbox ++ msgs } →
      y.state.isEmpty = true) :
    Mirror H p { x with inbox := x.inbox ++ msgs } { y with phase := phase } := by
  refine ⟨h.bare, h.asks, h.sends, h.idle, fun ht => ?_, fun he => ⟨(h.void he).1, fun m hm => ?_⟩,
    hwaits, h.back, hclient, fun hp => ?_⟩
  · refine (h.synced ht).imp_right fun hs => ⟨hlink hs.1, fun hsend => ?_⟩
    rw [Side.landed]
    dsimp only
    rw [List.foldl_append, SyncMsg.foldl_land hno hop]
    exact hs.2 fun m hm => hsend m (List.mem_append_left _ hm)
  · rcases List.mem_append.mp hm with hold | hnew
    · exact (h.void he).2 m hold
    · cases m with
      | op o =>
          have hmem := mem_opsIn.mpr hnew
          rw [hop] at hmem
          cases hmem
      | snapshotData =>
          have hm' := hno _ hnew
          simp [SyncMsg.IsPlain, SyncMsg.IsRequest, SyncMsg.type] at hm'
      | hello | catchup | ack | snapshotRequest => trivial
  · obtain ⟨hne, hne'⟩ := hrole hp
    exact ⟨fun hx => absurd ((h.greets hp).early hx).2 hne, fun hd => absurd hd hne'⟩

/-- The tracker goes on without sending anything. -/
lemma peer_setPhase (h : Mirror H p x y) {phase : Phase}
    (hlink : y.phase.linked = true → phase.linked = true) (hclient : phase ≠ .client)
    (hrole : p = .acceptor → y.phase ≠ .down ∧ phase ≠ .down)
    (hwaits : Side.Waiting { y with phase := phase } x → y.state.isEmpty = true) :
    Mirror H p x { y with phase := phase } := by
  have hnil : { x with inbox := x.inbox ++ [] } = x := by rw [List.append_nil]
  have hmirror : Mirror H p { x with inbox := x.inbox ++ [] } { y with phase := phase } :=
    h.receive (fun m hm => by cases hm) rfl hlink hclient hrole (by rwa [hnil])
  rwa [hnil] at hmirror

/-- The mirror takes a step that does not test its state, and sends at most a hello. -/
lemma untested (h : Mirror H p x y) {phase : Phase} {rest msgs : List SyncMsg}
    (htest : ¬ x.phase.Tested) (htest' : ¬ phase.Tested) (hpending : phase.pending = [])
    (hrest : rest ⊆ x.inbox) (hhello : ∀ m ∈ msgs, m.type = .syncHello)
    (hgreets : p = .acceptor → Greets { x with phase := phase, inbox := rest }
      { y with inbox := y.inbox ++ msgs }) :
    Mirror H p { x with phase := phase, inbox := rest } { y with inbox := y.inbox ++ msgs } where
  bare := h.bare
  asks m hm := by
    rw [hpending] at hm
    cases hm
  sends m hm := by
    rcases List.mem_append.mp hm with hold | hnew
    · exact h.sends m hold
    · simp [hhello m hnew]
  idle _ := h.idle htest
  synced ht := absurd ht htest'
  void he := ⟨(h.void he).1, fun m hm => (h.void he).2 m (hrest hm)⟩
  waits hw := by
    refine h.waits (hw.imp (Or.imp_right fun hmem => hrest hmem) ?_)
    rintro ⟨m, hm, htype⟩
    refine ⟨m, (List.mem_append.mp hm).resolve_right fun hnew => ?_, htype⟩
    rw [hhello m hnew] at htype
    cases htype
  back blob hblob := by
    refine h.back blob ((List.mem_append.mp hblob).resolve_right fun hnew => ?_)
    cases hhello _ hnew
  session := h.session
  greets := hgreets

/-- The mirror takes such a step and sends nothing. -/
lemma skip (h : Mirror H p x y) {phase : Phase} {rest : List SyncMsg}
    (htest : ¬ x.phase.Tested) (htest' : ¬ phase.Tested) (hpending : phase.pending = [])
    (hrest : rest ⊆ x.inbox)
    (hgreets : p = .acceptor → Greets { x with phase := phase, inbox := rest } y) :
    Mirror H p { x with phase := phase, inbox := rest } y := by
  have hnil : { y with inbox := y.inbox ++ [] } = y := by rw [List.append_nil]
  have hmirror : Mirror H p { x with phase := phase, inbox := rest }
      { y with inbox := y.inbox ++ [] } :=
    h.untested htest htest' hpending hrest (fun m hm => by cases hm) (by rwa [hnil])
  rwa [hnil] at hmirror

/-- The mirror tests its state, which is empty. -/
lemma choose (h : Mirror H p x y) (hphase : x.phase = .choose) :
    Mirror H p { x with phase := .ask (x.request p.peer) } y := by
  have hempty := h.idle (by rw [hphase]; exact id)
  have hrequest : x.request p.peer = [.snapshotRequest] := by
    have hempty' : x.server.tracker.state.isEmpty = true := hempty
    cases p
    · exact if_pos hempty'
    · exact congrArg (fun m => [m]) (if_pos hempty')
  rw [hrequest]
  refine { h with
    asks := fun m hm => List.mem_singleton.mp hm
    idle := fun ht => absurd trivial ht
    synced := fun _ => .inl (.inl List.mem_cons_self)
    greets := fun hp => ⟨fun hx => ?_, fun hd => .inr ?_⟩ }
  · rcases hx with hx | hx <;> cases hx
  · exact ((h.greets hp).late hd).resolve_left (by simp [hphase])

/-- The mirror sends its request. -/
lemma ask (h : Mirror H p x y) {request : List SyncMsg} (hphase : x.phase = .ask request) :
    Mirror H p { x with phase := .up } { y with inbox := y.inbox ++ request } := by
  have hasks : ∀ m ∈ request, m = .snapshotRequest := by
    have hold := h.asks
    rw [hphase] at hold
    exact hold
  have hnew : ∀ {m : SyncMsg}, m ∈ y.inbox ++ request → m ≠ .snapshotRequest → m ∈ y.inbox :=
    fun hm hne => (List.mem_append.mp hm).resolve_right fun hr => hne (hasks _ hr)
  refine ⟨h.bare, fun m hm => ?_, fun m hm => ?_, fun ht => absurd trivial ht, fun _ => ?_,
    h.void, fun hw => ?_, fun blob hblob => h.back blob (hnew hblob (by simp)), h.session,
    fun hp => ⟨fun hx => ?_, fun hd => .inr ?_⟩⟩
  · cases hm
  · rcases List.mem_append.mp hm with hold | hr
    · exact h.sends m hold
    · rw [hasks m hr]
      simp [SyncMsg.type]
  · refine (h.synced (by rw [hphase]; trivial)).imp_left fun hreq => .inr ?_
    rw [Side.Requested, hphase] at hreq
    exact List.mem_append.mpr hreq.symm
  · refine h.waits (hw.imp_right ?_)
    rintro ⟨m, hm, htype⟩
    refine ⟨m, hnew hm fun heq => ?_, htype⟩
    rw [heq] at htype
    cases htype
  · rcases hx with hx | hx <;> cases hx
  · obtain ⟨i, rest, hin⟩ := ((h.greets hp).late hd).resolve_left (by simp [hphase])
    exact ⟨i, rest ++ request, by rw [hin]; rfl⟩

/-- The mirror processes a message. -/
lemma answer (h : Mirror H p x y) {m : SyncMsg} {rest : List SyncMsg} (hinbox : x.inbox = m :: rest)
    (hup : x.phase = .up) (hm : m.Sendable) (hdata : ∀ blob, m = .snapshotData blob →
      ∃ s : TrackerState, s.WellFormed ∧ blob = s.snapshot)
    (hphase : x'.phase = x.phase) (hrest : x'.inbox = rest)
    (htracker : x'.server.tracker = (x.server.tracker.process H m).2) :
    Mirror H p x' { y with inbox := y.inbox ++ (x.server.tracker.process H m).1 } := by
  have htested : x'.phase.Tested := by rw [hphase, hup]; trivial
  have hmem : m ∈ x.inbox := hinbox ▸ List.mem_cons_self
  have hsub : x'.inbox ⊆ x.inbox := by
    rw [hrest, hinbox]
    exact List.subset_cons_self m rest
  have hback : ∀ blob, SyncMsg.snapshotData blob ∈ (x.server.tracker.process H m).1 →
      y.Waiting x ∧ blob = x.state.snapshot := by
    intro blob hblob
    rcases Tracker.answer_cases hblob with ⟨n, -, op, -, heq⟩ | ⟨op, -, heq⟩ | ⟨rfl, heq⟩
    · cases heq
    · cases heq
    · exact ⟨.inl (.inr hmem), SyncMsg.snapshotData.inj heq⟩
  refine ⟨?_, fun m' hm' => ?_, fun m' hm' => ?_, fun ht => absurd htested ht, fun _ => ?_,
    fun he => ⟨?_, fun m' hm' => (h.void he).2 m' (hsub hm')⟩, fun hw => ?_, fun blob hblob => ?_,
    h.session, fun hp => ⟨fun hx => ?_, fun hd => .inr ?_⟩⟩
  · refine List.eq_nil_of_subset_nil ?_
    rw [htracker, ← h.bare]
    exact (x.server.tracker.process_log H m).2
  · rw [hphase, hup] at hm'
    cases hm'
  · rcases List.mem_append.mp hm' with hold | hnew
    · exact h.sends m' hold
    · rcases Tracker.answer_cases hnew with ⟨n, -, op, hop, -⟩ | ⟨op, -, rfl⟩ | ⟨-, rfl⟩
      · rw [h.bare] at hop
        cases hop
      · simp [SyncMsg.type]
      · simp [SyncMsg.type]
  -- what is left of the inbox lands where all of it did
  · refine (h.synced (by rw [hup]; trivial)).imp (fun hreq => ?_) fun hs =>
      ⟨hs.1, fun hsend => ?_⟩
    · rw [Side.Requested, hphase]
      exact hreq.imp_right (List.mem_append_left _)
    · refine Eq.trans ?_ (hs.2 fun m' hm' => ?_)
      · rw [Side.landed, Side.landed, hrest, hinbox, List.foldl_cons, Side.state, htracker]
        exact congrArg (rest.foldl (SyncMsg.land H)) (SyncMsg.land_process hm hdata)
      · rw [hinbox] at hm'
        rcases List.mem_cons.mp hm' with rfl | hm'
        · exact hm
        · exact hsend m' (hrest ▸ hm')
  -- no op comes to an empty tracker, and no snapshot but that of an empty one
  · have hvoid := (h.void he).2 m hmem
    have hempty := (h.void he).1
    rw [Side.state, htracker]
    cases m with
    | op => exact hvoid.elim
    | snapshotData blob =>
        obtain rfl : blob = _ := hvoid
        show (x.state.restore TrackerState.init.snapshot).2.isEmpty = true
        rw [SyncMsg.restore_init]
        rfl
    | hello | catchup | ack | snapshotRequest => exact hempty
  · rcases hw with hreq | ⟨m', hm', htype⟩
    · exact h.waits (.inl (hreq.imp_right fun hr => hsub hr))
    · rcases List.mem_append.mp hm' with hold | hnew
      · exact h.waits (.inr ⟨m', hold, htype⟩)
      · cases m' with
        | snapshotData blob => exact h.waits (hback blob hnew).1
        | _ => cases htype
  · rcases List.mem_append.mp hblob with hold | hnew
    · exact h.back blob hold
    · obtain ⟨hw, rfl⟩ := hback blob hnew
      rw [TrackerState.eq_init_of_isEmpty (h.void (h.waits hw)).1]
  · rw [hphase, hup] at hx
    rcases hx with hx | hx <;> cases hx
  · obtain ⟨i, rest', hin⟩ := ((h.greets hp).late hd).resolve_left (by simp [hup])
    exact ⟨i, _, by rw [hin]; rfl⟩

/-- The tracker processes a message, which leaves its state as it is. -/
lemma peer_state (h : Mirror H p x y) {m : SyncMsg} {rest : List SyncMsg}
    (hinbox : y.inbox = m :: rest) : (y.server.tracker.process H m).2.state = y.state := by
  have hmem : m ∈ y.inbox := hinbox ▸ List.mem_cons_self
  cases m with
  | op => exact absurd rfl (h.sends _ hmem).1
  | snapshotData blob =>
      obtain rfl := h.back blob hmem
      have hempty := h.waits (.inr ⟨_, hmem, rfl⟩)
      show (y.state.restore TrackerState.init.snapshot).2 = y.state
      rw [SyncMsg.restore_init, TrackerState.eq_init_of_isEmpty hempty]
  | hello | catchup | ack | snapshotRequest => rfl

/-- The tracker processes a message. -/
lemma peer_answer (h : Mirror H p x y) {m : SyncMsg} {rest : List SyncMsg}
    (hinbox : y.inbox = m :: rest) (hup : y.phase = .up) (hwf : y.state.WellFormed)
    (hphase : y'.phase = y.phase) (hrest : y'.inbox = rest)
    (htracker : y'.server.tracker = (y.server.tracker.process H m).2) :
    Mirror H p { x with inbox := x.inbox ++ (y.server.tracker.process H m).1 } y' := by
  have hmem : m ∈ y.inbox := hinbox ▸ List.mem_cons_self
  have hsub : y'.inbox ⊆ y.inbox := by
    rw [hrest, hinbox]
    exact List.subset_cons_self m rest
  have hstate : y'.state = y.state := by
    rw [Side.state, htracker]
    exact h.peer_state hinbox
  have hanswer : ∀ m' ∈ (y.server.tracker.process H m).1,
      m = .snapshotRequest ∧ m' = .snapshotData y.state.snapshot := by
    intro m' hm'
    rcases Tracker.answer_cases hm' with ⟨n, rfl, -⟩ | ⟨op, rfl, -⟩ | hdata
    · exact absurd rfl (h.sends _ hmem).2
    · exact absurd rfl (h.sends _ hmem).1
    · exact hdata
  have hsame : y'.phase ≠ .down := by simp [hphase, hup]
  refine ⟨h.bare, h.asks, fun m' hm' => h.sends m' (hsub hm'), h.idle, fun ht => ?_, fun he => ?_,
    fun hw => ?_, fun blob hblob => h.back blob (hsub hblob), hphase ▸ h.session,
    fun hp => ⟨fun hx => ?_, fun hd => absurd hd hsame⟩⟩
  · have hlinked : y'.phase.linked = true := by rw [hphase, hup]; rfl
    by_cases hreq : m = .snapshotRequest
    · -- the snapshot overwrites whatever came before it
      subst hreq
      refine .inr ⟨hlinked, fun hsend => ?_⟩
      have hdata : (SyncMsg.snapshotData y.state.snapshot).Sendable :=
        hsend _ (List.mem_append_right _ List.mem_cons_self)
      show (x.inbox ++ [SyncMsg.snapshotData y.state.snapshot]).foldl (SyncMsg.land H) _ = _
      rw [List.foldl_append, hstate]
      show (TrackerState.init.restore y.state.snapshot).2.directory = _
      rw [hwf.restore .init hdata]
    · have hnone : (y.server.tracker.process H m).1 = [] :=
        List.eq_nil_iff_forall_not_mem.mpr fun m' hm' => hreq (hanswer m' hm').1
      rw [hnone, List.append_nil, hstate]
      refine (h.synced ht).imp (Or.imp_right fun hr => ?_) fun hs => ⟨hlinked, hs.2⟩
      rw [hinbox] at hr
      rw [hrest]
      exact (List.mem_cons.mp hr).resolve_left (Ne.symm hreq)
  · rw [hstate] at he
    refine ⟨(h.void he).1, fun m' hm' => ?_⟩
    rcases List.mem_append.mp hm' with hold | hnew
    · exact (h.void he).2 m' hold
    · obtain ⟨-, rfl⟩ := hanswer m' hnew
      exact congrArg TrackerState.snapshot (TrackerState.eq_init_of_isEmpty he)
  · rw [hstate]
    rcases hw with hreq | ⟨m', hm', htype⟩
    · refine h.waits (.inl ?_)
      rw [Side.Requested, hphase] at hreq
      refine hreq.imp_right fun hr => (List.mem_append.mp hr).resolve_right fun hnew => ?_
      cases (hanswer _ hnew).2
    · exact h.waits (.inr ⟨m', hsub hm', htype⟩)
  · have hdown := ((h.greets hp).early hx).2
    rw [hup] at hdown
    cases hdown

/-- The tracker accepts the connection. -/
lemma accept (h : Mirror H .acceptor x y) {m : SyncMsg} {rest : List SyncMsg}
    (hinbox : y.inbox = m :: rest) (hdown : y.phase = .down) :
    m.type = .syncHello ∧ Mirror H .acceptor x { y with phase := .choose, inbox := rest } := by
  have hmem : ∀ {m'}, m' ∈ rest → m' ∈ y.inbox := fun hm' => hinbox ▸ List.mem_cons_of_mem m hm'
  have hnot : ¬ (x.phase = .down ∨ x.phase = .hello) := by
    intro hx
    have hnil := ((h.greets rfl).early hx).1
    rw [hinbox] at hnil
    cases hnil
  obtain ⟨i, rest', hin⟩ := ((h.greets rfl).late hdown).resolve_left hnot
  obtain ⟨rfl, -⟩ := List.cons.inj (hinbox.symm.trans hin)
  refine ⟨rfl, h.bare, h.asks, fun m' hm' => h.sends m' (hmem hm'), h.idle, fun ht => ?_, h.void,
    fun hw => ?_, fun blob hblob => h.back blob (hmem hblob), by simp, fun _ =>
      ⟨fun hx => absurd hx hnot, fun hd => ?_⟩⟩
  · rcases h.synced ht with hreq | ⟨hlink, -⟩
    · refine .inl (hreq.imp_right fun hr => ?_)
      rw [hinbox] at hr
      exact (List.mem_cons.mp hr).resolve_left (by simp)
    · rw [hdown] at hlink
      cases hlink
  · rcases hw with (hr | hr) | ⟨m', hm', htype⟩
    · cases hr
    · exact h.waits (.inl (.inr hr))
    · exact h.waits (.inr ⟨m', hmem hm', htype⟩)
  · cases hd

end Mirror

namespace Pair

variable {H : Str → Str} {p r : Role} {c c' : Pair}

/-- On a step of the pair: clients use the tracker `p` only, which records nothing while it
waits for a snapshot, and the link is lost only before the other one has got anything. -/
def OneSided (H : Str → Str) (p : Role) (c : Pair) : Event → Prop
  | .client r ev => r = p ∧ ev.Faithful (c p).server ∧
      (ev.Accepts H (c p).server → ¬ (c p).Waiting (c p.peer))
  | .drop => (c p.peer).state.isEmpty = true
  | .dial | .advance _ | .deliver _ | .restart _ => True

/-- **The invariant.** -/
structure Mirroring (H : Str → Str) (p : Role) (c : Pair) : Prop where
  sane : c.Sane
  mirror : Mirror H p (c p.peer) (c p)

namespace Mirroring

lemma of {x y : Side} (hsane : c.Sane) (hself : c p = y) (hpeer : c p.peer = x)
    (hmirror : Mirror H p x y) : Mirroring H p c := by
  subst hself hpeer
  exact ⟨hsane, hmirror⟩

lemma start : Mirroring H p fun _ => .start where
  sane _ := .start
  mirror := .of_cut ⟨rfl, rfl⟩ ⟨rfl, rfl⟩ rfl rfl

/-- A client event. -/
lemma client (h : Mirroring H p c) {ev : ClientEvent} (hok : c.OneSided H p (.client r ev)) :
    Mirroring H p (c.client H r ev) := by
  obtain ⟨rfl, hfaith, hwait⟩ := hok
  refine .of (h.sane.step (e := .client r ev) rfl) (c.client_self H r ev) (c.client_peer H r ev) ?_
  exact h.mirror.client (h.sane r).wellFormed (Server.serve_did H _ ev) rfl rfl hfaith hwait

/-- Tracker 0 dials. -/
lemma dial (h : Mirroring H p c) (hstep : c.step H .dial = some c') : Mirroring H p c' := by
  have hsane := h.sane.step hstep
  rw [Pair.step] at hstep
  split at hstep
  · next hdown =>
      obtain rfl := Option.some.inj hstep
      have hself := c.set_self .dialer { c .dialer with phase := .hello }
      have hpeer := c.set_peer .dialer { c .dialer with phase := .hello }
      cases p with
      | dialer =>
          refine .of hsane hself hpeer (h.mirror.peer_setPhase (fun _ => rfl) (by simp)
            (fun hp => by cases hp) fun hw => h.mirror.waits ?_)
          rwa [Side.Waiting, Side.Requested, hdown]
      | acceptor =>
          have hearly := (h.mirror.greets rfl).early (.inl hdown)
          refine .of hsane hpeer hself (h.mirror.skip (by simp [hdown, Phase.Tested]) id rfl
            (List.Subset.refl _) fun _ => ⟨fun _ => hearly, fun _ => .inl (.inr rfl)⟩)
  · cases hstep

/-- The next step of setting up the link. -/
lemma advance (h : Mirroring H p c) (hstep : c.step H (.advance r) = some c') :
    Mirroring H p c' := by
  have hsane := h.sane.step hstep
  rcases Role.eq_or_eq_peer p r with rfl | rfl
  -- the restarted tracker goes on setting up the link
  · rcases advance_cases hstep with
      ⟨hphase, hself, hpeer⟩ | ⟨hphase, hself, hpeer⟩ | ⟨request, hphase, hself, hpeer⟩
    · refine .of hsane hself hpeer (h.mirror.receive (fun m hm => ?_) rfl (fun _ => rfl) (by simp)
        (fun _ => ⟨by simp [hphase], by simp⟩) fun hw => h.mirror.waits ?_)
      · rw [List.mem_singleton.mp hm]
        exact .inl (.inl rfl)
      · rw [Side.Waiting, Side.Requested] at hw ⊢
        simpa [hphase, Phase.pending] using hw
    · refine .of hsane hself hpeer (h.mirror.peer_setPhase (fun _ => rfl) (by simp)
        (fun _ => ⟨by simp [hphase], by simp⟩) fun hw => ?_)
      rcases hw with (hr | hr) | hd
      · exact Side.isEmpty_of_request hr
      · exact h.mirror.waits (.inl (.inr hr))
      · exact h.mirror.waits (.inr hd)
    · have hrequest : ∀ m ∈ request, m.IsRequest := fun m hm =>
        (h.sane r).pending m (by rw [hphase]; exact hm)
      refine .of hsane hself hpeer (h.mirror.receive (fun m hm => .inr (hrequest m hm)) ?_
        (fun _ => rfl) (by simp) (fun _ => ⟨by simp [hphase], by simp⟩) fun hw => h.mirror.waits ?_)
      · refine List.eq_nil_iff_forall_not_mem.mpr fun op hop => ?_
        have hm := hrequest _ (mem_opsIn.mp hop)
        simp [SyncMsg.IsRequest, SyncMsg.type] at hm
      · rcases hw with (hr | hr) | hd
        · cases hr
        · rw [Side.Waiting, Side.Requested, hphase]
          exact .inl ((List.mem_append.mp hr).symm)
        · exact .inr hd
  -- its peer goes on
  · rcases advance_cases hstep with
      ⟨hphase, hself, hpeer⟩ | ⟨hphase, hself, hpeer⟩ | ⟨request, hphase, hself, hpeer⟩
    · rw [Role.peer_peer] at hpeer
      refine .of hsane hpeer hself (h.mirror.untested (by simp [hphase, Phase.Tested]) id rfl
        (List.Subset.refl _) (fun m hm => ?_) fun hp => ?_)
      · rw [List.mem_singleton.mp hm]
        rfl
      · refine ⟨fun hx => ?_, fun _ => .inr ?_⟩
        · rcases hx with hx | hx <;> cases hx
        · rw [((h.mirror.greets hp).early (.inr hphase)).1]
          exact ⟨_, [], rfl⟩
    · rw [Role.peer_peer] at hpeer
      exact .of hsane hpeer hself (h.mirror.choose hphase)
    · rw [Role.peer_peer] at hpeer
      exact .of hsane hpeer hself (h.mirror.ask hphase)

/-- A delivery. -/
lemma deliver (h : Mirroring H p c) (hstep : c.step H (.deliver r) = some c') :
    Mirroring H p c' := by
  have hsane := h.sane.step hstep
  obtain ⟨m, rest, hinbox, hm, hcase⟩ := deliver_cases hstep
  rcases hcase with ⟨hup, rfl⟩ | ⟨rfl, hdialer, hcase⟩
  · have hself := c.process_self H r m rest
    have hpeer := c.process_peer H r m rest
    rcases Role.eq_or_eq_peer p r with rfl | rfl
    · refine .of hsane hself hpeer ?_
      exact h.mirror.peer_answer hinbox hup (h.sane r).wellFormed rfl rfl rfl
    · rw [Role.peer_peer] at hpeer
      refine .of hsane hpeer hself (h.mirror.answer hinbox hup hm (fun blob heq => ?_) rfl rfl rfl)
      exact (h.sane p.peer).data blob (by rw [hinbox, heq]; exact List.mem_cons_self)
  · cases p with
    | acceptor =>
        have hmirror := h.mirror
        rcases hcase with ⟨hphase, -, hself⟩ | ⟨hphase, hhello, -⟩ | ⟨hphase, -⟩
        · exact .of hsane hself hdialer (hmirror.accept hinbox hphase).2
        · exact absurd (hmirror.accept hinbox hphase).1 hhello
        · exact absurd hphase hmirror.session
    | dialer =>
        have hrest : rest ⊆ (c .acceptor).inbox := hinbox ▸ List.subset_cons_self m rest
        have htake : ∀ phase : Phase, ¬ (c .acceptor).phase.Tested → ¬ phase.Tested →
            phase.pending = [] → c' .acceptor = { c .acceptor with phase := phase, inbox := rest } →
            Mirroring H .dialer c' := by
          intro phase htest htest' hpending hself
          exact .of hsane hdialer hself (h.mirror.skip htest htest' hpending hrest
            fun hp => by cases hp)
        rcases hcase with ⟨hphase, -, hself⟩ | ⟨hphase, -, hself⟩ | ⟨hphase, hself⟩
        · exact htake .choose (by simp [hphase, Phase.Tested]) id rfl hself
        · exact htake .client (by simp [hphase, Phase.Tested]) id rfl hself
        · exact htake .client (by simp [hphase, Phase.Tested]) id rfl (by rw [hself, ← hphase])

/-- The link is lost. -/
lemma drop (h : Mirroring H p c) (hok : c.OneSided H p .drop) (hstep : c.step H .drop = some c') :
    Mirroring H p c' := by
  have hsane := h.sane.step hstep
  rw [Pair.step] at hstep
  split at hstep
  · cases hstep
  · obtain rfl := Option.some.inj hstep
    exact .of hsane rfl rfl (.of_cut ⟨rfl, rfl⟩ ⟨rfl, rfl⟩ hok h.mirror.bare)

/-- The mirror starts again. -/
lemma restart (h : Mirroring H p c) (hstep : c.step H (.restart p.peer) = some c') :
    Mirroring H p c' := by
  refine .of (h.sane.step hstep) (x := .start) (y := { (c p).cut with processed := [] }) ?_ ?_
    (.of_cut ⟨rfl, rfl⟩ ⟨rfl, rfl⟩ rfl rfl)
  · obtain rfl := Option.some.inj hstep
    exact if_neg p.ne_peer
  · obtain rfl := Option.some.inj hstep
    exact if_pos rfl

/-- **Every step** that meets the condition keeps the invariant. -/
lemma step (h : Mirroring H p c) {e : Event} (hspare : e.Spares p) (hok : c.OneSided H p e)
    (hstep : c.step H e = some c') : Mirroring H p c' := by
  cases e with
  | client r ev =>
      obtain rfl : c.client H r ev = c' := Option.some.inj hstep
      exact h.client hok
  | dial => exact h.dial hstep
  | advance r => exact h.advance hstep
  | deliver r => exact h.deliver hstep
  | drop => exact h.drop hok hstep
  | restart r =>
      obtain rfl : r = p.peer := (Role.eq_or_eq_peer p r).resolve_left hspare
      exact h.restart hstep

/-- Where the link is quiet, the directories are equal. -/
lemma quiet (h : Mirroring H p c) (hquiet : c.Quiet) :
    (c p.peer).state.directory = (c p).state.directory := by
  obtain ⟨hup, hin⟩ := hquiet p.peer
  have hnot : ¬ (c p.peer).Requested (c p) := by
    simp [Side.Requested, hup, (hquiet p).2, Phase.pending]
  obtain ⟨-, hland⟩ := (h.mirror.synced (by rw [hup]; trivial)).resolve_left hnot
  simpa [Side.landed, hin] using hland (by simp [hin])

end Mirroring

end Pair

namespace Held

variable {H : Str → Str} {p : Role} {s s' : Held}

/-- **The condition**: what `Pair.OneSided` says of the pair with the answers on their way,
and `p` records no op while it has an answer in hand. -/
def OneSided (H : Str → Str) (p : Role) (s : Held) : HeldEvent → Prop
  | .event (.client r ev) => s.flush.OneSided H p (.client r ev) ∧
      (ev.Accepts H (s.pair p).server → s.held p = [])
  | .event e => s.flush.OneSided H p e
  | .send _ => True

/-- **Every step** that meets the condition is one of the pair with the answers on their
way, or leaves that pair as it is. -/
lemma OneSided.flush {e : HeldEvent} (hok : s.OneSided H p e) (hstep : s.step H e = some s') :
    s'.flush = s.flush ∨ ∃ e', e = .event e' ∧ s.flush.OneSided H p e' ∧
      s.flush.step H e' = some s'.flush := by
  cases e with
  | send r => exact .inl (flush_send hstep)
  | event e =>
      refine .inr ⟨e, rfl, ?_⟩
      cases e with
      | client r ev =>
          obtain rfl := Option.some.inj hstep
          obtain ⟨hsided, hheld⟩ := hok
          obtain rfl := hsided.1
          refine ⟨hsided, congrArg some (client_flush_eq ?_).symm⟩
          rcases (Server.serve_did H (s.pair r).server ev).directory_cases with
            ⟨hnone, -⟩ | ⟨call, op, -, hacc, -⟩
          · exact .inr hnone
          · exact .inl (hheld hacc.accepts)
      | dial | advance r | deliver r | drop | restart r =>
          exact ⟨hok, flush_step (by simp) hstep⟩

/-- **The mirror**: in every run in which only the tracker `p` has clients and meets the
condition, the two directories are equal whenever the link is quiet. -/
theorem directory_mirrored
    (h : Run (step H) (fun s e => e.Spares p ∧ s.OneSided H p e) start s) (hquiet : s.Quiet) :
    (s.pair p.peer).state.directory = (s.pair p).state.directory := by
  have hmirror : Pair.Mirroring H p s.flush := by
    refine h.invariant (I := fun s => Pair.Mirroring H p s.flush) .start fun hI hok hstep => ?_
    rcases hok.2.flush hstep with hsame | ⟨e, rfl, hsided, hflush⟩
    · rwa [hsame]
    · exact hI.step hok.1 hsided hflush
  exact hmirror.quiet hquiet.flush

/-- A user registers on tracker 0, and tracker 1 starts again before the link is up. -/
theorem directory_mirrored_restarted :
    let s := (exec (step id) start (userZero ++ ([.event (.restart .acceptor)] ++
      Pair.linking.map .event ++ [.event (.deliver .dialer), .send .dialer,
        .event (.deliver .acceptor), .event (.deliver .acceptor)]))).get (by decide +kernel)
    [1] ∈ (s.pair .dialer).state.users ∧
      (s.pair .acceptor).state.directory = (s.pair .dialer).state.directory := by
  intro s
  have hlater : ∀ e ∈ [.event (.restart .acceptor)] ++ Pair.linking.map .event ++
      [.event (.deliver .dialer), .send .dialer, .event (.deliver .acceptor),
        .event (.deliver .acceptor)],
      ∀ s : Held, e.Spares .dialer ∧ s.OneSided id .dialer e := by
    simp [Pair.linking, HeldEvent.Spares, Event.Spares, OneSided, Pair.OneSided]
  have hmeets : Meets (step id) (fun s e => e.Spares .dialer ∧ s.OneSided id .dialer e) start
      (userZero ++ ([.event (.restart .acceptor)] ++ Pair.linking.map .event ++
        [.event (.deliver .dialer), .send .dialer, .event (.deliver .acceptor),
          .event (.deliver .acceptor)])) := by
    refine ⟨⟨trivial, ⟨rfl, trivial, fun hacc => ?_⟩, fun _ => rfl⟩, fun s₁ h₁ => ?_⟩
    · obtain ⟨call, hcall, -⟩ := hacc
      cases hcall
    obtain rfl : _ = s₁ := Option.some.inj h₁
    refine ⟨⟨trivial, ⟨rfl, ?_, fun _ => by decide⟩, fun _ => rfl⟩,
      fun s₂ _ => meets_of_always hlater s₂⟩
    exact (ClientEvent.noTrailing_request (by decide) 7 0).faithful _
  refine ⟨by decide +kernel, ?_⟩
  exact directory_mirrored (p := .dialer) (Run.of_exec hmeets (Option.some_get _).symm)
    (by decide +kernel)

end Held

end P2PShare
