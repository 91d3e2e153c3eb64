import P2PShare.Client.Jobs
import P2PShare.Client.Messages
import P2PShare.Client.PeerList

/-!
The commands of `client/main.cpp` that touch the session or what the client shares, with the
downloads that end in the meantime.

* `tokenize` and `command`: a line that is typed; `Surroundings`: what the tracker and the files
  answer while it is carried out.
* `Console.after`: a command, or a download that shares its file, is done or has failed.
* `Silent`: a client that has logged out serves nothing.
* `silent_iff`: it does in the histories in which nothing is shared at a logout, and no download
  shares its file after one. `logged_out_serving` is one where something is.
-/

namespace P2PShare

open PieceStore

/-! ### Commands -/

/-- `std::isspace`. -/
def isSpace (c : UInt8) : Bool := c == 32 || decide (9 ≤ c ∧ c ≤ 13)

/-- `tokenize`. -/
def tokenize (line : Str) : List Str := (line.splitOnP isSpace).filter (· ≠ [])

/-- The commands that touch the session, the shares or the downloads. -/
inductive Command
  | login (uid pwd : Str)
  | uploadFile (group path : Str)
  | downloadFile (group file dest : Str)
  | stopShare (group file : Str)
  | logout
  | other
deriving DecidableEq

/-- The chain of comparisons in `main`. -/
def command (t : List Str) : Command :=
  match t with
  | [c, a, b] =>
      if c = ascii "login" then .login a b
      else if c = ascii "upload_file" then .uploadFile a b
      else if c = ascii "stop_share" then .stopShare a b
      else .other
  | [c, a, b, d] => if c = ascii "download_file" then .downloadFile a b d else .other
  | [c] => if c = ascii "logout" then .logout else .other
  | _ => .other

/-- `path.substr(path.find_last_of('/') + 1)`. -/
def basename (path : Str) : Str := (path.reverse.takeWhile (· ≠ Job.slash)).reverse

/-- What a command meets: the status and the payload that `tracker.request` returns, if it
returns true; the size and the piece hashes of `hash_file`, if it can read the file; and the
file as `open_for_seed` opens it, if it can. -/
structure Surroundings where
  reply : Option (UInt16 × Str)
  hashed : Option (UInt64 × Str)
  reopened : Option Str
deriving DecidableEq

/-- The client: `logged_in_as`, the login on file, the downloads with those that have called
`add_share`, and the share table; and for the record whether the last logout is behind the last
login that succeeded. -/
structure Console where
  loggedInAs : Str
  lastLogin : Option (Str × Str × UInt16)
  downloads : DownloadManager
  shared : List ℕ
  shares : ShareKey → Option PieceStore
  loggedOut : Bool

/-- A line is typed, or one of the downloads goes on. -/
inductive ConsoleEvent
  | typed (line : Str) (around : Surroundings)
  | addShare (j : ℕ) (store : PieceStore)
  | setDone (j : ℕ)
  | setFailed (j : ℕ)

namespace Console

/-- The client when the first prompt appears. -/
def init : Console := ⟨[], none, .init, [], fun _ => none, false⟩

/-- `Seeder::add_share`. -/
def addShare (s : Console) (k : ShareKey) (store : PieceStore) : Console :=
  { s with shares := Function.update s.shares k (some store) }

/-- `Seeder::remove_share`. -/
def removeShare (s : Console) (k : ShareKey) : Console :=
  { s with shares := Function.update s.shares k none }

/-- `login`. -/
def login (s : Console) (selfPort : UInt16) (uid pwd : Str) (around : Surroundings) : Console :=
  match around.reply with
  | none => s
  | some (status, _) =>
      if status = Status.ok.code then
        { s with loggedInAs := uid, lastLogin := some (uid, pwd, selfPort), loggedOut := false }
      else s

/-- `upload_file`. -/
def uploadFile (s : Console) (group path : Str) (around : Surroundings) : Console :=
  if s.loggedInAs = [] then s
  else
    match around.hashed, around.reply, around.reopened with
    | some (size, pieceBlob), some (status, _), some file =>
        if status = Status.ok.code then
          let pieceCount := UInt32.ofNat (pieceBlob.length / sha1HexLen.toNat)
          s.addShare ⟨group, basename path⟩ (openForSeed file size pieceCount.toNat)
        else s
    | _, _, _ => s

/-- `download_file`; `port₀` is the port of a peer before it is read. -/
def downloadFile (s : Console) (port₀ : UInt16) (group file : Str) (around : Surroundings) :
    Console :=
  if s.loggedInAs = [] then s
  else
    match around.reply with
    | none => s
    | some (status, resp) =>
        if status = Status.ok.code then
          match decode (getDownload port₀ s.loggedInAs) resp with
          | none | some (_, _, _, []) => s
          | some (_, _, _, _ :: _) => { s with downloads := (s.downloads.start group file).2 }
        else s

/-- `stop_share`. -/
def stopShare (s : Console) (group file : Str) (around : Surroundings) : Console :=
  match around.reply with
  | none => s
  | some (status, _) => if status = Status.ok.code then s.removeShare ⟨group, file⟩ else s

/-- `logout`: the answer of the tracker is not looked at. -/
def logout (s : Console) : Console :=
  { s with loggedInAs := [], lastLogin := none, loggedOut := true }

/-- The command is carried out. -/
def run (s : Console) (selfPort port₀ : UInt16) (around : Surroundings) : Command → Console
  | .login uid pwd => s.login selfPort uid pwd around
  | .uploadFile group path => s.uploadFile group path around
  | .downloadFile group file _ => s.downloadFile port₀ group file around
  | .stopShare group file => s.stopShare group file around
  | .logout => s.logout
  | .other => s

/-- The download is about to share its file: it is running and has not done so. -/
def Ending (s : Console) (j : ℕ) : Prop :=
  (s.downloads.started[j]?).any Job.running = true ∧ j ∉ s.shared

instance (s : Console) (j : ℕ) : Decidable (s.Ending j) := inferInstanceAs (Decidable (_ ∧ _))

/-- `seeder_.add_share` in `run_job`. -/
def endDownload (s : Console) (j : ℕ) (store : PieceStore) : Console :=
  match s.downloads.started[j]? with
  | none => s
  | some job =>
      if s.Ending j then { s.addShare ⟨job.group, job.file⟩ store with shared := j :: s.shared }
      else s

/-- What happens next. -/
def after (selfPort port₀ : UInt16) (s : Console) : ConsoleEvent → Console
  | .typed line around => s.run selfPort port₀ around (command (tokenize line))
  | .addShare j store => s.endDownload j store
  | .setDone j => if j ∈ s.shared then { s with downloads := s.downloads.setDone j } else s
  | .setFailed j => if j ∈ s.shared then s else { s with downloads := s.downloads.setFailed j }

def step (selfPort port₀ : UInt16) (s : Console) (e : ConsoleEvent) : Option Console :=
  some (s.after selfPort port₀ e)

/-! ### After a logout -/

/-- **A client that has logged out serves nothing**: no file is shared, and every request for a
piece is answered with `ST_NOT_FOUND`. -/
def Silent (s : Console) : Prop :=
  s.loggedOut = true → (∀ k, s.shares k = none) ∧
    ∀ payload x, decode getPieceRequest payload = some x →
      servePeer s.shares MsgType.pieceRequest.code payload = (.pieceData, .notFound, [])

/-- **The condition**: nothing is shared when `logout` is typed, and no download shares its file
after a logout. -/
def Withdrawn (s : Console) : ConsoleEvent → Prop
  | .typed line _ => command (tokenize line) = .logout → ∀ k, s.shares k = none
  | .addShare j _ => s.Ending j → s.loggedOut = false
  | .setDone _ | .setFailed _ => True

variable {s : Console}

/-- An empty table answers every request for a piece. -/
lemma silent_iff_shares : s.Silent ↔ (s.loggedOut = true → ∀ k, s.shares k = none) := by
  refine ⟨fun h hout => (h hout).1, fun h hout => ⟨h hout, ?_⟩⟩
  rintro payload ⟨k, index⟩ hreq
  rw [servePeer, MsgType.ofCode_code]
  dsimp only
  rw [hreq]
  dsimp only
  rw [h hout k]
  rfl

/-- Nobody is logged in after a logout. -/
def Ended (s : Console) : Prop := s.loggedOut = true → s.loggedInAs = []

/-- **A step that shares nothing after a logout.** -/
structure Tame (s s' : Console) : Prop where
  ended : s.Ended → s'.Ended
  loggedOut : s'.loggedOut = true → s.loggedOut = true
  shares : s.Ended → s'.loggedOut = true → ∀ k, s'.shares k = s.shares k ∨ s'.shares k = none

namespace Tame

lemma refl (s : Console) : s.Tame s := ⟨id, id, fun _ _ _ => .inl rfl⟩

/-- After a login there is no logout to speak of. -/
lemma of_loggedIn {s' : Console} (h : s'.loggedOut = false) : s.Tame s' :=
  ⟨fun _ hout => absurd (h.symm.trans hout) nofun, fun hout => absurd (h.symm.trans hout) nofun,
    fun _ hout => absurd (h.symm.trans hout) nofun⟩

/-- What is done while somebody is logged in. -/
lemma of_session {s' : Console} (hin : s.loggedInAs ≠ []) (hout : s'.loggedOut = s.loggedOut)
    (hname : s'.loggedInAs = s.loggedInAs) : s.Tame s' := by
  refine ⟨fun h => ?_, fun h => hout.symm.trans h, fun h hlast => ?_⟩
  · rw [Ended, hout, hname]
    exact h
  · exact absurd (h (hout.symm.trans hlast)) hin

end Tame

/-- **Every command but `logout` is tame.** -/
lemma run_tame (selfPort port₀ : UInt16) (around : Surroundings) {c : Command}
    (hc : c ≠ .logout) : s.Tame (s.run selfPort port₀ around c) := by
  cases c with
  | login uid pwd =>
      rw [run, login]
      split
      · exact .refl s
      · split
        · exact .of_loggedIn rfl
        · exact .refl s
  | uploadFile group path =>
      rw [run, uploadFile]
      split
      · exact .refl s
      · next hin =>
          split
          · split
            · exact .of_session hin rfl rfl
            · exact .refl s
          · exact .refl s
  | downloadFile group file dest =>
      rw [run, downloadFile]
      split
      · exact .refl s
      · next hin =>
          split
          · exact .refl s
          · split
            · split
              · exact .refl s
              · exact .refl s
              · exact .of_session hin rfl rfl
            · exact .refl s
  | stopShare group file =>
      rw [run, stopShare]
      split
      · exact .refl s
      · split
        · refine ⟨id, id, fun _ _ k => ?_⟩
          -- the share is withdrawn, and the others are kept
          by_cases hk : k = ⟨group, file⟩
          · exact .inr (by rw [hk]; exact Function.update_self _ _ _)
          · exact .inl (Function.update_of_ne hk _ _)
        · exact .refl s
  | logout => exact absurd rfl hc
  | other => exact .refl s

/-- **The step lemma**: the client is silent after a step exactly if the step meets the
condition. -/
lemma silent_after_iff (selfPort port₀ : UInt16) (e : ConsoleEvent) (hended : s.Ended)
    (hsilent : s.Silent) : (s.after selfPort port₀ e).Ended ∧
      ((s.after selfPort port₀ e).Silent ↔ s.Withdrawn e) := by
  have hempty := silent_iff_shares.mp hsilent
  cases e with
  | typed line around =>
      rw [Withdrawn, after, silent_iff_shares]
      generalize command (tokenize line) = c
      -- `logout` leaves the shares as they are, and no other command makes one
      by_cases hc : c = .logout
      · subst hc
        exact ⟨fun _ => rfl, fun h _ => h rfl, fun h _ => h rfl⟩
      · have htame := s.run_tame selfPort port₀ around hc
        refine ⟨htame.ended hended, iff_of_true (fun hout k => ?_) fun h => absurd h hc⟩
        rcases htame.shares hended hout k with hsame | hnone
        · rw [hsame]
          exact hempty (htame.loggedOut hout) k
        · exact hnone
  | addShare j store =>
      rw [Withdrawn, after, endDownload]
      split
      · next hnone =>
          refine ⟨hended, iff_of_true hsilent fun hend => ?_⟩
          simp [Ending, hnone] at hend
      · next job hjob =>
          split
          · next hend =>
              refine ⟨hended, silent_iff_shares.trans ⟨fun h _ => ?_, fun h hout => ?_⟩⟩
              -- a share is added while nobody is logged in
              · by_contra hout
                rw [Bool.not_eq_false] at hout
                have hshare := h hout ⟨job.group, job.file⟩
                simp [Console.addShare] at hshare
              · exact absurd ((h hend).symm.trans hout) nofun
          · next hend => exact ⟨hended, iff_of_true hsilent fun h => absurd h hend⟩
  | setDone j =>
      rw [Withdrawn, after]
      split
      · exact ⟨hended, iff_of_true hsilent trivial⟩
      · exact ⟨hended, iff_of_true hsilent trivial⟩
  | setFailed j =>
      rw [Withdrawn, after]
      split
      · exact ⟨hended, iff_of_true hsilent trivial⟩
      · exact ⟨hended, iff_of_true hsilent trivial⟩

/-- **When a client that has logged out serves nothing**: in every history it does in every
state, exactly if nothing is shared whenever `logout` is typed, and no download shares its file
after a logout. -/
theorem silent_iff (selfPort port₀ : UInt16) (es : List ConsoleEvent) :
    Throughout (step selfPort port₀) Silent init es ↔
      Meets (step selfPort port₀) Withdrawn init es := by
  refine throughout_iff_meets (J := Ended) (fun {s e} hended hsilent => ?_) nofun nofun
  exact ⟨_, rfl, silent_after_iff selfPort port₀ e hended hsilent⟩

/-- A login, an upload and a logout. -/
def uploadAndLogout : List ConsoleEvent :=
  [.typed (ascii "login u p") ⟨some (0, []), none, none⟩,
    .typed (ascii "upload_file g dir/f") ⟨some (0, []), some (1, List.replicate 40 48), some [9]⟩,
    .typed (ascii "logout") ⟨some (0, []), none, none⟩]

/-- **Logged out and still serving**: the file that was uploaded before the logout. -/
theorem logged_out_serving : ¬ Throughout (step 9000 0) Silent init uploadAndLogout := by
  rintro ⟨-, h⟩
  obtain ⟨-, h⟩ := h _ rfl
  obtain ⟨-, h⟩ := h _ rfl
  have hsilent := h _ rfl
  have hnone := (hsilent (by decide +kernel)).1 ⟨ascii "g", ascii "f"⟩
  revert hnone
  decide +kernel

end Console

end P2PShare
