import P2PShare.Lib.Runs
import P2PShare.Tracker.State

/-!
`DownloadManager::start` and `DownloadManager::status_lines`: the table of the download jobs.

* `DownloadManager`: the jobs that have been started, by number, and the table, which holds them
  under `group + "/" + file`; `start`, `setDone`, `setFailed` and `statusLines`.
* `Right`, `Listed`: what is expected of an answer of `start`, and of what is listed.
* `Sound` (**the invariant**): the table has the last job under each key, and the others of that
  key have ended.
* `jobs_right_iff`: everything is as expected exactly if no job is started under the key of
  another one with other names. `key_inj` says that names without a slash have keys of their own.
-/

namespace P2PShare

/-- The bytes of a text. -/
def ascii (s : String) : Str := s.toList.map Char.toUInt8

/-- `DownloadJob`, as far as `start` and `status_lines` look at it. -/
structure Job where
  group : Str
  file : Str
  done : Bool
  failed : Bool
deriving DecidableEq

namespace Job

/-- The byte of a slash. -/
def slash : UInt8 := 47

/-- The key of a job in the table. -/
def key (group file : Str) : Str := group ++ slash :: file

/-- Group and file. -/
def name (job : Job) : Str × Str := (job.group, job.file)

/-- The job has neither ended nor failed. -/
def running (job : Job) : Bool := !job.done && !job.failed

/-- The line of a job in `status_lines`. -/
def line (job : Job) : Str :=
  ascii (if job.done then "[C] [" else if job.failed then "[F] [" else "[D] [") ++ job.group ++
    ascii "] " ++ job.file

/-- **Which names share a key**: the same ones, and those where a slash is read as a part of the
group or of the file. -/
lemma key_eq_iff {g g' f f' : Str} : key g f = key g' f' ↔ (g = g' ∧ f = f') ∨
    (∃ c, g' = g ++ slash :: c ∧ f = c ++ slash :: f') ∨
    ∃ c, g = g' ++ slash :: c ∧ f' = c ++ slash :: f := by
  have hcut : ∀ {a b c : Str}, slash :: b = c ++ slash :: a →
      c = [] ∧ b = a ∨ ∃ d, c = slash :: d ∧ b = d ++ slash :: a := by
    intro a b c h
    cases c with
    | nil => exact .inl ⟨rfl, List.tail_eq_of_cons_eq h⟩
    | cons x d =>
        obtain ⟨rfl, rfl⟩ := List.cons.inj h
        exact .inr ⟨d, rfl, rfl⟩
  rw [key, key, List.append_eq_append_iff]
  constructor
  · rintro (⟨c, rfl, hc⟩ | ⟨c, rfl, hc⟩)
    · rcases hcut hc with ⟨rfl, rfl⟩ | ⟨d, rfl, rfl⟩
      · exact .inl ⟨(List.append_nil g).symm, rfl⟩
      · exact .inr (.inl ⟨d, rfl, rfl⟩)
    · rcases hcut hc with ⟨rfl, rfl⟩ | ⟨d, rfl, rfl⟩
      · exact .inl ⟨List.append_nil g', rfl⟩
      · exact .inr (.inr ⟨d, rfl, rfl⟩)
  · rintro (⟨rfl, rfl⟩ | ⟨c, rfl, rfl⟩ | ⟨c, rfl, rfl⟩)
    · exact .inl ⟨[], (List.append_nil g).symm, rfl⟩
    · exact .inl ⟨slash :: c, rfl, rfl⟩
    · exact .inr ⟨slash :: c, rfl, rfl⟩

/-- **Names without a slash**, be they of groups or of files, do not share a key. -/
lemma key_inj {g g' f f' : Str} (h : key g f = key g' f')
    (hslash : slash ∉ g ∧ slash ∉ g' ∨ slash ∉ f ∧ slash ∉ f') : g = g' ∧ f = f' := by
  rcases key_eq_iff.mp h with hsame | ⟨c, rfl, rfl⟩ | ⟨c, rfl, rfl⟩
  · exact hsame
  · simp at hslash
  · simp at hslash

end Job

/-- `DownloadManager`: the jobs in the order in which they have been started, and `jobs_`, which
has their numbers. -/
structure DownloadManager where
  started : List Job
  jobs : StrMap ℕ

namespace DownloadManager

/-- Before the first job. -/
def init : DownloadManager := ⟨[], ∅⟩

/-- A new job takes the place under its key. -/
def accepted (m : DownloadManager) (group file : Str) : DownloadManager :=
  ⟨m.started ++ [⟨group, file, false, false⟩], m.jobs.insert (Job.key group file) m.started.length⟩

/-- `start`. -/
def start (m : DownloadManager) (group file : Str) : Bool × DownloadManager :=
  if (m.jobs[Job.key group file]?).any fun j => (m.started[j]?).any Job.running then (false, m)
  else (true, m.accepted group file)

/-- A job that is running changes. -/
def change (m : DownloadManager) (j : ℕ) (f : Job → Job) : DownloadManager :=
  { m with started := m.started.modify j fun job => if job.running then f job else job }

/-- A job has ended: `done`. -/
def setDone (m : DownloadManager) (j : ℕ) : DownloadManager :=
  m.change j fun job => { job with done := true }

/-- A job has failed: `failed`. -/
def setFailed (m : DownloadManager) (j : ℕ) : DownloadManager :=
  m.change j fun job => { job with failed := true }

/-- The jobs that `status_lines` goes through. -/
def reported (m : DownloadManager) : List ℕ := m.jobs.toList.map Prod.snd

/-- `status_lines`. -/
def statusLines (m : DownloadManager) : List Str :=
  m.reported.filterMap fun j => (m.started[j]?).map Job.line

end DownloadManager

/-- What happens to the table. -/
inductive JobsEvent
  | start (group file : Str)
  | setDone (j : ℕ)
  | setFailed (j : ℕ)
deriving DecidableEq

namespace DownloadManager

/-- The table afterwards. -/
def after (m : DownloadManager) : JobsEvent → DownloadManager
  | .start group file => (m.start group file).2
  | .setDone j => m.setDone j
  | .setFailed j => m.setFailed j

def step (m : DownloadManager) (e : JobsEvent) : Option DownloadManager := some (m.after e)

/-! ### What is expected -/

/-- A job of this group and file is running. -/
def Running (m : DownloadManager) (group file : Str) : Prop :=
  ∃ job ∈ m.started, job.name = (group, file) ∧ job.running = true

instance (m : DownloadManager) (group file : Str) : Decidable (m.Running group file) :=
  inferInstanceAs (Decidable (∃ job ∈ m.started, _))

/-- **The answer is right**: `start` returns false just if a job of the same group and file is
running. -/
def Right (m : DownloadManager) : JobsEvent → Prop
  | .start group file => (m.start group file).1 = false ↔ m.Running group file
  | .setDone _ | .setFailed _ => True

instance (m : DownloadManager) : ∀ e, Decidable (m.Right e)
  | .start group file =>
      inferInstanceAs (Decidable ((m.start group file).1 = false ↔ m.Running group file))
  | .setDone _ | .setFailed _ => .isTrue trivial

/-- The job is the last of its group and file. -/
def Latest (m : DownloadManager) (j : ℕ) : Prop :=
  ∃ job, m.started[j]? = some job ∧
    ∀ j' job', m.started[j']? = some job' → job'.name = job.name → j' ≤ j

/-- **The list is right**: `status_lines` has the line of the last job of every group and file,
once, and no other. -/
def Listed (m : DownloadManager) : Prop :=
  ∃ js : List ℕ, js.Nodup ∧ (∀ j, j ∈ js ↔ m.Latest j) ∧
    m.statusLines = (js.filterMap (m.started[·]?)).map Job.line

/-- **The condition**: no job has been started under this key with another group and file. -/
def Clear (m : DownloadManager) : JobsEvent → Prop
  | .start group file =>
      ∀ job ∈ m.started, Job.key job.group job.file = Job.key group file → job.name = (group, file)
  | .setDone _ | .setFailed _ => True

instance (m : DownloadManager) : ∀ e, Decidable (m.Clear e)
  | .start group file => inferInstanceAs (Decidable (∀ job ∈ m.started,
      Job.key job.group job.file = Job.key group file → job.name = (group, file)))
  | .setDone _ | .setFailed _ => .isTrue trivial

/-! ### The invariant -/

/-- **The invariant**: the table has the last job under each key, and the jobs before it have
ended. -/
structure Sound (m : DownloadManager) : Prop where
  keyed : ∀ k j, m.jobs[k]? = some j → ∃ job, m.started[j]? = some job ∧
    Job.key job.group job.file = k
  last : ∀ j job, m.started[j]? = some job →
    ∃ j', m.jobs[Job.key job.group job.file]? = some j' ∧ j ≤ j' ∧
      (job.running = true → j = j')

/-- Jobs under one key have one name. -/
def Distinct (m : DownloadManager) : Prop :=
  ∀ job ∈ m.started, ∀ job' ∈ m.started,
    Job.key job.group job.file = Job.key job'.group job'.file → job.name = job'.name

variable {m : DownloadManager}

/-- Only the flags of a job change. -/
structure Flags (f : Job → Job) : Prop where
  group : ∀ job, (f job).group = job.group
  file : ∀ job, (f job).file = job.file

lemma flags_done : Flags fun job => { job with done := true } := ⟨fun _ => rfl, fun _ => rfl⟩

lemma flags_failed : Flags fun job => { job with failed := true } := ⟨fun _ => rfl, fun _ => rfl⟩

/-- Each job after a change, and the same job before it. -/
lemma getElem?_change (m : DownloadManager) (i j : ℕ) (f : Job → Job) :
    (m.change i f).started[j]? =
      (m.started[j]?).map fun job => if i = j ∧ job.running then f job else job := by
  rw [change, List.getElem?_modify]
  by_cases hij : i = j
  · simp [hij]
  · simp [hij]

/-- A job that is running after a change has been so before. -/
lemma of_change {f : Job → Job} (hf : Flags f) {i j : ℕ} {job' : Job}
    (h : (m.change i f).started[j]? = some job') :
    ∃ job, m.started[j]? = some job ∧ job'.group = job.group ∧ job'.file = job.file ∧
      (job'.running = true → job.running = true) := by
  rw [getElem?_change, Option.map_eq_some_iff] at h
  obtain ⟨job, hjob, rfl⟩ := h
  refine ⟨job, hjob, ?_⟩
  split
  · next h => exact ⟨hf.group job, hf.file job, fun _ => h.2⟩
  · exact ⟨rfl, rfl, id⟩

lemma Sound.change (h : m.Sound) {f : Job → Job} (hf : Flags f) (i : ℕ) : (m.change i f).Sound where
  keyed k j hj := by
    obtain ⟨job, hjob, rfl⟩ := h.keyed k j hj
    refine ⟨_, by rw [getElem?_change, hjob]; rfl, ?_⟩
    dsimp only
    split
    · rw [hf.group, hf.file]
    · rfl
  last j job' hjob' := by
    obtain ⟨job, hjob, hgroup, hfile, hrun⟩ := of_change hf hjob'
    obtain ⟨j', hj', hle, hsame⟩ := h.last j job hjob
    rw [hgroup, hfile]
    exact ⟨j', hj', hle, fun hr => hsame (hrun hr)⟩

lemma Distinct.change (h : m.Distinct) {f : Job → Job} (hf : Flags f) (i : ℕ) :
    (m.change i f).Distinct := by
  intro job hjob job' hjob' hkey
  obtain ⟨j, hj⟩ := List.mem_iff_getElem?.mp hjob
  obtain ⟨j', hj'⟩ := List.mem_iff_getElem?.mp hjob'
  obtain ⟨old, hold, hgroup, hfile, -⟩ := of_change hf hj
  obtain ⟨old', hold', hgroup', hfile', -⟩ := of_change hf hj'
  rw [hgroup, hfile, hgroup', hfile'] at hkey
  have hname := h old (List.mem_of_getElem? hold) old' (List.mem_of_getElem? hold') hkey
  rw [Job.name, Job.name, hgroup, hfile, hgroup', hfile']
  exact hname

/-! ### Starting a job -/

/-- **What the table is asked**: whether a job under the same key is running. -/
lemma Sound.start_false_iff (h : m.Sound) (group file : Str) :
    (m.start group file).1 = false ↔ ∃ job ∈ m.started,
      Job.key job.group job.file = Job.key group file ∧ job.running = true := by
  have hanswer : (m.start group file).1 = false ↔
      ∃ j, m.jobs[Job.key group file]? = some j ∧ ∃ job, m.started[j]? = some job ∧
        job.running = true := by
    rw [start]
    split
    · next hrun => simpa [Option.any_eq_true] using hrun
    · next hrun => simpa [Option.any_eq_true] using hrun
  rw [hanswer]
  constructor
  · rintro ⟨j, hj, job, hjob, hrun⟩
    obtain ⟨job', hjob', hkey⟩ := h.keyed _ j hj
    obtain rfl : job = job' := Option.some.inj (hjob.symm.trans hjob')
    exact ⟨job, List.mem_of_getElem? hjob, hkey, hrun⟩
  · rintro ⟨job, hmem, hkey, hrun⟩
    obtain ⟨j, hjob⟩ := List.mem_iff_getElem?.mp hmem
    obtain ⟨j', hj', -, hsame⟩ := h.last j job hjob
    obtain rfl := hsame hrun
    rw [hkey] at hj'
    exact ⟨j, hj', job, hjob, hrun⟩

/-- A refusal leaves the table as it is. -/
lemma start_cases (m : DownloadManager) (group file : Str) :
    m.start group file = (false, m) ∨ m.start group file = (true, m.accepted group file) := by
  rw [start]
  split
  · exact .inl rfl
  · exact .inr rfl

lemma jobs_accepted (m : DownloadManager) (group file k : Str) :
    (m.accepted group file).jobs[k]? =
      if Job.key group file = k then some m.started.length else m.jobs[k]? := by
  rw [accepted, Std.ExtTreeMap.getElem?_insert]
  simp only [Std.LawfulEqCmp.compare_eq_iff_eq]

/-- The jobs after one has been accepted. -/
lemma of_accepted {group file : Str} {j : ℕ} {job : Job}
    (h : (m.accepted group file).started[j]? = some job) :
    m.started[j]? = some job ∨ j = m.started.length ∧ job = ⟨group, file, false, false⟩ := by
  rw [accepted, List.getElem?_append] at h
  split at h
  · exact .inl h
  · next hge =>
      rw [List.getElem?_singleton] at h
      split at h
      · exact .inr ⟨by omega, (Option.some.inj h).symm⟩
      · cases h

lemma started_accepted {group file : Str} {j : ℕ} {job : Job} (h : m.started[j]? = some job) :
    (m.accepted group file).started[j]? = some job := by
  rw [accepted, List.getElem?_append_left (List.getElem?_eq_some_iff.mp h).1]
  exact h

lemma started_accepted_new (m : DownloadManager) (group file : Str) :
    (m.accepted group file).started[m.started.length]? = some ⟨group, file, false, false⟩ := by
  simp [accepted]

/-- A job is accepted once the others under its key have ended. -/
lemma Sound.accepted (h : m.Sound) {group file : Str} (hended : ∀ job ∈ m.started,
    Job.key job.group job.file = Job.key group file → job.running = false) :
    (m.accepted group file).Sound where
  keyed k j hj := by
    rw [jobs_accepted] at hj
    split at hj
    · next hkey =>
        obtain rfl := Option.some.inj hj
        exact ⟨_, started_accepted_new m group file, hkey⟩
    · obtain ⟨job, hjob, hk⟩ := h.keyed k j hj
      exact ⟨job, started_accepted hjob, hk⟩
  last j job hjob := by
    rw [jobs_accepted]
    rcases of_accepted hjob with hold | ⟨rfl, rfl⟩
    · have hlt := (List.getElem?_eq_some_iff.mp hold).1
      split
      · next hkey =>
          refine ⟨_, rfl, hlt.le, fun hrun => ?_⟩
          rw [hended job (List.mem_of_getElem? hold) hkey.symm] at hrun
          cases hrun
      · exact h.last j job hold
    · exact ⟨_, if_pos rfl, le_rfl, fun _ => rfl⟩

lemma Sound.start (h : m.Sound) (group file : Str) : (m.start group file).2.Sound := by
  have hanswer := h.start_false_iff group file
  rcases start_cases m group file with heq | heq
  · rw [heq]
    exact h
  · rw [heq]
    refine h.accepted fun job hjob hkey => ?_
    by_contra hrun
    rw [Bool.not_eq_false] at hrun
    have hrefused := hanswer.mpr ⟨job, hjob, hkey, hrun⟩
    rw [heq] at hrefused
    cases hrefused

/-- **The step lemma.** -/
lemma Sound.after (h : m.Sound) (e : JobsEvent) : (m.after e).Sound := by
  cases e with
  | start group file => exact h.start group file
  | setDone j => exact h.change flags_done j
  | setFailed j => exact h.change flags_failed j

/-! ### What is listed -/

lemma mem_reported {j : ℕ} : j ∈ m.reported ↔ ∃ k : Str, m.jobs[k]? = some j := by
  simp [reported, Std.ExtTreeMap.mem_toList_iff_getElem?_eq_some]

lemma statusLines_eq (m : DownloadManager) :
    m.statusLines = (m.reported.filterMap (m.started[·]?)).map Job.line :=
  List.map_filterMap.symm

/-- Jobs that have been started have a line each. -/
lemma length_lines {js : List ℕ} (h : ∀ j ∈ js, ∃ job, m.started[j]? = some job) :
    ((js.filterMap (m.started[·]?)).map Job.line).length = js.length := by
  rw [List.length_map, List.length_filterMap_eq_countP, List.countP_eq_length]
  intro j hj
  obtain ⟨job, hjob⟩ := h j hj
  rw [hjob]
  rfl

/-- No job stands in the table twice: its number has the key of its own name. -/
lemma Sound.nodup_reported (h : m.Sound) : m.reported.Nodup := by
  rw [reported, List.Nodup, List.pairwise_map]
  refine Std.ExtTreeMap.distinct_keys_toList.imp_of_mem fun {a b} ha hb hne heq => hne ?_
  obtain ⟨job, hjob, hkey⟩ :=
    h.keyed _ _ (Std.ExtTreeMap.mem_toList_iff_getElem?_eq_some.mp ha)
  obtain ⟨job', hjob', hkey'⟩ :=
    h.keyed _ _ (Std.ExtTreeMap.mem_toList_iff_getElem?_eq_some.mp hb)
  rw [heq] at hjob
  obtain rfl : job = job' := Option.some.inj (hjob.symm.trans hjob')
  rw [← hkey, ← hkey']
  exact Std.ReflCmp.compare_self

/-- A job of the table is the last one of its name, since it is the last one under its key. -/
lemma Sound.latest (h : m.Sound) {j : ℕ} (hj : j ∈ m.reported) : m.Latest j := by
  obtain ⟨k, hk⟩ := mem_reported.mp hj
  obtain ⟨job, hjob, rfl⟩ := h.keyed k j hk
  refine ⟨job, hjob, fun j' job' hjob' hname => ?_⟩
  obtain ⟨hgroup, hfile⟩ := Prod.mk.inj hname
  obtain ⟨j'', hj'', hle, -⟩ := h.last j' job' hjob'
  rw [hgroup, hfile, hk] at hj''
  obtain rfl := Option.some.inj hj''
  exact hle

/-- **When the list is right**: if no last job of its name is missing in the table. -/
lemma Sound.listed_iff (h : m.Sound) : m.Listed ↔ ∀ j, m.Latest j → j ∈ m.reported := by
  constructor
  · rintro ⟨js, hnodup, hlatest, hlines⟩ j hj
    have hstarted : ∀ j, m.Latest j → ∃ job, m.started[j]? = some job :=
      fun _ ⟨job, hjob, _⟩ => ⟨job, hjob⟩
    -- as many lines on both sides, so the table cannot have fewer jobs
    have hlen : m.reported.length = js.length := by
      have heq := congrArg List.length (m.statusLines_eq.symm.trans hlines)
      rwa [length_lines fun j hj => hstarted j (h.latest hj),
        length_lines fun j hj => hstarted j ((hlatest j).mp hj)] at heq
    have hsub : m.reported ⊆ js := fun j hj => (hlatest j).mpr (h.latest hj)
    have hperm := (h.nodup_reported.subperm hsub).perm_of_length_le hlen.ge
    exact hperm.mem_iff.mpr ((hlatest j).mpr hj)
  · intro hmem
    exact ⟨m.reported, h.nodup_reported, fun j => ⟨h.latest, hmem j⟩, m.statusLines_eq⟩

/-- **Where jobs under one key have one name, the list is right.** -/
lemma Sound.listed (h : m.Sound) (hd : m.Distinct) : m.Listed := by
  refine h.listed_iff.mpr fun j => ?_
  rintro ⟨job, hjob, hlatest⟩
  obtain ⟨j', hj', hle, -⟩ := h.last j job hjob
  obtain ⟨job', hjob', hkey⟩ := h.keyed _ j' hj'
  have hname := hd job' (List.mem_of_getElem? hjob') job (List.mem_of_getElem? hjob) hkey
  have hge := hlatest j' job' hjob' hname
  obtain rfl : j = j' := by omega
  exact mem_reported.mpr ⟨_, hj'⟩

/-! ### The histories in which everything is right -/

/-- Where jobs under one key have one name, an answer is right or some other name is asked for
under the key of a job that is running. -/
lemma Sound.right_iff (h : m.Sound) {group file : Str} : m.Right (.start group file) ↔
    ((∃ job ∈ m.started, Job.key job.group job.file = Job.key group file ∧ job.running = true) →
      m.Running group file) := by
  rw [Right, h.start_false_iff group file]
  refine ⟨Iff.mp, fun hname => ⟨hname, ?_⟩⟩
  rintro ⟨job, hjob, hname, hrun⟩
  obtain ⟨hgroup, hfile⟩ := Prod.mk.inj hname
  exact ⟨job, hjob, by rw [hgroup, hfile], hrun⟩

/-- A clear start leaves every key with one name. -/
lemma Distinct.start (hd : m.Distinct) {group file : Str} (hclear : m.Clear (.start group file)) :
    (m.start group file).2.Distinct := by
  rcases start_cases m group file with heq | heq
  · rw [heq]
    exact hd
  · rw [heq]
    intro job hjob job' hjob' hkey
    rcases List.mem_append.mp hjob with hold | hnew
    · rcases List.mem_append.mp hjob' with hold' | hnew'
      · exact hd job hold job' hold' hkey
      · obtain rfl := List.mem_singleton.mp hnew'
        exact hclear job hold hkey
    · obtain rfl := List.mem_singleton.mp hnew
      rcases List.mem_append.mp hjob' with hold' | hnew'
      · exact (hclear job' hold' hkey.symm).symm
      · obtain rfl := List.mem_singleton.mp hnew'
        rfl

/-- **A start that is not clear goes wrong**: it is refused because of a job with another name,
or it takes that job off the list. -/
lemma clear_of_right (h : m.Sound) (hd : m.Distinct) {group file : Str}
    (hright : m.Right (.start group file)) (hlisted : (m.start group file).2.Listed) :
    m.Clear (.start group file) := by
  intro job hjob hkey
  by_contra hne
  obtain ⟨i, hi⟩ := List.mem_iff_getElem?.mp hjob
  obtain ⟨j, hj, -⟩ := h.last i job hi
  rw [hkey] at hj
  obtain ⟨last, hlast, hkeyLast⟩ := h.keyed _ j hj
  have hmem := List.mem_of_getElem? hlast
  have hname : last.name = job.name := hd last hmem job hjob (hkeyLast.trans hkey.symm)
  rcases start_cases m group file with heq | heq
  · have hrefused : (m.start group file).1 = false := congrArg Prod.fst heq
    obtain ⟨other, hother, hotherName, -⟩ := hright.mp hrefused
    obtain ⟨hgroup, hfile⟩ := Prod.mk.inj hotherName
    refine hne (Eq.trans ?_ hotherName)
    exact hd job hjob other hother (by rw [hgroup, hfile, hkey])
  · have hsound := h.start group file
    rw [heq] at hlisted hsound
    have hlatest : (m.accepted group file).Latest j := by
      refine ⟨last, started_accepted hlast, fun j' job' hjob' hsame => ?_⟩
      rcases of_accepted hjob' with hold | ⟨-, rfl⟩
      · obtain ⟨hgroup, hfile⟩ := Prod.mk.inj hsame
        obtain ⟨j'', hj'', hle, -⟩ := h.last j' job' hold
        rw [hgroup, hfile, hkeyLast, hj] at hj''
        obtain rfl := Option.some.inj hj''
        exact hle
      · exact absurd (hname.symm.trans hsame.symm) hne
    obtain ⟨k, hk⟩ := mem_reported.mp (hsound.listed_iff.mp hlisted j hlatest)
    rw [jobs_accepted] at hk
    have hlt := (List.getElem?_eq_some_iff.mp hlast).1
    split at hk
    · obtain rfl := Option.some.inj hk
      omega
    · next hother =>
        obtain ⟨job', hjob', hkey'⟩ := h.keyed k j hk
        obtain rfl : last = job' := Option.some.inj (hlast.symm.trans hjob')
        exact hother (hkeyLast.symm.trans hkey')

/-- **When everything is right**: in every history the answers of `start` and the list are as
expected after each step, exactly if no job is started under the key of an earlier one that has
another group or file. -/
theorem jobs_right_iff (es : List JobsEvent) :
    Meets step (fun m e => m.Right e ∧ (m.after e).Listed) init es ↔
      Meets step (fun m e => m.Clear e) init es := by
  have hinit : init.Sound ∧ init.Distinct := by
    refine ⟨⟨fun k j hj => ?_, fun j job hjob => ?_⟩, ?_⟩
    · simp [init] at hj
    · simp [init] at hjob
    · simp [init, Distinct]
  refine (meets_congr (I := fun m => m.Sound ∧ m.Distinct) (fun {m e} hI => ?_)
    (fun {m m' e} hI hclear hstep => ?_) hinit).symm
  · cases e with
    | start group file =>
        constructor
        · intro hclear
          refine ⟨hI.1.right_iff.mpr ?_, (hI.1.start group file).listed (hI.2.start hclear)⟩
          rintro ⟨job, hjob, hkey, hrun⟩
          exact ⟨job, hjob, hclear job hjob hkey, hrun⟩
        · rintro ⟨hright, hlisted⟩
          exact clear_of_right hI.1 hI.2 hright hlisted
    | setDone j =>
        exact iff_of_true trivial
          ⟨trivial, (hI.1.change flags_done j).listed (hI.2.change flags_done j)⟩
    | setFailed j =>
        exact iff_of_true trivial
          ⟨trivial, (hI.1.change flags_failed j).listed (hI.2.change flags_failed j)⟩
  · obtain rfl := Option.some.inj hstep
    refine ⟨hI.1.after e, ?_⟩
    cases e with
    | start group file => exact hI.2.start hclear
    | setDone j => exact hI.2.change flags_done j
    | setFailed j => exact hI.2.change flags_failed j

/-- A download of `b/c` in the group `a`, and one of `c` in the group `a/b`. -/
def sameKey : List JobsEvent := [.start (ascii "a") (ascii "b/c"), .start (ascii "a/b") (ascii "c")]

/-- **Two files under one key**: the second download is refused because of the first one. -/
theorem refused_for_another :
    ¬ Meets step (fun m e => m.Right e ∧ (m.after e).Listed) init sameKey := by
  rintro ⟨-, hrest⟩
  obtain ⟨⟨hright, -⟩, -⟩ := hrest _ rfl
  revert hright
  decide +kernel

end DownloadManager

end P2PShare
