import Mathlib.Computability.Language
import P2PShare.Lib.Cursor

/-!
Readers and the languages of what they read.

* `Recognizes g L`: `g` succeeds exactly where a word of `L` comes next. It is closed under
  sequencing (`Recognizes.bind`) and repetition (`Recognizes.times`), and every codec has such
  a language.
* `Recognizes.prefixFree` (**prefix-freeness**): no word of a language that a reader recognizes
  continues another, so a strict prefix of one is refused (`Recognizes.strict_prefix`).
* `Logged`: a reader that also notes things down, also when it fails later on; `Logged.forget`
  is the reader without the notes.
* `NotesAt g F word`: `g` notes `n` down exactly where a word of `F` and then `word n` come
  next, with a rule for each way of composing readers.
-/

universe u

namespace Reader

open Cursor

variable {β α γ : Type u}

/-- `g` succeeds exactly where a word of `L` comes next, and stops behind it. -/
def Recognizes (g : Reader β α) (L : Language β) : Prop :=
  ∀ c c', (∃ a, Reads g c a c') ↔ ∃ x ∈ L, Cut c x c'

lemma recognizes_pure (a : α) : Recognizes (pure a : Reader β α) 1 := by
  intro c c'
  constructor
  · rintro ⟨b, hb⟩
    exact ⟨[], Language.nil_mem_one, cut_nil.mpr (reads_pure.mp hb).2⟩
  · rintro ⟨x, hx, hcut⟩
    obtain rfl := (Language.mem_one x).mp hx
    exact ⟨a, reads_pure.mpr ⟨rfl, cut_nil.mp hcut⟩⟩

/-- The encodings of what is `ok`. -/
def codewords (enc : α → List β) (ok : α → Prop) : Language β := {x | ∃ a, ok a ∧ enc a = x}

lemma mem_codewords {enc : α → List β} {ok : α → Prop} {a : α} (h : ok a) :
    enc a ∈ codewords enc ok := ⟨a, h, rfl⟩

lemma Codec.recognizes {g : Reader β α} {enc : α → List β} {ok : α → Prop} (hg : Codec g enc ok) :
    Recognizes g (codewords enc ok) := by
  intro c c'
  constructor
  · rintro ⟨a, ha⟩
    obtain ⟨hok, hcut⟩ := (hg c a c').mp ha
    exact ⟨enc a, ⟨a, hok, rfl⟩, hcut⟩
  · rintro ⟨x, ⟨a, hok, rfl⟩, hcut⟩
    exact ⟨a, (hg c a c').mpr ⟨hok, hcut⟩⟩

/-- The same language spelled differently. -/
lemma Recognizes.congr {g : Reader β α} {L M : Language β} (hg : Recognizes g L) (h : L = M) :
    Recognizes g M := h ▸ hg

/-- **Sequencing**, where what comes second does not depend on what was read first. -/
lemma Recognizes.bind {g : Reader β α} {f : α → Reader β γ} {L M : Language β}
    (hg : Recognizes g L) (hf : ∀ a, Recognizes (f a) M) : Recognizes (g >>= f) (L * M) := by
  intro c c''
  constructor
  · rintro ⟨b, hb⟩
    obtain ⟨a, c', ha, hb⟩ := reads_bind.mp hb
    obtain ⟨x, hx, hcut⟩ := (hg c c').mp ⟨a, ha⟩
    obtain ⟨y, hy, hcut'⟩ := (hf a c' c'').mp ⟨b, hb⟩
    exact ⟨x ++ y, Language.append_mem_mul hx hy, cut_append.mpr ⟨c', hcut, hcut'⟩⟩
  · rintro ⟨z, hz, hcut⟩
    obtain ⟨x, hx, y, hy, rfl⟩ := Language.mem_mul.mp hz
    obtain ⟨c', hcut, hcut'⟩ := cut_append.mp hcut
    obtain ⟨a, ha⟩ := (hg c c').mpr ⟨x, hx, hcut⟩
    obtain ⟨b, hb⟩ := (hf a c' c'').mpr ⟨y, hy, hcut'⟩
    exact ⟨b, ha.bind hb⟩

/-- What is made of the value that was read. -/
lemma Recognizes.map {g : Reader β α} {L : Language β} (hg : Recognizes g L) (f : α → γ) :
    Recognizes (g >>= fun a => pure (f a)) L :=
  (hg.bind fun a => recognizes_pure (f a)).congr (mul_one L)

/-- **Repetition.** -/
lemma Recognizes.times {g : Reader β α} {L : Language β} (hg : Recognizes g L) (n : ℕ) :
    Recognizes (times n g) (L ^ n) := by
  induction n with
  | zero => exact recognizes_pure []
  | succ n ih => exact (hg.bind fun a => ih.map (a :: ·)).congr (pow_succ' L n).symm

/-- What a reader makes of a whole sequence, in terms of its language. -/
lemma Recognizes.isSome_read {g : Reader β α} {L : Language β} (hg : Recognizes g L)
    (data : List β) : (g.read (start data)).1.isSome ↔ ∃ x ∈ L, x <+: data := by
  constructor
  · intro h
    obtain ⟨a, ha⟩ := Option.isSome_iff_exists.mp h
    obtain ⟨x, hx, hcut⟩ := (hg (start data) (g.read (start data)).2).mp ⟨a, Prod.ext ha rfl⟩
    exact ⟨x, hx, _, (cut_start hcut).symm⟩
  · rintro ⟨x, hx, rest, rfl⟩
    obtain ⟨c', hcut, -⟩ := exists_cut (unread_start (x ++ rest))
    obtain ⟨a, ha⟩ := (hg _ c').mpr ⟨x, hx, hcut⟩
    rw [show g.read (start (x ++ rest)) = (some a, c') from ha]
    rfl

/-- No word of the language continues another. -/
def PrefixFree (L : Language β) : Prop := ∀ x ∈ L, ∀ y ∈ L, x <+: y → x = y

/-- **What a reader recognizes is prefix-free**: it stops in one place only. -/
theorem Recognizes.prefixFree {g : Reader β α} {L : Language β} (hg : Recognizes g L) :
    PrefixFree L := by
  rintro x hx y hy ⟨z, rfl⟩
  obtain ⟨c₁, hcut₁, hrest₁⟩ := exists_cut (unread_start (x ++ z))
  obtain ⟨c₂, hcut₂, hrest₂⟩ := exists_cut
    ((unread_start (x ++ z)).trans (List.append_nil (x ++ z)).symm)
  obtain ⟨a₁, ha₁⟩ := (hg _ c₁).mpr ⟨x, hx, hcut₁⟩
  obtain ⟨a₂, ha₂⟩ := (hg _ c₂).mpr ⟨x ++ z, hy, hcut₂⟩
  have hsame : (some a₁, c₁) = (some a₂, c₂) := Eq.trans (Eq.symm ha₁) ha₂
  obtain rfl : c₁ = c₂ := congrArg Prod.snd hsame
  obtain rfl : z = [] := hrest₁.symm.trans hrest₂
  exact (List.append_nil x).symm

/-- **A strict prefix of a word is refused.** -/
theorem Recognizes.strict_prefix {g : Reader β α} {L : Language β} (hg : Recognizes g L)
    {y data : List β} (hy : y ∈ L) (hpre : data <+: y) (hne : data ≠ y) :
    (g.read (start data)).1 = none := by
  rw [← Option.not_isSome_iff_eq_none, hg.isSome_read]
  rintro ⟨x, hx, hxd⟩
  obtain rfl : x = y := hg.prefixFree x hx y hy (hxd.trans hpre)
  exact hne (hpre.eq_of_length_le hxd.length_le)

end Reader

/-! ### Readers that note things down -/

/-- A reader that notes down values of `ν`, which stay when it fails. -/
def Logged (ν β α : Type u) : Type u := Cursor β → (Option α × Cursor β) × List ν

namespace Logged

open Cursor Reader

variable {ν β α γ : Type u}

instance : Monad (Logged ν β) where
  pure a := fun c => ((some a, c), [])
  bind g f := fun c =>
    match g c with
    | ((some a, c'), ns) => ((f a c').1, ns ++ (f a c').2)
    | ((none, c'), ns) => ((none, c'), ns)

/-- A reader that notes down nothing. -/
def lift (g : Reader β α) : Logged ν β α := fun c => (g.read c, [])

/-- Note down `n`. -/
def note (n : ν) : Logged ν β PUnit := fun c => ((some ⟨⟩, c), [n])

/-- Run `g` `n` times and collect what it reads. -/
def times : ℕ → Logged ν β α → Logged ν β (List α)
  | 0, _ => pure []
  | n + 1, g => do
      let a ← g
      let as ← times n g
      return a :: as

/-- The reader without its notes. -/
def forget (g : Logged ν β α) : Reader β α := fun c => (g c).1

/-- What is noted down when reading from `c`. -/
def log (g : Logged ν β α) (c : Cursor β) : List ν := (g c).2

/-! ### Without the notes -/

@[simp] lemma forget_pure (a : α) : forget (pure a : Logged ν β α) = pure a := rfl

@[simp] lemma forget_lift (g : Reader β α) : forget (lift g : Logged ν β α) = g := rfl

@[simp] lemma forget_note (n : ν) : forget (note n : Logged ν β PUnit) = pure ⟨⟩ := rfl

@[simp] lemma forget_bind (g : Logged ν β α) (f : α → Logged ν β γ) :
    forget (g >>= f) = forget g >>= fun a => forget (f a) := by
  funext c
  show (match g c with
      | ((some a, c'), ns) => ((f a c').1, ns ++ (f a c').2)
      | ((none, c'), ns) => ((none, c'), ns)).1 = (forget g >>= fun a => forget (f a)).read c
  rw [read_bind, show (forget g).read c = (g c).1 from rfl]
  generalize g c = r
  obtain ⟨⟨_ | a, c'⟩, ns⟩ := r
  · rfl
  · rfl

@[simp] lemma forget_times (n : ℕ) (g : Logged ν β α) :
    forget (times n g) = Reader.times n (forget g) := by
  induction n with
  | zero => rfl
  | succ n ih => rw [times, forget_bind, Reader.times]; simp only [forget_bind, ih, forget_pure]

/-! ### The notes -/

lemma mem_log_pure {a : α} {c : Cursor β} {n : ν} : n ∉ (pure a : Logged ν β α).log c :=
  List.not_mem_nil

lemma mem_log_lift {g : Reader β α} {c : Cursor β} {n : ν} : n ∉ (lift g).log c :=
  List.not_mem_nil

lemma mem_log_note {m n : ν} {c : Cursor β} : n ∈ (note m).log c ↔ n = m := List.mem_singleton

/-- What is noted down by either of two readers. -/
lemma mem_log_bind {g : Logged ν β α} {f : α → Logged ν β γ} {c : Cursor β} {n : ν} :
    n ∈ (g >>= f).log c ↔
      n ∈ g.log c ∨ ∃ a c', Reads (forget g) c a c' ∧ n ∈ (f a).log c' := by
  show n ∈ (match g c with
      | ((some a, c'), ns) => ((f a c').1, ns ++ (f a c').2)
      | ((none, c'), ns) => ((none, c'), ns)).2 ↔ _
  have hread : ∀ a c', Reads (forget g) c a c' ↔ (g c).1 = (some a, c') := fun _ _ => Iff.rfl
  simp only [hread, log]
  generalize g c = r
  obtain ⟨⟨_ | a, c'⟩, ns⟩ := r
  · simp
  · simp

/-- A word of `F` behind fewer than `n` words of `L`. -/
def rounds (L F : Language β) : ℕ → Language β
  | 0 => 0
  | n + 1 => F + L * rounds L F n

lemma mem_rounds {L F : Language β} {n : ℕ} {x : List β} :
    x ∈ rounds L F n ↔ ∃ j < n, x ∈ L ^ j * F := by
  induction n generalizing x with
  | zero => exact iff_of_false (Language.notMem_zero x) fun ⟨j, hj, _⟩ => Nat.not_lt_zero j hj
  | succ n ih =>
      rw [rounds, Language.mem_add, Language.mem_mul]
      constructor
      · rintro (hx | ⟨y, hy, z, hz, rfl⟩)
        · exact ⟨0, Nat.succ_pos n, by rwa [pow_zero, one_mul]⟩
        · obtain ⟨j, hj, hz⟩ := ih.mp hz
          refine ⟨j + 1, Nat.succ_lt_succ hj, ?_⟩
          rw [pow_succ', mul_assoc]
          exact Language.append_mem_mul hy hz
      · rintro ⟨j, hj, hx⟩
        cases j with
        | zero => exact .inl (by rwa [pow_zero, one_mul] at hx)
        | succ j =>
            rw [pow_succ', mul_assoc] at hx
            obtain ⟨y, hy, z, hz, rfl⟩ := Language.mem_mul.mp hx
            exact .inr ⟨y, hy, z, ih.mpr ⟨j, Nat.lt_of_succ_lt_succ hj, hz⟩, rfl⟩

/-- `g` notes `n` down exactly where a word of `F` and then `word n` come next. -/
def NotesAt (g : Logged ν β α) (F : Language β) (word : ν → List β) : Prop :=
  ∀ c n, n ∈ g.log c ↔ ∃ x ∈ F, ∃ c', Cut c (x ++ word n) c'

namespace NotesAt

variable {word : ν → List β} {F G L : Language β}

lemma congr {g : Logged ν β α} (hg : g.NotesAt F word) (h : F = G) : g.NotesAt G word := h ▸ hg

lemma lift (g : Reader β α) : (lift g).NotesAt 0 word := by
  intro c n
  constructor
  · exact fun h => absurd h mem_log_lift
  · rintro ⟨x, hx, -⟩
    exact absurd hx (Language.notMem_zero x)

lemma pure (a : α) : (Pure.pure a : Logged ν β α).NotesAt 0 word := by
  intro c n
  constructor
  · exact fun h => absurd h mem_log_pure
  · rintro ⟨x, hx, -⟩
    exact absurd hx (Language.notMem_zero x)

/-- **Sequencing.** -/
lemma bind {g : Logged ν β α} {f : α → Logged ν β γ} (hL : Recognizes (forget g) L)
    (hg : g.NotesAt F word) (hf : ∀ a, (f a).NotesAt G word) :
    (g >>= f).NotesAt (F + L * G) word := by
  intro c n
  rw [mem_log_bind, hg c n]
  constructor
  · rintro (⟨x, hx, hcut⟩ | ⟨a, c', ha, hn⟩)
    · exact ⟨x, (Language.mem_add _ _ x).mpr (.inl hx), hcut⟩
    · obtain ⟨x, hx, hcut⟩ := (hL c c').mp ⟨a, ha⟩
      obtain ⟨y, hy, c'', hcut'⟩ := (hf a c' n).mp hn
      refine ⟨x ++ y, (Language.mem_add _ _ _).mpr (.inr (Language.append_mem_mul hx hy)), c'', ?_⟩
      rw [List.append_assoc]
      exact cut_append.mpr ⟨c', hcut, hcut'⟩
  · rintro ⟨z, hz, c'', hcut⟩
    rcases (Language.mem_add _ _ z).mp hz with hz | hz
    · exact .inl ⟨z, hz, c'', hcut⟩
    · obtain ⟨x, hx, y, hy, rfl⟩ := Language.mem_mul.mp hz
      rw [List.append_assoc] at hcut
      obtain ⟨c', hcut, hcut'⟩ := cut_append.mp hcut
      obtain ⟨a, ha⟩ := (hL c c').mpr ⟨x, hx, hcut⟩
      exact .inr ⟨a, c', ha, (hf a c' n).mpr ⟨y, hy, c'', hcut'⟩⟩

/-- A reader that notes down nothing, and what comes behind it. -/
lemma lift_bind {g : Reader β α} {f : α → Logged ν β γ} (hL : Recognizes g L)
    (hf : ∀ a, (f a).NotesAt G word) : (Logged.lift g >>= f).NotesAt (L * G) word :=
  (bind (g := Logged.lift g) hL (lift g) hf).congr (zero_add _)

/-- **A value that is read and noted down at once.** -/
lemma read_note {g : Reader β ν} (hg : Codec g word fun _ => True) {f : ν → Logged ν β γ}
    (hf : ∀ m, (f m).NotesAt 0 word) :
    (Logged.lift g >>= fun m => note m >>= fun _ => f m).NotesAt 1 word := by
  intro c n
  have hlater : ∀ m c', n ∈ (note m >>= fun _ => f m).log c' ↔ n = m := by
    intro m c'
    rw [mem_log_bind, mem_log_note]
    refine or_iff_left ?_
    rintro ⟨-, c'', -, hn⟩
    obtain ⟨x, hx, -⟩ := (hf m c'' n).mp hn
    exact Language.notMem_zero x hx
  rw [mem_log_bind]
  constructor
  · rintro (h | ⟨m, c', hm, hn⟩)
    · exact absurd h mem_log_lift
    · obtain rfl := (hlater m c').mp hn
      exact ⟨[], Language.nil_mem_one, c', ((hg c n c').mp hm).2⟩
  · rintro ⟨x, hx, c', hcut⟩
    obtain rfl := (Language.mem_one x).mp hx
    exact .inr ⟨n, c', (hg c n c').mpr ⟨trivial, hcut⟩, (hlater n c').mpr rfl⟩

/-- **Repetition.** -/
lemma times {g : Logged ν β α} (hL : Recognizes (forget g) L) (hg : g.NotesAt F word) (n : ℕ) :
    (Logged.times n g).NotesAt (rounds L F n) word := by
  induction n with
  | zero => exact pure []
  | succ n ih =>
      have htimes : Recognizes (forget (Logged.times n g)) (L ^ n) := by
        rw [forget_times]
        exact hL.times n
      refine bind hL hg fun a => (bind htimes ih fun as => pure (a :: as)).congr ?_
      rw [mul_zero, add_zero]

end NotesAt

end Logged
