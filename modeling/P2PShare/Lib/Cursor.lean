import Mathlib.Tactic

/-!
Cursors over a finite sequence, the readers that move them, and the codec
relation between a reader and an encoder.

* `Cursor`: a sequence with a read position that never passes its end, the
  bound being a field; `Cut c x c'` says that `x` is what comes next at `c` and
  that `c'` is `c` moved past it. `cut_append` splits a cut and `cut_unique`
  makes its result unique.
* `Reader`: a computation that moves a cursor and may fail. A failed step keeps
  the position it had reached, so a reader that ignores failures can be
  modelled as well. `reads_bind` and `reads_pure` turn a successful run into
  its steps, `fails_bind` and `fails_take` a failed one.
* `Codec g enc ok` (**the codec relation**): `g` reads `a` exactly when `a` is
  `ok` and `enc a` is what comes next. It is closed under sequencing
  (`Codec.bind`) and counted repetition (`Codec.times`), and it gives both the
  round trip (`Codec.read_enc`) and that what is read determines what was
  there. `Undoes` is its half that a reader of several encodings has.
-/

universe u v

/-- A finite sequence together with a read position inside it. -/
@[ext]
structure Cursor (β : Type u) where
  data : List β
  pos : ℕ
  pos_le : pos ≤ data.length

namespace Cursor

variable {β : Type u}

/-- The cursor at the start of a sequence. -/
def start (data : List β) : Cursor β := ⟨data, 0, Nat.zero_le _⟩

/-- How much of the sequence has not been read. -/
def remaining (c : Cursor β) : ℕ := c.data.length - c.pos

/-- What has not been read. -/
def unread (c : Cursor β) : List β := c.data.drop c.pos

/-- The cursor moved forward by `n`. -/
def advance (c : Cursor β) (n : ℕ) (h : n ≤ c.remaining) : Cursor β :=
  ⟨c.data, c.pos + n, by have := c.pos_le; unfold remaining at h; omega⟩

@[simp] lemma unread_start (data : List β) : (start data).unread = data := by
  simp [start, unread]

lemma length_unread (c : Cursor β) : c.unread.length = c.remaining := by
  simp [unread, remaining]

@[simp] lemma unread_advance (c : Cursor β) (n : ℕ) (h : n ≤ c.remaining) :
    (c.advance n h).unread = c.unread.drop n := by
  simp [unread, advance, List.drop_drop]

/-- The unread part determines the position. -/
lemma ext_unread {c c' : Cursor β} (hd : c'.data = c.data) (hu : c'.unread = c.unread) :
    c' = c := by
  have hl := congrArg List.length hu
  rw [length_unread, length_unread, remaining, remaining, hd] at hl
  have h := c.pos_le
  have h' := c'.pos_le
  rw [hd] at h'
  exact Cursor.ext hd (by omega)

/-- `x` is what comes next at `c`, and `c'` is `c` moved past it. -/
def Cut (c : Cursor β) (x : List β) (c' : Cursor β) : Prop :=
  c'.data = c.data ∧ c.unread = x ++ c'.unread

@[simp] lemma cut_nil {c c' : Cursor β} : Cut c [] c' ↔ c' = c := by
  constructor
  · rintro ⟨hd, hu⟩
    exact ext_unread hd (by simpa using hu.symm)
  · rintro rfl
    exact ⟨rfl, by simp⟩

/-- The result of a cut is unique. -/
lemma cut_unique {c c₁ c₂ : Cursor β} {x : List β} (h₁ : Cut c x c₁) (h₂ : Cut c x c₂) :
    c₁ = c₂ := by
  refine ext_unread (h₁.1.trans h₂.1.symm) ?_
  have h : x ++ c₁.unread = x ++ c₂.unread := h₁.2.symm.trans h₂.2
  exact List.append_cancel_left h

/-- What comes next can be cut off. -/
lemma exists_cut {c : Cursor β} {x y : List β} (h : c.unread = x ++ y) :
    ∃ c', Cut c x c' ∧ c'.unread = y := by
  have hl : x.length ≤ c.remaining := by rw [← length_unread, h]; simp
  have hy : (c.advance x.length hl).unread = y := by rw [unread_advance, h]; simp
  exact ⟨c.advance x.length hl, ⟨rfl, by rw [hy]; exact h⟩, hy⟩

/-- A cut of `x ++ y` is a cut of `x` followed by a cut of `y`. -/
lemma cut_append {c c'' : Cursor β} {x y : List β} :
    Cut c (x ++ y) c'' ↔ ∃ c', Cut c x c' ∧ Cut c' y c'' := by
  constructor
  · rintro ⟨hd, hu⟩
    rw [List.append_assoc] at hu
    obtain ⟨c', hc', hy⟩ := exists_cut hu
    exact ⟨c', hc', hd.trans hc'.1.symm, hy⟩
  · rintro ⟨c', ⟨hd, hu⟩, hd', hu'⟩
    exact ⟨hd'.trans hd, by rw [hu, hu', List.append_assoc]⟩

/-- A cut from the start of a sequence splits the sequence. -/
lemma cut_start {data x : List β} {c' : Cursor β} (h : Cut (start data) x c') :
    data = x ++ c'.unread := by
  simpa using h.2

end Cursor

/-- A computation that moves a cursor and may fail, keeping the position it had
reached when it does. -/
abbrev Reader (β : Type u) := OptionT (StateM (Cursor β))

namespace Reader

open Cursor

variable {β : Type u} {α γ : Type u}

/-- The outcome of a reader at a cursor. -/
def read (g : Reader β α) (c : Cursor β) : Option α × Cursor β := (OptionT.run g).run c

/-- The reader `g` succeeds at `c` with `a` and leaves the cursor at `c'`. -/
def Reads (g : Reader β α) (c : Cursor β) (a : α) (c' : Cursor β) : Prop :=
  g.read c = (some a, c')

/-- Read the next `n` elements, or fail and stay. -/
def take (n : ℕ) : Reader β (List β) := fun c =>
  if h : n ≤ c.remaining then (some (c.unread.take n), c.advance n h) else (none, c)

/-- Run `g` `n` times and collect what it reads. -/
def times : ℕ → Reader β α → Reader β (List α)
  | 0, _ => pure []
  | n + 1, g => do
      let a ← g
      let as ← times n g
      return a :: as

@[simp] lemma read_pure (a : α) (c : Cursor β) : read (pure a) c = (some a, c) := rfl

lemma read_bind (g : Reader β α) (f : α → Reader β γ) (c : Cursor β) :
    (g >>= f).read c =
      match g.read c with
      | (some a, c') => (f a).read c'
      | (none, c') => (none, c') := by
  simp only [read, OptionT.run_bind, Option.elimM, StateT.run_bind]
  generalize StateT.run (OptionT.run g) c = p
  obtain ⟨_ | a, c'⟩ := p <;> rfl

lemma reads_pure {a b : α} {c c' : Cursor β} : Reads (pure a) c b c' ↔ b = a ∧ c' = c := by
  simp [Reads, Prod.ext_iff, eq_comm]

lemma reads_bind {g : Reader β α} {f : α → Reader β γ} {c c'' : Cursor β} {b : γ} :
    Reads (g >>= f) c b c'' ↔ ∃ a c', Reads g c a c' ∧ Reads (f a) c' b c'' := by
  simp only [Reads, read_bind]
  obtain ⟨_ | a, c'⟩ := g.read c
  · simp
  · simp only [Prod.mk.injEq, Option.some.injEq]
    exact ⟨fun h => ⟨a, c', ⟨rfl, rfl⟩, h⟩, fun ⟨_, _, ⟨ha, hc⟩, h⟩ => ha ▸ hc ▸ h⟩

/-- Successful reads follow one another. -/
lemma Reads.bind {g : Reader β α} {f : α → Reader β γ} {c c' c'' : Cursor β} {a : α} {b : γ}
    (hg : Reads g c a c') (hf : Reads (f a) c' b c'') : Reads (g >>= f) c b c'' :=
  reads_bind.mpr ⟨a, c', hg, hf⟩

lemma reads_take {n : ℕ} {c c' : Cursor β} {x : List β} :
    Reads (take n) c x c' ↔ x.length = n ∧ Cut c x c' := by
  have hrun : (take n : Reader β (List β)).read c
      = if h : n ≤ c.remaining then (some (c.unread.take n), c.advance n h) else (none, c) := rfl
  constructor
  · intro h
    rw [Reads, hrun] at h
    split at h
    · next hn =>
        obtain ⟨rfl, rfl⟩ : c.unread.take n = x ∧ c.advance n hn = c' := by simpa using h
        refine ⟨by rw [List.length_take, length_unread]; omega, rfl, ?_⟩
        rw [unread_advance, List.take_append_drop]
    · simp at h
  · rintro ⟨rfl, hcut⟩
    have hn : x.length ≤ c.remaining := by rw [← length_unread, hcut.2]; simp
    have htake : c.unread.take x.length = x := by rw [hcut.2]; simp
    rw [Reads, hrun, dif_pos hn, htake]
    have hu : c.unread = x ++ (c.advance x.length hn).unread := by
      rw [unread_advance]
      conv_lhs => rw [← List.take_append_drop x.length c.unread, htake]
    rw [cut_unique hcut (⟨rfl, hu⟩ : Cut c x (c.advance x.length hn))]

/-! ### Failures -/

/-- The reader `g` fails at `c` and leaves the cursor at `c'`. -/
def Fails (g : Reader β α) (c c' : Cursor β) : Prop := g.read c = (none, c')

lemma not_fails_pure {a : α} {c c' : Cursor β} : ¬ Fails (pure a) c c' := by
  simp [Fails]

/-- A sequence fails in its first part, or behind it in its second one. -/
lemma fails_bind {g : Reader β α} {f : α → Reader β γ} {c c'' : Cursor β} :
    Fails (g >>= f) c c'' ↔ Fails g c c'' ∨ ∃ a c', Reads g c a c' ∧ Fails (f a) c' c'' := by
  simp only [Fails, Reads, read_bind]
  obtain ⟨_ | a, c'⟩ := g.read c
  · simp
  · simp only [Prod.mk.injEq, reduceCtorEq, false_and, false_or, Option.some.injEq]
    exact ⟨fun h => ⟨a, c', ⟨rfl, rfl⟩, h⟩, fun ⟨_, _, ⟨ha, hc⟩, h⟩ => ha ▸ hc ▸ h⟩

/-- Reading a number of elements fails where they are missing, and stays there. -/
lemma fails_take {n : ℕ} {c c' : Cursor β} :
    Fails (take n : Reader β (List β)) c c' ↔ c.remaining < n ∧ c' = c := by
  have hrun : (take n : Reader β (List β)).read c
      = if h : n ≤ c.remaining then (some (c.unread.take n), c.advance n h) else (none, c) := rfl
  rw [Fails, hrun]
  split
  · next h => simp [h]
  · next h => simp [Nat.lt_of_not_le h, eq_comm]

/-- A value that is passed on fails where it was not read. -/
lemma fails_map {g : Reader β α} {f : α → γ} {c c' : Cursor β} :
    Fails (do let a ← g; return f a) c c' ↔ Fails g c c' := by
  rw [fails_bind]
  exact or_iff_left fun ⟨_, _, _, hpure⟩ => not_fails_pure hpure

lemma read_map (g : Reader β α) (f : α → γ) (c : Cursor β) :
    read (do let a ← g; return f a) c = (g.read c).map (Option.map f) id := by
  rw [read_bind]
  obtain ⟨_ | a, c'⟩ := g.read c <;> rfl

/-! ### The codec relation -/

/-- **The codec relation**: `g` reads `a` exactly when `a` is `ok` and `enc a`
is what comes next. -/
def Codec (g : Reader β α) (enc : α → List β) (ok : α → Prop) : Prop :=
  ∀ c a c', Reads g c a c' ↔ ok a ∧ Cut c (enc a) c'

/-- The round trip: an encoded value is read back, and exactly it. -/
lemma Codec.read_enc {g : Reader β α} {enc : α → List β} {ok : α → Prop} (hg : Codec g enc ok)
    {a : α} (ha : ok a) (rest : List β) :
    ∃ c', Reads g (start (enc a ++ rest)) a c' ∧ c'.unread = rest := by
  obtain ⟨c', hcut, hrest⟩ := exists_cut (unread_start (enc a ++ rest))
  exact ⟨c', (hg _ _ _).mpr ⟨ha, hcut⟩, hrest⟩

/-- The weaker half of a codec: `g` reads an `ok` value wherever its encoding
comes next. It is all that a reader which accepts several encodings of one
value satisfies. -/
def Undoes (g : Reader β α) (enc : α → List β) (ok : α → Prop) : Prop :=
  ∀ a c c', ok a → Cut c (enc a) c' → Reads g c a c'

lemma Codec.undoes {g : Reader β α} {enc : α → List β} {ok : α → Prop} (hg : Codec g enc ok) :
    Undoes g enc ok :=
  fun a c c' hok hcut => (hg c a c').mpr ⟨hok, hcut⟩

/-- Read from the start of exactly its encoding, a value comes back. -/
lemma Undoes.read_start {g : Reader β α} {enc : α → List β} {ok : α → Prop} (hg : Undoes g enc ok)
    {a : α} (ha : ok a) : (g.read (start (enc a))).1 = some a := by
  obtain ⟨c', hcut, -⟩ := exists_cut
    ((unread_start (enc a)).trans (List.append_nil (enc a)).symm)
  have hread : g.read (start (enc a)) = (some a, c') := hg a _ _ ha hcut
  rw [hread]

lemma codec_take (n : ℕ) :
    Codec (take n : Reader β (List β)) (fun x => x) (fun x => x.length = n) :=
  fun _ _ _ => reads_take

/-- **Sequencing**: the second reader depends on what the first one read, which
the final value remembers through `fst`. -/
lemma Codec.bind {g : Reader β α} {enc : α → List β} {ok : α → Prop} (hg : Codec g enc ok)
    {f : α → Reader β γ} (fst : γ → α) (enc' : γ → List β) (ok' : γ → Prop)
    (hf : ∀ a, ok a → Codec (f a) enc' (fun b => ok' b ∧ fst b = a)) :
    Codec (g >>= f) (fun b => enc (fst b) ++ enc' b) (fun b => ok (fst b) ∧ ok' b) := by
  intro c b c''
  rw [reads_bind, cut_append]
  constructor
  · rintro ⟨a, c', hga, hfa⟩
    obtain ⟨hok, hcut⟩ := (hg _ _ _).mp hga
    obtain ⟨⟨hok', rfl⟩, hcut'⟩ := (hf a hok _ _ _).mp hfa
    exact ⟨⟨hok, hok'⟩, c', hcut, hcut'⟩
  · rintro ⟨⟨hok, hok'⟩, c', hcut, hcut'⟩
    exact ⟨fst b, c', (hg _ _ _).mpr ⟨hok, hcut⟩,
      (hf _ hok _ _ _).mpr ⟨⟨hok', rfl⟩, hcut'⟩⟩

/-- The same relation with its encoder and its domain spelled differently. -/
lemma Codec.congr {g : Reader β α} {enc enc' : α → List β} {ok ok' : α → Prop}
    (hg : Codec g enc ok) (hok : ∀ a, ok a ↔ ok' a) (henc : ∀ a, ok a → enc a = enc' a) :
    Codec g enc' ok' := by
  intro c a c'
  rw [hg, ← hok]
  exact and_congr_right fun h => by rw [henc a h]

/-- **Counted repetition**: the elements follow one another, and there are
exactly `n` of them. -/
lemma Codec.times {g : Reader β α} {enc : α → List β} {ok : α → Prop} (hg : Codec g enc ok)
    (n : ℕ) :
    Codec (times n g) (fun as => as.flatMap enc) (fun as => as.length = n ∧ ∀ a ∈ as, ok a) := by
  induction n with
  | zero =>
      intro c as c'
      rw [Reader.times, reads_pure]
      constructor
      · rintro ⟨rfl, rfl⟩
        simp
      · rintro ⟨⟨hlen, -⟩, hcut⟩
        obtain rfl := List.length_eq_zero_iff.mp hlen
        exact ⟨rfl, by simpa using hcut⟩
  | succ n ih =>
      intro c as c'
      simp only [Reader.times, reads_bind, reads_pure]
      constructor
      · rintro ⟨a, c₁, hga, as', c₂, has, rfl, rfl⟩
        obtain ⟨hok, hcut⟩ := (hg _ _ _).mp hga
        obtain ⟨⟨hlen, hall⟩, hcut'⟩ := (ih _ _ _).mp has
        refine ⟨⟨by simp [hlen], by simpa using ⟨hok, hall⟩⟩, ?_⟩
        rw [List.flatMap_cons]
        exact cut_append.mpr ⟨c₁, hcut, hcut'⟩
      · rintro ⟨⟨hlen, hall⟩, hcut⟩
        obtain ⟨a, as', rfl⟩ := List.exists_cons_of_length_eq_add_one hlen
        rw [List.flatMap_cons] at hcut
        obtain ⟨c₁, hcut₁, hcut₂⟩ := cut_append.mp hcut
        refine ⟨a, c₁, (hg _ _ _).mpr ⟨hall a (by simp), hcut₁⟩, as', c',
          (ih _ _ _).mpr ⟨⟨by simpa using hlen, fun x hx => hall x (by simp [hx])⟩, hcut₂⟩,
          rfl, rfl⟩

/-- Counted repetition of a reader that undoes an encoder. -/
lemma Undoes.times {g : Reader β α} {enc : α → List β} {ok : α → Prop} (hg : Undoes g enc ok)
    (n : ℕ) :
    Undoes (times n g) (fun as => as.flatMap enc) (fun as => as.length = n ∧ ∀ a ∈ as, ok a) := by
  induction n with
  | zero =>
      rintro as c c' ⟨hlen, -⟩ hcut
      obtain rfl := List.length_eq_zero_iff.mp hlen
      obtain rfl : c' = c := by simpa using hcut
      exact read_pure [] c'
  | succ n ih =>
      rintro as c c' ⟨hlen, hall⟩ hcut
      obtain ⟨a, as', rfl⟩ := List.exists_cons_of_length_eq_add_one hlen
      have happ : Cut c (enc a ++ as'.flatMap enc) c' := hcut
      obtain ⟨c₁, hcut₁, hcut₂⟩ := cut_append.mp happ
      have hrest : Reads (Reader.times n g) c₁ as' c' :=
        ih as' c₁ c' ⟨by simpa using hlen, fun x hx => hall x (by simp [hx])⟩ hcut₂
      exact (hg a c c₁ (hall a (by simp)) hcut₁).bind (hrest.bind (read_pure _ c'))

/-- Counted repetition of a reader that makes `f b` of the encoding of `b`. -/
lemma reads_times_map {δ : Type*} {g : Reader β α} {enc : δ → List β} {f : δ → α} {bs : List δ}
    (hg : ∀ b ∈ bs, ∀ c c', Cut c (enc b) c' → Reads g c (f b) c') {c c' : Cursor β}
    (hcut : Cut c (bs.flatMap enc) c') : Reads (times bs.length g) c (bs.map f) c' := by
  induction bs generalizing c with
  | nil =>
      obtain rfl : c' = c := by simpa using hcut
      exact read_pure [] c'
  | cons b bs ih =>
      have happ : Cut c (enc b ++ bs.flatMap enc) c' := hcut
      obtain ⟨c₁, hcut₁, hcut₂⟩ := cut_append.mp happ
      have hrest := ih (fun x hx => hg x (List.mem_cons_of_mem b hx)) hcut₂
      exact (hg b (List.mem_cons_self ..) c c₁ hcut₁).bind (hrest.bind (read_pure _ c'))

/-- A reader whose failure is ignored: `d` is used in its place, at the position that
was reached. -/
def orDefault (g : Reader β α) (d : α) : Reader β α := fun c =>
  match g.read c with
  | (some a, c') => (some a, c')
  | (none, c') => (some d, c')

lemma Reads.orDefault {g : Reader β α} {c c' : Cursor β} {a : α} (h : Reads g c a c') (d : α) :
    Reads (g.orDefault d) c a c' := by
  have hrun : (Reader.orDefault g d).read c =
      match g.read c with
      | (some a, c') => (some a, c')
      | (none, c') => (some d, c') := rfl
  rw [Reads, hrun, show g.read c = (some a, c') from h]

end Reader
