import Mathlib.Data.List.TakeWhile
import Mathlib.Tactic

/-!
An outbox whose items are numbered in the order they are issued, sent over a
queue that may be lost, and dropped on cumulative acknowledgements.

* `InOrder`: when an item of the queue arrives, every issued item with a smaller
  number has arrived.
* `Outbox`: what was issued and is still kept, what the receiver has processed
  and its mark, and what is on its way: items, acknowledgements and requests to
  send again from a mark.
* `Outbox.Ok` (**the invariant**), kept by `emit`, `push`, `arrive`, `trim`,
  `ask`, `answer` and `cut` under the conditions of `Ok.emit`, …, `Ok.cut`.
* `Outbox.Tight`: the mark has passed only what was processed, so a loss of the
  queue needs no condition.
* `Outbox.Complete`: everything issued has been processed or is on its way;
  `answer` makes it so.
-/

universe u

section

variable {α : Type u} (seq : α → ℕ)

/-- When an item of the queue arrives, every issued item with a smaller number
is done. -/
def InOrder (issued : List α) : List α → List α → Prop
  | _, [] => True
  | done, a :: q => (∀ b ∈ issued, seq b < seq a → b ∈ done) ∧ InOrder issued (done ++ [a]) q

namespace InOrder

variable {seq} {issued done done' q q' : List α} {a : α}

lemma append :
    InOrder seq issued done (q ++ q') ↔
      InOrder seq issued done q ∧ InOrder seq issued (done ++ q) q' := by
  induction q generalizing done with
  | nil => simp [InOrder]
  | cons a q ih => simp [InOrder, ih, and_assoc]

/-- More being done does no harm. -/
lemma mono (h : InOrder seq issued done q) (hsub : ∀ b ∈ done, b ∈ done') :
    InOrder seq issued done' q := by
  induction q generalizing done done' with
  | nil => trivial
  | cons a q ih =>
      refine ⟨fun b hb hlt => hsub b (h.1 b hb hlt), ih h.2 fun b hb => ?_⟩
      rw [List.mem_append] at hb ⊢
      exact hb.imp_left (hsub b)

/-- An item with a number above all of the queue is issued. -/
lemma issue (h : InOrder seq issued done q) (hlt : ∀ b ∈ q, seq b < seq a) :
    InOrder seq (issued ++ [a]) done q := by
  induction q generalizing done with
  | nil => trivial
  | cons b q ih =>
      refine ⟨fun x hx hxb => ?_, ih h.2 fun y hy => hlt y (List.mem_cons_of_mem b hy)⟩
      rcases List.mem_append.mp hx with hx | hx
      · exact h.1 x hx hxb
      · obtain rfl : x = a := by simpa using hx
        exact absurd hxb (Nat.lt_asymm (hlt b List.mem_cons_self))

/-- A sorted queue is in order if everything with a smaller number is done or in
it. -/
lemma of_sorted (hsort : q.Pairwise fun a b => seq a < seq b)
    (hall : ∀ a ∈ q, ∀ b ∈ issued, seq b < seq a → b ∈ done ∨ b ∈ q) :
    InOrder seq issued done q := by
  induction q generalizing done with
  | nil => trivial
  | cons a q ih =>
      obtain ⟨hhead, htail⟩ := List.pairwise_cons.mp hsort
      refine ⟨fun b hb hlt => ?_, ih htail fun a' ha' b hb hlt => ?_⟩
      · rcases hall a List.mem_cons_self b hb hlt with hdone | hmem
        · exact hdone
        · rcases List.mem_cons.mp hmem with rfl | hmem
          · exact absurd hlt (lt_irrefl _)
          · exact absurd (hhead b hmem) (Nat.lt_asymm hlt)
      · rcases hall a' (List.mem_cons_of_mem a ha') b hb hlt with hdone | hmem
        · exact .inl (List.mem_append_left [a] hdone)
        · rcases List.mem_cons.mp hmem with rfl | hmem
          · exact .inl (List.mem_append_right done List.mem_cons_self)
          · exact .inr hmem

end InOrder

/-- A sender and a receiver: what the sender has issued and still keeps and the
number it gives next, what the receiver has processed and the mark it has
reached, and what is on its way. -/
structure Outbox (α : Type u) where
  issued : List α
  log : List α
  next : ℕ
  done : List α
  mark : ℕ
  queue : List α
  acks : List ℕ
  asks : List ℕ

namespace Outbox

/-- An item is issued, and sent or not. -/
def emit (f : Outbox α) (a : α) (sent : Bool) : Outbox α :=
  { f with
    issued := f.issued ++ [a]
    log := f.log ++ [a]
    next := f.next + 1
    queue := f.queue ++ if sent then [a] else [] }

/-- Items are sent. -/
def push (f : Outbox α) (batch : List α) : Outbox α := { f with queue := f.queue ++ batch }

/-- The next item arrives, and the mark may rise to its number. -/
def arrive (f : Outbox α) (a : α) (q : List α) (raise : Bool) : Outbox α :=
  { f with
    done := f.done ++ [a]
    queue := q
    acks := f.acks ++ [seq a]
    mark := if raise then max f.mark (seq a) else f.mark }

/-- The oldest items up to a number are dropped. -/
def trim (f : Outbox α) (n : ℕ) : Outbox α := { f with log := f.log.dropWhile fun a => seq a ≤ n }

/-- The receiver asks for what is above its mark. -/
def ask (f : Outbox α) : Outbox α := { f with asks := f.asks ++ [f.mark] }

/-- What a request is answered with. -/
def above (f : Outbox α) (n : ℕ) : List α := f.log.filter fun a => n < seq a

/-- What was on its way is lost. -/
def cut (f : Outbox α) : Outbox α := { f with queue := [], acks := [], asks := [] }

/-- Everything issued has been processed or is on its way. -/
def Complete (f : Outbox α) : Prop := ∀ a ∈ f.issued, a ∈ f.done ∨ a ∈ f.queue

/-- **The invariant.** -/
structure Ok (f : Outbox α) : Prop where
  ordered : f.issued.Pairwise fun a b => seq a < seq b
  sorted : f.log.Pairwise fun a b => seq a < seq b
  below : ∀ a ∈ f.issued, seq a < f.next
  logged : ∀ a ∈ f.log, a ∈ f.issued
  kept : ∀ a ∈ f.issued, a ∈ f.log ∨ a ∈ f.done
  sent : ∀ a ∈ f.queue, a ∈ f.issued
  inOrder : InOrder seq f.issued f.done f.queue
  acked : ∀ n ∈ f.acks, ∀ a ∈ f.issued, seq a ≤ n → a ∈ f.done
  acks_lt : ∀ n ∈ f.acks, n < f.next
  marked : ∀ a ∈ f.issued, seq a ≤ f.mark → a ∈ f.done ∨ a ∈ f.queue
  asked : ∀ n ∈ f.asks, n ≤ f.mark

/-- The mark has passed only what was processed, and is below the next number. -/
structure Tight (f : Outbox α) : Prop where
  marked : ∀ a ∈ f.issued, seq a ≤ f.mark → a ∈ f.done
  mark_lt : f.mark < f.next

variable {seq} {f : Outbox α} {a : α}

namespace Ok

/-- A sender that has issued nothing, whatever the receiver's mark. -/
lemma blank (next mark : ℕ) : Ok seq ⟨[], [], next, [], mark, [], [], []⟩ where
  ordered := .nil
  sorted := .nil
  below a ha := by cases ha
  logged a ha := by cases ha
  kept a ha := by cases ha
  sent a ha := by cases ha
  inOrder := trivial
  acked n hn := by cases hn
  acks_lt n hn := by cases hn
  marked a ha := by cases ha
  asked n hn := by cases hn

/-- Numbers are given once. -/
lemma eq_of_seq (h : Ok seq f) {b : α} (ha : a ∈ f.issued) (hb : b ∈ f.issued)
    (hseq : seq a = seq b) : a = b := by
  have hnodup : (f.issued.map seq).Nodup :=
    (List.pairwise_map.mpr h.ordered).imp fun hlt => Nat.ne_of_lt hlt
  exact List.inj_on_of_nodup_map hnodup ha hb hseq

/-- An item is issued: it may be sent only if nothing older waits to be, and may
be kept back only above the mark. -/
lemma emit (h : Ok seq f) (ha : seq a = f.next) {sent : Bool}
    (hsent : sent = true → ∀ b ∈ f.log, b ∈ f.done ∨ b ∈ f.queue)
    (hkept : sent = false → f.mark < f.next) : Ok seq (f.emit a sent) := by
  have hnew : ∀ b ∈ f.issued, seq b < seq a := fun b hb => ha ▸ h.below b hb
  have hqueue : InOrder seq (f.issued ++ [a]) f.done f.queue :=
    h.inOrder.issue fun b hb => hnew b (h.sent b hb)
  refine ⟨?_, ?_, ?_, ?_, ?_, ?_, ?_, ?_, ?_, ?_, h.asked⟩
  · refine List.pairwise_append.mpr ⟨h.ordered, List.pairwise_singleton _ a, fun b hb a' ha' => ?_⟩
    rw [List.mem_singleton.mp ha']
    exact hnew b hb
  · refine List.pairwise_append.mpr ⟨h.sorted, List.pairwise_singleton _ a, fun b hb a' ha' => ?_⟩
    rw [List.mem_singleton.mp ha']
    exact hnew b (h.logged b hb)
  · intro b hb
    rcases List.mem_append.mp hb with hb | hb
    · exact Nat.lt_succ_of_lt (h.below b hb)
    · rw [List.mem_singleton.mp hb, ha]
      exact Nat.lt_succ_self f.next
  · intro b hb
    rcases List.mem_append.mp hb with hb | hb
    · exact List.mem_append_left [a] (h.logged b hb)
    · exact List.mem_append_right f.issued hb
  · intro b hb
    rcases List.mem_append.mp hb with hb | hb
    · exact (h.kept b hb).imp_left (List.mem_append_left [a])
    · exact .inl (List.mem_append_right f.log hb)
  · intro b hb
    rcases List.mem_append.mp hb with hb | hb
    · exact List.mem_append_left [a] (h.sent b hb)
    · cases sent with
      | false => cases hb
      | true => exact List.mem_append_right f.issued hb
  · cases sent with
    | false => simpa [Outbox.emit] using hqueue
    | true =>
        -- what comes before `a` and is not done yet is in the queue, ahead of it
        refine InOrder.append.mpr ⟨hqueue, fun b hb hlt => ?_, trivial⟩
        rcases List.mem_append.mp hb with hb | hb
        · rw [List.mem_append]
          rcases h.kept b hb with hlog | hdone
          · exact hsent rfl b hlog
          · exact .inl hdone
        · rw [List.mem_singleton.mp hb] at hlt
          exact absurd hlt (lt_irrefl _)
  -- no acknowledgement reaches as far as the number that is given now
  · intro n hn b hb hle
    rcases List.mem_append.mp hb with hb | hb
    · exact h.acked n hn b hb hle
    · rw [List.mem_singleton.mp hb, ha] at hle
      exact absurd (h.acks_lt n hn) (Nat.not_lt.mpr hle)
  · exact fun n hn => Nat.lt_succ_of_lt (h.acks_lt n hn)
  · intro b hb hle
    rcases List.mem_append.mp hb with hb | hb
    · exact (h.marked b hb hle).imp_right (List.mem_append_left _)
    · obtain rfl := List.mem_singleton.mp hb
      cases sent with
      | false => exact absurd (ha ▸ hle : f.next ≤ f.mark) (Nat.not_le.mpr (hkept rfl))
      | true => exact .inr (List.mem_append_right f.queue List.mem_cons_self)

/-- Issued items are sent in an order that fits what is on its way. -/
lemma push (h : Ok seq f) {batch : List α} (hsub : ∀ a ∈ batch, a ∈ f.issued)
    (hord : InOrder seq f.issued (f.done ++ f.queue) batch) : Ok seq (f.push batch) :=
  { h with
    sent := fun b hb => (List.mem_append.mp hb).elim (h.sent b) (hsub b)
    inOrder := InOrder.append.mpr ⟨h.inOrder, hord⟩
    marked := fun b hb hle => (h.marked b hb hle).imp_right (List.mem_append_left batch) }

/-- The next item arrives and is acknowledged. -/
lemma arrive (h : Ok seq f) {q : List α} (hq : f.queue = a :: q) (raise : Bool) :
    Ok seq (f.arrive seq a q raise) := by
  have hord := h.inOrder
  rw [hq] at hord
  obtain ⟨hhead, htail⟩ := hord
  have ha : a ∈ f.issued := h.sent a (hq ▸ List.mem_cons_self)
  have hmove : ∀ b, b ∈ f.done ∨ b ∈ f.queue → b ∈ f.done ++ [a] ∨ b ∈ q := by
    intro b hb
    rw [hq] at hb
    simp only [List.mem_append, List.mem_cons] at hb ⊢
    tauto
  -- up to the number of `a` all that was issued is done now
  have hupto : ∀ b ∈ f.issued, seq b ≤ seq a → b ∈ f.done ++ [a] := by
    intro b hb hle
    rcases Nat.lt_or_eq_of_le hle with hlt | heq
    · exact List.mem_append_left [a] (hhead b hb hlt)
    · rw [h.eq_of_seq hb ha heq]
      exact List.mem_append_right f.done List.mem_cons_self
  refine { h with kept := ?_, sent := ?_, inOrder := htail, acked := ?_, acks_lt := ?_,
                  marked := ?_, asked := ?_ }
  · exact fun b hb => (h.kept b hb).imp_right (List.mem_append_left [a])
  · exact fun b hb => h.sent b (hq ▸ List.mem_cons_of_mem a hb)
  · intro n hn b hb hle
    rcases List.mem_append.mp hn with hn | hn
    · exact List.mem_append_left [a] (h.acked n hn b hb hle)
    · rw [List.mem_singleton.mp hn] at hle
      exact hupto b hb hle
  · intro n hn
    rcases List.mem_append.mp hn with hn | hn
    · exact h.acks_lt n hn
    · rw [List.mem_singleton.mp hn]
      exact h.below a ha
  · intro b hb hle
    cases raise with
    | false => exact hmove b (h.marked b hb hle)
    | true =>
        rcases le_max_iff.mp hle with hle | hle
        · exact hmove b (h.marked b hb hle)
        · exact .inl (hupto b hb hle)
  · intro n hn
    cases raise with
    | false => exact h.asked n hn
    | true => exact le_max_iff.mpr (.inl (h.asked n hn))

/-- The oldest items up to an acknowledged number are dropped. -/
lemma trim (h : Ok seq f) {n : ℕ} (hn : n ∈ f.acks) : Ok seq (f.trim seq n) := by
  have hsub : ∀ b ∈ (f.trim seq n).log, b ∈ f.log := fun b hb =>
    (List.dropWhile_sublist _).subset hb
  refine { h with
    sorted := h.sorted.sublist (List.dropWhile_sublist _)
    logged := fun b hb => h.logged b (hsub b hb)
    kept := fun b hb => ?_ }
  rcases h.kept b hb with hlog | hdone
  · rw [← List.takeWhile_append_dropWhile (p := fun a => seq a ≤ n) (l := f.log)] at hlog
    rcases List.mem_append.mp hlog with htake | hdrop
    · have hle : seq b ≤ n := by simpa using List.mem_takeWhile_imp htake
      exact .inr (h.acked n hn b hb hle)
    · exact .inl hdrop
  · exact .inr hdone

/-- Acknowledgements and requests may get lost. -/
lemma forget (h : Ok seq f) {acks asks : List ℕ} (hacks : ∀ n ∈ acks, n ∈ f.acks)
    (hasks : ∀ n ∈ asks, n ∈ f.asks) : Ok seq { f with acks := acks, asks := asks } :=
  { h with
    acked := fun n hn => h.acked n (hacks n hn)
    acks_lt := fun n hn => h.acks_lt n (hacks n hn)
    asked := fun n hn => h.asked n (hasks n hn) }

/-- The receiver asks for what is above its mark. -/
lemma ask (h : Ok seq f) : Ok seq f.ask :=
  { h with
    asked := fun n hn => by
      rcases List.mem_append.mp hn with hn | hn
      · exact h.asked n hn
      · exact (List.mem_singleton.mp hn).le }

/-- What lies above a mark that was asked from is in order. -/
lemma inOrder_above (h : Ok seq f) {n : ℕ} (hn : n ∈ f.asks) :
    InOrder seq f.issued (f.done ++ f.queue) (f.above seq n) := by
  refine .of_sorted (h.sorted.sublist List.filter_sublist) fun a _ b hb _ => ?_
  rw [List.mem_append]
  rcases h.kept b hb with hlog | hdone
  · by_cases hle : seq b ≤ n
    · exact .inl (h.marked b hb (hle.trans (h.asked n hn)))
    · exact .inr (List.mem_filter.mpr ⟨hlog, by simpa using hle⟩)
  · exact .inl (.inl hdone)

lemma mem_issued_of_above (h : Ok seq f) {n : ℕ} (ha : a ∈ f.above seq n) : a ∈ f.issued :=
  h.logged a (List.mem_filter.mp ha).1

/-- **A request is answered**: everything issued is done or on its way. -/
lemma answer (h : Ok seq f) {n : ℕ} (hn : n ∈ f.asks) :
    Ok seq (f.push (f.above seq n)) ∧ (f.push (f.above seq n)).Complete := by
  refine ⟨h.push (fun a ha => h.mem_issued_of_above ha) (h.inOrder_above hn), fun b hb => ?_⟩
  rcases h.kept b hb with hlog | hdone
  · by_cases hle : seq b ≤ n
    · exact (h.marked b hb (hle.trans (h.asked n hn))).imp_right (List.mem_append_left _)
    · exact .inr (List.mem_append_right f.queue (List.mem_filter.mpr ⟨hlog, by simpa using hle⟩))
  · exact .inl hdone

/-- What was on its way is lost, and the mark has passed none of it. -/
lemma cut (h : Ok seq f) (hlost : ∀ b ∈ f.queue, seq b ≤ f.mark → b ∈ f.done) : Ok seq f.cut :=
  { h with
    sent := fun b hb => by cases hb
    inOrder := trivial
    acked := fun n hn => by cases hn
    acks_lt := fun n hn => by cases hn
    marked := fun b hb hle => .inl ((h.marked b hb hle).elim id fun hq => hlost b hq hle)
    asked := fun n hn => by cases hn }

end Ok

namespace Complete

lemma emit (h : f.Complete) (a : α) : (f.emit a true).Complete := by
  intro b hb
  rcases List.mem_append.mp hb with hb | hb
  · exact (h b hb).imp_right (List.mem_append_left [a])
  · exact .inr (List.mem_append_right f.queue hb)

lemma arrive (h : f.Complete) {q : List α} (hq : f.queue = a :: q) (raise : Bool) :
    (f.arrive seq a q raise).Complete := by
  intro b hb
  show b ∈ f.done ++ [a] ∨ b ∈ q
  rcases h b hb with hdone | hqueue
  · exact .inl (List.mem_append_left [a] hdone)
  · rw [hq] at hqueue
    rcases List.mem_cons.mp hqueue with rfl | hmem
    · exact .inl (List.mem_append_right f.done List.mem_cons_self)
    · exact .inr hmem

end Complete

namespace Tight

lemma emit (h : Tight seq f) (ha : seq a = f.next) (sent : Bool) : Tight seq (f.emit a sent) where
  marked b hb hle := by
    rcases List.mem_append.mp hb with hb | hb
    · exact h.marked b hb hle
    · rw [List.mem_singleton.mp hb, ha] at hle
      exact absurd h.mark_lt (Nat.not_lt.mpr hle)
  mark_lt := Nat.lt_succ_of_lt h.mark_lt

lemma arrive (h : Tight seq f) (hok : Ok seq f) {q : List α} (hq : f.queue = a :: q)
    (raise : Bool) : Tight seq (f.arrive seq a q raise) := by
  have hok' := hok.arrive hq true
  have ha : seq a < f.next := hok.below a (hok.sent a (hq ▸ List.mem_cons_self))
  have hdone : ∀ b ∈ f.issued, seq b ≤ seq a → b ∈ f.done ++ [a] :=
    hok'.acked (seq a) (List.mem_append_right f.acks List.mem_cons_self)
  cases raise with
  | false => exact ⟨fun b hb hle => List.mem_append_left [a] (h.marked b hb hle), h.mark_lt⟩
  | true =>
      refine ⟨fun b hb hle => ?_, max_lt_iff.mpr ⟨h.mark_lt, ha⟩⟩
      rcases le_max_iff.mp hle with hle | hle
      · exact List.mem_append_left [a] (h.marked b hb hle)
      · exact hdone b hb hle

/-- What is on its way is lost. -/
lemma lose (h : Tight seq f) (hok : Ok seq f) : Ok seq { f with queue := [] } :=
  { hok with
    sent := fun b hb => by cases hb
    inOrder := trivial
    marked := fun b hb hle => .inl (h.marked b hb hle) }

/-- What lies above a mark that was asked from is in order, whatever is on its
way. -/
lemma inOrder_above (h : Tight seq f) (hok : Ok seq f) {n : ℕ} (hn : n ∈ f.asks) :
    InOrder seq f.issued f.done (f.above seq n) := by
  have hlost : InOrder seq f.issued (f.done ++ []) (f.above seq n) := (h.lose hok).inOrder_above hn
  rwa [List.append_nil] at hlost

end Tight

end Outbox

end
