import P2PShare.Tracker.Sync

/-!
What the log of a tracker holds.

* `LogEvent`: `record_and_replicate` is called, or a message of the peer is processed.
* `needed`: the recorded ops whose numbers lie above every ACK that came after them, read
  off the events alone.
* `Consecutive` (**the invariant**): the numbers in the log follow one another and end
  below the next one to be given.
* `log_eq_needed`: the log is what is needed, its numbers are consecutive, and a catch-up
  sends what lies above the number that it names.
-/

namespace P2PShare

/-- What happens to a log. -/
inductive LogEvent
  | record (type : UInt16) (payload : Str) (now : UInt64)
  | peer (m : SyncMsg)
deriving DecidableEq

namespace LogEvent

/-- The number that the event acknowledges. -/
def ack? : LogEvent → Option ℕ
  | peer (.ack n) => some n
  | _ => none

/-- The numbers that the events acknowledge. -/
def acks (es : List LogEvent) : List ℕ := es.filterMap ack?

/-- **What the peer may still need**: each op that is recorded, with the next number, if
no ACK behind it reaches this number. -/
def needed : ℕ → List LogEvent → List Op
  | _, [] => []
  | n, record type payload now :: es =>
      if ∀ a ∈ acks es, a < n then ⟨n, type, payload, now⟩ :: needed (n + 1) es
      else needed (n + 1) es
  | n, peer _ :: es => needed n es

/-- How many ops the events record. -/
def records : List LogEvent → ℕ
  | [] => 0
  | record .. :: es => records es + 1
  | peer _ :: es => records es

lemma records_append (es es' : List LogEvent) : records (es ++ es') = records es + records es' := by
  induction es with
  | nil => simp [records]
  | cons e es ih =>
      cases e with
      | peer m => exact ih
      | record type payload now =>
          rw [List.cons_append, records, records, ih]
          omega

/-- The op that is recorded last is needed. -/
lemma needed_record (n : ℕ) (es : List LogEvent) (type : UInt16) (payload : Str) (now : UInt64) :
    needed n (es ++ [record type payload now]) =
      needed n es ++ [⟨n + records es, type, payload, now⟩] := by
  have hacks : ∀ es : List LogEvent, acks (es ++ [record type payload now]) = acks es := by
    intro es
    simp [acks, ack?]
  induction es generalizing n with
  | nil => simp [needed, acks, records]
  | cons e es ih =>
      cases e with
      | peer m => exact ih n
      | record type' payload' now' =>
          rw [List.cons_append, needed, needed, hacks, ih, records,
            show n + 1 + records es = n + (records es + 1) by omega]
          split <;> rfl

/-- A message of the peer leaves what is needed, but for what it acknowledges. -/
lemma needed_peer (n : ℕ) (es : List LogEvent) (m : SyncMsg) :
    needed n (es ++ [peer m]) =
      (needed n es).filter fun op => decide (∀ a ∈ ack? (peer m), a < op.seq) := by
  have hacks : ∀ es : List LogEvent, acks (es ++ [peer m]) = acks es ++ (ack? (peer m)).toList := by
    intro es
    cases hack : ack? (peer m) <;> simp [acks, hack]
  induction es generalizing n with
  | nil => rfl
  | cons e es ih =>
      cases e with
      | peer m' => exact ih n
      | record type payload now =>
          rw [List.cons_append, needed, needed, hacks, ih]
          simp only [List.mem_append, Option.mem_toList, or_imp, forall_and]
          by_cases hold : ∀ a ∈ acks es, a < n
          · rw [if_pos hold, List.filter_cons]
            by_cases hnew : ∀ a ∈ ack? (peer m), a < n
            · rw [if_pos ⟨hold, hnew⟩, if_pos (decide_eq_true hnew)]
            · rw [if_neg fun h => hnew h.2, if_neg (by simpa using hnew)]
          · rw [if_neg fun h => hold h.1, if_neg hold]

end LogEvent

namespace Tracker

/-- What an event does to a tracker. -/
def logStep (H : Str → Str) (t : Tracker) : LogEvent → Tracker
  | .record type payload now => t.record (t.nextOp type payload now)
  | .peer m => (t.process H m).2

variable {H : Str → Str} {t : Tracker}

/-- **The invariant**: the numbers in the log follow one another up to the last one that
was given. -/
def Consecutive (t : Tracker) : Prop :=
  ∃ first, 1 ≤ first ∧ first + t.log.length = t.nextSeq ∧
    t.log.map Op.seq = List.range' first t.log.length

lemma Consecutive.record (h : t.Consecutive) (type : UInt16) (payload : Str) (now : UInt64) :
    (t.record (t.nextOp type payload now)).Consecutive := by
  obtain ⟨first, hpos, hnext, hseqs⟩ := h
  refine ⟨first, hpos, ?_, ?_⟩
  · simp only [Tracker.record, List.length_append, List.length_singleton]
    omega
  · simp only [Tracker.record, List.map_append, List.length_append, List.length_singleton, hseqs,
      List.range'_1_concat, List.map_cons, List.map_nil, nextOp, hnext]

/-- An ACK takes a front part of the log away. -/
lemma Consecutive.trim (h : t.Consecutive) (n : ℕ) : (t.trim n).Consecutive := by
  obtain ⟨first, hpos, hnext, hseqs⟩ := h
  have hsplit := List.takeWhile_append_dropWhile (p := fun op => decide (op.seq ≤ n)) (l := t.log)
  generalize htake : t.log.takeWhile (fun op => decide (op.seq ≤ n)) = gone at hsplit
  have hlen : gone.length + (t.trim n).log.length = t.log.length := by
    rw [← hsplit, List.length_append]
    rfl
  refine ⟨first + gone.length, by omega, ?_, ?_⟩
  · show first + gone.length + (t.trim n).log.length = t.nextSeq
    omega
  · calc (t.trim n).log.map Op.seq = (t.log.map Op.seq).drop gone.length := by
          rw [← hsplit, List.map_append, ← List.length_map Op.seq, List.drop_left]
          rfl
      _ = List.range' (first + gone.length) (t.trim n).log.length := by
          rw [hseqs, List.drop_range', Nat.mul_one, ← hlen, Nat.add_sub_cancel_left]

/-- **The step lemma.** -/
lemma Consecutive.logStep (h : t.Consecutive) (e : LogEvent) : (t.logStep H e).Consecutive := by
  cases e with
  | record type payload now => exact h.record type payload now
  | peer m =>
      cases m with
      | ack n => exact h.trim n
      | hello | catchup | op | snapshotRequest | snapshotData => exact h

/-- The numbers in the log ascend. -/
lemma Consecutive.ascending (h : t.Consecutive) : t.log.Pairwise fun a b => a.seq < b.seq := by
  obtain ⟨first, -, -, hseqs⟩ := h
  rw [← List.pairwise_map (R := (· < ·)), hseqs]
  exact List.pairwise_lt_range'

end Tracker

/-- What is dropped from an ascending list is what does not lie above the bound. -/
lemma dropWhile_eq_filter {α : Type} {seq : α → ℕ} {l : List α} (n : ℕ)
    (h : l.Pairwise fun a b => seq a < seq b) :
    (l.dropWhile fun a => decide (seq a ≤ n)) = l.filter fun a => decide (n < seq a) := by
  induction l with
  | nil => rfl
  | cons a l ih =>
      obtain ⟨hhead, htail⟩ := List.pairwise_cons.mp h
      by_cases ha : seq a ≤ n
      · rw [List.dropWhile_cons_of_pos (by simpa using ha), ih htail,
          List.filter_cons_of_neg (by simpa using ha)]
      · have hall : ∀ b ∈ a :: l, decide (n < seq b) = true := by
          intro b hb
          rcases List.mem_cons.mp hb with rfl | hb
          · simpa using ha
          · have hlt := hhead b hb
            exact decide_eq_true (by omega)
        rw [List.dropWhile_cons_of_neg (by simpa using ha), List.filter_eq_self.mpr hall]

namespace Tracker

open LogEvent

/-- **The run lemma**: what is in the log and what the next number is. -/
lemma log_run (H : Str → Str) (es : List LogEvent) :
    (es.foldl (logStep H) start).Consecutive ∧
      (es.foldl (logStep H) start).log = needed 1 es ∧
      (es.foldl (logStep H) start).nextSeq = 1 + records es := by
  induction es using List.reverseRecOn with
  | nil => exact ⟨⟨1, le_rfl, rfl, rfl⟩, rfl, rfl⟩
  | append_singleton es e ih =>
      obtain ⟨hcons, hlog, hnext⟩ := ih
      rw [List.foldl_append, List.foldl_cons, List.foldl_nil]
      generalize es.foldl (logStep H) start = t at hcons hlog hnext
      refine ⟨hcons.logStep e, ?_⟩
      rw [records_append]
      cases e with
      | record type payload now =>
          refine ⟨?_, ?_⟩
          · rw [needed_record, ← hlog, ← hnext]
            rfl
          · show t.nextSeq + 1 = 1 + (records es + 1)
            omega
      | peer m =>
          refine ⟨?_, (process_log H t m).1.trans hnext⟩
          rw [needed_peer, ← hlog]
          cases m with
          | ack n =>
              show (t.log.dropWhile fun op => decide (op.seq ≤ n)) = _
              rw [dropWhile_eq_filter n hcons.ascending]
              simp [ack?]
          | hello | catchup | op | snapshotRequest | snapshotData =>
              exact (List.filter_eq_self.mpr fun op _ => by simp [ack?]).symm

/-- **The log is exactly what the peer may still need**, after any calls of
`record_and_replicate` and any messages: the recorded ops above every ACK that came behind
them, in order. Their numbers follow one another up to the last one given, and a catch-up
sends those above the number it names, each once and in ascending order. -/
theorem log_eq_needed (H : Str → Str) (es : List LogEvent) :
    let t := es.foldl (logStep H) start
    t.log = needed 1 es ∧
      t.log.length < t.nextSeq ∧
      t.log.map Op.seq = List.range' (t.nextSeq - t.log.length) t.log.length ∧
      ∀ n, (t.process H (.catchup n)).1 = ((needed 1 es).filter fun op => n < op.seq).map .op ∧
        (t.catchupFrom n).Pairwise fun a b => a.seq < b.seq := by
  intro t
  obtain ⟨hcons, hlog, -⟩ := log_run H es
  obtain ⟨first, hpos, hnext, hseqs⟩ := id hcons
  have hnext : first + t.log.length = t.nextSeq := hnext
  refine ⟨hlog, by omega, ?_, fun n => ⟨?_, hcons.ascending.filter _⟩⟩
  · rw [← hnext, Nat.add_sub_cancel]
    exact hseqs
  · rw [← hlog]
    rfl

/-- ACKs that are late or repeated, and one for a number that has not been given. -/
example :
    let op (n : ℕ) : Op := ⟨n, 1, [], 0⟩
    let es : List LogEvent := [.record 1 [] 0, .record 1 [] 0, .peer (.ack 1), .record 1 [] 0,
      .peer (.ack 1), .peer (.ack 0)]
    (es.foldl (logStep id) start).log = [op 2, op 3] ∧
      ((es ++ [LogEvent.peer (.ack 9), .record 1 [] 0]).foldl (logStep id) start).log = [op 4] := by
  decide +kernel

end Tracker

end P2PShare
