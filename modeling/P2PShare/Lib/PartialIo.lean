import Mathlib.Tactic

/-!
Reading and writing a whole block by calls that may move less than was asked for, as the
`read` and `write` family does.

* `IoCall`: what one call comes to. `writeAll` and `readAll` are the usual loops around
  the calls, each of which goes on after an interruption and gives up on an error or when
  nothing is moved; the calls that are still to come are a list, and behind its end
  nothing disturbs any more.
* `Undisturbed`: calls that only split the block, or are interrupted.
* `writeAll_undisturbed` and `readAll_undisturbed` (**splitting does not matter**): such
  calls move the whole block. `readAll_done` needs no hypothesis on the calls: whatever is
  read as a whole is what came next.
-/

universe u

/-- What a call comes to: it is interrupted, it fails, it moves nothing, or it moves at
most `k + 1` elements. -/
inductive IoCall
  | interrupted
  | failed
  | nothing
  | upTo (k : ℕ)
deriving DecidableEq

/-- What a loop around such calls returns: that the block is complete, that a call has
moved nothing, or that one has failed. -/
inductive IoResult
  | done
  | ended
  | failed
deriving DecidableEq

namespace PartialIo

variable {β : Type u}

/-- What becomes of a block that is written: the part that has been, and the calls after
it. -/
structure Written (β : Type u) where
  result : IoResult
  out : List β
  calls : List IoCall

/-- Write a whole block. -/
def writeAll : List IoCall → List β → Written β
  | calls, [] => ⟨.done, [], calls⟩
  | [], b :: bs => ⟨.done, b :: bs, []⟩
  | .interrupted :: calls, b :: bs => writeAll calls (b :: bs)
  | .failed :: calls, _ :: _ => ⟨.failed, [], calls⟩
  | .nothing :: calls, _ :: _ => ⟨.ended, [], calls⟩
  | .upTo k :: calls, b :: bs =>
      let r := writeAll calls (bs.drop k)
      ⟨r.result, b :: bs.take k ++ r.out, r.calls⟩

/-- What becomes of a block that is read: the part that has been, what is left of the
input, and the calls after it. -/
structure Got (β : Type u) where
  result : IoResult
  block : List β
  rest : List β
  calls : List IoCall

/-- Read a whole block of `n` elements. At the end of the input a call moves nothing; a
call that moves nothing before that is the end of it. -/
def readAll : List IoCall → List β → ℕ → Got β
  | calls, input, 0 => ⟨.done, [], input, calls⟩
  | [], input, n + 1 =>
      if n + 1 ≤ input.length then ⟨.done, input.take (n + 1), input.drop (n + 1), []⟩
      else ⟨.ended, input, [], []⟩
  | .interrupted :: calls, input, n + 1 => readAll calls input (n + 1)
  | .failed :: calls, input, _ + 1 => ⟨.failed, [], input, calls⟩
  | .nothing :: calls, _, _ + 1 => ⟨.ended, [], [], calls⟩
  | .upTo _ :: calls, [], _ + 1 => ⟨.ended, [], [], calls⟩
  | .upTo k :: calls, b :: input, n + 1 =>
      let part := input.take (min k n)
      let r := readAll calls (input.drop (min k n)) (n - part.length)
      ⟨r.result, b :: part ++ r.block, r.rest, r.calls⟩

/-- The calls split the block or are interrupted, and nothing else. -/
def Undisturbed (calls : List IoCall) : Prop :=
  ∀ call ∈ calls, call = .interrupted ∨ ∃ k, call = .upTo k

lemma undisturbed_nil : Undisturbed [] := fun _ h => by cases h

lemma Undisturbed.tail {call : IoCall} {calls : List IoCall} (h : Undisturbed (call :: calls)) :
    Undisturbed calls := fun x hx => h x (List.mem_cons_of_mem call hx)

lemma not_undisturbed_failed {calls : List IoCall} : ¬ Undisturbed (.failed :: calls) := by
  intro h
  obtain h | ⟨k, h⟩ := h _ (List.mem_cons_self ..)
  · cases h
  · cases h

lemma not_undisturbed_nothing {calls : List IoCall} : ¬ Undisturbed (.nothing :: calls) := by
  intro h
  obtain h | ⟨k, h⟩ := h _ (List.mem_cons_self ..)
  · cases h
  · cases h

/-! ### Writing -/

/-- **Undisturbed calls write the whole block.** -/
theorem writeAll_undisturbed (calls : List IoCall) (block : List β) (h : Undisturbed calls) :
    (writeAll calls block).result = .done ∧ (writeAll calls block).out = block ∧
      Undisturbed (writeAll calls block).calls := by
  induction calls generalizing block with
  | nil =>
      cases block with
      | nil => exact ⟨rfl, rfl, undisturbed_nil⟩
      | cons b bs => exact ⟨rfl, rfl, undisturbed_nil⟩
  | cons call calls ih =>
      cases block with
      | nil => exact ⟨rfl, rfl, h⟩
      | cons b bs =>
          cases call with
          | interrupted => exact ih (b :: bs) h.tail
          | failed => exact absurd h not_undisturbed_failed
          | nothing => exact absurd h not_undisturbed_nothing
          | upTo k =>
              obtain ⟨hresult, hout, hcalls⟩ := ih (bs.drop k) h.tail
              refine ⟨hresult, ?_, hcalls⟩
              change b :: bs.take k ++ (writeAll calls (bs.drop k)).out = b :: bs
              rw [hout, List.cons_append, List.take_append_drop]

/-! ### Reading -/

/-- **What is read as a whole** is what came next, whatever the calls were. -/
theorem readAll_done (calls : List IoCall) (input : List β) (n : ℕ)
    (h : (readAll calls input n).result = .done) :
    input = (readAll calls input n).block ++ (readAll calls input n).rest ∧
      (readAll calls input n).block.length = n := by
  induction calls generalizing input n with
  | nil =>
      cases n with
      | zero => exact ⟨rfl, rfl⟩
      | succ n =>
          rw [readAll] at h ⊢
          split at h
          · next hn =>
              rw [if_pos hn]
              exact ⟨(List.take_append_drop _ _).symm, List.length_take_of_le hn⟩
          · cases h
  | cons call calls ih =>
      cases n with
      | zero => exact ⟨rfl, rfl⟩
      | succ n =>
          cases call with
          | interrupted => exact ih input (n + 1) h
          | failed => cases h
          | nothing => cases h
          | upTo k =>
              cases input with
              | nil => cases h
              | cons b input =>
                  obtain ⟨hsplit, hlen⟩ := ih _ _ h
                  have hpart : (input.take (min k n)).length ≤ n := by
                    rw [List.length_take]
                    omega
                  rw [readAll]
                  constructor
                  · rw [List.append_assoc, ← hsplit, List.cons_append, List.take_append_drop]
                  · rw [List.length_append, List.length_cons, hlen]
                    omega

/-- Undisturbed calls leave only such calls. -/
lemma undisturbed_readAll (calls : List IoCall) (input : List β) (n : ℕ) (h : Undisturbed calls) :
    Undisturbed (readAll calls input n).calls := by
  induction calls generalizing input n with
  | nil =>
      cases n with
      | zero => exact undisturbed_nil
      | succ n =>
          rw [readAll]
          split
          · exact undisturbed_nil
          · exact undisturbed_nil
  | cons call calls ih =>
      cases n with
      | zero => exact h
      | succ n =>
          cases call with
          | interrupted => exact ih input (n + 1) h.tail
          | failed => exact h.tail
          | nothing => exact h.tail
          | upTo k =>
              cases input with
              | nil => exact h.tail
              | cons b input => exact ih _ _ h.tail

/-- Undisturbed calls read the block if the input is long enough, and meet its end
otherwise. -/
lemma result_readAll (calls : List IoCall) (input : List β) (n : ℕ) (h : Undisturbed calls) :
    (readAll calls input n).result = if n ≤ input.length then .done else .ended := by
  induction calls generalizing input n with
  | nil =>
      cases n with
      | zero => rfl
      | succ n =>
          rw [readAll]
          split
          · rfl
          · rfl
  | cons call calls ih =>
      cases n with
      | zero => rfl
      | succ n =>
          cases call with
          | interrupted => exact ih input (n + 1) h.tail
          | failed => exact absurd h not_undisturbed_failed
          | nothing => exact absurd h not_undisturbed_nothing
          | upTo k =>
              cases input with
              | nil => rfl
              | cons b input =>
                  change (readAll calls (input.drop (min k n))
                    (n - (input.take (min k n)).length)).result = _
                  rw [ih _ _ h.tail, List.length_take, List.length_drop, List.length_cons]
                  have hiff : n - min (min k n) input.length ≤ input.length - min k n ↔
                      n + 1 ≤ input.length + 1 := by omega
                  simp only [hiff]

/-- **Undisturbed calls read the next block.** -/
theorem readAll_undisturbed (calls : List IoCall) (block rest : List β) (h : Undisturbed calls) :
    ∃ calls', Undisturbed calls' ∧
      readAll calls (block ++ rest) block.length = ⟨.done, block, rest, calls'⟩ := by
  have hresult := result_readAll calls (block ++ rest) block.length h
  rw [if_pos (by rw [List.length_append]; omega)] at hresult
  obtain ⟨hsplit, hlen⟩ := readAll_done _ _ _ hresult
  have hcalls := undisturbed_readAll calls (block ++ rest) block.length h
  generalize readAll calls (block ++ rest) block.length = r at *
  obtain ⟨hblock, hrest⟩ := List.append_inj hsplit hlen.symm
  obtain ⟨result, block', rest', calls'⟩ := r
  dsimp only at hresult hblock hrest hcalls
  subst hresult hblock hrest
  exact ⟨calls', hcalls, rfl⟩

/-- Behind the end of the input nothing is left. -/
lemma readAll_ended (calls : List IoCall) (input : List β) (n : ℕ)
    (h : (readAll calls input n).result = .ended) : (readAll calls input n).rest = [] := by
  induction calls generalizing input n with
  | nil =>
      cases n with
      | zero => cases h
      | succ n =>
          rw [readAll] at h ⊢
          split at h
          · cases h
          · next hn => rw [if_neg hn]
  | cons call calls ih =>
      cases n with
      | zero => cases h
      | succ n =>
          cases call with
          | interrupted => exact ih input (n + 1) h
          | failed => cases h
          | nothing => rfl
          | upTo k =>
              cases input with
              | nil => rfl
              | cons b input => exact ih _ _ h

/-! ### Timeouts -/

/-- The first call that is not interrupted fails. -/
def FailsAtOnce : List IoCall → Prop
  | .failed :: _ => True
  | .interrupted :: calls => FailsAtOnce calls
  | _ => False

/-- **Nothing is lost** when a read fails at once. -/
lemma readAll_failsAtOnce {calls : List IoCall} (h : FailsAtOnce calls) (input : List β) (n : ℕ) :
    ∃ calls', readAll calls input (n + 1) = ⟨.failed, [], input, calls'⟩ := by
  induction calls with
  | nil => cases h
  | cons call calls ih =>
      cases call with
      | interrupted => exact ih h
      | failed => exact ⟨calls, rfl⟩
      | nothing => cases h
      | upTo k => cases h

end PartialIo
