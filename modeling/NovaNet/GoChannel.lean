import Mathlib.Data.List.Basic

/-! Buffered channels of Go: a send on a closed channel and a second close panic, a receive takes
what is still buffered before it reports the end. -/

namespace GoChannel

open List

inductive Panic where
  | sendOnClosedChannel
  | closeOfClosedChannel
  deriving DecidableEq

structure Chan (α : Type) (capacity : Nat) where
  buffer : List α
  closed : Bool
  length_le : buffer.length ≤ capacity
  deriving DecidableEq

namespace Chan

variable {α : Type} {capacity : Nat}

def empty : Chan α capacity := ⟨[], false, Nat.zero_le _⟩

def trySend (c : Chan α capacity) (a : α) : Except Panic (Chan α capacity) :=
  if c.closed then .error .sendOnClosedChannel
  else if h : c.buffer.length < capacity then
    .ok { c with buffer := c.buffer ++ [a], length_le := by rw [length_append]; exact h }
  else .ok c

def close (c : Chan α capacity) : Except Panic (Chan α capacity) :=
  if c.closed then .error .closeOfClosedChannel else .ok { c with closed := true }

inductive Received (α : Type) (capacity : Nat) where
  | value (a : α) (rest : Chan α capacity)
  | done
  | blocked

def receive (c : Chan α capacity) : Received α capacity :=
  match h : c.buffer with
  | a :: rest =>
    .value a { c with
      buffer := rest
      length_le := by
        have hle := c.length_le
        rw [h, length_cons] at hle
        omega }
  | [] => if c.closed then .done else .blocked

variable {c : Chan α capacity} {a : α}

theorem trySend_of_open (h : c.closed = false) (a : α) :
    ∃ c', c.trySend a = .ok c' ∧ c'.closed = false := by
  have hopen : ¬ c.closed = true := by rw [h]; exact Bool.false_ne_true
  unfold trySend
  rw [if_neg hopen]
  split <;> exact ⟨_, rfl, h⟩

theorem buffer_of_trySend (hcap : 0 < capacity) {c' : Chan α capacity}
    (h : c.trySend a = .ok c') : c'.buffer ≠ [] := by
  unfold trySend at h
  split at h
  · cases h
  · split at h
    · cases h
      exact append_ne_nil_of_right_ne_nil _ (cons_ne_nil a [])
    · rename_i hfull
      cases h
      intro hnil
      rw [hnil, length_nil] at hfull
      exact hfull hcap

theorem close_of_open (h : c.closed = false) : ∃ c', c.close = .ok c' ∧ c'.closed = true := by
  rw [close, h, if_neg Bool.false_ne_true]
  exact ⟨_, rfl, rfl⟩

theorem close_of_closed (h : c.closed = true) : c.close = .error .closeOfClosedChannel := by
  rw [close, if_pos h]

theorem closed_of_receive {rest : Chan α capacity} (h : c.receive = .value a rest) :
    rest.closed = c.closed := by
  unfold receive at h
  split at h
  · cases h
    rfl
  · split at h <;> cases h

end Chan

end GoChannel
