import Mathlib.Logic.Function.Basic
import Mathlib.Tactic.Common

/-!
# A bounded broadcast channel

A message goes to every receiver that has subscribed before it was sent.  The channel keeps the
last `capacity` messages.  A receiver that falls further behind is told once how many messages it
has missed, and goes on with the oldest message that is kept.
-/

namespace Effect

variable {M : Type}

structure Broadcast (M : Type) where
  capacity : ℕ
  /-- all messages, oldest first; only the last `capacity` of them are kept -/
  sent : List M
  /-- the position of the next message of each receiver -/
  cursor : ℕ → Option ℕ
  /-- every sender is gone -/
  closed : Bool

/-- What a receiver gets. -/
inductive Received (M : Type) : Type
  | message (pos : ℕ) (m : M)
  | lagged (missed : ℕ)
  | closed
  deriving DecidableEq

namespace Broadcast

/-! ## Operations -/

def open? (capacity : ℕ) : Broadcast M :=
  { capacity, sent := [], cursor := fun _ => none, closed := false }

/-- The position of the oldest message that is kept. -/
def oldest (ch : Broadcast M) : ℕ :=
  ch.sent.length - ch.capacity

def setCursor (ch : Broadcast M) (i : ℕ) (n : Option ℕ) : Broadcast M :=
  { ch with cursor := Function.update ch.cursor i n }

def send (ch : Broadcast M) (m : M) : Broadcast M :=
  { ch with sent := ch.sent ++ [m] }

/-- A new receiver starts behind the messages sent so far. -/
def subscribe (ch : Broadcast M) (i : ℕ) : Broadcast M :=
  ch.setCursor i (some ch.sent.length)

def unsubscribe (ch : Broadcast M) (i : ℕ) : Broadcast M :=
  ch.setCursor i none

/-- One attempt to receive; `none` where there is nothing to receive yet. -/
def recv (ch : Broadcast M) (i : ℕ) : Option (Received M × Broadcast M) :=
  match ch.cursor i with
  | none => none
  | some n =>
      if n < ch.oldest then
        some (.lagged (ch.oldest - n), ch.setCursor i (some ch.oldest))
      else
        match ch.sent[n]? with
        | some m => some (.message n m, ch.setCursor i (some (n + 1)))
        | none => if ch.closed then some (.closed, ch) else none

/-- What receiver `i` gets by `n` attempts in a row, until there is nothing to receive. -/
def drain (i : ℕ) : ℕ → Broadcast M → List (Received M)
  | 0, _ => []
  | n + 1, ch =>
      match ch.recv i with
      | none => []
      | some (item, ch') => item :: drain i n ch'

@[simp] theorem sent_setCursor (ch : Broadcast M) (i : ℕ) (n : Option ℕ) :
    (ch.setCursor i n).sent = ch.sent := rfl

@[simp] theorem capacity_setCursor (ch : Broadcast M) (i : ℕ) (n : Option ℕ) :
    (ch.setCursor i n).capacity = ch.capacity := rfl

@[simp] theorem closed_setCursor (ch : Broadcast M) (i : ℕ) (n : Option ℕ) :
    (ch.setCursor i n).closed = ch.closed := rfl

@[simp] theorem oldest_setCursor (ch : Broadcast M) (i : ℕ) (n : Option ℕ) :
    (ch.setCursor i n).oldest = ch.oldest := rfl

@[simp] theorem cursor_setCursor (ch : Broadcast M) (i : ℕ) (n : Option ℕ) :
    (ch.setCursor i n).cursor i = n := Function.update_self ..

theorem cursor_setCursor_ne (ch : Broadcast M) {i j : ℕ} (n : Option ℕ) (h : j ≠ i) :
    (ch.setCursor i n).cursor j = ch.cursor j := Function.update_of_ne h ..

/-- The three things an open channel can answer. -/
theorem recv_cases {ch : Broadcast M} {i n : ℕ} (hopen : ch.closed = false)
    (hn : ch.cursor i = some n) :
    (n < ch.oldest ∧ ch.recv i = some (.lagged (ch.oldest - n), ch.setCursor i (some ch.oldest))) ∨
    (∃ m, ch.oldest ≤ n ∧ ch.sent[n]? = some m ∧
      ch.recv i = some (.message n m, ch.setCursor i (some (n + 1)))) ∨
    (ch.sent.length ≤ n ∧ ch.recv i = none) := by
  unfold recv
  rw [hn]
  dsimp only
  by_cases hlag : n < ch.oldest
  · exact .inl ⟨hlag, if_pos hlag⟩
  · rw [if_neg hlag]
    cases hm : ch.sent[n]? with
    | some m => exact .inr (.inl ⟨m, Nat.le_of_not_lt hlag, rfl, rfl⟩)
    | none => exact .inr (.inr ⟨List.getElem?_eq_none_iff.1 hm, by simp [hopen]⟩)

/-- While a sender is left, a receiver does not come to the end, and only its own position moves. -/
theorem recv_of_open {ch ch' : Broadcast M} {i : ℕ} {item : Received M} (hopen : ch.closed = false)
    (hrecv : ch.recv i = some (item, ch')) : item ≠ .closed ∧ ∃ n, ch' = ch.setCursor i (some n) := by
  cases hn : ch.cursor i with
  | none => simp [recv, hn] at hrecv
  | some n =>
      rcases recv_cases hopen hn with ⟨-, heq⟩ | ⟨m, -, -, heq⟩ | ⟨-, hnone⟩
      · rw [heq] at hrecv
        cases hrecv
        exact ⟨by simp, _, rfl⟩
      · rw [heq] at hrecv
        cases hrecv
        exact ⟨by simp, _, rfl⟩
      · rw [hnone] at hrecv
        cases hrecv

/-- A receiver never stands behind what was sent. -/
theorem recv_position {ch ch' : Broadcast M} {i : ℕ} {item : Received M}
    (hopen : ch.closed = false) (hrecv : ch.recv i = some (item, ch')) :
    ∃ n, ch' = ch.setCursor i (some n) ∧ n ≤ ch.sent.length := by
  cases hn : ch.cursor i with
  | none => simp [recv, hn] at hrecv
  | some n =>
      rcases recv_cases hopen hn with ⟨-, heq⟩ | ⟨m, -, hm, heq⟩ | ⟨-, hnone⟩
      · rw [heq] at hrecv
        cases hrecv
        exact ⟨_, rfl, Nat.sub_le _ _⟩
      · rw [heq] at hrecv
        cases hrecv
        exact ⟨_, rfl, (List.getElem?_eq_some_iff.1 hm).1⟩
      · rw [hnone] at hrecv
        cases hrecv

theorem ne_closed_of_mem_drain {ch : Broadcast M} {i n : ℕ} {item : Received M}
    (hopen : ch.closed = false) (hmem : item ∈ drain i n ch) : item ≠ .closed := by
  induction n generalizing ch with
  | zero => cases hmem
  | succ n ih =>
      simp only [drain] at hmem
      split at hmem
      · cases hmem
      · rename_i first ch' hrecv
        rcases recv_of_open hopen hrecv with ⟨hfirst, n', rfl⟩
        rcases List.mem_cons.1 hmem with rfl | hrest
        · exact hfirst
        · exact @ih (ch.setCursor i (some n')) hopen hrest

/-! ## The last message is never lost -/

/-- A receiver that is behind gets to the last message by polling. -/
theorem exists_mem_drain {ch : Broadcast M} {i n behind : ℕ} (hopen : ch.closed = false)
    (hcap : 0 < ch.capacity) (hn : ch.cursor i = some n) (hlt : n < ch.sent.length)
    (hbehind : ch.sent.length ≤ n + behind) :
    ∃ k m, .message (ch.sent.length - 1) m ∈ drain i k ch := by
  -- By induction on how far the receiver is behind; a lag brings it forward as well.
  induction behind generalizing ch n with
  | zero => omega
  | succ behind ih =>
      rcases recv_cases hopen hn with ⟨hlag, hrecv⟩ | ⟨m, -, hm, hrecv⟩ | ⟨hle, -⟩
      · have hold : ch.oldest < ch.sent.length := by
          unfold oldest
          omega
        have hrest : ∃ k m, .message (ch.sent.length - 1) m ∈
            drain i k (ch.setCursor i (some ch.oldest)) :=
          ih hopen hcap (cursor_setCursor ..) hold (by simp only [sent_setCursor]; omega)
        rcases hrest with ⟨k, m, hmem⟩
        exact ⟨k + 1, m, by simp only [drain, hrecv]; exact List.mem_cons_of_mem _ hmem⟩
      · by_cases hlast : n = ch.sent.length - 1
        · exact ⟨1, m, by simp [drain, hrecv, hlast]⟩
        · have hrest : ∃ k m, .message (ch.sent.length - 1) m ∈
              drain i k (ch.setCursor i (some (n + 1))) :=
            ih hopen hcap (cursor_setCursor ..) (by simp only [sent_setCursor]; omega)
              (by simp only [sent_setCursor]; omega)
          rcases hrest with ⟨k, m', hmem⟩
          exact ⟨k + 1, m', by simp only [drain, hrecv]; exact List.mem_cons_of_mem _ hmem⟩
      · omega

/-! ## What a receiver has got -/

/-- Receiver `i` has subscribed at position `start`, has got the messages `got`, and stands at
position `n`: there it has just subscribed, or got the message before, or lost it to a lag. -/
structure Tracks (ch : Broadcast M) (i start n : ℕ) (got : ℕ → Prop) : Prop where
  cursor : ch.cursor i = some n
  start_le : start ≤ n
  le_sent : n ≤ ch.sent.length
  last : n = start ∨ got (n - 1) ∨ n + ch.capacity ≤ ch.sent.length

namespace Tracks

variable {ch ch' : Broadcast M} {i j start n : ℕ} {got got' : ℕ → Prop}

theorem subscribe (ch : Broadcast M) (i : ℕ) (got : ℕ → Prop) :
    Tracks (ch.subscribe i) i ch.sent.length ch.sent.length got :=
  ⟨cursor_setCursor .., Nat.le_refl _, Nat.le_refl _, .inl rfl⟩

theorem mono (h : Tracks ch i start n got) (hgot : ∀ k, got k → got' k) :
    Tracks ch i start n got' :=
  ⟨h.cursor, h.start_le, h.le_sent, h.last.imp_right (.imp_left (hgot _))⟩

theorem send (h : Tracks ch i start n got) (m : M) : Tracks (ch.send m) i start n got := by
  have hlen : (ch.send m).sent.length = ch.sent.length + 1 := by simp [Broadcast.send]
  refine ⟨h.cursor, h.start_le, by have := h.le_sent; omega, ?_⟩
  exact h.last.imp_right (.imp_right fun hle => by rw [hlen]; exact Nat.le_succ_of_le hle)

/-- Another receiver moves. -/
theorem other (h : Tracks ch i start n got) (hne : i ≠ j) (k : Option ℕ) :
    Tracks (ch.setCursor j k) i start n got :=
  ⟨(cursor_setCursor_ne ch k hne).trans h.cursor, h.start_le, h.le_sent, h.last⟩

theorem recv (h : Tracks ch i start n got) (hopen : ch.closed = false) {item : Received M}
    (hrecv : ch.recv i = some (item, ch')) :
    ∃ n', Tracks ch' i start n' fun k => got k ∨ ∃ m, item = .message k m := by
  rcases recv_cases hopen h.cursor with ⟨hlag, heq⟩ | ⟨m, -, hm, heq⟩ | ⟨-, hnone⟩
  · -- The receiver jumps to the oldest message that is kept.
    rw [heq, Option.some.injEq, Prod.mk.injEq] at hrecv
    rcases hrecv with ⟨-, rfl⟩
    have hstart := h.start_le
    refine ⟨ch.oldest, cursor_setCursor .., by omega, ?_, .inr (.inr ?_)⟩
    · exact Nat.sub_le _ _
    · simp only [sent_setCursor, capacity_setCursor]
      unfold oldest at hlag ⊢
      omega
  · rw [heq, Option.some.injEq, Prod.mk.injEq] at hrecv
    rcases hrecv with ⟨rfl, rfl⟩
    have hlt : n < ch.sent.length := (List.getElem?_eq_some_iff.1 hm).1
    have hstart := h.start_le
    exact ⟨n + 1, cursor_setCursor .., by omega, hlt, .inr (.inl (.inr ⟨m, rfl⟩))⟩
  · rw [hnone] at hrecv
    cases hrecv

/-- If a message was sent since the subscription, the receiver has got the last one, or gets it by
polling. -/
theorem last_message (h : Tracks ch i start n got) (hopen : ch.closed = false)
    (hcap : 0 < ch.capacity) (hlt : start < ch.sent.length) :
    got (ch.sent.length - 1) ∨ ∃ k m, .message (ch.sent.length - 1) m ∈ drain i k ch := by
  rcases Nat.lt_or_ge n ch.sent.length with hbehind | hcaught
  · exact .inr (exists_mem_drain hopen hcap h.cursor hbehind (Nat.le_add_left _ _))
  · have heq : n = ch.sent.length := Nat.le_antisymm h.le_sent hcaught
    rcases h.last with hstart | hgot | hlost
    · omega
    · exact .inl (heq ▸ hgot)
    · omega

end Tracks

end Broadcast

end Effect
