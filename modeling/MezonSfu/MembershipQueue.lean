import MezonSfu.Ring
import MezonSfu.Runs

/-!
The queue of membership events. Room for an event is reserved before the room is changed; then
the event is committed or the reservation is cancelled.

Each call is one step under the lock. A reservation variable is named by the number of its
reservation.
-/

namespace MezonSfu.Membership

open List

/-- `SFU_MEMBERSHIP_QUEUE_CAP`. -/
def queueCap : ℕ := 2048

/-- `sfu_membership_queue_t`, with the reservation variables whose `server` is set. The rest is
history: the reservations made and consumed, and the events in the order of their commits and
pops. -/
structure Queue (ε : Type*) where
  items : Ring ε
  reservedCount : ℕ
  accepting : Bool
  held : List ℕ
  issued : ℕ
  consumed : List ℕ
  committed : List ε
  popped : List ε

inductive Op (ε : Type*)
  | reserve (acquired : Bool)
  | commit (reservation : ℕ) (event : ε)
  | cancel (reservation : ℕ)
  | pop
  | stop

variable {ε : Type*}

def Queue.init [Inhabited ε] : Queue ε := ⟨.empty default, 0, true, [], 0, [], [], []⟩

namespace Queue

variable (q : Queue ε)

/-- `sfu_signaling_reserve_membership_event`. A call that has to wait has not run yet. -/
def reserve (acquired : Bool) : Queue ε :=
  if ¬ acquired then q
  else if q.accepting ∧ queueCap ≤ q.items.count + q.reservedCount then q
  else if ¬ q.accepting then q
  else
    { q with
      reservedCount := q.reservedCount + 1
      held := q.issued :: q.held
      issued := q.issued + 1 }

def consume (reservation : ℕ) : Queue ε :=
  { q with
    reservedCount := q.reservedCount - 1
    held := q.held.erase reservation
    consumed := reservation :: q.consumed }

/-- `sfu_signaling_commit_membership_event`, whose assertion stops a call without reservation. -/
def commit (reservation : ℕ) (event : ε) : Queue ε :=
  if reservation ∈ q.held then
    { q.consume reservation with
      items := q.items.push queueCap event
      committed := q.committed ++ [event] }
  else q

/-- `sfu_signaling_cancel_membership_event`. -/
def cancel (reservation : ℕ) : Queue ε := if reservation ∈ q.held then q.consume reservation else q

/-- `membership_queue_pop`. -/
def pop : Queue ε :=
  if 0 < q.items.count then
    { q with
      items := q.items.pop queueCap
      popped := q.popped ++ [q.items.cells (q.items.index queueCap 0)] }
  else q

def step : Op ε → Queue ε
  | .reserve acquired => q.reserve acquired
  | .commit reservation event => q.commit reservation event
  | .cancel reservation => q.cancel reservation
  | .pop => q.pop
  | .stop => { q with accepting := false }

/-- Room is kept for every reservation, each reservation is held or was consumed once, and the
events leave in the order in which they came. -/
structure Sound : Prop where
  items : q.items.WF queueCap
  room : q.items.count + q.reservedCount ≤ queueCap
  held : q.held.length = q.reservedCount
  once : q.held ++ q.consumed ~ range q.issued
  order : q.committed = q.popped ++ q.items.toList queueCap

variable {q}

lemma Sound.reserve (h : Sound q) (acquired : Bool) : Sound (q.reserve acquired) := by
  fun_cases Queue.reserve q acquired with
  | case4 _ hfull hacc =>
    refine { h with room := ?_, held := congrArg (· + 1) h.held, once := ?_ }
    · simp only [not_and, not_le] at hfull
      exact Nat.succ_le_of_lt (hfull (by simpa using hacc))
    · rw [range_succ]
      exact (h.once.cons _).trans (perm_append_singleton _ _).symm
  | _ => exact h

lemma Sound.consume (h : Sound q) {n : ℕ} (hn : n ∈ q.held) : Sound (q.consume n) where
  items := h.items
  room := (Nat.add_le_add_left (Nat.sub_le ..) _).trans h.room
  held := (length_erase_of_mem hn).trans (congrArg (· - 1) h.held)
  once := perm_middle.trans (((perm_cons_erase hn).symm.append_right _).trans h.once)
  order := h.order

lemma Sound.lt (h : Sound q) {n : ℕ} (hn : n ∈ q.held) :
    0 < q.reservedCount ∧ q.items.count < queueCap := by
  have hpos := length_pos_of_mem hn
  have hroom := h.room
  rw [h.held] at hpos
  omega

lemma Sound.commit (h : Sound q) (n : ℕ) (event : ε) : Sound (q.commit n event) := by
  unfold Queue.commit
  split_ifs with hn
  · obtain ⟨hpos, hlt⟩ := h.lt hn
    refine { h.consume hn with items := h.items.push hlt _, room := ?_, order := ?_ }
    · have hroom := h.room
      simp only [Queue.consume, Ring.push]
      omega
    · change q.committed ++ [event] = q.popped ++ (q.items.push queueCap event).toList queueCap
      rw [Ring.toList_push h.items hlt, ← append_assoc, ← h.order]
  · exact h

lemma Sound.pop (h : Sound q) : Sound q.pop := by
  unfold Queue.pop
  split_ifs with hpos
  · refine { h with items := h.items.pop hpos, room := ?_, order := ?_ }
    · exact (Nat.add_le_add_right (Nat.sub_le ..) _).trans h.room
    · rw [append_assoc, singleton_append, ← Ring.toList_eq_cons hpos]
      exact h.order
  · exact h

lemma Sound.step (h : Sound q) (op : Op ε) : Sound (q.step op) := by
  cases op with
  | reserve acquired => exact h.reserve acquired
  | commit n event => exact h.commit n event
  | cancel n =>
    change Sound (q.cancel n)
    unfold Queue.cancel
    split_ifs with hn
    · exact h.consume hn
    · exact h
  | pop => exact h.pop
  | stop => exact { h with }

end Queue

end MezonSfu.Membership
