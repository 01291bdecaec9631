import MezonSfu.Ring

/-!
The queue of retransmissions towards one subscriber: a ring of encrypted packets with a bound on
the bytes it holds and on the time a packet may stay.
-/

namespace MezonSfu.Paced

/-- `SFU_PACED_PRIORITY_QUEUE_CAPACITY`. -/
def priorityCapacity : ℕ := 128
def rtxMaxResidenceUs : ℤ := 200000
def rtxMaxBytes : ℕ := 128 * 1500
def maxPayload : ℕ := 2048

structure PriorityEntry (Pkt : Type*) where
  data : Pkt
  len : ℕ
  dst : ℕ
  enqueuedAtUs : ℤ
  ownerValue : ℕ
  transportGeneration : ℕ
  addressGeneration : ℕ
  pacerChargedBytes : ℕ
deriving DecidableEq, Inhabited

structure PriorityQueue (Pkt : Type*) where
  ring : Ring (PriorityEntry Pkt)
  byteCount : ℕ
  maxBytes : ℕ
  maxResidenceUs : ℤ

/-- What a drain does with a retransmission. The charge of one that is not sent is refunded. -/
inductive PriorityFate (Pkt : Type*)
  | sent (e : PriorityEntry Pkt)
  | stale (e : PriorityEntry Pkt)
  | expired (e : PriorityEntry Pkt)

def PriorityFate.entry {Pkt : Type*} : PriorityFate Pkt → PriorityEntry Pkt
  | .sent e => e
  | .stale e => e
  | .expired e => e

namespace PriorityQueue

variable {Pkt : Type*}

def init [Inhabited Pkt] (maxResidenceUs : ℤ) (maxBytes : ℕ) : PriorityQueue Pkt :=
  { ring := Ring.empty default, byteCount := 0, maxBytes := maxBytes,
    maxResidenceUs := maxResidenceUs }

section

variable (q : PriorityQueue Pkt)

def toList : List (PriorityEntry Pkt) := q.ring.toList priorityCapacity

def headEntry : PriorityEntry Pkt := q.ring.cells q.ring.head

/-- `sfu_paced_priority_queue_enqueue`; `allocated` is false where the ring could not be
allocated. -/
def enqueue (e : PriorityEntry Pkt) (allocated : Bool) : Option (PriorityQueue Pkt) :=
  if e.len = 0 ∨ maxPayload < e.len ∨ allocated = false ∨ priorityCapacity ≤ q.ring.count ∨
      (0 < q.maxBytes ∧ q.maxBytes < q.byteCount + e.len) then none
  else
    some { q with ring := q.ring.push priorityCapacity e, byteCount := q.byteCount + e.len }

def popEntry : PriorityQueue Pkt :=
  { q with
    ring := q.ring.pop priorityCapacity
    byteCount := q.byteCount - q.headEntry.len }

def expires (nowUs : ℤ) : Bool :=
  decide (0 < q.maxResidenceUs) && decide (q.headEntry.enqueuedAtUs < nowUs) &&
    decide (q.maxResidenceUs < nowUs - q.headEntry.enqueuedAtUs)

end

/-- The drain loop; `accepts n` is whether, with `n` packets left to process, the packet is taken
by the network. -/
def drainLoop (valid : PriorityEntry Pkt → Bool) (accepts : ℕ → Bool) (nowUs : ℤ) :
    ℕ → PriorityQueue Pkt → PriorityQueue Pkt × List (PriorityFate Pkt)
  | 0, q => (q, [])
  | n + 1, q =>
    if q.ring.count = 0 then (q, [])
    else if !valid q.headEntry then
      let rest := drainLoop valid accepts nowUs n q.popEntry
      (rest.1, .stale q.headEntry :: rest.2)
    else if q.expires nowUs then
      let rest := drainLoop valid accepts nowUs n q.popEntry
      (rest.1, .expired q.headEntry :: rest.2)
    else if !accepts n then (q, [])
    else
      let rest := drainLoop valid accepts nowUs n q.popEntry
      (rest.1, .sent q.headEntry :: rest.2)

def drain (q : PriorityQueue Pkt) (valid : PriorityEntry Pkt → Bool) (accepts : ℕ → Bool)
    (nowUs : ℤ) (remaining : ℕ) : PriorityQueue Pkt × List (PriorityFate Pkt) :=
  if remaining = 0 ∨ q.ring.count = 0 then (q, [])
  else
    let drained := drainLoop valid accepts nowUs remaining q
    (if drained.1.ring.count = 0 then
        { drained.1 with ring := { drained.1.ring with head := 0, tail := 0 }, byteCount := 0 }
      else drained.1, drained.2)

variable {q r : PriorityQueue Pkt}

lemma enqueue_toList {e : PriorityEntry Pkt} {allocated : Bool}
    (h : q.ring.WF priorityCapacity) (hr : q.enqueue e allocated = some r) :
    r.ring.WF priorityCapacity ∧ r.toList = q.toList ++ [e] := by
  unfold enqueue at hr
  split at hr
  · cases hr
  rename_i hg
  have hlt : q.ring.count < priorityCapacity := by
    by_contra hge
    exact hg (.inr (.inr (.inr (.inl (Nat.le_of_not_lt hge)))))
  rw [← Option.some.inj hr]
  exact ⟨h.push hlt e, Ring.toList_push h hlt e⟩

lemma toList_eq_cons (h : q.ring.WF priorityCapacity) (hc : 0 < q.ring.count) :
    q.toList = q.headEntry :: q.popEntry.toList := by
  have hidx : q.ring.index priorityCapacity 0 = q.ring.head := Nat.mod_eq_of_lt h.head_lt
  have hcons := @Ring.toList_eq_cons _ priorityCapacity q.ring hc
  rw [hidx] at hcons
  exact hcons

lemma drainLoop_toList (valid : PriorityEntry Pkt → Bool) (accepts : ℕ → Bool) (nowUs : ℤ)
    (n : ℕ) (q : PriorityQueue Pkt) (h : q.ring.WF priorityCapacity) :
    let r := drainLoop valid accepts nowUs n q
    r.1.ring.WF priorityCapacity ∧ q.toList = r.2.map PriorityFate.entry ++ r.1.toList := by
  induction n generalizing q with
  | zero => exact ⟨h, rfl⟩
  | succ n ih =>
    unfold drainLoop
    split
    · exact ⟨h, rfl⟩
    rename_i h0
    have hpos := Nat.pos_of_ne_zero h0
    obtain ⟨hwf, hlist⟩ := ih q.popEntry (h.pop hpos)
    have hcons : q.toList = q.headEntry ::
        ((drainLoop valid accepts nowUs n q.popEntry).2.map PriorityFate.entry ++
          (drainLoop valid accepts nowUs n q.popEntry).1.toList) := by
      rw [← hlist]
      exact toList_eq_cons h hpos
    split
    · exact ⟨hwf, hcons⟩
    split
    · exact ⟨hwf, hcons⟩
    · split
      · exact ⟨h, rfl⟩
      · exact ⟨hwf, hcons⟩

/-- **The drain** takes entries from the head, in order. -/
theorem drain_toList (h : q.ring.WF priorityCapacity) (valid : PriorityEntry Pkt → Bool)
    (accepts : ℕ → Bool) (nowUs : ℤ) (remaining : ℕ) :
    let r := q.drain valid accepts nowUs remaining
    r.1.ring.WF priorityCapacity ∧ q.toList = r.2.map PriorityFate.entry ++ r.1.toList := by
  unfold drain
  split
  · exact ⟨h, rfl⟩
  obtain ⟨hwf, hlist⟩ := drainLoop_toList valid accepts nowUs remaining q h
  dsimp only
  split
  · rename_i h0
    have hnil : (drainLoop valid accepts nowUs remaining q).1.toList = [] :=
      List.eq_nil_of_length_eq_zero (by unfold toList; rw [Ring.length_toList]; exact h0)
    refine ⟨⟨Nat.succ_pos 127, hwf.count_le, ?_⟩, ?_⟩
    · change 0 = (0 + _) % priorityCapacity
      rw [h0]
      rfl
    · rw [hlist, hnil]
      congr 1
      exact (List.eq_nil_of_length_eq_zero
        (by unfold toList; rw [Ring.length_toList]; exact h0)).symm
  · exact ⟨hwf, hlist⟩

end PriorityQueue

end MezonSfu.Paced
