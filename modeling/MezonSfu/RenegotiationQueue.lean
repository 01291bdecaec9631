import MezonSfu.Ring

/-!
The renegotiation queue: a ring that holds one entry per session, a list of fallback nodes for
when the ring is full of live sessions, and one emergency node for when such a node cannot be
allocated.
-/

namespace MezonSfu.RenegotiationQueue

open List

/-- `SFU_RENEGOTIATION_QUEUE_CAP`, which is `SFU_SESSION_TABLE_MAX`. -/
def queueCap : ℕ := 32768

structure FallbackNode (ι : Type*) where
  session : ι
  emergency : Bool

structure Queue (ι : Type*) where
  ring : Ring ι
  fallback : List (FallbackNode ι)
  fallbackCount : ℕ
  emergencyFallbackUsed : Bool

variable {ι : Type*}

def Queue.init [Inhabited ι] : Queue ι := ⟨.empty default, [], 0, false⟩

section

variable (q : Queue ι)

def Queue.count : ℕ := q.ring.count + q.fallbackCount

/-- The sessions in the ring, in the order in which they are popped. -/
def Queue.entries : List ι := q.ring.toList queueCap

/-- `renegotiation_queue_pop`: the fallback nodes come first. -/
def Queue.pop : Queue ι × Option ι :=
  match q.fallback with
  | node :: rest =>
    ({ q with
      fallback := rest
      fallbackCount := q.fallbackCount - 1
      emergencyFallbackUsed := if node.emergency then false else q.emergencyFallbackUsed },
      some node.session)
  | [] =>
    if 0 < q.ring.count then
      ({ q with ring := q.ring.pop queueCap }, some (q.ring.cells (q.ring.index queueCap 0)))
    else (q, none)

/-- The place of the first entry whose session no longer accepts work. -/
def Queue.staleOffset (stale : ι → Bool) : Option ℕ :=
  (List.range q.ring.count).find? fun offset => stale (q.ring.cells (q.ring.index queueCap offset))

/-- A full ring gives up its first stale entry. -/
def Queue.reclaim (stale : ι → Bool) : Queue ι × Option ι :=
  if queueCap ≤ q.ring.count then
    match q.staleOffset stale with
    | some offset => ({ q with ring := q.ring.removeAt queueCap offset },
        some (q.ring.cells (q.ring.index queueCap offset)))
    | none => (q, none)
  else (q, none)

/-- The entry of a session is put in the ring, or in a fallback node when the ring is full. -/
def Queue.insert (session : ι) (allocated : Bool) : Queue ι × Bool :=
  if q.ring.count < queueCap then ({ q with ring := q.ring.push queueCap session }, true)
  else if allocated then
    ({ q with
      fallback := q.fallback ++ [⟨session, false⟩]
      fallbackCount := q.fallbackCount + 1 }, true)
  else if q.emergencyFallbackUsed then (q, false)
  else
    ({ q with
      fallback := q.fallback ++ [⟨session, true⟩]
      fallbackCount := q.fallbackCount + 1
      emergencyFallbackUsed := true }, true)

/-- There is room in the ring, or a stale entry to make some. -/
def Queue.HasRoom (stale : ι → Bool) : Prop :=
  q.ring.count < queueCap ∨ ∃ x ∈ q.entries, stale x = true

end

variable {q : Queue ι} {stale : ι → Bool}

lemma entries_init [Inhabited ι] : (Queue.init : Queue ι).entries = [] := rfl

lemma wf_init [Inhabited ι] : (Queue.init : Queue ι).ring.WF queueCap := Ring.wf_empty _ (by decide)

/-- The counters are right, and the emergency node is linked exactly when it is used. -/
structure Queue.Sound (q : Queue ι) : Prop where
  wf : q.ring.WF queueCap
  count : q.ring.count = q.entries.length
  fallbackCount : q.fallbackCount = q.fallback.length
  emergency : q.fallback.countP FallbackNode.emergency = q.emergencyFallbackUsed.toNat

lemma sound_init [Inhabited ι] : (Queue.init : Queue ι).Sound := ⟨wf_init, rfl, rfl, rfl⟩

inductive Popped (q : Queue ι) : Queue ι × Option ι → Prop
  | fallback {q' : Queue ι} {node : FallbackNode ι} (hsound : q'.Sound)
      (hentries : q'.entries = q.entries) (hfallback : q.fallback = node :: q'.fallback) :
      Popped q (q', some node.session)
  | ring {q' : Queue ι} {x : ι} (hsound : q'.Sound) (hentries : q.entries = x :: q'.entries)
      (hfallback : q.fallback = []) (hfallback' : q'.fallback = []) : Popped q (q', some x)
  | empty (hentries : q.entries = []) (hfallback : q.fallback = []) : Popped q (q, none)

lemma pop_popped (h : q.Sound) : Popped q q.pop := by
  have hcount := h.fallbackCount
  have hem := h.emergency
  unfold Queue.pop
  cases hf : q.fallback with
  | nil =>
    rw [hf] at hcount hem
    rcases Nat.eq_zero_or_pos q.ring.count with h0 | hpos
    · rw [if_neg (by omega)]
      exact .empty (eq_nil_of_length_eq_zero (h.count.symm.trans h0)) hf
    · rw [if_pos hpos]
      exact .ring ⟨h.wf.pop hpos, Ring.length_toList.symm, hcount, hem⟩
        (Ring.toList_eq_cons hpos) hf rfl
  | cons node rest =>
    rw [hf, length_cons] at hcount
    rw [hf, countP_cons] at hem
    refine .fallback ⟨h.wf, h.count, ?_, ?_⟩ rfl hf
    · change q.fallbackCount - 1 = rest.length
      omega
    dsimp only
    cases hn : node.emergency with
    | false =>
      rw [hn, if_neg Bool.false_ne_true, Nat.add_zero] at hem
      exact hem
    | true =>
      -- the emergency node is linked once
      rw [hn, if_pos rfl] at hem
      have hle := Bool.toNat_le q.emergencyFallbackUsed
      rw [if_pos rfl, Bool.toNat_false]
      omega

/-- What a full ring gives up. -/
inductive Reclaimed (q : Queue ι) (stale : ι → Bool) : Queue ι × Option ι → Prop
  | kept (hkept : q.ring.count < queueCap ∨ ∀ x ∈ q.entries, stale x = false) :
      Reclaimed q stale (q, none)
  | removed {q' : Queue ι} {offset : ℕ} {x : ι} (hsound : q'.Sound)
      (hx : q.entries[offset]? = some x) (hentries : q'.entries = q.entries.eraseIdx offset)
      (hfallback : q'.fallback = q.fallback) (hstale : stale x = true)
      (hroom : q'.ring.count < queueCap) : Reclaimed q stale (q', some x)

lemma reclaim_reclaimed (h : q.Sound) (stale : ι → Bool) : Reclaimed q stale (q.reclaim stale) := by
  unfold Queue.reclaim
  rcases Nat.lt_or_ge q.ring.count queueCap with hlt | hge
  · rw [if_neg (not_le.2 hlt)]
    exact .kept (.inl hlt)
  rw [if_pos hge]
  cases hs : q.staleOffset stale with
  | none =>
    refine .kept (.inr fun x hx => ?_)
    obtain ⟨i, hi, rfl⟩ := mem_map.1 hx
    exact Bool.eq_false_of_not_eq_true (find?_eq_none.1 hs i hi)
  | some offset =>
    have hlt : offset < q.ring.count := mem_range.1 (mem_of_find?_eq_some hs)
    have hst : stale (q.ring.cells (q.ring.index queueCap offset)) = true := by
      simpa using find?_some hs
    have hle := h.wf.count_le
    refine .removed ⟨h.wf.removeAt hlt, Ring.length_toList.symm, h.fallbackCount, h.emergency⟩
      (Ring.getElem?_toList hlt) (Ring.toList_removeAt h.wf hlt) rfl hst ?_
    change q.ring.count - 1 < queueCap
    omega

lemma reclaim_room (h : q.Sound) (hroom : q.HasRoom stale) :
    (q.reclaim stale).1.ring.count < queueCap := by
  have hcases := reclaim_reclaimed h stale
  generalize q.reclaim stale = result at hcases ⊢
  cases hcases with
  | kept hkept =>
    rcases hroom with hlt | ⟨x, hx, hs⟩
    · exact hlt
    · refine hkept.resolve_right fun hall => ?_
      rw [hall x hx] at hs
      exact Bool.false_ne_true hs
  | removed _ _ _ _ _ hc => exact hc

inductive Inserted (q : Queue ι) (session : ι) : Queue ι × Bool → Prop
  | ring {q' : Queue ι} (hsound : q'.Sound) (hentries : q'.entries = q.entries ++ [session])
      (hfallback : q'.fallback = q.fallback) : Inserted q session (q', true)
  | fallback {q' : Queue ι} {emergency : Bool} (hsound : q'.Sound)
      (hentries : q'.entries = q.entries)
      (hfallback : q'.fallback = q.fallback ++ [⟨session, emergency⟩])
      (hfull : queueCap ≤ q.ring.count) : Inserted q session (q', true)
  | refused (hfull : queueCap ≤ q.ring.count) : Inserted q session (q, false)

lemma insert_inserted (h : q.Sound) (session : ι) (allocated : Bool) :
    Inserted q session (q.insert session allocated) := by
  have hcount : ∀ e, (q.fallback ++ [FallbackNode.mk session e]).length = q.fallbackCount + 1 := by
    intro e
    rw [length_append, h.fallbackCount, length_singleton]
  unfold Queue.insert
  rcases Nat.lt_or_ge q.ring.count queueCap with hc | hfull
  · rw [if_pos hc]
    exact .ring ⟨h.wf.push hc session, Ring.length_toList.symm, h.fallbackCount, h.emergency⟩
      (Ring.toList_push h.wf hc session) rfl
  rw [if_neg (not_lt.2 hfull)]
  split
  · refine .fallback ⟨h.wf, h.count, (hcount false).symm, ?_⟩ rfl rfl hfull
    rw [countP_append, h.emergency]
    rfl
  split
  · exact .refused hfull
  · rename_i hused
    refine .fallback ⟨h.wf, h.count, (hcount true).symm, ?_⟩ rfl rfl hfull
    rw [countP_append, h.emergency, Bool.eq_false_of_not_eq_true hused]
    rfl

end MezonSfu.RenegotiationQueue
