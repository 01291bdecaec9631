import Mathlib.Tactic

/-!
The negotiation record of a session: the three revisions of its offers, the due time of the
next one, and what each block of code under the negotiation lock does to it.

Times are milliseconds and do not wrap; the revisions are 64-bit counters that skip zero.
-/

namespace MezonSfu.Negotiation

def debounceMs : ℕ := 15
def maxDelayMs : ℕ := 50
def retryMaxMs : ℕ := 500
def offerTimeoutMs : ℕ := 5000

structure SessionNegotiation where
  negotiationNeeded : Bool
  renegotiationQueued : Bool
  offerOutstanding : Bool
  renegotiationPending : Bool
  offerGeneration : ℕ
  negotiationRetryCount : ℕ
  desiredOfferRevision : ℕ
  offeredRevision : ℕ
  answeredRevision : ℕ
  lastAnsweredOfferGeneration : ℕ
  offerSentMs : ℕ
  negotiationFirstDirtyMs : ℕ
  negotiationDueMs : ℕ
  deriving DecidableEq, Repr

def SessionNegotiation.init : SessionNegotiation :=
  ⟨false, false, false, false, 0, 0, 0, 0, 0, 0, 0, 0, 0⟩

/-- The revision after `r`, a 64-bit increment that skips zero. -/
def nextRevision (r : ℕ) : ℕ := if (r + 1) % 2 ^ 64 = 0 then 1 else (r + 1) % 2 ^ 64

lemma nextRevision_eq {r : ℕ} (h : r + 1 < 2 ^ 64) : nextRevision r = r + 1 := by
  unfold nextRevision
  rw [Nat.mod_eq_of_lt h]
  simp

section

variable (n : SessionNegotiation)

/-- The due time after a trigger: debounced, but not past the deadline of the first one. -/
def SessionNegotiation.touch (now : ℕ) : SessionNegotiation :=
  if n.negotiationNeeded then
    { n with
      negotiationDueMs := min (now + debounceMs) (n.negotiationFirstDirtyMs + maxDelayMs) }
  else
    { n with
      negotiationNeeded := true
      negotiationFirstDirtyMs := now
      negotiationDueMs := now + debounceMs }

/-- The desired revision and the pending flag after a trigger. -/
def SessionNegotiation.demand (bumpRevision : Bool) : SessionNegotiation :=
  let desired := if bumpRevision then nextRevision n.desiredOfferRevision
    else n.desiredOfferRevision
  { n with
    desiredOfferRevision := desired
    renegotiationPending := decide (n.answeredRevision < desired) }

/-- The locked block of `schedule_peer_renegotiation`. -/
def schedulePeerRenegotiation (established bumpRevision : Bool) (now : ℕ) : SessionNegotiation :=
  let d := n.demand bumpRevision
  if established && !d.offerOutstanding && d.renegotiationPending then d.touch now else d

/-- The locked block of `sfu_signaling_reconcile_remote_slots`. -/
def reconcileRemoteSlots : SessionNegotiation :=
  { n with
    desiredOfferRevision :=
      if n.desiredOfferRevision ≤ n.answeredRevision then nextRevision n.answeredRevision
      else n.desiredOfferRevision
    renegotiationPending := true }

/-- The offer was sent and has waited for its answer long enough. -/
def SessionNegotiation.timedOut (now : ℕ) : Bool :=
  n.offerOutstanding && n.offerSentMs ≠ 0 && decide (n.offerSentMs ≤ now) &&
    decide (offerTimeoutMs ≤ now - n.offerSentMs)

/-- `expire_unanswered_offer_locked`. -/
def expireUnansweredOffer (now : ℕ) : SessionNegotiation × Bool :=
  if n.timedOut now then
    ({ n with
      offerOutstanding := false
      offerSentMs := 0
      desiredOfferRevision :=
        if n.desiredOfferRevision ≤ n.offeredRevision then nextRevision n.offeredRevision
        else n.desiredOfferRevision
      renegotiationPending := true
      negotiationNeeded := true
      negotiationDueMs := now }, true)
  else (n, false)

/-- What `flush_pending_offers` does with a session it has popped. -/
inductive Decision where
  | requeue
  | send (attemptRevision : ℕ)
  | skip
  deriving DecidableEq, Repr

def Decision.revision : Decision → Option ℕ
  | .send attemptRevision => some attemptRevision
  | _ => none

/-- What the flush reads of the session besides its negotiation record. -/
structure Readiness where
  timerInited : Bool
  established : Bool
  acceptsWork : Bool
  fdOpen : Bool
  deriving DecidableEq, Repr

/-- The part of the flush's block that offers, waits for the due time or lets go. -/
def offerOrWait (r : Readiness) (now : ℕ) : SessionNegotiation × Decision :=
  if r.timerInited && decide (now < n.negotiationDueMs) then (n, .requeue)
  else
    let n := { n with negotiationNeeded := false }
    if r.established && !n.offerOutstanding && r.acceptsWork && r.fdOpen &&
        decide (n.offeredRevision < n.desiredOfferRevision) then
      ({ n with offerOutstanding := true, renegotiationPending := false },
        .send n.desiredOfferRevision)
    else (n, .skip)

/-- The first locked block of `flush_pending_offers`: a sent offer that has not timed out is
watched further, and otherwise a new one is made when it is due. -/
def flushPendingOffer (r : Readiness) (now : ℕ) : SessionNegotiation × Decision :=
  if n.offerOutstanding && n.offerSentMs ≠ 0 then
    match expireUnansweredOffer n now with
    | (expired, true) => offerOrWait expired r now
    | (_, false) => ({ n with negotiationDueMs := n.offerSentMs + offerTimeoutMs }, .requeue)
  else offerOrWait n r now

/-- The locked block of the flush after a successful send. -/
def recordSent (attemptRevision manifestGeneration now : ℕ) : SessionNegotiation :=
  { n with
    offeredRevision := attemptRevision
    offerGeneration := manifestGeneration
    offerSentMs := now
    negotiationDueMs := now + offerTimeoutMs
    negotiationRetryCount := 0 }

end

/-- The delay before the retry number `count`. -/
def retryMs (count : ℕ) : ℕ := min (15 <<< min count 5) retryMaxMs

section

variable (n : SessionNegotiation)

/-- The locked block of the flush after a failed send. -/
def recordFailed (now : ℕ) : SessionNegotiation × Bool :=
  if n.offerOutstanding then
    let count := (n.negotiationRetryCount + 1) % 2 ^ 32
    ({ n with
      offerOutstanding := false
      offerSentMs := 0
      renegotiationPending := true
      negotiationRetryCount := count
      negotiationDueMs := now + retryMs count
      negotiationNeeded := true }, true)
  else (n, false)

/-- The check of a received generation in `handle_answer`; `installed` is the generation of the
installed manifest. -/
def generationValid (installed : Option ℕ) (received : ℕ) : Bool :=
  received ≠ 0 && installed = some received && n.offerOutstanding &&
    decide (n.lastAnsweredOfferGeneration < received)

/-- The last locked block of `handle_answer`. -/
def answerLocked (received : ℕ) : SessionNegotiation :=
  let n := if n.offerOutstanding then
      { n with
        offerOutstanding := false
        offerSentMs := 0
        answeredRevision := n.offeredRevision
        lastAnsweredOfferGeneration := received }
    else n
  { n with renegotiationPending := decide (n.answeredRevision < n.desiredOfferRevision) }

end

section Fields

variable (n : SessionNegotiation)

lemma touch_eq (now : ℕ) : ∃ first due, n.touch now =
    { n with
      negotiationNeeded := true
      negotiationFirstDirtyMs := first
      negotiationDueMs := due } := by
  unfold SessionNegotiation.touch
  split
  · next hneeded => exact ⟨n.negotiationFirstDirtyMs, _, by rw [← hneeded]⟩
  · exact ⟨_, _, rfl⟩

/-- A trigger only moves the desired revision, the flags of the queue and the due time. -/
lemma schedule_revisions (established bumpRevision : Bool) (now : ℕ) :
    let n' := schedulePeerRenegotiation n established bumpRevision now
    n'.desiredOfferRevision = (if bumpRevision then nextRevision n.desiredOfferRevision
        else n.desiredOfferRevision) ∧
      n'.offeredRevision = n.offeredRevision ∧ n'.answeredRevision = n.answeredRevision ∧
      n'.offerOutstanding = n.offerOutstanding ∧
      n'.lastAnsweredOfferGeneration = n.lastAnsweredOfferGeneration := by
  unfold schedulePeerRenegotiation
  dsimp only
  split
  · obtain ⟨first, due, htouch⟩ := touch_eq (n.demand bumpRevision) now
    rw [htouch]
    exact ⟨rfl, rfl, rfl, rfl, rfl⟩
  · exact ⟨rfl, rfl, rfl, rfl, rfl⟩

end Fields

lemma offerOrWait_cases (n : SessionNegotiation) (r : Readiness) (now : ℕ) :
    (offerOrWait n r now = (n, .requeue) ∧ r.timerInited ∧ now < n.negotiationDueMs) ∨
    (offerOrWait n r now = ({ n with negotiationNeeded := false }, .skip)) ∨
    (offerOrWait n r now = ({ n with
        negotiationNeeded := false, offerOutstanding := true, renegotiationPending := false },
        .send n.desiredOfferRevision) ∧
      r.established ∧ n.offerOutstanding = false ∧
      n.offeredRevision < n.desiredOfferRevision) := by
  unfold offerOrWait
  split
  · rename_i h
    simp only [Bool.and_eq_true, decide_eq_true_eq] at h
    exact .inl ⟨rfl, h.1, h.2⟩
  dsimp only
  split
  · rename_i h
    simp only [Bool.and_eq_true, decide_eq_true_eq, Bool.not_eq_eq_eq_not, Bool.not_true] at h
    exact .inr (.inr ⟨rfl, h.1.1.1.1, h.1.1.1.2, h.2⟩)
  · exact .inr (.inl rfl)

end MezonSfu.Negotiation
