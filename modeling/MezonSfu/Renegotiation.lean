import MezonSfu.Negotiation
import MezonSfu.RenegotiationQueue
import MezonSfu.Runs

/-!
The signaling server as far as renegotiation goes: its sessions, the queue of those that want an
offer or wait for an answer, the wake and the timer of its loop, and the schedule calls that
other threads have under way.

A schedule call runs in three steps: its block under the negotiation lock, the enqueue under the
queue lock, and the wake if the enqueue made an entry. A flush pops the entries it found at its
start one by one. Steps of different threads interleave freely.
-/

namespace MezonSfu.Renegotiation

open Negotiation RenegotiationQueue

structure Peer where
  neg : SessionNegotiation
  established : Bool
  acceptsWork : Bool
  fdOpen : Bool

def Peer.init : Peer := ⟨.init, false, true, true⟩

/-- The session has something to wait for in the queue: an offer to make or an answer. -/
def Peer.eligible (p : Peer) : Bool :=
  p.established &&
    ((!p.neg.offerOutstanding && p.neg.negotiationNeeded && p.neg.renegotiationPending) ||
      (p.neg.offerOutstanding && p.neg.offerSentMs ≠ 0)) && p.acceptsWork

/-- The step a schedule call takes next. -/
inductive Stage where
  | enqueue
  | wake
  deriving DecidableEq, Repr

structure Call (ι : Type*) where
  session : ι
  stage : Stage

/-- Where the loop stands. During a flush it knows how many entries are still to be popped and
the earliest due time it has met, zero if none. -/
inductive Loop (ι : Type*) where
  | idle
  | starting
  | popping (remaining earliest : ℕ)
  | holding (session : ι) (remaining earliest : ℕ)
  | requeueing (session : ι) (due remaining earliest : ℕ)
  | sending (session : ι) (attemptRevision now remaining earliest : ℕ)
  | watching (session : ι) (due remaining earliest : ℕ)

/-- `timer` is the due time the timer is armed for; it fires at once when that time has
passed. -/
structure Server (ι : Type*) where
  peers : ι → Peer
  queue : Queue ι
  calls : List (Call ι)
  wake : Bool
  timer : Option ℕ
  loop : Loop ι

variable {ι : Type*} [DecidableEq ι]

def Server.init [Inhabited ι] : Server ι := ⟨fun _ => .init, .init, [], false, none, .idle⟩

section

variable (v : Server ι)

def Server.setPeer (s : ι) (p : Peer) : Server ι := { v with peers := Function.update v.peers s p }

def Server.setNeg (s : ι) (n : SessionNegotiation) : Server ι :=
  v.setPeer s { v.peers s with neg := n }

def Server.setQueued (s : ι) (queued : Bool) : Server ι :=
  v.setNeg s { (v.peers s).neg with renegotiationQueued := queued }

def Server.stale (s : ι) : Bool := !(v.peers s).acceptsWork

/-- The stale entry that a full ring gives up is marked as not queued. -/
def Server.reclaim : Server ι :=
  let (q, removed) := v.queue.reclaim v.stale
  match removed with
  | some x => { v with queue := q }.setQueued x false
  | none => { v with queue := q }

def Server.enqueueOwned (s : ι) (allocated : Bool) : Server ι × Bool :=
  let v := v.reclaim
  if !(v.peers s).neg.renegotiationQueued && (v.peers s).eligible then
    let (q, consumed) := v.queue.insert s allocated
    if consumed then ({ v with queue := q }.setQueued s true, true)
    else ({ v with queue := q }, false)
  else (v, false)

/-- The earlier of two due times, where zero is no time. -/
def earlier (earliest due : ℕ) : ℕ := if earliest = 0 ∨ due < earliest then due else earliest

/-- The end of a flush, with `arm_renegotiation_timer`. -/
def Server.endFlush (earliest : ℕ) : Server ι :=
  { v with
    loop := .idle
    timer := if earliest ≠ 0 then some earliest else v.timer }

end

inductive Op (ι : Type*) where
  | establish (s : ι)
  | close (s : ι)
  | setFd (s : ι) (fdOpen : Bool)
  | schedule (s : ι) (bumpRevision : Bool) (now : ℕ)
  | reconcile (s : ι)
  | enqueue (k : ℕ) (allocated : Bool)
  | signal (k : ℕ)
  | answer (s : ι) (received : ℕ)
  | timerFires
  | wakes
  | flush
  | pop
  | decide (now : ℕ)
  | requeue (allocated : Bool)
  | sendDone (ok : Bool) (manifestGeneration now : ℕ)
  | watch (allocated : Bool)

/-- What the flush reads of a session; the timer of the running loop is initialised. -/
def Peer.readiness (p : Peer) : Readiness := ⟨true, p.established, p.acceptsWork, p.fdOpen⟩

variable (v : Server ι)

/-- `renegotiation_queue_pop` by the loop. -/
def popStep (remaining earliest : ℕ) : Server ι :=
  match v.queue.pop with
  | (q, some s) => { v with queue := q, loop := .holding s remaining earliest }.setQueued s false
  | (_, none) => v.endFlush earliest

/-- The first block of the flush for the session in hand. -/
def decideStep (s : ι) (remaining earliest now : ℕ) : Server ι :=
  let p := v.peers s
  let (n, decision) := flushPendingOffer p.neg p.readiness now
  let v := v.setNeg s n
  match decision with
  | .requeue => { v with loop := .requeueing s n.negotiationDueMs remaining earliest }
  | .send attemptRevision => { v with loop := .sending s attemptRevision now remaining earliest }
  | .skip => { v with loop := .popping remaining earliest }

def sendDoneStep (s : ι) (attemptRevision begun remaining earliest : ℕ) (ok : Bool)
    (manifestGeneration now : ℕ) : Server ι :=
  if ok then
    let n := recordSent (v.peers s).neg attemptRevision manifestGeneration begun
    { v.setNeg s n with loop := .watching s n.negotiationDueMs remaining earliest }
  else
    let (n, requeue) := recordFailed (v.peers s).neg now
    { v.setNeg s n with
      loop := if requeue then .requeueing s n.negotiationDueMs remaining earliest
        else .popping remaining earliest }

/-- The steps of the loop. A step that the loop is not at does nothing. -/
def loopStep : Loop ι → Op ι → Server ι
  | .idle, .answer s received => v.setNeg s (answerLocked (v.peers s).neg received)
  | .idle, .timerFires =>
    if v.timer.isSome then { v with timer := none, loop := .starting } else v
  | .idle, .wakes => if v.wake then { v with wake := false, loop := .starting } else v
  | .starting, .flush => { v with loop := .popping v.queue.count 0 }
  | .popping 0 earliest, .pop => v.endFlush earliest
  | .popping (remaining + 1) earliest, .pop => popStep v remaining earliest
  | .holding s remaining earliest, .decide now => decideStep v s remaining earliest now
  | .requeueing s due remaining earliest, .requeue allocated =>
    { (v.enqueueOwned s allocated).1 with loop := .popping remaining (earlier earliest due) }
  | .sending s attemptRevision begun remaining earliest, .sendDone ok manifestGeneration now =>
    sendDoneStep v s attemptRevision begun remaining earliest ok manifestGeneration now
  | .watching s due remaining earliest, .watch allocated =>
    { (v.enqueueOwned s allocated).1 with
      loop := .popping remaining
        (if (v.enqueueOwned s allocated).2 then earlier earliest due else earliest) }
  | _, _ => v

/-- The enqueue of the schedule call number `k`. -/
def enqueueStep (k : ℕ) (allocated : Bool) : Server ι :=
  match v.calls[k]? with
  | some ⟨s, .enqueue⟩ =>
    { (v.enqueueOwned s allocated).1 with
      calls := if (v.enqueueOwned s allocated).2 then v.calls.set k ⟨s, .wake⟩
        else v.calls.eraseIdx k }
  | _ => v

/-- The wake at the end of the schedule call number `k`. -/
def signalStep (k : ℕ) : Server ι :=
  match v.calls[k]? with
  | some ⟨_, .wake⟩ => { v with calls := v.calls.eraseIdx k, wake := true }
  | _ => v

def step : Op ι → Server ι
  | .establish s => v.setPeer s { v.peers s with established := true }
  | .close s => v.setPeer s { v.peers s with acceptsWork := false }
  | .setFd s fdOpen => v.setPeer s { v.peers s with fdOpen := fdOpen }
  | .schedule s bumpRevision now =>
    if (v.peers s).acceptsWork then
      { v.setNeg s (schedulePeerRenegotiation (v.peers s).neg (v.peers s).established
          bumpRevision now) with calls := v.calls ++ [⟨s, .enqueue⟩] }
    else v
  | .reconcile s =>
    if (v.peers s).acceptsWork then v.setNeg s (reconcileRemoteSlots (v.peers s).neg) else v
  | .enqueue k allocated => enqueueStep v k allocated
  | .signal k => signalStep v k
  | op => loopStep v v.loop op

def run [Inhabited ι] (ops : List (Op ι)) : Server ι := Runs.run step .init ops

end MezonSfu.Renegotiation
