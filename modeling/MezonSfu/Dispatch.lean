import MezonSfu.StunBind

/-!
The dispatcher: every datagram goes to the worker that `sfu_scheduler_select_worker` picks, and a
STUN check is handled there. The pick depends on a direct-mapped cache from addresses to workers,
and on the size of the room and the owner of the route.

The hashes and the number of workers are arbitrary.
-/

namespace MezonSfu.Dispatch

open Binding Function

def affinityCacheCap : ℕ := 16384
def smallRoomAffinityMax : ℕ := 8

structure Config (Addr : Type) where
  hash : Addr → ℕ
  roomHash : ℕ → ℕ
  workerCount : ℕ

structure AffinityEntry (Addr : Type) where
  addr : Addr
  hash : ℕ
  workerIndex : ℕ
  deriving DecidableEq, Repr

/-- The direct-mapped cache; an entry that is not valid is `none`. -/
abbrev Affinity (Addr : Type) : Type := ℕ → Option (AffinityEntry Addr)

variable {Addr Ufrag : Type} [DecidableEq Addr] [DecidableEq Ufrag]

variable (cfg : Config Addr)

def Config.slot (addr : Addr) : ℕ := cfg.hash addr % affinityCacheCap

def Config.fallback (addr : Addr) : ℕ := cfg.hash addr % cfg.workerCount

def cacheHit (cache : Affinity Addr) (addr : Addr) : Option ℕ :=
  match cache (cfg.slot addr) with
  | none => none
  | some e => if e.hash = cfg.hash addr ∧ e.addr = addr then some e.workerIndex else none

/-- The worker that the route of a check asks for: in a small room the room's own, in a larger one
the owner of the route. -/
def routedWorker (b : Bindings Addr Ufrag) (u : Ufrag) : Option ℕ :=
  match b.routes u with
  | none => none
  | some e =>
    if b.peerCount e.room ≤ smallRoomAffinityMax then
      some (cfg.roomHash e.room % cfg.workerCount)
    else if e.hasOwner ∧ e.workerIndex < cfg.workerCount then some e.workerIndex
    else none

def cacheStore (cache : Affinity Addr) (addr : Addr) (worker : ℕ) : Affinity Addr :=
  update cache (cfg.slot addr) (some ⟨addr, cfg.hash addr, worker⟩)

/-- What the dispatcher sees of a datagram: a STUN check, perhaps with a name in it, or not. -/
inductive Kind (Ufrag : Type)
  | stun (ufrag : Option Ufrag)
  | other

def selectWorker (b : Bindings Addr Ufrag) (cache : Affinity Addr)
    (addr : Addr) (kind : Kind Ufrag) : Affinity Addr × ℕ :=
  if cfg.workerCount = 0 then (cache, 0)
  else match kind, cacheHit cfg cache addr with
    | .other, some worker => (cache, worker)
    | .other, none => (cacheStore cfg cache addr (cfg.fallback addr), cfg.fallback addr)
    | .stun ufrag, hit =>
      let selected := (ufrag.bind (routedWorker cfg b)).getD (hit.getD (cfg.fallback addr))
      (cacheStore cfg cache addr selected, selected)

structure World (Addr Ufrag : Type) where
  bindings : Bindings Addr Ufrag
  cache : Affinity Addr

def World.init : World Addr Ufrag := ⟨.empty, fun _ => none⟩

inductive Op (Addr Ufrag : Type)
  /-- a datagram that is not a STUN check -/
  | packet (addr : Addr)
  | stun (addr : Addr) (check : Stun Ufrag)
  /-- an answer is registered under a name, with any pending data -/
  | register (u : Ufrag) (room fd : ℕ) (answer : PendingAnswer)
  | unregister (u : Ufrag)
  /-- joins and leaves -/
  | setPeerCount (room count : ℕ)
  | setEstablished (u : Ufrag) (established : Bool)
  | closeSession (u : Ufrag)

def step (w : World Addr Ufrag) : Op Addr Ufrag → World Addr Ufrag
  | .packet addr => { w with cache := (selectWorker cfg w.bindings w.cache addr .other).1 }
  | .stun addr check =>
    let (cache, worker) := selectWorker cfg w.bindings w.cache addr (.stun check.ufrag)
    ⟨handleStun w.bindings worker addr check, cache⟩
  | .register u room fd answer => { w with bindings := registerAnswer w.bindings u room fd answer }
  | .unregister u =>
    { w with bindings := { w.bindings with routes := update w.bindings.routes u none } }
  | .setPeerCount room count =>
    { w with bindings := { w.bindings with peerCount := update w.bindings.peerCount room count } }
  | .setEstablished u established =>
    match w.bindings.sessions u with
    | none => w
    | some s => { w with bindings := w.bindings.setSession u { s with established := established } }
  | .closeSession u => { w with bindings := closeSession w.bindings u }

def run (ops : List (Op Addr Ufrag)) : World Addr Ufrag := Runs.run (step cfg) World.init ops

end MezonSfu.Dispatch
