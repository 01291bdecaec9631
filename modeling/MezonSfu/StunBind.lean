import MezonSfu.RoutingTable

/-!
How a STUN check binds a session: the routing table that answers are registered in, the table of
sessions with its index by address, and `handle_stun`, which looks up the route, finds, moves or
creates the session, applies a pending answer, publishes the session in its room, and settles
which worker owns it.

The hash tables are maps, that of the routes connected to the table by `StunRoutes`; a room is its
id. Other failures (allocation, the video runtime, room admission, worker registration) are inputs
of the check.
-/

namespace MezonSfu.Binding

open Function
open Routing (nextGeneration)

/-- `sfu_pending_answer_t`, without the media fields. -/
structure PendingAnswer where
  userId : ℤ
  generation : ℕ
  valid : Bool
  deriving DecidableEq, Repr

structure RoutingEntry where
  room : ℕ
  fd : ℕ
  workerIndex : ℕ
  hasOwner : Bool
  pendingAnswer : PendingAnswer
  deriving DecidableEq, Repr

/-- A session of the table. `rebound` is a history variable: the address was changed after the
owner was last settled. -/
structure Session (Addr : Type) where
  addr : Addr
  room : Option ℕ
  userId : ℤ
  fd : Option ℕ
  appliedAnswerGeneration : ℕ
  established : Bool
  owner : Option ℕ
  rebound : Bool
  deriving DecidableEq, Repr

/-- The routing table, the session table with its two indices, and the size of each room. -/
structure Bindings (Addr Ufrag : Type) where
  routes : Ufrag → Option RoutingEntry
  sessions : Ufrag → Option (Session Addr)
  addrIndex : Addr → Option Ufrag
  peerCount : ℕ → ℕ

variable {Addr Ufrag : Type} [DecidableEq Addr] [DecidableEq Ufrag]

def Bindings.empty : Bindings Addr Ufrag where
  routes := fun _ => none
  sessions := fun _ => none
  addrIndex := fun _ => none
  peerCount := fun _ => 0

def Bindings.setRoute (b : Bindings Addr Ufrag) (u : Ufrag) (e : RoutingEntry) :
    Bindings Addr Ufrag :=
  { b with routes := update b.routes u (some e) }

def Bindings.setSession (b : Bindings Addr Ufrag) (u : Ufrag) (s : Session Addr) :
    Bindings Addr Ufrag :=
  { b with sessions := update b.sessions u (some s) }

section
omit [DecidableEq Addr]

variable (b : Bindings Addr Ufrag)

@[simp] lemma routes_setRoute_self (u : Ufrag) (e : RoutingEntry) :
    (b.setRoute u e).routes u = some e := update_self ..

lemma routes_setRoute_of_ne {u v : Ufrag} (e : RoutingEntry)
    (h : v ≠ u) : (b.setRoute u e).routes v = b.routes v := update_of_ne h ..

@[simp] lemma sessions_setSession_self (u : Ufrag) (s : Session Addr) :
    (b.setSession u s).sessions u = some s := update_self ..

end

def newSession (addr : Addr) : Session Addr where
  addr := addr
  room := none
  userId := 0
  fd := none
  appliedAnswerGeneration := 0
  established := false
  owner := none
  rebound := false

inductive Rebind
  | unchanged
  | applied
  | rejected
  deriving DecidableEq, Repr

section

variable (b : Bindings Addr Ufrag)

/-- `sfu_session_table_rebind_addr`: the target must not belong to another session. -/
def rebindAddr (u : Ufrag) (s : Session Addr) (addr : Addr) :
    Option (Bindings Addr Ufrag × Session Addr) :=
  match b.addrIndex addr with
  | some _ => none
  | none =>
    let s' := { s with addr := addr, rebound := true }
    some ({ b.setSession u s' with
      addrIndex := update (update b.addrIndex s.addr none) addr (some u) }, s')

/-- `sfu_session_table_get_or_create_by_ufrag`. A session found at the address has another name,
since it was not found by this one. -/
def getOrCreateByUfrag (addr : Addr) (u : Ufrag) (created : Bool) :
    Bindings Addr Ufrag × Option (Session Addr) × Rebind :=
  match b.sessions u with
  | some s =>
    if s.addr = addr then (b, some s, .unchanged)
    else match rebindAddr b u s addr with
      | some (b', s') => (b', some s', .applied)
      | none => (b, none, .rejected)
  | none =>
    if (b.addrIndex addr).isSome ∨ created = false then (b, none, .unchanged)
    else
      ({ b.setSession u (newSession addr) with
          addrIndex := update b.addrIndex addr (some u) },
        some (newSession addr), .unchanged)

/-- `sfu_session_begin_close`: the session leaves the table and its indices. -/
def closeSession (u : Ufrag) : Bindings Addr Ufrag :=
  match b.sessions u with
  | none => b
  | some s => { b with
      sessions := update b.sessions u none
      addrIndex := update b.addrIndex s.addr none }

end

/-- Why an answer is not registered. -/
inductive RegisterError
  | ownershipConflict
  | tableFull
  deriving DecidableEq, Repr

section

variable (b : Bindings Addr Ufrag)

/-- `sfu_routing_table_prepare_answer`: an entry of another room or connection is a conflict; the
result is the generation of the answer. -/
def prepareAnswer (u : Ufrag) (room fd : ℕ) (tableFull : Bool) : Except RegisterError ℕ :=
  match b.routes u with
  | some e =>
    if e.room = room ∧ e.fd = fd then .ok (nextGeneration e.pendingAnswer.generation)
    else .error .ownershipConflict
  | none => if tableFull then .error .tableFull else .ok (nextGeneration 0)

/-- `sfu_routing_table_commit_answer`: the entry keeps its room, connection and owner once it
exists. -/
def registerAnswer (u : Ufrag) (room fd : ℕ) (answer : PendingAnswer) : Bindings Addr Ufrag :=
  match b.routes u with
  | none => b.setRoute u ⟨room, fd, 0, false, answer⟩
  | some e =>
    if e.room = room ∧ e.fd = fd then b.setRoute u { e with pendingAnswer := answer } else b

/-- `sfu_routing_table_lookup_route`: the worker that looks becomes the owner of the route. -/
def lookupRoute (u : Ufrag) (worker : ℕ) : Bindings Addr Ufrag × Option RoutingEntry :=
  match b.routes u with
  | none => (b, none)
  | some e =>
    let e := { e with workerIndex := worker, hasOwner := true }
    (b.setRoute u e, some e)

end

/-- The part of `sfu_session_apply_pending_answer` that decides whose session it is. -/
def applyPendingAnswer (s : Session Addr) (answer : PendingAnswer) (fd : ℕ) (runtimeReady : Bool) :
    Option (Session Addr) :=
  if answer.valid ∧ s.appliedAnswerGeneration < answer.generation ∧ runtimeReady then
    some { s with
      userId := answer.userId
      fd := some fd
      appliedAnswerGeneration := answer.generation }
  else none

/-- `sfu_routing_table_reconcile_answer`, for the session `s` of `u`. -/
def reconcileAnswer (b : Bindings Addr Ufrag) (u : Ufrag) (s : Session Addr) (room fd : ℕ)
    (generation : ℕ) (runtimeReady : Bool) : Option (Bindings Addr Ufrag × Session Addr) :=
  match b.routes u with
  | none => none
  | some e =>
    if e.room = room ∧ e.fd = fd ∧ e.pendingAnswer.generation = generation ∧
        (s.room = none ∨ s.room = some room) then
      match applyPendingAnswer s e.pendingAnswer fd runtimeReady with
      | none => none
      | some s' =>
        some ((b.setSession u s').setRoute u
          { e with pendingAnswer := { e.pendingAnswer with valid := false } }, s')
    else none

/-! ### `handle_stun` -/

/-- A binding request, with the outcomes of the calls that this state does not decide. -/
structure Stun (Ufrag : Type) where
  ufrag : Option Ufrag
  authentic : Bool
  nominated : Bool
  created : Bool
  runtimeReady : Bool
  admitted : Bool
  registered : Bool
  deriving DecidableEq, Repr

def nomination (u : Ufrag) : Stun Ufrag := ⟨some u, true, true, true, true, true, true⟩

section

variable (b : Bindings Addr Ufrag)

/-- The session of a check, and whether its address was changed. -/
def stunSession (addr : Addr) (u : Ufrag) (stun : Stun Ufrag) :
    Bindings Addr Ufrag × Option (Session Addr) × Rebind :=
  if stun.nominated then getOrCreateByUfrag b addr u stun.created
  else (b, b.sessions u, .unchanged)

def stunReconcile (u : Ufrag) (e : RoutingEntry) (s : Session Addr)
    (stun : Stun Ufrag) : Bindings Addr Ufrag × Session Addr × Bool :=
  match reconcileAnswer b u s e.room e.fd e.pendingAnswer.generation stun.runtimeReady with
  | some (b', s') => (b', s', true)
  | none => (b, s, false)

/-- The session is published in the room of its route. Without an answer, or in another room, the
check ends here. -/
def stunPublish (u : Ufrag) (e : RoutingEntry) (s : Session Addr)
    (applied : Bool) (stun : Stun Ufrag) : Bindings Addr Ufrag × Option (Session Addr) :=
  match s.room with
  | none =>
    if applied = false ∧ ¬ (s.appliedAnswerGeneration ≠ 0 ∧ s.fd = some e.fd) then (b, none)
    else if stun.admitted then
      let s' := { s with room := some e.room }
      ({ b.setSession u s' with
        peerCount := update b.peerCount e.room (b.peerCount e.room + 1) }, some s')
    else (b, some s)
  | some room => if room = e.room then (b, some s) else (b, none)

/-- The ownership step. The owner is settled also when it already is this worker. -/
def stunOwner (u : Ufrag) (s : Session Addr) (rebind : Rebind)
    (worker : ℕ) (stun : Stun Ufrag) : Bindings Addr Ufrag :=
  if stun.nominated ∧ (rebind = .applied ∨ s.established = false ∨ s.owner = none) ∧
      (s.owner = some worker ∨ stun.registered) then
    b.setSession u { s with owner := some worker, rebound := false }
  else b

def stunBound (u : Ufrag) (e : RoutingEntry) (s : Session Addr)
    (rebind : Rebind) (worker : ℕ) (stun : Stun Ufrag) : Bindings Addr Ufrag :=
  match stunReconcile b u e s stun with
  | (b, s, applied) =>
    match stunPublish b u e s applied stun with
    | (b, none) => b
    | (b, some s) => stunOwner b u s rebind worker stun

/-- `handle_stun` on a worker. -/
def handleStun (worker : ℕ) (addr : Addr) (stun : Stun Ufrag) : Bindings Addr Ufrag :=
  match stun.ufrag with
  | none => b
  | some u =>
    if stun.authentic then
      match lookupRoute b u worker with
      | (b, none) => b
      | (b, some e) =>
        match stunSession b addr u stun with
        | (b, none, _) => b
        | (b, some s, rebind) => stunBound b u e s rebind worker stun
    else b

/-- The session table after a session was moved to a free address. -/
def Bindings.moved (u : Ufrag) (s : Session Addr) (addr : Addr) : Bindings Addr Ufrag :=
  { b.setSession u { s with addr := addr, rebound := true } with
    addrIndex := update (update b.addrIndex s.addr none) addr (some u) }

/-- The session table after a session was created at a free address. -/
def Bindings.added (u : Ufrag) (addr : Addr) : Bindings Addr Ufrag :=
  { b.setSession u (newSession addr) with
    addrIndex := update b.addrIndex addr (some u) }

lemma stunSession_cases (addr : Addr) (u : Ufrag) (stun : Stun Ufrag) :
    (∃ r, stunSession b addr u stun = (b, none, r)) ∨
    (∃ s, b.sessions u = some s ∧ (stun.nominated → s.addr = addr) ∧
      stunSession b addr u stun = (b, some s, .unchanged)) ∨
    (∃ s, b.sessions u = some s ∧ s.addr ≠ addr ∧ b.addrIndex addr = none ∧
      stunSession b addr u stun =
        (b.moved u s addr, some { s with addr := addr, rebound := true }, .applied)) ∨
    (b.sessions u = none ∧ b.addrIndex addr = none ∧
      stunSession b addr u stun = (b.added u addr, some (newSession addr), .unchanged)) := by
  unfold stunSession
  by_cases hnom : stun.nominated
  · rw [if_pos hnom]
    unfold getOrCreateByUfrag
    cases hs : b.sessions u with
    | some s =>
      dsimp only
      by_cases haddr : s.addr = addr
      · exact .inr (.inl ⟨s, rfl, fun _ => haddr, by rw [if_pos haddr]⟩)
      rw [if_neg haddr]
      unfold rebindAddr
      cases hidx : b.addrIndex addr with
      | some v => exact .inl ⟨.rejected, rfl⟩
      | none => exact .inr (.inr (.inl ⟨s, rfl, haddr, rfl, rfl⟩))
    | none =>
      dsimp only
      split
      · exact .inl ⟨.unchanged, rfl⟩
      rename_i hfree
      have hnone : b.addrIndex addr = none := by
        rw [← Option.not_isSome_iff_eq_none]
        exact fun h => hfree (.inl h)
      exact .inr (.inr (.inr ⟨rfl, hnone, rfl⟩))
  · rw [if_neg hnom]
    cases hs : b.sessions u with
    | none => exact .inl ⟨.unchanged, rfl⟩
    | some s => exact .inr (.inl ⟨s, rfl, fun h => absurd h hnom, rfl⟩)

end

omit [DecidableEq Addr] in
lemma reconcileAnswer_cases {b b' : Bindings Addr Ufrag} {u : Ufrag} {s s' : Session Addr}
    {room fd generation : ℕ} {runtimeReady : Bool}
    (h : reconcileAnswer b u s room fd generation runtimeReady = some (b', s')) :
    ∃ e, b.routes u = some e ∧ e.room = room ∧ e.fd = fd ∧ e.pendingAnswer.generation = generation ∧
      e.pendingAnswer.valid ∧ (s.room = none ∨ s.room = some room) ∧
      s' = { s with
        userId := e.pendingAnswer.userId
        fd := some fd
        appliedAnswerGeneration := e.pendingAnswer.generation } ∧
      b' = (b.setSession u s').setRoute u
        { e with pendingAnswer := { e.pendingAnswer with valid := false } } := by
  unfold reconcileAnswer at h
  split at h
  · simp at h
  rename_i e he
  split at h
  · rename_i hmatch
    unfold applyPendingAnswer at h
    by_cases hvalid : e.pendingAnswer.valid ∧
        s.appliedAnswerGeneration < e.pendingAnswer.generation ∧ runtimeReady
    · rw [if_pos hvalid] at h
      simp only [Option.some.injEq, Prod.mk.injEq] at h
      obtain ⟨rfl, rfl⟩ := h
      exact ⟨e, he, hmatch.1, hmatch.2.1, hmatch.2.2.1, hvalid.1, hmatch.2.2.2, rfl, rfl⟩
    · rw [if_neg hvalid] at h
      simp at h
  · simp at h

omit [DecidableEq Addr] in
lemma stunPublish_cases (b : Bindings Addr Ufrag) (u : Ufrag) (e : RoutingEntry)
    (s : Session Addr) (applied : Bool) (stun : Stun Ufrag) :
    (stunPublish b u e s applied stun = (b, none) ∧ s.room ≠ some e.room) ∨
    (stunPublish b u e s applied stun = (b, some s)) ∨
    (s.room = none ∧
      (applied ∨ (s.appliedAnswerGeneration ≠ 0 ∧ s.fd = some e.fd)) ∧
      stunPublish b u e s applied stun =
        ({ b.setSession u { s with room := some e.room } with
          peerCount := update b.peerCount e.room (b.peerCount e.room + 1) },
          some { s with room := some e.room })) := by
  unfold stunPublish
  cases hroom : s.room with
  | none =>
    dsimp only
    split
    · exact .inl ⟨rfl, by simp⟩
    rename_i hans
    split
    · refine .inr (.inr ⟨rfl, ?_, rfl⟩)
      by_cases happ : applied
      · exact .inl happ
      · refine .inr ?_
        by_contra hno
        exact hans ⟨by simpa using happ, hno⟩
    · exact .inr (.inl rfl)
  | some room =>
    dsimp only
    by_cases h : room = e.room
    · exact .inr (.inl (by rw [if_pos h]))
    · exact .inl ⟨by rw [if_neg h], by simpa using h⟩

end MezonSfu.Binding
