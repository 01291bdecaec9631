import MezonSfu.StunBind

/-!
The signaling connections: `handle_join`, `handle_answer`, the other messages as far as they can
end a connection, moderation, and the end of a connection. Room and user stand in the connection,
in the route of its answer, and in the session; STUN checks copy them from the route to the
session.

A connection is named by its descriptor. What this state does not decide (a token that verifies,
an SDP that parses, an offer generation that fits) is an input.
-/

namespace MezonSfu.Connections

open Binding

/-- `sfu_client_conn_t`: who the connection says it is. -/
structure Conn (Ufrag : Type) where
  userId : ℤ
  joinedRoom : Option ℕ
  clientUfrag : Option Ufrag
  initialAnswerAccepted : Bool
  disconnecting : Bool
  deriving DecidableEq, Repr

def Conn.new {Ufrag : Type} : Conn Ufrag := ⟨0, none, none, false, false⟩

structure Server (Addr Ufrag : Type) where
  bindings : Bindings Addr Ufrag
  conns : ℕ → Option (Conn Ufrag)

/-- The errors that a join or an answer is refused with. -/
inductive Refusal
  | authFailed
  | invalidRoom
  | roomCreationFailed
  | mustJoinRoomFirst
  | invalidAnswerUfrag
  | invalidAnswerSdp
  | staleOfferGeneration
  | duplicateIceUfrag
  | routingTableFull
  deriving DecidableEq, Repr

variable {Addr Ufrag : Type} [DecidableEq Addr] [DecidableEq Ufrag]

def Server.init : Server Addr Ufrag := ⟨.empty, fun _ => none⟩

section

variable (srv : Server Addr Ufrag)

def Server.setConn (fd : ℕ) (c : Conn Ufrag) : Server Addr Ufrag :=
  { srv with conns := Function.update srv.conns fd (some c) }

def disconnectClient (fd : ℕ) (c : Conn Ufrag) : Server Addr Ufrag :=
  srv.setConn fd { c with disconnecting := true }

/-- `handle_join`. `token` holds the user and the room of a token that verifies. The user is
stored before the room is looked at. -/
def handleJoin (fd : ℕ) (c : Conn Ufrag) (token : Option (ℤ × ℕ))
    (roomCreated : Bool) : Server Addr Ufrag × Option Refusal :=
  match token with
  | none => (disconnectClient srv fd c, some .authFailed)
  | some (userId, roomId) =>
    let c := { c with userId := userId }
    if roomId = 0 then (srv.setConn fd c, some .invalidRoom)
    else if roomCreated = false then (srv.setConn fd c, some .roomCreationFailed)
    else (srv.setConn fd { c with joinedRoom := some roomId }, none)

end

/-! ### Answering -/

/-- An answer, with the checks that this state does not decide: `generationValid` is the test
against the outstanding offer, `initialGeneration` says that it names generation zero. -/
structure Answer (Ufrag : Type) where
  ufrag : Option Ufrag
  parses : Bool
  generationValid : Bool
  initialGeneration : Bool
  shapeValid : Bool
  tableFull : Bool
  manifestApplied : Bool
  runtimeReady : Bool
  admitted : Bool
  deriving DecidableEq, Repr

/-- The name the answer is for: the connection's own once it has one. -/
def lookupUfrag (client answer : Option Ufrag) : Option Ufrag :=
  match client, answer with
  | some u, some v => if u = v then some u else none
  | some u, none => some u
  | none, v => v

/-- The test of the offer generation, against the session if there is one. -/
def generationAccepted (c : Conn Ufrag) (session : Option (Session Addr)) (a : Answer Ufrag) :
    Bool :=
  match session with
  | some _ => a.generationValid
  | none => a.initialGeneration && !c.initialAnswerAccepted

/-- The end of `handle_answer` for a session: the answer is applied, and a session that is in no
room yet is admitted. -/
def answerSession (b : Bindings Addr Ufrag) (u : Ufrag) (s : Session Addr) (room fd : ℕ)
    (generation : ℕ) (a : Answer Ufrag) : Bindings Addr Ufrag :=
  match reconcileAnswer b u s room fd generation a.runtimeReady with
  | none => b
  | some (b, s) =>
    if s.room = none ∧ a.admitted then
      { b.setSession u { s with room := some room } with
        peerCount := Function.update b.peerCount room (b.peerCount room + 1) }
    else b

/-- `handle_answer` once the answer is registered. -/
def answerRegistered (srv : Server Addr Ufrag) (fd : ℕ) (c : Conn Ufrag) (room : ℕ) (u : Ufrag)
    (generation : ℕ) (a : Answer Ufrag) : Server Addr Ufrag × Option Refusal :=
  let c := { c with clientUfrag := some u }
  let b := registerAnswer srv.bindings u room fd ⟨c.userId, generation, true⟩
  match srv.bindings.sessions u with
  | none =>
    (⟨b, Function.update srv.conns fd (some { c with initialAnswerAccepted := true })⟩, none)
  | some s =>
    if a.manifestApplied then
      (⟨answerSession b u s room fd generation a, Function.update srv.conns fd (some c)⟩, none)
    else (⟨b, Function.update srv.conns fd (some c)⟩, some .staleOfferGeneration)

def handleAnswer (srv : Server Addr Ufrag) (fd : ℕ) (c : Conn Ufrag) (a : Answer Ufrag) :
    Server Addr Ufrag × Option Refusal :=
  match c.joinedRoom, lookupUfrag c.clientUfrag a.ufrag with
  | none, _ => (srv, some .mustJoinRoomFirst)
  | some _, none => (srv, some .invalidAnswerUfrag)
  | some room, some u =>
    if a.parses = false then (srv, some .invalidAnswerSdp)
    else if generationAccepted c (srv.bindings.sessions u) a = false then
      (srv, some .staleOfferGeneration)
    else if a.shapeValid = false then (srv, some .invalidAnswerSdp)
    else match prepareAnswer srv.bindings u room fd a.tableFull with
      | .error .ownershipConflict => (srv, some .duplicateIceUfrag)
      | .error .tableFull => (srv, some .routingTableFull)
      | .ok generation => answerRegistered srv fd c room u generation a

/-- `disconnect_room_user_connections`. -/
def disconnectRoomUser (srv : Server Addr Ufrag) (room : ℕ) (userId : ℤ) : Server Addr Ufrag :=
  { srv with conns := fun fd => (srv.conns fd).map fun c =>
      if c.disconnecting = false ∧ c.joinedRoom = some room ∧ c.userId = userId then
        { c with disconnecting := true }
      else c }

def unregisterFd (b : Bindings Addr Ufrag) (fd : ℕ) : Bindings Addr Ufrag :=
  { b with routes := fun u => (b.routes u).filter fun e => e.fd ≠ fd }

def ownSession (b : Bindings Addr Ufrag) (fd : ℕ) (c : Conn Ufrag) : Option Ufrag :=
  c.clientUfrag.filter fun u => (b.sessions u).any fun s => s.fd = some fd

variable (srv : Server Addr Ufrag)

def finishClientClose (fd : ℕ) (c : Conn Ufrag) : Server Addr Ufrag :=
  let b := unregisterFd srv.bindings fd
  ⟨match ownSession b fd c with
    | some u => closeSession b u
    | none => b, Function.update srv.conns fd none⟩

inductive Op (Addr Ufrag : Type)
  | connect (fd : ℕ)
  | join (fd : ℕ) (token : Option (ℤ × ℕ)) (roomCreated : Bool)
  | answer (fd : ℕ) (a : Answer Ufrag)
  /-- any other message; it may end the connection -/
  | other (fd : ℕ) (ends : Bool)
  /-- a moderator's token for its own room -/
  | kick (fd : ℕ) (userId : ℤ)
  | aloneTimeout (room : ℕ) (userId : ℤ)
  | closed (fd : ℕ)
  | stun (worker : ℕ) (addr : Addr) (check : Stun Ufrag)
  | setEstablished (u : Ufrag) (established : Bool)

def onMessage (fd : ℕ) (f : Conn Ufrag → Server Addr Ufrag) : Server Addr Ufrag :=
  match srv.conns fd with
  | none => srv
  | some c => if c.disconnecting then srv else f c

def step : Op Addr Ufrag → Server Addr Ufrag
  | .connect fd => match srv.conns fd with
    | none => srv.setConn fd .new
    | some _ => srv
  | .join fd token roomCreated =>
    onMessage srv fd fun c => (handleJoin srv fd c token roomCreated).1
  | .answer fd a => onMessage srv fd fun c => (handleAnswer srv fd c a).1
  | .other fd ends => onMessage srv fd fun c => if ends then disconnectClient srv fd c else srv
  | .kick fd userId => onMessage srv fd fun c => match c.joinedRoom with
    | none => srv
    | some room => disconnectRoomUser srv room userId
  | .aloneTimeout room userId => disconnectRoomUser srv room userId
  | .closed fd => match srv.conns fd with
    | none => srv
    | some c => finishClientClose srv fd c
  | .stun worker addr check => { srv with bindings := handleStun srv.bindings worker addr check }
  | .setEstablished u established => match srv.bindings.sessions u with
    | none => srv
    | some s =>
      { srv with bindings := srv.bindings.setSession u { s with established := established } }

def run (ops : List (Op Addr Ufrag)) : Server Addr Ufrag := Runs.run step Server.init ops

end MezonSfu.Connections
