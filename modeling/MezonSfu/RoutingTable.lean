import MezonSfu.HashIndex
import MezonSfu.Runs

/-!
The routing table: which room and which connection a client's ufrag belongs to.

Entries are in an array without gaps; removing one moves the last entry into its place. A hash
index with tombstones points at them and is rebuilt when it has more tombstones than entries. An
answer first reserves its entry and is then committed or cancelled.

Ufrags, hash function and sizes are parameters. `aborted` and `rebuildFailed` record that the code
would have aborted, or a rebuild has failed.
-/

namespace MezonSfu.Routing

open Function

/-- `sfu_pending_answer_t`; the negotiated media are in `media`, `none` if they are zeroed. -/
structure PendingAnswer (A : Type*) where
  media : Option A
  peerId : ℕ
  generation : ℕ
  valid : Bool
deriving DecidableEq

structure Entry (U A : Type*) where
  ufrag : U
  room : ℕ
  workerIndex : ℕ
  fd : ℕ
  hasOwner : Bool
  pendingAnswer : PendingAnswer A
deriving DecidableEq

def Entry.new {U A : Type*} (ufrag : U) (room fd : ℕ) : Entry U A :=
  ⟨ufrag, room, 0, fd, false, ⟨none, 0, 0, false⟩⟩

/-- `sfu_routing_table_t`; zeroed entries are `none`. -/
structure Table (U A : Type*) where
  entries : ℕ → Option (Entry U A)
  index : HashIndex HashSlot
  count : ℕ
  deletedSlots : ℕ
  aborted : Bool
  rebuildFailed : Bool

def Table.init {U A : Type*} : Table U A := ⟨fun _ => none, .clear, 0, 0, false, false⟩

inductive RegisterResult where
  | ok | invalidArgument | ownershipConflict | tableFull
deriving DecidableEq, Repr

structure Reservation (U A : Type*) where
  answer : PendingAnswer A
  generation : ℕ
  entryIndex : ℕ
  ufrag : U
  room : ℕ
  fd : ℕ
  newEntry : Bool
  active : Bool

structure Snapshot where
  room : ℕ
  workerIndex : ℕ
  fd : ℕ
  hasOwner : Bool
  pendingGeneration : ℕ
deriving DecidableEq, Repr

/-- The generation after `g`; zero is left out. -/
def nextGeneration (g : ℕ) : ℕ := if (g + 1) % 2 ^ 32 = 0 then 1 else (g + 1) % 2 ^ 32

namespace Table

variable {U A : Type*} [DecidableEq U] (hash : U → ℕ) (slots maxMappings : ℕ)

section

variable (t : Table U A)

/-- The test of `routing_probe`. -/
def hits (u : U) (s : HashSlot) : Bool :=
  s.hash = hash u ∧ s.index < t.count ∧ (t.entries s.index).any fun e => e.ufrag = u

def routingProbe (u : U) (forInsert : Bool) : Option ℕ :=
  match t.index.probe slots (t.hits hash u) slots (hash u % slots) none with
  | (_, .hit i) => some i
  | (free, .gap i) => some (if forInsert then free.getD i else i)
  | (free, .all) => if forInsert then free else none

/-- `index_entry_locked`. -/
def indexEntry (entryIndex : ℕ) : Option (Table U A) :=
  (t.entries entryIndex).bind fun e =>
    (t.routingProbe hash slots e.ufrag true).map fun slot =>
      { t with
        deletedSlots :=
          if (t.index.cells slot).isDeleted && 0 < t.deletedSlots then t.deletedSlots - 1
          else t.deletedSlots
        index := t.index.set slot (.full ⟨hash e.ufrag, entryIndex⟩) }

/-- The entries from `i` on are indexed, `n` of them. -/
def indexFrom (t : Table U A) : ℕ → ℕ → Option (Table U A)
  | 0, _ => some t
  | n + 1, i => (t.indexEntry hash slots i).bind fun t => indexFrom t n (i + 1)

/-- `rebuild_index_locked`. What a failed rebuild leaves is not looked at. -/
def rebuildIndex : Table U A × Bool :=
  match indexFrom hash slots { t with index := .clear, deletedSlots := 0 } t.count 0 with
  | some t => (t, true)
  | none => ({ t with rebuildFailed := true }, false)

/-- `find_entry_locked`: the index of the entry. -/
def findEntry (u : U) : Option ℕ :=
  (t.routingProbe hash slots u false).bind fun slot =>
    match t.index.cells slot with
    | .full s => if s.index < t.count then some s.index else none
    | _ => none

/-- `remove_index_locked`. -/
def removeIndex (u : U) (expectedIndex : ℕ) : Table U A :=
  match t.routingProbe hash slots u false with
  | some slot =>
    match t.index.cells slot with
    | .full s =>
      if s.index = expectedIndex then
        { t with index := t.index.set slot .deleted, deletedSlots := t.deletedSlots + 1 }
      else t
    | _ => t
  | none => t

/-- `update_index_locked`. -/
def updateIndex (u : U) (oldIndex newIndex : ℕ) : Option (Table U A) :=
  (t.routingProbe hash slots u false).bind fun slot =>
    match t.index.cells slot with
    | .full s =>
      if s.index = oldIndex then
        some { t with index := t.index.set slot (.full { s with index := newIndex }) }
      else none
    | _ => none

def moveLast (removedIndex lastIndex : ℕ) : Table U A :=
  let t := { t with entries := update t.entries removedIndex (t.entries lastIndex) }
  match (t.entries removedIndex).bind fun e => t.updateIndex hash slots e.ufrag lastIndex
    removedIndex with
  | some t => t
  | none => { t with aborted := true }

/-- `remove_entry_at_locked`. -/
def removeEntryAt (removedIndex : ℕ) : Table U A :=
  let lastIndex := t.count - 1
  let t := match t.entries removedIndex with
    | some e => t.removeIndex hash slots e.ufrag removedIndex
    | none => t
  let t := if removedIndex ≠ lastIndex then t.moveLast hash slots removedIndex lastIndex else t
  { t with count := t.count - 1, entries := update t.entries (t.count - 1) none }

/-- Rebuild an index with more tombstones than entries. -/
def tidy : Table U A × Bool :=
  if t.count < t.deletedSlots then t.rebuildIndex hash slots else (t, true)

/-- A new entry is put behind the others and indexed, after a rebuild if need be. -/
def appendEntry (u : U) (room fd : ℕ) : Table U A × RegisterResult :=
  if maxMappings ≤ t.count then (t, .tableFull)
  else
    let (t, ok) := t.tidy hash slots
    if !ok then (t, .tableFull)
    else
      let entryIndex := t.count
      let t := { t with entries := update t.entries entryIndex (some (.new u room fd)) }
      match t.indexEntry hash slots entryIndex with
      | some t => ({ t with count := t.count + 1 }, .ok)
      | none =>
        let (t, ok) := t.rebuildIndex hash slots
        match if ok then t.indexEntry hash slots entryIndex else none with
        | some t => ({ t with count := t.count + 1 }, .ok)
        | none => ({ t with entries := update t.entries entryIndex none }, .tableFull)

/-- The reservation of an answer for the entry `i`. -/
def reserve (i : ℕ) (u : U) (room fd : ℕ) (answer : PendingAnswer A)
    (newEntry : Bool) : Reservation U A :=
  { answer
    generation := nextGeneration
      (((t.entries i).map fun e => e.pendingAnswer.generation).getD 0)
    entryIndex := i, ufrag := u, room, fd, newEntry, active := true }

/-- `sfu_routing_table_prepare_answer`. A ufrag that is empty or too long is `none`. -/
def prepareAnswer (client : Option U) (room fd : ℕ) (answer : PendingAnswer A) :
    Table U A × RegisterResult × Option (Reservation U A) :=
  match client with
  | none => (t, .invalidArgument, none)
  | some u =>
    match t.findEntry hash slots u with
    | some i =>
      if (t.entries i).any fun e => e.room = room ∧ e.fd = fd then
        (t, .ok, some (t.reserve i u room fd answer false))
      else (t, .ownershipConflict, none)
    | none =>
      match t.appendEntry hash slots maxMappings u room fd with
      | (t, .ok) => (t, .ok, some (t.reserve (t.count - 1) u room fd answer true))
      | (t, result) => (t, result, none)

/-- The entry of a reservation, if it is where it was and belongs to the same connection. -/
def reserved (r : Reservation U A) : Option (Entry U A) :=
  (t.findEntry hash slots r.ufrag).bind fun i =>
    (t.entries i).bind fun e =>
      if e.room = r.room ∧ e.fd = r.fd ∧ i = r.entryIndex then some e else none

/-- The answer a commit publishes; a peer id that is known stays. -/
def published (e : Entry U A) (r : Reservation U A) : PendingAnswer A :=
  { r.answer with
    peerId := if e.pendingAnswer.peerId ≠ 0 then e.pendingAnswer.peerId else r.answer.peerId
    generation := r.generation, valid := true }

/-- `sfu_routing_table_commit_answer`, of an active reservation. -/
def commitAnswer (r : Reservation U A) : Table U A × Bool :=
  match t.reserved hash slots r with
  | none => (t, false)
  | some e =>
    let e := { e with room := r.room, fd := r.fd, pendingAnswer := published e r }
    ({ t with entries := update t.entries r.entryIndex (some e) }, true)

/-- `sfu_routing_table_cancel_answer`, of an active reservation; whether the entry was removed. -/
def cancelAnswer (r : Reservation U A) : Table U A × Bool :=
  if r.newEntry ∧ (t.reserved hash slots r).any (fun e => !e.pendingAnswer.valid) then
    (((t.removeEntryAt hash slots r.entryIndex).tidy hash slots).1, true)
  else (t, false)

def modifyEntry (i : ℕ) (f : Entry U A → Entry U A) : Table U A :=
  { t with entries := update t.entries i ((t.entries i).map f) }

def snapshot (e : Entry U A) : Snapshot :=
  ⟨e.room, e.workerIndex, e.fd, e.hasOwner,
    if e.pendingAnswer.valid then e.pendingAnswer.generation else 0⟩

def lookupRoute (u : U) (workerIndex : ℕ) : Table U A × Option Snapshot :=
  match t.findEntry hash slots u with
  | none => (t, none)
  | some i =>
    let t := t.modifyEntry i fun e => { e with workerIndex, hasOwner := true }
    (t, (t.entries i).map snapshot)

def peekRoute (u : U) : Option Snapshot :=
  (t.findEntry hash slots u).bind fun i => (t.entries i).map snapshot

def invalidated (e : Entry U A) : Entry U A :=
  { e with pendingAnswer := { e.pendingAnswer with
      generation := nextGeneration e.pendingAnswer.generation, valid := false } }

def invalidatePending (u : U) (room fd : ℕ) : Table U A × Bool :=
  match t.findEntry hash slots u with
  | none => (t, false)
  | some i =>
    if (t.entries i).any fun e => e.room = room ∧ e.fd = fd then
      (t.modifyEntry i invalidated, true)
    else (t, false)

end

/-- The loop of `sfu_routing_table_unregister_fd`; every round moves on or removes an entry. -/
def unregisterFrom (t : Table U A) (fd : ℕ) : ℕ → ℕ → Table U A
  | 0, _ => t
  | n + 1, i =>
    if t.count ≤ i then t
    else if (t.entries i).any fun e => e.fd = fd then
      unregisterFrom (t.removeEntryAt hash slots i) fd n i
    else unregisterFrom t fd n (i + 1)

def unregisterFd (t : Table U A) (fd : ℕ) : Table U A :=
  let (t, ok) := (t.unregisterFrom hash slots fd t.count 0).tidy hash slots
  if ok then t else { t with aborted := true }

end Table

end MezonSfu.Routing
