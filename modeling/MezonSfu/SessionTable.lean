import MezonSfu.HashIndex

/-!
The session table (`peer/session.c`).

Sessions are held in an array whose free indices are recycled, and found through two indexes of
open addressing: by address, and by ufrag once they are indexed. Tombstones are used again by
insertions and never cleaned up. Sessions are numbers in a heap, so that a caller may keep one
that was closed; `indexedAs` is a history of their ufrags. Allocation is an outcome.
-/

namespace MezonSfu.SessionTable

open HashIndex Function

inductive Lifecycle where
  | opened
  | closing
  deriving DecidableEq

/-- `sfu_peer_session_t`, with a `table_index` of `UINT32_MAX` as `none` and an empty ufrag as
`none`. -/
structure Session (A U : Type*) where
  addr : A
  ufrag : Option U
  tableIndex : Option ℕ
  lifecycle : Lifecycle
  acceptsWork : Bool
  addressGeneration : UInt32
  deriving DecidableEq

/-- A session that was allocated for an address and put into the table. -/
def Session.new {A U : Type*} (addr : A) (index : ℕ) : Session A U :=
  ⟨addr, none, some index, .opened, true, 0⟩

/-- The hash of an address and of a ufrag, and the sizes of the two indexes. -/
structure Hashes (A U : Type*) where
  addr : A → ℕ
  ufrag : U → ℕ
  addrSlots : ℕ
  ufragSlots : ℕ

/-- `sfu_session_table_t`, and the sessions. The free indices are a stack. -/
structure Table (A U : Type*) where
  capacity : ℕ
  sessions : ℕ → Option ℕ
  count : ℕ
  activeCount : ℕ
  freeIndices : List ℕ
  addrIndex : HashIndex HashSlot
  ufragIndex : HashIndex HashSlot
  heap : ℕ → Option (Session A U)
  next : ℕ
  indexedAs : ℕ → Option U

def Table.init {A U : Type*} (capacity : ℕ) : Table A U where
  capacity := capacity
  sessions _ := none
  count := 0
  activeCount := 0
  freeIndices := []
  addrIndex := .clear
  ufragIndex := .clear
  heap _ := none
  next := 0
  indexedAs _ := none

/-- The entry has the hash, and the object the key. -/
def hits (hash : ℕ) (isMatch : ℕ → Bool) (e : HashSlot) : Bool := e.hash == hash && isMatch e.index

section

variable (index : HashIndex HashSlot)

def addrProbe (cap hash : ℕ) (isMatch : ℕ → Bool) (forInsert : Bool) : Option ℕ :=
  match index.probe cap (hits hash isMatch) cap (hash % cap) none with
  | (_, .hit slot) => some slot
  | (firstDeleted, .gap slot) => if forInsert then some (firstDeleted.getD slot) else none
  | (firstDeleted, .all) => if forInsert then firstDeleted else none

/-- What `table_remove_addr_hash` and `table_remove_ufrag_hash` do to their index. -/
def removeHash (cap hash : ℕ) (isMatch : ℕ → Bool) (idx : ℕ) : HashIndex HashSlot :=
  match addrProbe index cap hash isMatch false with
  | none => index
  | some slot =>
    match index.cells slot with
    | .full e => if e.index = idx then index.set slot .deleted else index
    | _ => index

def occupiedByOther (cap hash : ℕ) (isMatch : ℕ → Bool) (idx : ℕ) : Bool :=
  match addrProbe index cap hash isMatch false with
  | none => false
  | some slot =>
    match index.cells slot with
    | .full e => e.index ≠ idx
    | _ => true

end

namespace Table

variable {A U : Type*}

/-! ### Sessions -/

section

variable (t : Table A U)

def addrOf (s : ℕ) : Option A := (t.heap s).map Session.addr

def ufragOf (s : ℕ) : Option U := (t.heap s).bind Session.ufrag

def modifySession (s : ℕ) (f : Session A U → Session A U) : Table A U :=
  { t with heap := update t.heap s ((t.heap s).map f) }

def memberIndex (s : ℕ) : Option ℕ :=
  ((t.heap s).bind Session.tableIndex).filter fun index =>
    index < t.count ∧ t.sessions index = some s

def accepts (s : ℕ) : Bool :=
  (t.heap s).any fun x => decide (x.lifecycle = .opened) && x.acceptsWork

def at? (idx : ℕ) : Option ℕ := if idx < t.count then t.sessions idx else none

end

section Lookup

variable [DecidableEq A] [DecidableEq U]

/-- `addr_matches_direct`. -/
def addrMatches (t : Table A U) (addr : A) (idx : ℕ) : Bool :=
  (t.at? idx).any fun s => t.addrOf s = some addr

/-- `ufrag_matches_direct`. -/
def ufragMatches (t : Table A U) (ufrag : U) (idx : ℕ) : Bool :=
  (t.at? idx).any fun s => t.ufragOf s = some ufrag

def sessionIn (t : Table A U) (index : HashIndex HashSlot) (slot : ℕ) : Option ℕ :=
  match index.cells slot with
  | .full e => t.at? e.index
  | _ => none

variable (p : Hashes A U)

variable (t : Table A U)

def find (addr : A) : Option ℕ :=
  (addrProbe t.addrIndex p.addrSlots (p.addr addr) (t.addrMatches addr) false).bind
    (t.sessionIn t.addrIndex)

def findByUfrag (ufrag : U) : Option ℕ :=
  (addrProbe t.ufragIndex p.ufragSlots (p.ufrag ufrag) (t.ufragMatches ufrag) false).bind
    (t.sessionIn t.ufragIndex)

/-- An index for a new session, and whether it was used before. -/
def reserveIndex : Option (Table A U × ℕ × Bool) :=
  match t.freeIndices with
  | index :: rest => some ({ t with freeIndices := rest }, index, true)
  | [] =>
    if t.capacity ≤ t.count then none
    else some ({ t with count := t.count + 1 }, t.count, false)

def rollbackReservedSlot (index : ℕ) (reused : Bool) : Table A U :=
  if reused then { t with freeIndices := index :: t.freeIndices }
  else { t with count := t.count - 1 }

/-- `table_index_addr_locked`. -/
def indexAddr (addr : A) (idx : ℕ) : Option (Table A U) :=
  (addrProbe t.addrIndex p.addrSlots (p.addr addr) (t.addrMatches addr) true).map fun slot =>
    { t with addrIndex := t.addrIndex.set slot (.full ⟨p.addr addr, idx⟩) }

def publish (addr : A) (index : ℕ) : Table A U :=
  { t with
    heap := update t.heap t.next (some (.new addr index))
    next := t.next + 1
    sessions := update t.sessions index (some t.next) }

def getOrCreate (addr : A) (allocates : Bool) : Table A U × Option ℕ :=
  match t.find p addr with
  | some session => (t, some session)
  | none =>
    match t.reserveIndex with
    | none => (t, none)
    | some (t, index, reused) =>
      if !allocates then (t.rollbackReservedSlot index reused, none)
      else
        let s := t.next
        let t := t.publish addr index
        match t.indexAddr p addr index with
        | none =>
          let t := { t with
            sessions := update t.sessions index none
            heap := update t.heap s none }
          (t.rollbackReservedSlot index reused, none)
        | some t => ({ t with activeCount := t.activeCount + 1 }, some s)

def removeAddrHash (s idx : ℕ) : Table A U :=
  match t.addrOf s with
  | none => t
  | some addr =>
    { t with addrIndex :=
        removeHash t.addrIndex p.addrSlots (p.addr addr) (t.addrMatches addr) idx }

def removeUfragHash (s idx : ℕ) : Table A U :=
  match t.ufragOf s with
  | none => t
  | some ufrag =>
    { t with ufragIndex :=
        removeHash t.ufragIndex p.ufragSlots (p.ufrag ufrag) (t.ufragMatches ufrag) idx }

/-- `sfu_session_table_rebind_addr`. The place of the new address is chosen before the old one
is removed. -/
def rebindAddr (s : ℕ) (addr : A) : Table A U × Bool :=
  match t.memberIndex s with
  | none => (t, false)
  | some idx =>
    if !t.accepts s then (t, false)
    else if occupiedByOther t.addrIndex p.addrSlots (p.addr addr) (t.addrMatches addr) idx then
      (t, false)
    else
      match addrProbe t.addrIndex p.addrSlots (p.addr addr) (t.addrMatches addr) true with
      | none => (t, false)
      | some insertSlot =>
        let t := t.removeAddrHash p s idx
        let t := t.modifySession s fun x =>
          { x with addr := addr, addressGeneration := x.addressGeneration + 1 }
        ({ t with addrIndex := t.addrIndex.set insertSlot (.full ⟨p.addr addr, idx⟩) }, true)

def indexUfrag (session : ℕ) : Table A U × Bool :=
  match t.ufragOf session, t.memberIndex session with
  | some ufrag, some idx =>
    if !t.accepts session then (t, false)
    else if occupiedByOther t.ufragIndex p.ufragSlots (p.ufrag ufrag) (t.ufragMatches ufrag)
        idx then
      (t, false)
    else
      match addrProbe t.ufragIndex p.ufragSlots (p.ufrag ufrag) (t.ufragMatches ufrag) true with
      | none => (t, false)
      | some slot =>
        ({ t with
          ufragIndex := t.ufragIndex.set slot (.full ⟨p.ufrag ufrag, idx⟩)
          indexedAs := update t.indexedAs session (some ufrag) }, true)
  | _, _ => (t, false)

end Lookup

inductive RebindResult where
  | unchanged
  | applied
  | rejected
  deriving DecidableEq

section Ops

variable [DecidableEq A] [DecidableEq U] (p : Hashes A U)

/-- The last part of `sfu_session_table_get_or_create_by_ufrag`: a session that cannot be indexed
yields to the one that is. -/
def indexOrYield (t : Table A U) (session : ℕ) (ufrag : U) : Table A U × Option ℕ :=
  let r := t.indexUfrag p session
  (r.1, if r.2 then some session else r.1.findByUfrag p ufrag)

def getOrCreateByUfrag (t : Table A U) (addr : A) (ufrag : U) (allowRebind allocates : Bool) :
    Table A U × Option ℕ × RebindResult :=
  match t.findByUfrag p ufrag with
  | some session =>
    if t.addrOf session ≠ some addr ∧ allowRebind then
      let r := t.rebindAddr p session addr
      if r.2 then (r.1, some session, .applied) else (r.1, none, .rejected)
    else (t, some session, .unchanged)
  | none =>
    match t.getOrCreate p addr allocates with
    | (t, none) => (t, none, .unchanged)
    | (t, some session) =>
      match t.ufragOf session with
      | some other =>
        if other ≠ ufrag then (t, none, .unchanged)
        else
          let r := t.indexOrYield p session ufrag
          (r.1, r.2, .unchanged)
      | none =>
        let t := t.modifySession session fun x => { x with ufrag := some ufrag }
        let r := t.indexOrYield p session ufrag
        (r.1, r.2, .unchanged)

def beginClose (t : Table A U) (s : ℕ) : Table A U × Bool :=
  if (t.heap s).all fun x => x.lifecycle ≠ .opened then (t, false)
  else
    let t := t.modifySession s fun x => { x with lifecycle := .closing, acceptsWork := false }
    match t.memberIndex s with
    | none => (t, true)
    | some idx =>
      let t := t.removeAddrHash p s idx
      let t := t.removeUfragHash p s idx
      let t := t.modifySession s fun x => { x with tableIndex := none }
      ({ t with
        sessions := update t.sessions idx none
        freeIndices := idx :: t.freeIndices
        activeCount := t.activeCount - 1 }, true)

end Ops

end Table

end MezonSfu.SessionTable
