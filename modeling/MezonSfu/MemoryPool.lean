import Mathlib.Tactic
import MezonSfu.LinkedCells
import MezonSfu.Runs

/-!
The lock-free pool of slots: the free slots are linked through an array, and the head of their
list is one word that holds a tag and an index and is exchanged atomically.

Each step is one atomic access of a thread that is inside `sfu_pool_alloc` or `sfu_pool_free`; the
steps of all threads interleave in any order. History: who holds the slots, how often the head was
exchanged, and for each call the number of exchanges at its start and at its last load, and
whether the free list was empty since its start.
-/

namespace MezonSfu.MemoryPool

open LinkedCells Function

def emptyIndex : ℕ := 2 ^ 32 - 1

/-- The head, unpacked: the tag is a counter of 32 bits. -/
structure Head where
  tag : ℕ
  index : ℕ
deriving DecidableEq

def Head.advance (h : Head) (index : ℕ) : Head := ⟨(h.tag + 1) % 2 ^ 32, index⟩

/-- Where a thread is inside a call, with its local variables. -/
inductive Pc
  | idle
  | allocLoaded (old : Head)
  | allocNext (old : Head) (next : ℕ)
  | allocTaken (index : ℕ)
  | allocCounted (index : ℕ) (inUse : UInt32)
  | allocHigh (index : ℕ) (inUse high : UInt32)
  | freeLoaded (index : ℕ) (old : Head)
  | freeStored (index : ℕ) (old : Head)
  | freePushed (index : ℕ)
deriving DecidableEq

/-- The slot that is on its way in a call: taken off the free list and not returned yet, or given
up by its holder and not back on the list. -/
def Pc.transit : Pc → Option ℕ
  | .allocTaken index => some index
  | .allocCounted index _ => some index
  | .allocHigh index _ _ => some index
  | .freeLoaded index _ => some index
  | .freeStored index _ => some index
  | _ => none

structure Pool (Thread : Type*) where
  capacity : ℕ
  next : ℕ → ℕ
  head : Head
  inUse : UInt32
  highWater : UInt32
  allocFailures : UInt64
  pc : Thread → Pc
  hands : Thread → Finset ℕ
  updates : ℕ
  startedAt : Thread → ℕ
  readAt : Thread → ℕ
  sawEmpty : Thread → Bool

variable {Thread : Type*} [DecidableEq Thread]

namespace Pool

/-- `sfu_pool_init`, with the memory allocated. -/
def init (Thread : Type*) (capacity : ℕ) : Pool Thread :=
  { capacity := capacity
    next := fun i => if i + 1 < capacity then i + 1 else emptyIndex
    head := ⟨0, 0⟩
    inUse := 0
    highWater := 0
    allocFailures := 0
    pc := fun _ => .idle
    hands := fun _ => ∅
    updates := 0
    startedAt := fun _ => 0
    readAt := fun _ => 0
    sawEmpty := fun _ => false }

variable (s : Pool Thread)

def freeList : List ℕ := walk s.next emptyIndex s.capacity s.head.index

section

variable (t : Thread)

def setPc (pc : Pc) : Pool Thread := { s with pc := update s.pc t pc }

def load (pc : Head → Pc) : Pool Thread :=
  { s with
    pc := update s.pc t (pc s.head)
    readAt := update s.readAt t s.updates }

def enter : Pool Thread :=
  { s with
    startedAt := update s.startedAt t s.updates
    sawEmpty := update s.sawEmpty t false }

/-- The weak exchange of the head: it fails if the head is not the expected one, or by itself. -/
def exchange (weak : Bool) (old : Head) (index : ℕ) (won : Pc) (lost : Head → Pc) : Pool Thread :=
  if weak = false ∧ s.head = old then
    { s with
      head := old.advance index
      updates := s.updates + 1
      pc := update s.pc t won }
  else s.load t lost

/-- `sfu_pool_alloc` returns a slot. -/
def returnSlot (index : ℕ) : Pool Thread :=
  { s with
    pc := update s.pc t .idle
    hands := update s.hands t (insert index (s.hands t)) }

/-- The call of `sfu_pool_alloc` goes up to its load of the head. -/
def alloc : Pool Thread := if s.pc t = .idle then (s.enter t).load t .allocLoaded else s

/-- The call of `sfu_pool_free` by the holder, up to its load of the head. -/
def free (index : ℕ) : Pool Thread :=
  if s.pc t = .idle ∧ index ∈ s.hands t then
    ({ s with hands := update s.hands t ((s.hands t).erase index) }.enter t).load t
      (.freeLoaded index)
  else s

end

def pass (t t' : Thread) (index : ℕ) : Pool Thread :=
  if index ∈ s.hands t then
    let hands := update s.hands t ((s.hands t).erase index)
    { s with hands := update hands t' (insert index (hands t')) }
  else s

/-- The next atomic access of a thread; `weak` is whether an exchange fails by itself. -/
def resume (t : Thread) (weak : Bool) : Pool Thread :=
  match s.pc t with
  | .idle => s
  | .allocLoaded old =>
    if old.index = emptyIndex then
      { s.setPc t .idle with allocFailures := s.allocFailures + 1 }
    else s.setPc t (.allocNext old (s.next old.index))
  | .allocNext old next => s.exchange t weak old next (.allocTaken old.index) .allocLoaded
  | .allocTaken index =>
    { s.setPc t (.allocCounted index (s.inUse + 1)) with inUse := s.inUse + 1 }
  | .allocCounted index inUse => s.setPc t (.allocHigh index inUse s.highWater)
  | .allocHigh index inUse high =>
    if inUse ≤ high then s.returnSlot t index
    else if weak = false ∧ s.highWater = high then
      { s.returnSlot t index with highWater := inUse }
    else s.setPc t (.allocHigh index inUse s.highWater)
  | .freeLoaded index old =>
    { s.setPc t (.freeStored index old) with next := update s.next index old.index }
  | .freeStored index old => s.exchange t weak old index (.freePushed index) (.freeLoaded index)
  | .freePushed _ => { s.setPc t .idle with inUse := s.inUse - 1 }

/-- The state as it is now is part of every call that is under way. -/
def observe : Pool Thread :=
  { s with sawEmpty := fun t => s.sawEmpty t || decide (s.freeList = []) }

end Pool

inductive Op (Thread : Type*)
  | alloc (t : Thread)
  | free (t : Thread) (index : ℕ)
  | resume (t : Thread) (weak : Bool)
  | pass (t t' : Thread) (index : ℕ)

variable (s : Pool Thread)

def step : Op Thread → Pool Thread
  | .alloc t => (s.alloc t).observe
  | .free t index => (s.free t index).observe
  | .resume t weak => (s.resume t weak).observe
  | .pass t t' index => (s.pass t t' index).observe

/-- What `sfu_pool_alloc` returns with this step, if it returns: a slot, or none. -/
def returned : Op Thread → Option (Option ℕ)
  | .resume t weak =>
    match s.pc t with
    | .allocLoaded old => if old.index = emptyIndex then some none else none
    | .allocHigh index inUse high =>
      if inUse ≤ high ∨ (weak = false ∧ s.highWater = high) then some (some index) else none
    | _ => none
  | _ => none

/-- Fewer than 2^32 exchanges of the head fall into each call that is under way. -/
def Brief : Prop := ∀ t, s.pc t ≠ .idle → s.updates < s.startedAt t + 2 ^ 32

inductive Place (Thread : Type*)
  | free
  | hand (t : Thread)
  | transit (t : Thread)

def At (index : ℕ) : Place Thread → Prop
  | .free => index ∈ s.freeList
  | .hand t => index ∈ s.hands t
  | .transit t => (s.pc t).transit = some index

end MezonSfu.MemoryPool
