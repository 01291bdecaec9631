import Mathlib.Logic.Function.Basic
import Mathlib.Tactic
import MezonSfu.Runs

/-!
The remote-slot table of a session: which publisher occupies which group of transceivers,
what the last offer said about it, and what the last answer applied.

A slot is reserved for a publisher under a fresh assignment generation. An offer captures the
generations of the active slots in a manifest, an answer refers to the one installed, and copies
its generations to the applied ones. A slot that is retired while an offer or an answer still
mentions it is kept until an answer lets it go.

Arrays are functions on the indices. A manifest carries its address, since an answer is matched
with the installed one by its pointer.
-/

namespace MezonSfu.RemoteSlots

open Function

def maxRemoteSlots : ℕ := 299

inductive SlotState where
  | free
  | active
  | retiring
  | retiringOffered
  deriving DecidableEq, Repr

structure RemoteSlot where
  state : SlotState
  publisherUserId : ℤ
  publisherPeerId : ℕ
  assignmentGeneration : ℕ
  deriving DecidableEq, Repr

/-- A slot after `memset(remote, 0, sizeof(*remote))`. -/
def RemoteSlot.zero : RemoteSlot := ⟨.free, 0, 0, 0⟩

structure OfferManifest where
  addr : ℕ
  offerGeneration : ℕ
  highWaterSlots : ℕ
  assignmentGenerations : ℕ → ℕ

structure SlotTable where
  slots : ℕ → RemoteSlot
  applied : ℕ → ℕ
  offeredManifest : Option OfferManifest
  nextAssignmentGeneration : ℕ
  nextOfferGeneration : ℕ
  highWaterSlots : ℕ
  offeredSlotFloor : ℕ

def SlotTable.init : SlotTable := ⟨fun _ => .zero, fun _ => 0, none, 0, 0, 0, 0⟩

/-- The value of a 64-bit counter after `remote_slot_next_nonzero`, which is also what the call
returns. -/
def remoteSlotNextNonzero (counter : ℕ) : ℕ :=
  if (counter + 1) % 2 ^ 64 = 0 then 1 else (counter + 1) % 2 ^ 64

/-! ### Reserving and retiring a slot -/

def RemoteSlot.carries (r : RemoteSlot) (userId : ℤ) (peerId : ℕ) : Bool :=
  r.state = .active && r.publisherPeerId = peerId && r.publisherUserId = userId

section

variable (t : SlotTable)

def SlotTable.existingSlot (userId : ℤ) (peerId : ℕ) : Option ℕ :=
  (List.range maxRemoteSlots).find? fun i => (t.slots i).carries userId peerId

def SlotTable.freeSlot : Option ℕ :=
  (List.range maxRemoteSlots).find? fun i => (t.slots i).state = .free

/-- The table after a fresh reservation of the free slot `i`. -/
def SlotTable.assign (i : ℕ) (userId : ℤ) (peerId : ℕ) : SlotTable :=
  let generation := remoteSlotNextNonzero t.nextAssignmentGeneration
  { t with
    slots := update t.slots i ⟨.active, userId, peerId, generation⟩
    nextAssignmentGeneration := generation
    highWaterSlots := if t.highWaterSlots ≤ i then i + 1 else t.highWaterSlots }

/-- `sfu_session_remote_slot_reserve`: the slot and the generation on success. -/
def remoteSlotReserve (userId : ℤ) (peerId : ℕ) : SlotTable × Option (ℕ × ℕ) :=
  if peerId = 0 then (t, none)
  else match t.existingSlot userId peerId with
    | some i => (t, some (i, (t.slots i).assignmentGeneration))
    | none => match t.freeSlot with
      | none => (t, none)
      | some i => (t.assign i userId peerId,
          some (i, remoteSlotNextNonzero t.nextAssignmentGeneration))

end

/-- A high-water mark lowered while the slot under it is not one to stop at. -/
def shrinkHighWater (stop : ℕ → Bool) : ℕ → ℕ
  | 0 => 0
  | last + 1 => if stop last then last + 1 else shrinkHighWater stop last

section

variable (t : SlotTable)

/-- Where the loop of `sfu_session_remote_slot_retire` stops. -/
def SlotTable.retireStop (last : ℕ) : Bool :=
  (t.slots last).state ≠ .free || t.applied last ≠ 0 ||
    (match t.offeredManifest with
      | some m => decide (last < m.highWaterSlots) && m.assignmentGenerations last ≠ 0
      | none => false) ||
    decide (last < t.offeredSlotFloor)

/-- The installed manifest offers the slot under this generation. -/
def SlotTable.offers (slot generation : ℕ) : Bool :=
  match t.offeredManifest with
  | some m => m.assignmentGenerations slot = generation
  | none => false

def SlotTable.setState (slot : ℕ) (s : SlotState) : SlotTable :=
  { t with slots := update t.slots slot { t.slots slot with state := s } }

/-- The table after slot `slot` was freed and the high-water mark lowered. -/
def SlotTable.freeRetired (slot : ℕ) : SlotTable :=
  let cleared := { t with slots := update t.slots slot .zero }
  { cleared with
    highWaterSlots := shrinkHighWater cleared.retireStop cleared.highWaterSlots }

def remoteSlotRetire (slot generation : ℕ) : SlotTable × Bool :=
  if maxRemoteSlots ≤ slot ∨ generation = 0 then (t, false)
  else if (t.slots slot).state = .active ∧ (t.slots slot).assignmentGeneration = generation then
    if t.offers slot generation then (t.setState slot .retiringOffered, true)
    else if t.applied slot = generation then (t.setState slot .retiring, true)
    else (t.freeRetired slot, true)
  else (t, false)

/-! ### Capturing, installing and answering an offer -/

/-- The manifest of `sfu_session_remote_offer_capture`, allocated at `addr`. -/
def SlotTable.manifest (addr : ℕ) : OfferManifest where
  addr := addr
  offerGeneration := remoteSlotNextNonzero t.nextOfferGeneration
  highWaterSlots :=
    if t.offeredSlotFloor < t.highWaterSlots then t.highWaterSlots else t.offeredSlotFloor
  assignmentGenerations i :=
    if i < (if t.offeredSlotFloor < t.highWaterSlots then t.highWaterSlots
        else t.offeredSlotFloor) ∧ (t.slots i).state = .active then
      (t.slots i).assignmentGeneration
    else 0

def remoteOfferCapture (addr : ℕ) : SlotTable × OfferManifest :=
  ({ t with nextOfferGeneration := remoteSlotNextNonzero t.nextOfferGeneration }, t.manifest addr)

/-- Every slot the manifest offers is still active under the offered generation. -/
def SlotTable.installable (m : OfferManifest) : Bool :=
  (List.range m.highWaterSlots).all fun i =>
    m.assignmentGenerations i = 0 ||
      ((t.slots i).state = .active && (t.slots i).assignmentGeneration = m.assignmentGenerations i)

def SlotTable.superseded (m : OfferManifest) : Bool :=
  match t.offeredManifest with
  | some old => m.offerGeneration ≤ old.offerGeneration
  | none => false

end

/-- A retiring slot that the installed manifest leaves out. -/
def installSlot (m : OfferManifest) (i : ℕ) (r : RemoteSlot) : RemoteSlot :=
  if r.state = .retiring ∧ (m.highWaterSlots ≤ i ∨ m.assignmentGenerations i = 0) then
    { r with state := .retiringOffered }
  else r

def remoteOfferInstall (t : SlotTable) (m : OfferManifest) : SlotTable × Bool :=
  if m.offerGeneration = 0 then (t, false)
  else if t.superseded m then (t, false)
  else if t.installable m then
    ({ t with
      slots := fun i => if i < t.highWaterSlots then installSlot m i (t.slots i) else t.slots i
      offeredManifest := some m
      offeredSlotFloor := max t.offeredSlotFloor m.highWaterSlots }, true)
  else (t, false)

def OfferManifest.offered (m : OfferManifest) (i : ℕ) : ℕ :=
  if i < m.highWaterSlots then m.assignmentGenerations i else 0

/-- Every slot the manifest offers still has the offered generation. -/
def SlotTable.answerable (t : SlotTable) (m : OfferManifest) : Bool :=
  (List.range m.highWaterSlots).all fun i =>
    m.assignmentGenerations i = 0 || (t.slots i).assignmentGeneration = m.assignmentGenerations i

/-- A retiring slot is freed by an answer that leaves it out, and goes on retiring otherwise. -/
def answerSlot (offered : ℕ) (r : RemoteSlot) : RemoteSlot :=
  if r.state = .retiring ∨ r.state = .retiringOffered then
    if offered = 0 then .zero else { r with state := .retiring }
  else r

variable (t : SlotTable)

/-- The slots and applied generations of an answered manifest. -/
def SlotTable.answered (m : OfferManifest) : SlotTable :=
  { t with
    slots := fun i => if i < t.highWaterSlots then answerSlot (m.offered i) (t.slots i)
      else t.slots i
    applied := fun i => if i < t.highWaterSlots then m.offered i else t.applied i }

/-- Where the loop of `sfu_session_remote_offer_apply_answer` stops. -/
def SlotTable.answerStop (last : ℕ) : Bool := (t.slots last).state ≠ .free || t.applied last ≠ 0

def remoteOfferApplyAnswer (m : OfferManifest) : SlotTable × Bool :=
  if m.offerGeneration = 0 then (t, false)
  else if t.offeredManifest.map OfferManifest.addr ≠ some m.addr then (t, false)
  else if t.answerable m then
    ({ t.answered m with
      highWaterSlots := shrinkHighWater (t.answered m).answerStop t.highWaterSlots
      offeredManifest := none }, true)
  else (t, false)

def remoteSlotAuthorized (slot generation : ℕ) : Bool :=
  decide (slot < maxRemoteSlots) && generation ≠ 0 && t.applied slot = generation

/-- `sfu_session_remote_slots_teardown`; the two counters go on. -/
def remoteSlotsTeardown : SlotTable :=
  { t with
    slots := fun _ => .zero, applied := fun _ => 0, offeredManifest := none
    highWaterSlots := 0, offeredSlotFloor := 0 }

inductive Op where
  | reserve (userId : ℤ) (peerId : ℕ)
  | retire (slot generation : ℕ)
  | capture
  | install (k : ℕ)
  | applyAnswer (k : ℕ)
  | teardown
  deriving DecidableEq, Repr

/-- A table together with the manifests captured from it so far. `made` counts the fresh
assignment generations and is not stored by the program. -/
structure World where
  table : SlotTable
  captured : List OfferManifest
  made : ℕ

def World.init : World := ⟨.init, [], 0⟩

def SlotTable.reservesFresh (userId : ℤ) (peerId : ℕ) : Bool :=
  peerId ≠ 0 && (t.existingSlot userId peerId).isNone && t.freeSlot.isSome

/-- One call under the graph lock. An offer operation names a captured manifest by its
position, which is also its address. -/
def step (w : World) : Op → World
  | .reserve userId peerId =>
    { w with
      table := (remoteSlotReserve w.table userId peerId).1
      made := if w.table.reservesFresh userId peerId then w.made + 1 else w.made }
  | .retire slot generation => { w with table := (remoteSlotRetire w.table slot generation).1 }
  | .capture =>
    { w with
      table := (remoteOfferCapture w.table w.captured.length).1
      captured := w.captured ++ [(remoteOfferCapture w.table w.captured.length).2] }
  | .install k => match w.captured[k]? with
    | some m => { w with table := (remoteOfferInstall w.table m).1 }
    | none => w
  | .applyAnswer k => match w.captured[k]? with
    | some m => { w with table := (remoteOfferApplyAnswer w.table m).1 }
    | none => w
  | .teardown => { w with table := remoteSlotsTeardown w.table }

def run (ops : List Op) : World := Runs.run step .init ops

lemma reserve_offeredManifest (t : SlotTable) (userId : ℤ) (peerId : ℕ) :
    (remoteSlotReserve t userId peerId).1.offeredManifest = t.offeredManifest := by
  unfold remoteSlotReserve
  split
  · rfl
  · split
    · rfl
    · split <;> rfl

lemma retire_offeredManifest (t : SlotTable) (slot generation : ℕ) :
    (remoteSlotRetire t slot generation).1.offeredManifest = t.offeredManifest := by
  unfold remoteSlotRetire
  split
  · rfl
  split
  · split
    · rfl
    · split <;> rfl
  · rfl

end MezonSfu.RemoteSlots
