import Mathlib.Tactic

/-!
The pacer of a subscriber: a bucket of bytes that fills at the pacing rate, and reservations of
bytes for packets that are not sent yet.

A reservation is made before a packet is queued. It is committed when the packet was sent and
cancelled when it will not be. A reservation that is made while the pacer is off is not charged.
-/

namespace MezonSfu.Paced

inductive PacerClass
  | audio | rtx | videoBase | videoTransition | videoEnh
deriving DecidableEq, Repr

/-- `sfu_pacer_reservation_t`. The `id` is a history variable: the number of the reservation. -/
structure Reservation where
  id : ℕ
  bytes : ℕ
  pacerClass : PacerClass
  charged : Bool
  active : Bool

def Reservation.zero : Reservation := ⟨0, 0, .audio, false, false⟩

instance : Inhabited Reservation := ⟨.zero⟩

/-- The reservation when it is settled or handed over. -/
def Reservation.release (r : Reservation) : Reservation := { r with active := false }

structure Pacer where
  active : Bool
  pacingBps : ℕ
  balanceBytes : ℤ
  bucketCapBytes : ℤ
  reservedBytes : ℤ
  lastRefillUs : ℤ

namespace Pacer

def burstUs : ℕ := 10000
def minBucketBytes : ℕ := 1500

def init : Pacer := ⟨false, 0, 0, 0, 0, 0⟩

def classDroppable (cls : PacerClass) : Bool := decide (cls = .videoEnh)

variable (p : Pacer)

/-- `sfu_pacer_set_rate`. The rate is paced at five halves. -/
def setRate (bps : ℕ) (nowUs : ℤ) : Pacer :=
  if bps = 0 then { p with active := false, pacingBps := 0 }
  else
    let paced := bps * 5 / 2
    let cap : ℤ := (max (paced / 8 * burstUs / 1000000) minBucketBytes : ℕ)
    let p := { p with pacingBps := paced % 2 ^ 32, bucketCapBytes := cap }
    if p.active then { p with balanceBytes := min p.balanceBytes cap }
    else { p with balanceBytes := cap, lastRefillUs := nowUs, active := true }

def refill (nowUs : ℤ) : Pacer :=
  if p.lastRefillUs = 0 then { p with lastRefillUs := nowUs }
  else if nowUs ≤ p.lastRefillUs then p
  else
    let tokens := ((p.pacingBps / 8 : ℕ) : ℤ) * (nowUs - p.lastRefillUs) / 1000000
    let p := { p with lastRefillUs := nowUs }
    if tokens ≤ 0 then p
    else { p with balanceBytes := min (p.balanceBytes + tokens) p.bucketCapBytes }

/-- A packet that would overdraw the bucket is refused, if it may be. -/
def refuses (cls : PacerClass) (bytes : ℕ) (allowCongestionDrop : Bool) : Bool :=
  let after := p.balanceBytes - p.reservedBytes - bytes
  decide (after < 0) && allowCongestionDrop && classDroppable cls &&
    !decide (cls = .videoBase ∨ cls = .videoTransition) && decide (-after > p.bucketCapBytes)

/-- `sfu_pacer_reserve`, with the variable the reservation is written to. -/
def reserve (cls : PacerClass) (bytes : ℕ) (allowCongestionDrop : Bool) (nowUs : ℤ)
    (id : ℕ) (r : Reservation) : Pacer × Reservation × Bool :=
  if r.active then (p, r, false)
  else if cls ≠ .audio ∧ p.active = true then
    let p := p.refill nowUs
    if p.refuses cls bytes allowCongestionDrop then (p, r, false)
    else ({ p with reservedBytes := p.reservedBytes + bytes }, ⟨id, bytes, cls, true, true⟩, true)
  else (p, ⟨id, bytes, cls, false, true⟩, true)

def commit (r : Reservation) : Pacer :=
  if r.active && r.charged then
    { p with
      reservedBytes := p.reservedBytes - r.bytes
      balanceBytes := p.balanceBytes - r.bytes }
  else p

def cancel (r : Reservation) : Pacer :=
  if r.active && r.charged then { p with reservedBytes := p.reservedBytes - r.bytes } else p

end Pacer

def Reservation.charge (r : Reservation) : ℤ := if r.active && r.charged then r.bytes else 0

namespace Pacer

variable (p : Pacer)

@[simp] lemma reservedBytes_setRate (bps : ℕ) (nowUs : ℤ) :
    (p.setRate bps nowUs).reservedBytes = p.reservedBytes := by
  unfold setRate
  dsimp only
  split_ifs <;> rfl

@[simp] lemma reservedBytes_refill (nowUs : ℤ) :
    (p.refill nowUs).reservedBytes = p.reservedBytes := by
  unfold refill
  dsimp only
  split_ifs <;> rfl

lemma reservedBytes_commit (r : Reservation) :
    (p.commit r).reservedBytes = p.reservedBytes - r.charge := by
  unfold commit Reservation.charge
  split_ifs
  · rfl
  · exact (sub_zero _).symm

lemma reservedBytes_cancel (r : Reservation) :
    (p.cancel r).reservedBytes = p.reservedBytes - r.charge := by
  unfold cancel Reservation.charge
  split_ifs
  · rfl
  · exact (sub_zero _).symm

/-- A reservation is refused and nothing is reserved, or it is made into a free variable and its
charge is reserved. -/
lemma reserve_cases (cls : PacerClass) (bytes : ℕ) (allowCongestionDrop : Bool) (nowUs : ℤ)
    (id : ℕ) (r : Reservation) :
    let made := p.reserve cls bytes allowCongestionDrop nowUs id r
    (made.2.2 = false ∧ made.2.1 = r ∧ made.1.reservedBytes = p.reservedBytes) ∨
      (made.2.2 ∧ r.active = false ∧ made.2.1.active ∧ made.2.1.id = id ∧
        made.1.reservedBytes = p.reservedBytes + made.2.1.charge) := by
  unfold reserve
  dsimp only
  split_ifs with hr hc hrefuse
  · exact .inl ⟨rfl, rfl, rfl⟩
  · exact .inl ⟨rfl, rfl, p.reservedBytes_refill nowUs⟩
  · refine .inr ⟨rfl, Bool.eq_false_of_not_eq_true hr, rfl, rfl, ?_⟩
    rw [reservedBytes_refill]
    rfl
  · exact .inr ⟨rfl, Bool.eq_false_of_not_eq_true hr, rfl, rfl, (add_zero _).symm⟩

end Pacer

end MezonSfu.Paced
