import Mathlib.Data.UInt
import MezonSfu.Egress
import MezonSfu.PacedHead

/-!
Sequence numbers on the wire: runs of the egress path of one subscriber, with retransmissions,
drains and failures anywhere, and the numbers of the packets the network gets.

Every packet that draws a number gets a serial number of its own as its tag. The ledger of an SSRC
is the list of the packets whose numbers were drawn and not given back. A rollback gives back as
many numbers as the frame has packets, the newest ones of the SSRC of the route. Where these are
the numbers of the packets taken out of the queue, every packet on the wire keeps its place in the
ledger.
-/

namespace MezonSfu.Pipeline

open Paced Rtp Function List
open Multiset (ofList)

/-- The egress path with the serial number of the next packet. -/
structure Station where
  egress : Egress ℕ
  serial : ℕ

inductive Op
  | packet (p : Packet ℕ) (m : Media) (decision : Option Bool) (o : Outcome) (nowUs : ℤ)
  | reject (m : Media)
  | drain (k : QueueId) (accepts : ℕ → Bool) (nowUs : ℤ) (remaining : ℕ)
  | retransmit (rtxSsrc : UInt32) (sourceSeq : UInt16) (o : Egress.RtxOutcome) (nowUs : ℤ)
  | drainRtx (accepts : ℕ → Bool) (nowUs : ℤ) (remaining : ℕ)
  | session (s : Session)

def Station.init (session : Session) : Station := ⟨Egress.init session, 0⟩

def Packet.stamp (p : Packet ℕ) (n : ℕ) : Packet ℕ := { p with tag := n }

def Station.step (s : Station) : Op → Station
  | .packet p m decision o nowUs =>
    ⟨(s.egress.processLocal (p.stamp s.serial) m decision o nowUs .init).1, s.serial + 1⟩
  | .reject m => ⟨s.egress.rejectFrame m, s.serial⟩
  | .drain k accepts nowUs remaining => ⟨s.egress.drain k accepts nowUs remaining, s.serial⟩
  | .retransmit rtxSsrc sourceSeq o nowUs =>
    ⟨s.egress.retransmit rtxSsrc sourceSeq s.serial o nowUs, s.serial + 1⟩
  | .drainRtx accepts nowUs remaining => ⟨s.egress.drainRtx accepts nowUs remaining, s.serial⟩
  | .session v => ⟨{ s.egress with session := v }, s.serial⟩

def Station.run (session : Session) : List Op → Station := Runs.run Station.step (.init session)

section

variable (e : Egress ℕ)

def Egress.sentFor (ssrc : UInt32) : List (Wire ℕ) := e.wire.filter (·.ssrc = ssrc)

/-- Among any 65535 packets of one SSRC that the network got one after the other, no two carry
the same number. -/
def Egress.WindowFresh : Prop :=
  ∀ (ssrc : UInt32) (i j : ℕ) (v w : Wire ℕ), i < j → j < i + 65535 →
    (e.sentFor ssrc)[i]? = some v → (e.sentFor ssrc)[j]? = some w → v.seq ≠ w.seq

/-- Two packets of one SSRC that the network got carry the same number only if at least 65535
numbers that were not given back were drawn between theirs. -/
def Egress.IndexFresh : Prop :=
  ∀ (i j : ℕ) (v w : Wire ℕ), i < j → e.wire[i]? = some v → e.wire[j]? = some w → v.ssrc = w.ssrc →
    v.seq = w.seq → ∃ a b, (e.kept v.ssrc)[a]? = some v ∧ (e.kept v.ssrc)[b]? = some w ∧
      (a + 65536 ≤ b ∨ b + 65536 ≤ a)

def Egress.openFrame (k : QueueId) : List (Entry (Wire ℕ)) :=
  (e.queues k).contents.drop (e.queues k).readyCount

/-- The SSRC under which a rollback of the open frame gives numbers back: the first one there is
among the routes of its packets. -/
def Egress.rollbackSsrc (k : QueueId) : Option UInt32 :=
  ((e.openFrame k).map (·.metadata.mediaSsrc)).find? (· ≠ 0)

/-- The numbers a rollback of the open frame would give back are those of its packets. -/
def Egress.OwnNumbers (k : QueueId) : Prop :=
  ∀ x ∈ e.rollbackSsrc k, ((e.openFrame k).map Entry.data).reverse <+: e.kept x

end

section

variable (s : Station)

/-- A packet rolls the open frame of its queue back: it is one of another frame, or it fails once
it has its number. -/
def Station.RollsBack (p : Packet ℕ) (m : Media) (decision : Option Bool) (o : Outcome) (nowUs : ℤ)
    (k : QueueId) : Prop :=
  s.egress.session.authorized m.remoteSlot m.assignmentGeneration = true ∧ 12 ≤ p.len ∧
    ((s.egress.queues k).rollsBack p.timestamp = true ∨
      (translate s.egress.translator p.ssrc p.seq).isSome = true ∧
      (s.egress.processLocal (p.stamp s.serial) m decision o nowUs .init).2.2 = false)

/-- An open frame that is rolled back gives back the numbers of its own packets. Nothing is asked
of a step that rolls no frame back. -/
def Station.GivesBackOwn : Op → Prop
  | .packet p m decision o nowUs => ∀ k ∈ Egress.pacedQueue m,
      s.RollsBack p m decision o nowUs k → s.egress.OwnNumbers k
  | .reject m => ∀ k ∈ Egress.pacedQueue m, s.egress.OwnNumbers k
  | _ => True

end

-- `UInt32` and `QueueId` are finite, so the instances are named: no search over all values
instance (e : Egress ℕ) (k : QueueId) : Decidable (e.OwnNumbers k) :=
  Option.decidableForallMem (e.rollbackSsrc k)

instance (s : Station) (p : Packet ℕ) (m : Media) (decision : Option Bool) (o : Outcome)
    (nowUs : ℤ) (k : QueueId) : Decidable (s.RollsBack p m decision o nowUs k) :=
  inferInstanceAs (Decidable (_ ∧ _ ∧ (_ ∨ _ ∧ _)))

instance (s : Station) : (a : Op) → Decidable (s.GivesBackOwn a)
  | .packet _ m .. => Option.decidableForallMem (Egress.pacedQueue m)
  | .reject m => Option.decidableForallMem (Egress.pacedQueue m)
  | .drain .. => .isTrue trivial
  | .retransmit .. => .isTrue trivial
  | .drainRtx .. => .isTrue trivial
  | .session _ => .isTrue trivial

/-- The numbers of a ledger go down by one from the newest packet on; the next one is `v`. -/
def Numbered : UInt16 → List (Wire ℕ) → Prop
  | _, [] => True
  | v, w :: l => w.seq + 1 = v ∧ Numbered w.seq l

variable {v : UInt16} {l : List (Wire ℕ)} {w : Wire ℕ}

lemma Numbered.drop (h : Numbered v l) (n : ℕ) : Numbered (v - UInt16.ofNat n) (l.drop n) := by
  induction n generalizing v l with
  | zero => simpa using h
  | succ n ih =>
    cases l with
    | nil => trivial
    | cons w l =>
      obtain ⟨rfl, hl⟩ := h
      have hsub : w.seq + 1 - UInt16.ofNat (n + 1) = w.seq - UInt16.ofNat n := by
        rw [UInt16.ofNat_add, show UInt16.ofNat 1 = 1 from rfl, add_sub_add_right_eq_sub]
      rw [hsub, drop_succ_cons]
      exact ih hl

lemma Numbered.seq_eq (h : Numbered v l) {i : ℕ} (hw : l[i]? = some w) :
    w.seq + UInt16.ofNat (i + 1) = v := by
  induction i generalizing v l with
  | zero =>
    cases l with
    | nil => cases hw
    | cons u l =>
      cases hw
      exact h.1
  | succ i ih =>
    cases l with
    | nil => cases hw
    | cons u l =>
      have hu := ih h.2 hw
      rw [← h.1, ← hu, UInt16.ofNat_add (i + 1) 1, show UInt16.ofNat 1 = 1 from rfl, add_assoc]

lemma Numbered.far (h : Numbered v l) {a b : ℕ} {u : Wire ℕ} (ha : l[a]? = some u)
    (hb : l[b]? = some w) (hs : u.seq = w.seq) (hne : a ≠ b) : a + 65536 ≤ b ∨ b + 65536 ≤ a := by
  have h1 := h.seq_eq ha
  have h2 := h.seq_eq hb
  have heq : UInt16.ofNat (a + 1) = UInt16.ofNat (b + 1) := by
    rw [hs, ← h2] at h1
    exact add_left_cancel h1
  have hmod := congrArg UInt16.toNat heq
  simp only [UInt16.toNat_ofNat', Nat.reducePow] at hmod
  omega

/-! ### Packets in flight -/

namespace Egress

variable {e e' : Egress ℕ} {n : ℕ} {k : QueueId}

section

variable (e : Egress ℕ)

def queued (k : QueueId) : Multiset (Wire ℕ) :=
  ((e.queues k).contents.map Entry.data : List (Wire ℕ))

/-- The packets in the paced queues other than `k`. -/
@[irreducible]
def others (k : QueueId) : Multiset (Wire ℕ) := ∑ k' ∈ Finset.univ.erase k, e.queued k'

def waiting : Multiset (Wire ℕ) := (e.pacedRtx.toList.map PriorityEntry.data : List (Wire ℕ))

/-- The packets on the wire or in a queue. -/
@[irreducible]
def inFlight : Multiset (Wire ℕ) := ofList e.wire + e.waiting + ∑ k, e.queued k

lemma inFlight_eq (k : QueueId) :
    e.inFlight = ofList e.wire + e.waiting + (e.queued k + e.others k) := by
  unfold inFlight others
  rw [Finset.add_sum_erase _ _ (Finset.mem_univ k)]

end

lemma others_eq (h : ∀ k' ≠ k, e'.queues k' = e.queues k') : e'.others k = e.others k := by
  unfold others
  refine Finset.sum_congr rfl fun k' hk' => ?_
  unfold queued
  rw [h k' (Finset.ne_of_mem_erase hk')]

/-- What a queue has noted of a rollback is handled before the next packet. -/
def NoNotes (q : PacedSend (Wire ℕ)) : Prop :=
  q.rolledBackPublisherPeerId = 0 ∧ q.rolledBackMediaSsrc = 0 ∧ q.rolledBackPacketCount = 0

/-- The ledgers hold different packets, with the numbers the translator has given. -/
structure Ledgered (n : ℕ) (e : Egress ℕ) : Prop where
  translator : e.translator.WF
  unseen : ∀ x, e.translator.next x = none → e.kept x = []
  numbered : ∀ x v, e.translator.next x = some v → Numbered v (e.kept x)
  nodup : ∀ x, (e.kept x).Nodup
  ledger : ∀ x, ∀ w ∈ e.kept x, w.ssrc = x ∧ w.tag < n

/-- The packets in flight are different and each has its place in the ledger of its SSRC. -/
structure Good (n : ℕ) (e : Egress ℕ) : Prop extends Ledgered n e where
  queue : ∀ k, (e.queues k).WF
  notes : ∀ k, NoNotes (e.queues k)
  rtx : e.pacedRtx.ring.WF priorityCapacity
  flight : e.inFlight.Nodup
  kept : ∀ w ∈ e.inFlight, w ∈ e.kept w.ssrc

lemma inFlight_init (session : Session) : (Egress.init session : Egress ℕ).inFlight = 0 := by
  have hq : ∀ k, (Egress.init session : Egress ℕ).queued k = 0 := fun _ => rfl
  have hw : (Egress.init session : Egress ℕ).waiting = 0 := rfl
  unfold inFlight
  rw [hw, Finset.sum_eq_zero fun k _ => hq k]
  rfl

lemma rtx_wf_init (session : Session) :
    (Egress.init session : Egress ℕ).pacedRtx.ring.WF priorityCapacity :=
  Ring.wf_empty _ (by decide)

lemma good_init (session : Session) : Good 0 (Egress.init session : Egress ℕ) := by
  refine ⟨⟨Translator.wf_init, ?_, ?_, ?_, ?_⟩, ?_, ?_, rtx_wf_init session,
    ?_, ?_⟩
  · intro x hx
    rfl
  · intro x v hv
    trivial
  · intro x
    exact nodup_nil
  · intro x w hw
    exact absurd hw not_mem_nil
  · intro k
    exact PacedSend.wf_init
  · intro k
    exact ⟨rfl, rfl, rfl⟩
  · rw [inFlight_init]
    exact Multiset.nodup_zero
  · rw [inFlight_init]
    intro w hw
    exact absurd hw (Multiset.notMem_zero w)

variable {k' : QueueId} {m : ℕ} {q : PacedSend (Wire ℕ)} {events : List (Event ℕ)}
  {sourceSeq : UInt16} {x : UInt32} {w : Wire ℕ}

lemma inFlight_congr (hq : e'.queues = e.queues) (hr : e'.pacedRtx = e.pacedRtx)
    (hw : e'.wire = e.wire) : e'.inFlight = e.inFlight := by
  unfold inFlight waiting queued
  rw [hw, hr, hq]

lemma openFrame_congr (hq : e'.queues k = e.queues k) : e'.openFrame k = e.openFrame k := by
  unfold openFrame
  rw [hq]

lemma Ledgered.of_eq (h : Ledgered n e) (ht : e'.translator = e.translator)
    (hk : e'.kept = e.kept) : Ledgered n e' := by
  refine ⟨?_, ?_, ?_, ?_, ?_⟩
  · rw [ht]; exact h.translator
  · rw [ht, hk]; exact h.unseen
  · rw [ht, hk]; exact h.numbered
  · rw [hk]; exact h.nodup
  · rw [hk]; exact h.ledger

section

variable (h : Good n e)

include h

lemma Good.relabel (hl : Ledgered m e') (hq : e'.queues = e.queues)
    (hr : e'.pacedRtx = e.pacedRtx) (hw : e'.wire = e.wire)
    (hkept : ∀ w ∈ e.inFlight, w ∈ e'.kept w.ssrc) : Good m e' := by
  have hflight := inFlight_congr hq hr hw
  refine ⟨hl, ?_, ?_, ?_, ?_, ?_⟩
  · rw [hq]; exact h.queue
  · rw [hq]; exact h.notes
  · rw [hr]; exact h.rtx
  · rw [hflight]; exact h.flight
  · rw [hflight]; exact hkept

lemma Good.of_eq (ht : e'.translator = e.translator) (hk : e'.kept = e.kept)
    (hq : e'.queues = e.queues) (hr : e'.pacedRtx = e.pacedRtx) (hw : e'.wire = e.wire) :
    Good n e' :=
  h.relabel (h.toLedgered.of_eq ht hk) hq hr hw (by rw [hk]; exact h.kept)

lemma Good.mono (hm : n ≤ m) : Good m e :=
  { h with ledger := fun x w hw => ⟨(h.ledger x w hw).1, (h.ledger x w hw).2.trans_le hm⟩ }

lemma Good.flight_of_le (hle : e'.inFlight ≤ e.inFlight) (hk : e'.kept = e.kept) :
    e'.inFlight.Nodup ∧ ∀ w ∈ e'.inFlight, w ∈ e'.kept w.ssrc := by
  refine ⟨Multiset.nodup_of_le hle h.flight, ?_⟩
  intro w hw
  rw [hk]
  exact h.kept w (Multiset.mem_of_le hle hw)

/-- A queue gives packets to the wire or loses them. -/
lemma Good.setQueue (hwf : q.WF) (hn : NoNotes q)
    (hle : ofList (events.filterMap Event.wire?) + ofList (q.contents.map Entry.data) ≤
      e.queued k) :
    Good n ((e.setQueue k q).record events) := by
  set e1 := (e.setQueue k q).record events
  have hne : ∀ k' ≠ k, e1.queues k' = e.queues k' := fun k' hk' => queues_setQueue_of_ne hk' q
  have hself : e1.queues k = q := queues_setQueue_self e k q
  have hflight : e1.inFlight ≤ e.inFlight := by
    rw [inFlight_eq _ k, inFlight_eq e k, others_eq hne, wire_record, ← Multiset.coe_add]
    change ofList e.wire + _ + e.waiting +
      ((e1.queues k).contents.map Entry.data + e.others k) ≤ _
    rw [hself]
    calc ofList e.wire + ofList (events.filterMap Event.wire?) + e.waiting +
          (ofList (q.contents.map Entry.data) + e.others k)
        = ofList e.wire + e.waiting + (ofList (events.filterMap Event.wire?) +
            ofList (q.contents.map Entry.data) + e.others k) := by abel
      _ ≤ ofList e.wire + e.waiting + (e.queued k + e.others k) := by gcongr
  obtain ⟨hnd, hkept⟩ := h.flight_of_le hflight rfl
  refine ⟨h.toLedgered.of_eq rfl rfl, ?_, ?_, h.rtx, hnd, hkept⟩
  · exact (forall_update_iff e.queues fun _ q => q.WF).2 ⟨hwf, fun k' _ => h.queue k'⟩
  · exact (forall_update_iff e.queues fun _ => NoNotes).2 ⟨hn, fun k' _ => h.notes k'⟩

/-- A queue is shortened at the front, and some of the packets taken out go to the wire. -/
lemma Good.shrink (hs : PacedSend.Shrunk (e.queues k) q m)
    (hsub : (events.filterMap Event.wire?).Sublist
      (((e.queues k).contents.take m).map Entry.data)) :
    Good n ((e.setQueue k q).record events) := by
  have hnotes : NoNotes q := by
    obtain ⟨h1, h2, h3⟩ := h.notes k
    exact ⟨(congrArg (·.2.2.2.2.2.1) hs.input).trans h1,
      (congrArg (·.2.2.2.2.2.2.1) hs.input).trans h2,
      (congrArg (·.2.2.2.2.2.2.2) hs.input).trans h3⟩
  refine h.setQueue (hs.wf (h.queue k)) hnotes ?_
  have hsplit : e.queued k = ofList (((e.queues k).contents.take m).map Entry.data) +
      ofList (q.contents.map Entry.data) := by
    rw [hs.contents, Multiset.coe_add, ← map_append, take_append_drop]
    rfl
  rw [hsplit]
  gcongr
  exact Multiset.coe_le.2 hsub.subperm

end

/-! ### Drawing a number -/

lemma Ledgered.translated (h : Ledgered n e) {seq : UInt16} {t : Translator}
    (ht : translate e.translator x sourceSeq = some (t, seq)) : Numbered seq (e.kept x) := by
  have hseq := translate_seq ht
  cases hv : e.translator.next x with
  | none =>
    rw [h.unseen x hv]
    trivial
  | some v =>
    rw [hv] at hseq
    rw [hseq]
    exact h.numbered x v hv

/-- One ledger: the packets of the SSRC `x`, with its next number. -/
structure Book (n : ℕ) (x : UInt32) (next : Option UInt16) (l : List (Wire ℕ)) : Prop where
  unseen : next = none → l = []
  numbered : ∀ v, next = some v → Numbered v l
  nodup : l.Nodup
  ledger : ∀ w ∈ l, w.ssrc = x ∧ w.tag < n

lemma Ledgered.book (h : Ledgered n e) (x : UInt32) : Book n x (e.translator.next x) (e.kept x) :=
  ⟨h.unseen x, h.numbered x, h.nodup x, h.ledger x⟩

lemma ledgered_of_book (ht : e.translator.WF)
    (h : ∀ x, Book n x (e.translator.next x) (e.kept x)) : Ledgered n e :=
  ⟨ht, fun x => (h x).unseen, fun x => (h x).numbered, fun x => (h x).nodup, fun x => (h x).ledger⟩

section

variable {next : Option UInt16} {l : List (Wire ℕ)}

lemma Book.succ (h : Book n x next l) : Book (n + 1) x next l :=
  { h with ledger := fun w hw => ⟨(h.ledger w hw).1, Nat.lt_succ_of_lt (h.ledger w hw).2⟩ }

lemma Book.draw (h : Book n x next l) {seq : UInt16} (hl : Numbered seq l) :
    Book (n + 1) x (some (seq + 1)) (⟨x, seq, n⟩ :: l) := by
  refine ⟨nofun, ?_, nodup_cons.2 ⟨?_, h.nodup⟩, forall_mem_cons.2 ⟨?_, h.succ.ledger⟩⟩
  · rintro v ⟨⟩
    exact ⟨rfl, hl⟩
  · intro hmem
    exact absurd (h.ledger _ hmem).2 (lt_irrefl n)
  · exact ⟨rfl, Nat.lt_succ_self n⟩

lemma Book.drop (h : Book n x next l) (count : UInt16) :
    Book n x (next.map (· - count)) (l.drop count.toNat) := by
  refine ⟨?_, ?_, (drop_sublist _ _).nodup h.nodup, fun w hw => h.ledger w (mem_of_mem_drop hw)⟩
  · intro hnone
    rw [h.unseen (Option.map_eq_none_iff.1 hnone), drop_nil]
  · intro v hv
    obtain ⟨u, hu, rfl⟩ := Option.map_eq_some_iff.1 hv
    have hdrop := (h.numbered u hu).drop count.toNat
    rwa [UInt16.ofNat_toNat] at hdrop

end

lemma Ledgered.draw (h : Ledgered n e) (hd : e.draw x sourceSeq n = some (e', w)) :
    Ledgered (n + 1) e' := by
  obtain ⟨t, seq, ht, rfl, rfl⟩ := draw_cases hd
  refine ledgered_of_book (translate_wf h.translator ht) fun y => ?_
  change Book _ y _ (update e.kept x _ y)
  rcases eq_or_ne y x with rfl | hne
  · rw [next_translate_self h.translator ht, update_self]
    exact (h.book y).draw (h.translated ht)
  · rw [next_translate_of_ne h.translator ht hne, update_of_ne hne]
    exact (h.book y).succ

lemma Good.fresh (h : Good n e) (hw : w ∈ e.inFlight) : w.tag < n := (h.ledger _ w (h.kept w hw)).2

/-- A draw keeps the queues, and what is in flight keeps its place in the ledger. -/
lemma Good.draw_frame (h : Good n e) (hd : e.draw x sourceSeq n = some (e', w)) :
    e'.queues = e.queues ∧ e'.pacedRtx = e.pacedRtx ∧ e'.wire = e.wire ∧
      e'.kept = update e.kept x (w :: e.kept x) ∧ w.ssrc = x ∧
      (∀ v ∈ e.inFlight, v ∈ e'.kept v.ssrc) ∧ w ∈ e'.kept w.ssrc ∧ w ∉ e.inFlight := by
  obtain ⟨t, seq, ht, rfl, rfl⟩ := draw_cases hd
  refine ⟨rfl, rfl, rfl, rfl, rfl, ?_, ?_, ?_⟩
  · intro v hv
    change v ∈ update e.kept x _ v.ssrc
    rcases eq_or_ne v.ssrc x with hx | hx
    · rw [hx, update_self, ← hx]
      exact mem_cons_of_mem _ (h.kept v hv)
    · rw [update_of_ne hx]
      exact h.kept v hv
  · change _ ∈ update e.kept x _ x
    rw [update_self]
    exact mem_cons_self
  · intro hw
    exact absurd (h.fresh hw) (lt_irrefl n)

/-- **Drawing a number**: the packet gets a place in the ledger, and it is in flight nowhere. -/
lemma Good.draw (h : Good n e) (hd : e.draw x sourceSeq n = some (e', w)) :
    Good (n + 1) e' ∧ w ∈ e'.kept w.ssrc ∧ w ∉ e'.inFlight := by
  obtain ⟨hq, hr, hw, -, -, hkept, hmem, hnew⟩ := h.draw_frame hd
  refine ⟨h.relabel (h.toLedgered.draw hd) hq hr hw hkept, hmem, ?_⟩
  rw [inFlight_congr hq hr hw]
  exact hnew

lemma Good.flight_cons (h : Good n e) (hf : e'.inFlight = {w} + e.inFlight)
    (hmem : w ∈ e'.kept w.ssrc) (hnew : w ∉ e.inFlight)
    (hkept : ∀ v ∈ e.inFlight, v ∈ e'.kept v.ssrc) :
    e'.inFlight.Nodup ∧ ∀ v ∈ e'.inFlight, v ∈ e'.kept v.ssrc := by
  rw [hf, Multiset.singleton_add]
  exact ⟨Multiset.nodup_cons.2 ⟨hnew, h.flight⟩, Multiset.forall_mem_cons.2 ⟨hmem, hkept⟩⟩

lemma Good.handed (h : Good n e) (hmem : w ∈ e.kept w.ssrc) (hnew : w ∉ e.inFlight) :
    Good n (e.record [.handed w]) := by
  have hf : (e.record [.handed w]).inFlight = {w} + e.inFlight := by
    unfold inFlight
    rw [wire_record]
    change ofList (e.wire ++ [w]) + e.waiting + ∑ k, e.queued k = _
    rw [← Multiset.coe_add, Multiset.coe_singleton]
    abel
  obtain ⟨hnd, hkept⟩ := h.flight_cons hf hmem hnew h.kept
  exact ⟨h.toLedgered.of_eq rfl rfl, h.queue, h.notes, h.rtx, hnd, hkept⟩

lemma Good.queuedRtx (h : Good n e) (hmem : w ∈ e.kept w.ssrc) (hnew : w ∉ e.inFlight)
    {q : PriorityQueue (Wire ℕ)} (hwf : q.ring.WF priorityCapacity) {x : PriorityEntry (Wire ℕ)}
    (hx : x.data = w) (hlist : q.toList = e.pacedRtx.toList ++ [x]) :
    Good n { e with pacedRtx := q } := by
  have hf : ({ e with pacedRtx := q } : Egress ℕ).inFlight = {w} + e.inFlight := by
    unfold inFlight waiting
    change ofList e.wire + ofList (q.toList.map PriorityEntry.data) + ∑ k, e.queued k = _
    rw [hlist, map_append, map_singleton, hx, ← Multiset.coe_add, Multiset.coe_singleton]
    abel
  obtain ⟨hnd, hkept⟩ := h.flight_cons hf hmem hnew h.kept
  exact ⟨h.toLedgered.of_eq rfl rfl, h.queue, h.notes, hwf, hnd, hkept⟩

lemma sublist_ofPriorityFate (l : List (PriorityFate (Wire ℕ))) :
    ((l.map Event.ofPriorityFate).filterMap Event.wire?).Sublist
      ((l.map PriorityFate.entry).map PriorityEntry.data) := by
  induction l with
  | nil => exact List.Sublist.slnil
  | cons f l ih =>
    cases f with
    | sent x => exact ih.cons_cons x.data
    | stale x | expired x => exact ih.cons x.data

lemma good_drainRtx (h : Good n e) (accepts : ℕ → Bool) (nowUs : ℤ) (remaining : ℕ) :
    Good n (e.drainRtx accepts nowUs remaining) := by
  obtain ⟨hwf, hlist⟩ := PriorityQueue.drain_toList h.rtx (priorityEntryValid e.session) accepts
    nowUs remaining
  unfold drainRtx
  generalize e.pacedRtx.drain (priorityEntryValid e.session) accepts nowUs remaining = r at *
  have hle : ({ e with pacedRtx := r.1 }.record (r.2.map Event.ofPriorityFate)).inFlight ≤
      e.inFlight := by
    unfold inFlight waiting
    rw [wire_record, ← Multiset.coe_add]
    change ofList e.wire + ofList ((r.2.map Event.ofPriorityFate).filterMap Event.wire?) +
      ofList (r.1.toList.map PriorityEntry.data) + ∑ k, e.queued k ≤ _
    rw [hlist, map_append, ← Multiset.coe_add, ← add_assoc]
    generalize (∑ k, e.queued k) = rest
    gcongr
    exact Multiset.coe_le.2 (sublist_ofPriorityFate r.2).subperm
  obtain ⟨hnd, hkept⟩ := h.flight_of_le hle rfl
  exact ⟨h.toLedgered.of_eq rfl rfl, h.queue, h.notes, hwf, hnd, hkept⟩

lemma good_retransmit (h : Good n e) (rtxSsrc : UInt32) (sourceSeq : UInt16) (o : RtxOutcome)
    (nowUs : ℤ) : Good (n + 1) (e.retransmit rtxSsrc sourceSeq n o nowUs) := by
  unfold retransmit
  split
  · exact h.mono (Nat.le_succ n)
  rename_i e' w hd
  obtain ⟨hgood, hmem, hnew⟩ := h.draw hd
  split
  · dsimp only
    split
    · exact hgood
    · rename_i q hq
      obtain ⟨hwf, hlist⟩ := PriorityQueue.enqueue_toList hgood.rtx hq
      exact hgood.queuedRtx hmem hnew hwf rfl hlist
  · exact hgood

lemma Ledgered.giveBack (h : Ledgered n e) (x : UInt32) (count : UInt16) :
    Ledgered n (e.giveBack x count) := by
  refine ledgered_of_book (rollback_wf h.translator x count) fun y => ?_
  change Book _ y ((rollback e.translator x count).1.next y) (update e.kept x _ y)
  rcases eq_or_ne y x with rfl | hne
  · rw [next_rollback_self h.translator, update_self]
    exact (h.book y).drop count
  · rw [next_rollback_of_ne h.translator count hne, update_of_ne hne]
    exact h.book y

lemma Good.drawBack (h : Good n e) (hd : e.draw x sourceSeq n = some (e', w)) :
    let r := e'.giveBack w.ssrc 1
    Good (n + 1) r ∧ r.queues = e.queues ∧ r.kept = e.kept := by
  obtain ⟨hq, hr, hw, hk, hx, -, -, -⟩ := h.draw_frame hd
  have hkept : (e'.giveBack w.ssrc 1).kept = e.kept := by
    change update e'.kept w.ssrc ((e'.kept w.ssrc).drop 1) = e.kept
    rw [hk, hx, update_self, update_idem]
    exact update_eq_self x e.kept
  refine ⟨h.relabel ((h.toLedgered.draw hd).giveBack w.ssrc 1) hq hr hw ?_, hq, hkept⟩
  rw [hkept]
  exact h.kept

lemma Good.drawQueue (h : Good n e) (hd : e.draw x sourceSeq n = some (e', w))
    {len dst pacingBps : ℕ} {md : Metadata} {allocated : Bool} {nowUs : ℤ}
    (hq : (e'.queues k).enqueue w len dst pacingBps md allocated nowUs = some q)
    (hact : (e.queues k).inputFrameActive) (hdrop : (e.queues k).dropInputFrame = false) :
    Good (n + 1) (e'.setQueue k q) := by
  set e1 := e'.setQueue k q
  obtain ⟨hqs, hr, hw, -, -, hkept, hmem, hnew⟩ := h.draw_frame hd
  rw [hqs] at hq
  have hne : ∀ k' ≠ k, e1.queues k' = e.queues k' := by
    intro k' hk'
    rw [queues_setQueue_of_ne hk', hqs]
  have hself : e1.queues k = q := queues_setQueue_self e' k q
  have hqueues : e1.queues = update e.queues k q := hqs ▸ rfl
  have hqwf := (h.queue k).enqueue hact hdrop hq
  obtain ⟨a, hdata, -, -, -, hqeq, -, hlist⟩ := PacedSend.enqueue_cases (h.queue k) hq
  have hcontents : q.contents = (e.queues k).contents ++ [a.fixed] := by
    unfold PacedSend.contents
    rw [hlist, map_append]
    rfl
  have hflight : e1.inFlight = {w} + e.inFlight := by
    rw [inFlight_eq _ k, inFlight_eq e k, others_eq hne]
    change ofList e'.wire + ofList (e'.pacedRtx.toList.map PriorityEntry.data) +
      (ofList ((e1.queues k).contents.map Entry.data) + e.others k) = _
    rw [hself, hcontents, hw, hr, map_append, map_singleton, Entry.fixed_data, hdata,
      ← Multiset.coe_add, Multiset.coe_singleton]
    change ofList e.wire + e.waiting + (e.queued k + {w} + e.others k) = _
    abel
  obtain ⟨hnd, hin⟩ := h.flight_cons hflight hmem hnew hkept
  refine ⟨(h.toLedgered.draw hd).of_eq rfl rfl, ?_, ?_, ?_, hnd, hin⟩
  · rw [hqueues]
    exact (forall_update_iff e.queues fun _ q => q.WF).2 ⟨hqwf, fun k' _ => h.queue k'⟩
  · rw [hqueues, hqeq]
    exact (forall_update_iff e.queues fun _ => NoNotes).2 ⟨h.notes k, fun k' _ => h.notes k'⟩
  · change e'.pacedRtx.ring.WF priorityCapacity
    rw [hr]
    exact h.rtx

/-! ### Rolling a frame back -/

section

variable (h : Good n e)

include h

lemma Good.closed (hwf : q.WF) (hn : NoNotes q)
    (hlist : q.contents = (e.queues k).contents.take (e.queues k).readyCount)
    (l : List (Entry (Wire ℕ))) :
    let r := (e.setQueue k q).discard l
    Good n r ∧ e.inFlight = r.inFlight + ofList ((e.openFrame k).map Entry.data) := by
  set e1 := (e.setQueue k q).discard l
  have hsplit : e.queued k = ofList (q.contents.map Entry.data) +
      ofList ((e.openFrame k).map Entry.data) := by
    rw [hlist, Multiset.coe_add, ← map_append]
    unfold openFrame
    rw [take_append_drop]
    rfl
  have hself : e1.queues k = q := queues_setQueue_self e k q
  refine ⟨?_, ?_⟩
  · refine h.setQueue hwf hn ?_
    rw [filterMap_discarded, hsplit]
    exact Multiset.le_add_right _ _
  · have hne : ∀ k' ≠ k, e1.queues k' = e.queues k' :=
      fun k' hk' => queues_setQueue_of_ne hk' q
    rw [inFlight_eq e k, inFlight_eq _ k, others_eq hne, wire_discard, hsplit]
    change _ = ofList e.wire + e.waiting +
      (ofList ((e1.queues k).contents.map Entry.data) + e.others k) + _
    rw [hself]
    abel

lemma Good.giveBackOpen (hwf : q.WF) (hn : NoNotes q)
    (hlist : q.contents = (e.queues k).contents.take (e.queues k).readyCount)
    (l : List (Entry (Wire ℕ))) {y : UInt32}
    (hown : ((e.openFrame k).map Entry.data).reverse <+: e.kept y) {count : UInt16}
    (hcount : count.toNat = (e.openFrame k).length) :
    Good n (((e.setQueue k q).discard l).giveBack y count) := by
  obtain ⟨hg, hflight⟩ := h.closed hwf hn hlist l
  obtain ⟨older, hold⟩ := hown
  generalize hb : (e.setQueue k q).discard l = b at *
  have hkept : b.kept = e.kept := by
    rw [← hb]
    rfl
  set c := b.giveBack y count
  have hself : c.kept y = older := by
    change update b.kept y _ y = older
    have hlen : (e.openFrame k).length = ((e.openFrame k).map Entry.data).reverse.length := by
      simp
    rw [update_self, hkept, ← hold, hcount, hlen, drop_left]
  have hsame : c.inFlight = b.inFlight := inFlight_congr rfl rfl rfl
  refine ⟨hg.toLedgered.giveBack y count, hg.queue, hg.notes, hg.rtx, hsame ▸ hg.flight, ?_⟩
  rw [hsame]
  intro w hw
  have hin : w ∈ e.inFlight := by
    rw [hflight]
    exact Multiset.mem_add.2 (.inl hw)
  have hmem := h.kept w hin
  rcases eq_or_ne w.ssrc y with hs | hs
  · rw [hs, ← hold] at hmem
    rw [hs, hself]
    rcases mem_append.1 hmem with hgone | hstay
    · have hnd := h.flight
      rw [hflight] at hnd
      have hdisj := (Multiset.nodup_add.1 hnd).2.2
      exact absurd (Multiset.mem_coe.2 (mem_reverse.1 hgone)) (Multiset.disjoint_left.1 hdisj hw)
    · exact hstay
  · change w ∈ update b.kept y _ w.ssrc
    rw [update_of_ne hs, hkept]
    exact hmem

lemma Good.invalidate (source : Svc.MediaKind) (publisher : ℕ) :
    Good n (e.invalidatePublisherScheduler source publisher) := by
  unfold invalidatePublisherScheduler
  split
  · exact h
  · exact h.of_eq rfl rfl rfl rfl rfl

lemma Good.invalidateKnown (source : Svc.MediaKind) (publisher : ℕ) :
    Good n (e.invalidateKnown source publisher) := by
  unfold Egress.invalidateKnown
  split
  · exact h.invalidate source publisher
  · exact h

end

/-- A queue that has rolled its open frame back, before the caller has read its notes. -/
structure RolledBack (q r : PacedSend (Wire ℕ)) : Prop where
  wf : r.WF
  contents : r.contents = q.contents.take q.readyCount
  ready : r.readyCount = q.readyCount
  idle : q.inputFrameQueuedPackets = 0 → NoNotes q → NoNotes r
  packets : q.inputFrameQueuedPackets ≠ 0 →
    r.rolledBackPacketCount = UInt16.ofNat q.inputFrameQueuedPackets
  ssrc : q.inputFrameQueuedPackets ≠ 0 → r.rolledBackMediaSsrc =
    (((q.contents.drop q.readyCount).map (·.metadata.mediaSsrc)).find? (· ≠ 0)).getD
      q.rolledBackMediaSsrc

lemma length_openFrame (h : Good n e) (k : QueueId) :
    (e.openFrame k).length = (e.queues k).inputFrameQueuedPackets := by
  have := (h.queue k).count
  unfold openFrame
  rw [length_drop, PacedSend.length_contents]
  omega

lemma queued_le_capacity (h : Good n e) (k : QueueId) :
    (e.queues k).inputFrameQueuedPackets ≤ 512 := by
  have h1 := (h.queue k).count
  have h2 : (e.queues k).ring.count ≤ 512 := (h.queue k).ring.count_le
  omega

/-- **A rolled back frame** gives numbers back under the SSRC of its route, as many as packets were
taken out. -/
theorem good_invalidateRolledBackFrame (h : Good n e) (hown : e.OwnNumbers k)
    (hr : RolledBack (e.queues k) q) (l : List (Entry (Wire ℕ))) (m : Media) :
    Good n (((e.setQueue k q).discard l).invalidateRolledBackFrame m k) := by
  have hself : ((e.setQueue k q).discard l).queues k = q := queues_setQueue_self e k q
  have hidem : ((e.setQueue k q).discard l).setQueue k (clearNotes q) =
      (e.setQueue k (clearNotes q)).discard l := by
    unfold Egress.setQueue Egress.discard Egress.record
    simp only [update_idem]
  have hclear : (clearNotes q).WF := { hr.wf with }
  unfold invalidateRolledBackFrame
  rw [hself]
  rcases Nat.eq_zero_or_pos (e.queues k).inputFrameQueuedPackets with h0 | hpos
  · -- nothing was rolled back
    have hn := hr.idle h0 (h.notes k)
    rw [if_pos ⟨hn.1, hn.2.2⟩]
    exact (h.closed hr.wf hn hr.contents l).1
  have hlen := length_openFrame h k
  have hcap := queued_le_capacity h k
  have hcount : q.rolledBackPacketCount.toNat = (e.openFrame k).length := by
    rw [hr.packets hpos.ne', hlen, UInt16.toNat_ofNat', Nat.mod_eq_of_lt (by omega)]
  have hne : q.rolledBackPacketCount ≠ 0 := by
    intro hz
    rw [hz] at hcount
    change 0 = _ at hcount
    omega
  have hssrc : q.rolledBackMediaSsrc = (e.rollbackSsrc k).getD 0 := by
    rw [hr.ssrc hpos.ne', (h.notes k).2.1]
    rfl
  rw [if_neg (fun hz => hne hz.2)]
  refine Good.invalidateKnown ?_ _ _
  unfold giveBackRolledBack
  dsimp only
  rw [hself, hidem]
  split
  · rename_i hs
    cases hx : e.rollbackSsrc k with
    | none =>
      rw [hx] at hssrc
      exact absurd hssrc hs.1
    | some x =>
      rw [hx] at hssrc
      rw [show q.rolledBackMediaSsrc = x from hssrc]
      exact h.giveBackOpen hclear ⟨rfl, rfl, rfl⟩ hr.contents l (hown x hx) hcount
  · exact (h.closed hclear ⟨rfl, rfl, rfl⟩ hr.contents l).1

end Egress

end MezonSfu.Pipeline
