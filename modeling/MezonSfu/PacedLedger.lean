import MezonSfu.PacedCallers
import MezonSfu.Pacer
import MezonSfu.Runs

/-!
Any number of paced queues that share one pacer: the counts of every queue, and the account of
the reservations.

A reservation is in a variable of the caller, in an entry of a queue, or settled. What has been
issued and settled is history. Two totals are kept equal to what is held, by one argument: the
bytes the pacer has reserved, and, for each number, whether that reservation is out.
-/

namespace MezonSfu.Paced

open Function List

/-- The pacer, with how many reservations were made and which ones were settled how. -/
structure Books where
  pacer : Pacer
  issued : ℕ
  committed : List ℕ
  cancelled : List ℕ

namespace Books

def init : Books := ⟨.init, 0, [], []⟩

variable (b : Books)

def setRate (bps : ℕ) (nowUs : ℤ) : Books := { b with pacer := b.pacer.setRate bps nowUs }

def reserve (cls : PacerClass) (bytes : ℕ) (allowCongestionDrop : Bool) (nowUs : ℤ)
    (r : Reservation) : Books × Reservation :=
  let made := b.pacer.reserve cls bytes allowCongestionDrop nowUs b.issued r
  ({ b with pacer := made.1, issued := if made.2.2 then b.issued + 1 else b.issued }, made.2.1)

def commit (r : Reservation) : Books :=
  { b with
    pacer := b.pacer.commit r
    committed := if r.active then b.committed ++ [r.id] else b.committed }

def cancel (r : Reservation) : Books :=
  { b with
    pacer := b.pacer.cancel r
    cancelled := if r.active then b.cancelled ++ [r.id] else b.cancelled }

def settle : Exit Reservation → Books
  | .committed e => b.commit e.data
  | .cancelled e => b.cancel e.data

end Books

/-- The queues `κ` of a subscriber, the variables `ι` of the callers, and the books. -/
structure Shared (κ ι : Type*) where
  books : Books
  callers : Callers κ Reservation
  hands : ι → Reservation

variable {κ ι : Type*}

inductive SharedOp (κ ι : Type*)
  | setRate (bps : ℕ) (nowUs : ℤ)
  | reserve (h : ι) (cls : PacerClass) (bytes : ℕ) (allowCongestionDrop : Bool) (nowUs : ℤ)
  | commit (h : ι)
  | cancel (h : ι)
  | enqueue (k : κ) (h : ι) (len dst pacingBps : ℕ) (metadata : Metadata) (allocated : Bool)
      (nowUs : ℤ)
  | call (k : κ) (c : Call Reservation)

namespace Shared

variable [DecidableEq κ] [DecidableEq ι]

def init : Shared κ ι := ⟨.init, .init, fun _ => .zero⟩

/-- Put a packet in with the reservation of `h`, which is handed over. -/
def enqueue (s : Shared κ ι) (k : κ) (h : ι) (len dst pacingBps : ℕ) (metadata : Metadata)
    (allocated : Bool) (nowUs : ℤ) : Shared κ ι :=
  if (s.hands h).active then
    match (s.callers.queues k).enqueue (s.hands h) len dst pacingBps metadata allocated nowUs with
    | none => s
    | some q =>
      { s with
        callers := s.callers.put k q
        hands := update s.hands h (s.hands h).release }
  else s

def apply (s : Shared κ ι) : SharedOp κ ι → Shared κ ι
  | .setRate bps nowUs => { s with books := s.books.setRate bps nowUs }
  | .reserve h cls bytes allowCongestionDrop nowUs =>
    let made := s.books.reserve cls bytes allowCongestionDrop nowUs (s.hands h)
    { s with books := made.1, hands := update s.hands h made.2 }
  | .commit h =>
    { s with
      books := s.books.commit (s.hands h)
      hands := update s.hands h (s.hands h).release }
  | .cancel h =>
    { s with
      books := s.books.cancel (s.hands h)
      hands := update s.hands h (s.hands h).release }
  | .enqueue k h len dst pacingBps metadata allocated nowUs =>
    s.enqueue k h len dst pacingBps metadata allocated nowUs
  | .call k c =>
    { s with
      books := ((s.callers.queues k).exits c).foldl Books.settle s.books
      callers := s.callers.call k c }

omit [DecidableEq κ] [DecidableEq ι] in
def Keeps (s : Shared κ ι) : SharedOp κ ι → Prop
  | .enqueue k _ _ _ _ metadata _ _ => s.callers.MayEnqueue k metadata
  | .call k c => s.callers.MayCall k c
  | _ => True

instance (s : Shared κ ι) (op) : Decidable (s.Keeps op) := by
  cases op <;> (unfold Keeps; infer_instance)

/-- Putting a packet in fails and changes nothing, or appends it with its reservation. -/
lemma enqueue_spec (s : Shared κ ι) (k : κ) (h : ι) (len dst pacingBps : ℕ)
    (metadata : Metadata) (allocated : Bool) (nowUs : ℤ) :
    let op := .enqueue k h len dst pacingBps metadata allocated nowUs
    s.apply op = s ∨
      ∃ q, (s.callers.queues k).enqueue (s.hands h) len dst pacingBps metadata allocated nowUs =
          some q ∧
        s.apply op = { s with
            callers := s.callers.put k q
            hands := update s.hands h (s.hands h).release } := by
  unfold apply enqueue
  dsimp only
  split_ifs with hact
  · cases hq : (s.callers.queues k).enqueue (s.hands h) len dst pacingBps metadata allocated
        nowUs with
    | none => exact .inl rfl
    | some q => exact .inr ⟨q, rfl, rfl⟩
  · exact .inl rfl

/-- **One step** keeps the queues in order. -/
theorem ordered_apply {s : Shared κ ι} (h : s.callers.Ordered) {op : SharedOp κ ι}
    (hk : s.Keeps op) : (s.apply op).callers.Ordered := by
  cases op with
  | setRate | reserve | commit | cancel => exact h
  | enqueue k i len dst pacingBps metadata allocated nowUs =>
    rcases s.enqueue_spec k i len dst pacingBps metadata allocated nowUs with
      hsame | ⟨q, hq, heq⟩
    · rw [hsame]
      exact h
    · rw [heq]
      exact h.put hk hq
  | call k c => exact h.call hk

lemma moved_apply {s : Shared κ ι} (h : s.callers.Ordered) {op : SharedOp κ ι}
    (hk : s.Keeps op) (k : κ) :
    (∃ e, ((s.apply op).callers.queues k).contents = (s.callers.queues k).contents ++ [e]) ∨
      PacedSend.Left (s.callers.queues k) ((s.apply op).callers.queues k) := by
  cases op with
  | setRate | reserve | commit | cancel => exact .inr (.same rfl)
  | enqueue j i len dst pacingBps metadata allocated nowUs =>
    rcases s.enqueue_spec j i len dst pacingBps metadata allocated nowUs with
      hsame | ⟨q, hq, heq⟩
    · rw [hsame]
      exact .inr (.same rfl)
    · rw [heq]
      rcases h.entered hq k with ⟨e, -, -, hcont⟩ | hcont
      · exact .inl ⟨e.fixed, hcont⟩
      · exact .inr (.same hcont)
  | call j c => exact .inr (h.left hk k)

end Shared

/-! ### The account of the reservations -/

/-- The weight `w` of a reservation is what `total` loses when it is settled and gains when it is
made. -/
structure Tracks (total : Books → ℤ) (w : Reservation → ℤ) : Prop where
  inactive : ∀ r, r.active = false → w r = 0
  setRate : ∀ b bps nowUs, total (Books.setRate b bps nowUs) = total b
  reserve : ∀ b cls bytes allowCongestionDrop nowUs r,
    total (Books.reserve b cls bytes allowCongestionDrop nowUs r).1 =
      total b - w r + w (Books.reserve b cls bytes allowCongestionDrop nowUs r).2
  commit : ∀ b r, total (Books.commit b r) = total b - w r
  cancel : ∀ b r, total (Books.cancel b r) = total b - w r

/-- One when the reservation is out and has the number `i`. -/
def Reservation.mark (i : ℕ) (r : Reservation) : ℤ := if r.active = true ∧ r.id = i then 1 else 0

/-- One when the reservation number `i` was made and is not settled. -/
def Books.unsettled (i : ℕ) (b : Books) : ℤ :=
  (if i < b.issued then 1 else 0) - b.committed.count i - b.cancelled.count i

lemma tracks_charge : Tracks (·.pacer.reservedBytes) Reservation.charge where
  inactive r hr := by
    unfold Reservation.charge
    rw [hr]
    rfl
  setRate b bps nowUs := b.pacer.reservedBytes_setRate bps nowUs
  reserve b cls bytes allowCongestionDrop nowUs r := by
    rcases b.pacer.reserve_cases cls bytes allowCongestionDrop nowUs b.issued r with
      ⟨-, hr, hp⟩ | ⟨-, hact, -, -, hp⟩
    · change (b.pacer.reserve _ _ _ _ _ _).1.reservedBytes =
        b.pacer.reservedBytes - r.charge + (b.pacer.reserve _ _ _ _ _ _).2.1.charge
      rw [hp, hr, sub_add_cancel]
    change (b.pacer.reserve _ _ _ _ _ _).1.reservedBytes =
      b.pacer.reservedBytes - r.charge + (b.pacer.reserve _ _ _ _ _ _).2.1.charge
    have h0 : r.charge = 0 := by
      unfold Reservation.charge
      rw [hact]
      rfl
    rw [hp, h0, sub_zero]
  commit b r := b.pacer.reservedBytes_commit r
  cancel b r := b.pacer.reservedBytes_cancel r

lemma count_append_mark (l : List ℕ) (i : ℕ) (r : Reservation) :
    (((if r.active then l ++ [r.id] else l).count i : ℕ) : ℤ) = l.count i + r.mark i := by
  unfold Reservation.mark
  cases r.active with
  | false => simp
  | true =>
    by_cases hi : r.id = i <;> simp [hi]

lemma tracks_mark (i : ℕ) : Tracks (Books.unsettled i) (Reservation.mark i) where
  inactive r hr := by
    unfold Reservation.mark
    rw [hr, if_neg (by simp)]
  setRate _ _ _ := rfl
  reserve b cls bytes allowCongestionDrop nowUs r := by
    rcases b.pacer.reserve_cases cls bytes allowCongestionDrop nowUs b.issued r with
      ⟨hmade, hr, -⟩ | ⟨hmade, hact, hact', hid, -⟩
    · set b1 := b.reserve cls bytes allowCongestionDrop nowUs r
      have hissued : b1.1.issued = b.issued := if_neg (by rw [hmade]; decide)
      have hvar : b1.2 = r := hr
      unfold Books.unsettled
      rw [hissued, hvar, sub_add_cancel]
      rfl
    · have hissued : (b.reserve cls bytes allowCongestionDrop nowUs r).1.issued = b.issued + 1 :=
        if_pos hmade
      have hnew : (b.reserve cls bytes allowCongestionDrop nowUs r).2.mark i =
          if b.issued = i then 1 else 0 := by
        change (if (b.pacer.reserve _ _ _ _ _ _).2.1.active ∧
          (b.pacer.reserve _ _ _ _ _ _).2.1.id = i then (1 : ℤ) else 0) = _
        rw [hact', hid]
        simp
      have hold : r.mark i = 0 := by
        unfold Reservation.mark
        rw [hact, if_neg (by simp)]
      rw [hnew, hold]
      unfold Books.unsettled
      rw [hissued]
      change (if i < b.issued + 1 then (1 : ℤ) else 0) - b.committed.count i -
        b.cancelled.count i = _
      split_ifs <;> omega
  commit b r := by
    have hcount := count_append_mark b.committed i r
    unfold Books.unsettled Books.commit
    dsimp only
    rw [hcount]
    ring
  cancel b r := by
    have hcount := count_append_mark b.cancelled i r
    unfold Books.unsettled Books.cancel
    dsimp only
    rw [hcount]
    ring

namespace Tracks

variable {total : Books → ℤ} {w : Reservation → ℤ}

lemma release (h : Tracks total w) (r : Reservation) : w r.release = 0 := h.inactive _ rfl

lemma settle (h : Tracks total w) (l : List (Exit Reservation)) (b : Books) :
    total (l.foldl Books.settle b) = total b - ((l.map Exit.data).map w).sum := by
  induction l generalizing b with
  | nil => simp
  | cons x l ih =>
    have hx : total (b.settle x) = total b - w x.data := by
      cases x with
      | committed e => exact h.commit b e.data
      | cancelled e => exact h.cancel b e.data
    rw [foldl_cons, ih, hx, map_cons, map_cons, sum_cons]
    ring

end Tracks

lemma sum_update {α β : Type*} [Fintype α] [DecidableEq α] (f : α → β) (g : β → ℤ) (a : α)
    (b : β) : ∑ x, g (update f a b x) = ∑ x, g (f x) - g (f a) + g b := by
  have h := Finset.sum_update_of_mem (Finset.mem_univ a) (g ∘ f) (g b)
  rw [← comp_update, Finset.sdiff_singleton_eq_erase,
    Finset.sum_erase_eq_sub (Finset.mem_univ a)] at h
  exact h.trans (add_comm ..)

lemma sum_items_update [Fintype κ] [DecidableEq κ] (queues : κ → PacedSend Reservation)
    (w : Reservation → ℤ) (k : κ) (q : PacedSend Reservation) :
    ∑ j, ((update queues k q j).items.map w).sum =
      ∑ j, ((queues j).items.map w).sum - ((queues k).items.map w).sum + (q.items.map w).sum :=
  sum_update queues (fun q => (q.items.map w).sum) k q

namespace Shared

variable [Fintype κ] [Fintype ι]

/-- The weight of all reservations in the queues and in the hands of the callers. -/
def held (w : Reservation → ℤ) (s : Shared κ ι) : ℤ :=
  ∑ k, (((s.callers.queues k).items.map w).sum) + ∑ h, w (s.hands h)

variable [DecidableEq κ] [DecidableEq ι] {total : Books → ℤ} {w : Reservation → ℤ}

omit [DecidableEq κ] [DecidableEq ι] in
lemma held_init (h : Tracks total w) : (init : Shared κ ι).held w = 0 := by
  have hz : w Reservation.zero = 0 := h.inactive _ rfl
  have hnil : ((PacedSend.init : PacedSend Reservation).items.map w).sum = 0 := rfl
  simp [held, init, Callers.init, hz, hnil]

/-- **One step** keeps a tracked total equal to what is held. -/
theorem balanced_apply (ht : Tracks total w) {s : Shared κ ι} (ho : s.callers.Ordered)
    (h : total s.books = s.held w) {op : SharedOp κ ι} (hk : s.Keeps op) :
    total (s.apply op).books = (s.apply op).held w := by
  unfold held at h ⊢
  cases op with
  | setRate bps nowUs => exact (ht.setRate s.books bps nowUs).trans h
  | reserve i cls bytes allowCongestionDrop nowUs =>
    change total (s.books.reserve cls bytes allowCongestionDrop nowUs (s.hands i)).1 =
      ∑ k, ((s.callers.queues k).items.map w).sum + ∑ j, w (update s.hands i _ j)
    rw [sum_update, ht.reserve, h]
    ring
  | commit i =>
    change total (s.books.commit (s.hands i)) =
      ∑ k, ((s.callers.queues k).items.map w).sum + ∑ j, w (update s.hands i _ j)
    rw [sum_update, ht.commit, ht.release, h]
    ring
  | cancel i =>
    change total (s.books.cancel (s.hands i)) =
      ∑ k, ((s.callers.queues k).items.map w).sum + ∑ j, w (update s.hands i _ j)
    rw [sum_update, ht.cancel, ht.release, h]
    ring
  | enqueue k i len dst pacingBps metadata allocated nowUs =>
    rcases s.enqueue_spec k i len dst pacingBps metadata allocated nowUs with
      hsame | ⟨q, hq, heq⟩
    · rw [hsame]
      exact h
    have hitems := (PacedSend.enqueue_lists (ho.wf k) hk.2 hq).1
    rw [heq]
    change total s.books =
      ∑ j, ((update s.callers.queues k q j).items.map w).sum + ∑ j, w (update s.hands i _ j)
    rw [sum_items_update, sum_update, hitems, ht.release, map_append, sum_append,
      map_singleton, sum_singleton, h]
    ring
  | call k c =>
    have hbalance := ((ho.callSpec hk).balance.map w).sum_eq
    rw [map_append, sum_append] at hbalance
    change total (((s.callers.queues k).exits c).foldl Books.settle s.books) =
      ∑ j, ((update s.callers.queues k ((s.callers.queues k).call c) j).items.map w).sum +
        ∑ j, w (s.hands j)
    rw [sum_items_update, ht.settle, h, ← hbalance]
    ring

/-- Everything that is kept along a run. -/
structure Inv (s : Shared κ ι) : Prop where
  ordered : s.callers.Ordered
  reserved : s.books.pacer.reservedBytes = s.held Reservation.charge
  unsettled : ∀ i, s.books.unsettled i = s.held (Reservation.mark i)

omit [DecidableEq κ] [DecidableEq ι] in
lemma inv_init : (init : Shared κ ι).Inv where
  ordered := Callers.ordered_init
  reserved := (held_init tracks_charge).symm
  unsettled i := (held_init (tracks_mark i)).symm

lemma Inv.apply {s : Shared κ ι} (h : s.Inv) {op : SharedOp κ ι} (hk : s.Keeps op) :
    (s.apply op).Inv where
  ordered := ordered_apply h.ordered hk
  reserved := balanced_apply tracks_charge h.ordered h.reserved hk
  unsettled i := balanced_apply (tracks_mark i) h.ordered (h.unsettled i) hk

def run (ops : List (SharedOp κ ι)) : Shared κ ι := Runs.run apply init ops

lemma inv_run {ops : List (SharedOp κ ι)} (h : Runs.Along apply Keeps init ops) : (run ops).Inv :=
  Runs.run_inv_along apply (I := Inv) (fun _ _ hs hk => hs.apply hk) inv_init h

omit [DecidableEq κ] [DecidableEq ι] in
lemma held_mark_nonneg (i : ℕ) (s : Shared κ ι) : 0 ≤ s.held (Reservation.mark i) := by
  have hmark : ∀ r : Reservation, 0 ≤ r.mark i := by
    intro r
    unfold Reservation.mark
    split_ifs <;> decide
  refine add_nonneg (Finset.sum_nonneg fun k _ => ?_) (Finset.sum_nonneg fun h _ => hmark _)
  refine sum_nonneg fun x hx => ?_
  obtain ⟨r, -, rfl⟩ := mem_map.1 hx
  exact hmark r

omit [DecidableEq κ] [DecidableEq ι] in
/-- A reservation that was made is out in one place, or it was settled once. -/
lemma Inv.settled_once {s : Shared κ ι} (h : s.Inv) {i : ℕ} (hi : i < s.books.issued) :
    (s.held (Reservation.mark i) = 1 ∧ i ∉ s.books.committed ∧ i ∉ s.books.cancelled) ∨
      (s.held (Reservation.mark i) = 0 ∧
        s.books.committed.count i + s.books.cancelled.count i = 1) := by
  have hout := h.unsettled i
  have hpos := held_mark_nonneg i s
  unfold Books.unsettled at hout
  rw [if_pos hi] at hout
  rw [← count_eq_zero, ← count_eq_zero]
  omega

/-- The indices and counts of a queue fit together. -/
structure Counted (q : PacedSend Reservation) : Prop where
  tail : q.ring.tail = (q.ring.head + q.ring.count) % capacity
  count : q.ring.count = q.readyCount + q.inputFrameQueuedPackets
  frames : q.readyFrameCount = (q.toList.take q.readyCount).countP (·.metadata.frameEnd)

lemma counted_of_framed {q : PacedSend Reservation} (h : q.WF) (hf : q.Framed) : Counted q where
  tail := h.ring.tail_eq
  count := h.count
  frames := by
    have hcount := hf.count
    unfold PacedSend.ends at hcount
    rw [hcount, ← map_take, List.count, countP_map]
    exact countP_congr fun e _ => by simp

/-- **The paced queues and the pacer they share**, in every state that the callers can reach: the
indices and counts of every queue fit together, the reserved bytes are the charges of the
reservations that are out, every reservation is settled once, and in the next step packets enter
at the tail and leave from the head in their order or from the tail as a whole frame. -/
theorem paced_counts_and_reservations (ops : List (SharedOp κ ι))
    (h : Runs.Along apply Keeps (init : Shared κ ι) ops) :
    (∀ k, Counted ((run ops).callers.queues k)) ∧
      (run ops).books.pacer.reservedBytes = (run ops).held Reservation.charge ∧
      (∀ i < (run ops).books.issued,
        ((run ops).held (Reservation.mark i) = 1 ∧ i ∉ (run ops).books.committed ∧
          i ∉ (run ops).books.cancelled) ∨
        ((run ops).held (Reservation.mark i) = 0 ∧
          (run ops).books.committed.count i + (run ops).books.cancelled.count i = 1)) ∧
      (∀ op, (run ops).Keeps op → ∀ k,
        (∃ e, (((run ops).apply op).callers.queues k).contents =
          ((run ops).callers.queues k).contents ++ [e]) ∨
        PacedSend.Left ((run ops).callers.queues k) (((run ops).apply op).callers.queues k)) := by
  have hinv := inv_run h
  exact ⟨fun k => counted_of_framed (hinv.ordered.wf k) (hinv.ordered.framed k), hinv.reserved,
    fun i hi => hinv.settled_once hi, fun op hk k => moved_apply hinv.ordered hk k⟩

/-- One packet is sent; a second one is queued and rolled back; the pacer is switched off in
between. -/
def sentAndRolledBack : List (SharedOp Unit Unit) :=
  let presented (t : UInt32) : SharedOp Unit Unit :=
    .call () (.admitFramePacket t false true false 200000 0)
  let queued : SharedOp Unit Unit := .enqueue () () 1200 1 1000000 default true 0
  [.setRate 1000000 0, .reserve () .videoBase 1200 false 0, presented 1, queued,
    .call () .finishInputFrame, .setRate 0 0, .reserve () .videoEnh 900 true 0, presented 2,
    queued, .call () (.drain (fun _ => true) (fun _ => true) 100000 4),
    .call () .rollbackInputFrame, .call () .rejectInputFrame]

theorem paced_counts_and_reservations_sent :
    Runs.Along apply Keeps init sentAndRolledBack ∧
      (run sentAndRolledBack).books.committed = [0] ∧
      (run sentAndRolledBack).books.cancelled = [1] ∧
      (run sentAndRolledBack).books.pacer.reservedBytes =
        (run sentAndRolledBack).held Reservation.charge :=
  have hkeeps : Runs.Along apply Keeps init sentAndRolledBack := by decide +kernel
  ⟨hkeeps, by decide +kernel, by decide +kernel,
    (paced_counts_and_reservations sentAndRolledBack hkeeps).2.1⟩

end Shared

end MezonSfu.Paced
