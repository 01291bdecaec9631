import MezonSfu.TwccReports

/-!
Arrivals that come round again.

A number is stale in a report if its last window came after its last recording. The entries carry
the full 16-bit number, so this needs a whole turn of the numbers in which nothing was written to
the cell.
-/

namespace MezonSfu.Twcc

open List Runs

/-- A number that `p` holds of has been recorded since the last window that covered `x`, or no
window covered it. -/
def recordedSince (p : UInt16 → Bool) (x : UInt16) : List Event → Bool
  | [] => true
  | .recorded y :: log => p y || recordedSince p x log
  | .window w :: log => !w.covers x && recordedSince p x log

/-- `x` itself has been recorded since its last window. -/
def fresh (x : UInt16) (log : List Event) : Bool := recordedSince (· == x) x log

def sameCell (x y : UInt16) : Bool := x.toNat % recvCapacity == y.toNat % recvCapacity

/-- The cell of `x` has been written since the last window of `x`. -/
def rewritten (x : UInt16) (log : List Event) : Bool := recordedSince (sameCell x) x log

/-- No report called a number received that was not recorded since its last window. -/
def neverStale : List Event → Bool
  | [] => true
  | .recorded _ :: log => neverStale log
  | .window w :: log => w.received.all (fresh · log) && neverStale log

def lastRecorded (cell : ℕ) : List Event → Option UInt16
  | [] => none
  | .recorded y :: log => if y.toNat % recvCapacity = cell then some y else lastRecorded cell log
  | .window _ :: log => lastRecorded cell log

variable {x : UInt16} {log : List Event}

lemma fresh_of_rewritten (hlast : lastRecorded (x.toNat % recvCapacity) log = some x)
    (h : rewritten x log) : fresh x log := by
  unfold rewritten at h
  unfold fresh
  induction log with
  | nil => rfl
  | cons e log ih =>
    cases e with
    | recorded y =>
      unfold lastRecorded at hlast
      unfold recordedSince at h ⊢
      rw [Bool.or_eq_true] at h ⊢
      split at hlast
      · rw [Option.some.injEq] at hlast
        exact .inl (beq_iff_eq.2 hlast)
      · rename_i hcell
        have hother : sameCell x y = false := beq_eq_false_iff_ne.2 fun he => hcell he.symm
        rw [hother] at h
        exact .inr (ih hlast (h.resolve_left Bool.false_ne_true))
    | window w =>
      unfold recordedSince at h ⊢
      rw [Bool.and_eq_true] at h ⊢
      exact ⟨h.1, ih hlast h.2⟩

structure Reports.Tracks (s : Reports) : Prop where
  entries : ∀ cell, (s.tracker.entries cell).valid = true →
    lastRecorded cell s.log = some (s.tracker.entries cell).seq
  fresh : neverStale s.log = true

/-- Every number of the window that was in a window before has had its cell written since. -/
def Reports.Rewritten (s : Reports) : TrackerOp → Prop
  | .record _ _ => True
  | .build _ _ _ _ => ∀ i < s.tracker.window, rewritten (s.tracker.number i) s.log = true

instance (s : Reports) (op : TrackerOp) : Decidable (s.Rewritten op) := by
  cases op <;> (unfold Reports.Rewritten; infer_instance)

lemma Reports.Tracks.received_fresh {s : Reports} (h : s.Tracks)
    (hc : ∀ i < s.tracker.window, rewritten (s.tracker.number i) s.log)
    (hx : x ∈ s.tracker.received) : Twcc.fresh x s.log := by
  obtain ⟨i, hi, rfl, hsome⟩ := mem_received.1 hx
  obtain ⟨hvalid, hseq⟩ := arrival_isSome.1 hsome
  have hlast := h.entries _ hvalid
  rw [hseq] at hlast
  exact fresh_of_rewritten hlast (hc i hi)

lemma Reports.Tracks.step {s : Reports} (h : s.Tracks) {op : TrackerOp} (hc : s.Rewritten op) :
    (s.step op).Tracks := by
  cases op with
  | record seq arrivalUs =>
    refine ⟨?_, h.fresh⟩
    intro cell hvalid
    change ((recvTrackerRecord s.tracker seq arrivalUs).entries cell).valid at hvalid
    change lastRecorded cell (.recorded seq :: s.log) =
      some ((recvTrackerRecord s.tracker seq arrivalUs).entries cell).seq
    rw [(record_spec ..).1] at hvalid ⊢
    unfold lastRecorded
    split
    · rename_i hcell
      rw [← hcell, Function.update_self]
    · rename_i hcell
      rw [Function.update_of_ne (Ne.symm hcell)] at hvalid ⊢
      exact h.entries cell hvalid
  | build senderSsrc mediaSsrc nowUs cap =>
    rcases step_build s senderSsrc mediaSsrc nowUs cap with hsame | ⟨-, hlog, hentries, -⟩
    · rw [hsame]
      exact h
    constructor
    · intro cell hvalid
      rw [hentries] at hvalid ⊢
      rw [hlog]
      exact h.entries cell hvalid
    · rw [hlog]
      unfold neverStale
      rw [Bool.and_eq_true, all_eq_true]
      exact ⟨fun x hx => h.received_fresh hc hx, h.fresh⟩

/-! ### A turn of the numbers -/

open Reports (step init Rewritten)

variable {s : Reports} {n : ℕ}

lemma toNat_sub_add {a b : UInt16} {k : ℕ} (h : k ≤ (a - b).toNat) :
    (a - (b + UInt16.ofNat k)).toNat = (a - b).toNat - k := by
  have ha := a.toNat_lt
  have hb := b.toNat_lt
  rw [UInt16.toNat_sub] at h
  rw [UInt16.toNat_sub, UInt16.toNat_sub, UInt16.toNat_add, UInt16.toNat_ofNat']
  omega

/-- A stretch of `n` whole windows in which nothing was received. -/
@[mk_iff] structure RecvTracker.Empty (t : RecvTracker) (n : ℕ) : Prop where
  started : t.started = true
  behind : 256 * n ≤ (t.latestSeq - t.reportStartSeq).toNat
  ahead : (t.latestSeq - t.reportStartSeq).toNat < 0x8000
  entries : ∀ cell < recvCapacity, (t.entries cell).valid = true →
    256 * n ≤ ((t.entries cell).seq - t.reportStartSeq).toNat

instance (t : RecvTracker) (n : ℕ) : Decidable (t.Empty n) :=
  decidable_of_iff _ (RecvTracker.empty_iff t n).symm

/-- The tracker behind `n` windows. -/
def RecvTracker.past (t : RecvTracker) (n : ℕ) : RecvTracker :=
  { t with reportStartSeq := t.reportStartSeq + UInt16.ofNat (256 * n) }

variable {t : RecvTracker}

lemma RecvTracker.Empty.pending (h : t.Empty n) : recvTrackerPending t := by
  unfold recvTrackerPending
  rw [decide_eq_true_eq]
  exact ⟨h.started, h.ahead⟩

lemma RecvTracker.Empty.build (h : t.Empty (n + 1)) :
    feedbackBuild t 1 2 0 1500 = (t.past 1, .nothing) := by
  have hbehind := h.behind
  have hwindow : t.window = 256 := min_eq_right (by
    unfold feedbackMaxPackets
    omega)
  have hnone : t.arrivals.all Option.isNone := by
    rw [all_eq_true]
    intro a ha
    obtain ⟨i, hi, rfl⟩ := mem_map.1 ha
    rw [mem_range, hwindow] at hi
    by_contra hsome
    rw [Option.isNone_iff_eq_none, ← ne_eq, ← Option.isSome_iff_ne_none] at hsome
    obtain ⟨hvalid, hseq⟩ := arrival_isSome.1 hsome
    have hfar := h.entries _ (Nat.mod_lt _ (by decide)) hvalid
    -- an entry that carries a number of the window is less than a window away
    rw [hseq] at hfar
    unfold RecvTracker.number at hfar
    rw [UInt16.toNat_sub, UInt16.toNat_add, UInt16.toNat_ofNat'] at hfar
    have := t.reportStartSeq.toNat_lt
    omega
  unfold feedbackBuild
  rw [if_pos h.pending, hwindow]
  dsimp only
  rw [if_pos hnone]
  rfl

lemma RecvTracker.Empty.rest (h : t.Empty (n + 1)) : (t.past 1).Empty n := by
  have hone : ∀ {a : UInt16}, 256 * (n + 1) ≤ (a - t.reportStartSeq).toNat →
      (a - (t.past 1).reportStartSeq).toNat = (a - t.reportStartSeq).toNat - 256 :=
    fun hle => toNat_sub_add (by omega)
  have hbehind := h.behind
  have hahead := h.ahead
  refine ⟨h.started, ?_, ?_, ?_⟩
  · change _ ≤ (t.latestSeq - _).toNat
    rw [hone hbehind]
    omega
  · change (t.latestSeq - _).toNat < _
    rw [hone hbehind]
    omega
  · intro cell hcell hvalid
    have hle := h.entries cell hcell hvalid
    change _ ≤ ((t.entries cell).seq - _).toNat
    rw [hone hle]
    omega

lemma run_empty (h : s.tracker.Empty n) :
    (run step s (replicate n (.build 1 2 0 1500))).tracker = s.tracker.past n := by
  induction n generalizing s with
  | zero =>
    unfold RecvTracker.past
    rw [Nat.mul_zero, show UInt16.ofNat 0 = 0 from rfl, UInt16.add_zero]
    rfl
  | succ n ih =>
    have hbuild : (s.step (.build 1 2 0 1500)).tracker = s.tracker.past 1 :=
      congrArg Prod.fst h.build
    have hpast : (s.tracker.past 1).past n = s.tracker.past (n + 1) := by
      unfold RecvTracker.past
      dsimp only
      rw [UInt16.add_assoc, ← UInt16.ofNat_add]
      congr 3
      omega
    rw [replicate_succ, run_cons, ih (hbuild ▸ h.rest), hbuild, hpast]

def TrackerOp.records (x : UInt16) : TrackerOp → Bool
  | .record y _ => y == x
  | .build _ _ _ _ => false

/-- A stale number stays stale until it is recorded. -/
lemma stale_run {ops : List TrackerOp} (h : fresh x s.log = false)
    (hops : ∀ op ∈ ops, op.records x = false) : fresh x (run step s ops).log = false := by
  induction ops generalizing s with
  | nil => exact h
  | cons op ops ih =>
    refine ih ?_ fun op hop => hops op (.tail _ hop)
    unfold fresh at h ⊢
    cases op with
    | record y arrivalUs =>
      change (y == x || recordedSince (· == x) x s.log) = false
      rw [h, Bool.or_false]
      exact hops _ (.head _)
    | build senderSsrc mediaSsrc nowUs cap =>
      rcases step_build s senderSsrc mediaSsrc nowUs cap with hsame | ⟨-, hlog, -⟩
      · rw [hsame]
        exact h
      · rw [hlog]
        unfold recordedSince
        rw [h, Bool.and_false]

/-- Packet 0 arrives and is reported. -/
def wrapStart : List TrackerOp := [.record 0 0, .build 1 2 0 1500, .record 31745 9000000]

/-- Of the next turn only 31745 and 62465 and then 65537 arrive, none of which shares the cell
of 0. -/
def wrapTurn : List TrackerOp :=
  replicate 123 (.build 1 2 0 1500) ++ .record 62465 18000000 ::
    (replicate 121 (.build 1 2 0 1500) ++ .record 1 19000000 :: replicate 11 (.build 1 2 0 1500))

def wrapRun : List TrackerOp := wrapStart ++ (wrapTurn ++ [.build 1 2 0 1500])

def wrapTracker : RecvTracker :=
  (recvTrackerRecord ((recvTrackerRecord
    ((run step init wrapStart).tracker.past 123) 62465 18000000).past 121)
      1 19000000).past 11

/-- Behind the turn number 0 is stale. -/
lemma run_wrapTurn :
    let s := run step (run step init wrapStart) wrapTurn
    s.tracker = wrapTracker ∧ fresh 0 s.log = false := by
  set r := run step init wrapStart
  refine ⟨?_, stale_run (by decide +kernel) (by decide +kernel)⟩
  have h₁ : r.tracker.Empty 123 := by decide +kernel
  have h₂ : (recvTrackerRecord (r.tracker.past 123) 62465 18000000).Empty 121 := by decide +kernel
  have h₃ : (recvTrackerRecord ((recvTrackerRecord (r.tracker.past 123) 62465 18000000).past 121)
    1 19000000).Empty 11 := by decide +kernel
  have hrecord {s : Reports} {t : RecvTracker} (hs : s.tracker = t) (y : UInt16) (arrivalUs : ℤ) :
      (s.step (.record y arrivalUs)).tracker = recvTrackerRecord t y arrivalUs := hs ▸ rfl
  have ht₁ := hrecord (run_empty h₁) 62465 18000000
  have ht₂ := hrecord ((run_empty (ht₁ ▸ h₂)).trans (congrArg (·.past 121) ht₁)) 1 19000000
  unfold wrapTurn wrapTracker
  rw [run_append, run_cons, run_append, run_cons, run_empty (ht₂ ▸ h₃), ht₂]

/-- All but the `n` numbers before the next window may be in it. -/
structure Reports.Clear (s : Reports) (n : ℕ) : Prop where
  started : s.tracker.started = true
  rewritten : ∀ x, (x - s.tracker.reportStartSeq).toNat + n < 2 ^ 16 → rewritten x s.log = true

lemma number_near {i : ℕ} (hi : i + n < 2 ^ 16) :
    (t.number i - t.reportStartSeq).toNat + n < 2 ^ 16 := by
  unfold RecvTracker.number
  rw [UInt16.toNat_sub, UInt16.toNat_add, UInt16.toNat_ofNat']
  have := t.reportStartSeq.toNat_lt
  omega

/-- How far an operation moves the next window at most. -/
def TrackerOp.span : TrackerOp → ℕ
  | .record _ _ => 0
  | .build _ _ _ _ => 256

lemma Reports.Clear.step (h : s.Clear n) (op : TrackerOp) : (s.step op).Clear (n + op.span) := by
  cases op with
  | record seq arrivalUs =>
    obtain ⟨-, hstarted, hsame⟩ := record_spec s.tracker seq arrivalUs
    refine ⟨hstarted, fun x hx => ?_⟩
    change (x - (recvTrackerRecord ..).reportStartSeq).toNat + n < _ at hx
    rw [hsame h.started] at hx
    exact Bool.or_eq_true_iff.2 (.inr (h.rewritten x hx))
  | build senderSsrc mediaSsrc nowUs cap =>
    have hwindow : s.tracker.window ≤ 256 := min_le_right _ _
    rcases step_build s senderSsrc mediaSsrc nowUs cap with
      hsame | ⟨-, hlog, -, hstarted, -, hstart⟩
    · rw [hsame]
      exact ⟨h.started, fun x hx => h.rewritten x (by omega)⟩
    refine ⟨hstarted.trans h.started, fun x hx => ?_⟩
    change _ + (n + 256) < _ at hx
    rw [hstart, UInt16.toNat_sub, UInt16.toNat_add, UInt16.toNat_ofNat'] at hx
    have := s.tracker.reportStartSeq.toNat_lt
    rw [hlog]
    refine Bool.and_eq_true_iff.2 ⟨?_, h.rewritten x ?_⟩
    · rw [Bool.not_eq_true', Window.covers, decide_eq_false_iff_not, UInt16.toNat_sub]
      dsimp only [RecvTracker.nextWindow]
      omega
    · rw [UInt16.toNat_sub]
      omega

/-- Within one turn no number is in a window for the second time. -/
lemma Reports.Clear.along {ops : List TrackerOp} (h : s.Clear n)
    (hn : n + (ops.map TrackerOp.span).sum ≤ 2 ^ 16) :
    Along Reports.step Reports.Rewritten s ops ∧
      (run Reports.step s ops).Clear (n + (ops.map TrackerOp.span).sum) := by
  induction ops generalizing s n with
  | nil => exact ⟨trivial, h⟩
  | cons op ops ih =>
    rw [map_cons, sum_cons, ← Nat.add_assoc] at hn ⊢
    obtain ⟨halong, hrest⟩ := ih (h.step op) hn
    refine ⟨⟨?_, halong⟩, hrest⟩
    cases op with
    | record seq arrivalUs => exact trivial
    | build senderSsrc mediaSsrc nowUs cap =>
      intro i hi
      have hwindow : s.tracker.window ≤ 256 := min_le_right _ _
      change n + 256 + _ ≤ _ at hn
      exact h.rewritten _ (number_near (by omega))

/-- **No stale arrivals while cells are rewritten.** If, whenever a report is built, the cell of
every number it covers has been written since the number's last window, then over the whole run
only numbers recorded since their last window are reported as received. -/
theorem tracker_never_stale (ops : List TrackerOp) (h : Along step Rewritten init ops) :
    neverStale (run step init ops).log = true := by
  have hstart : init.Tracks := ⟨nofun, rfl⟩
  exact (run_inv_along step (I := Reports.Tracks) (fun _ _ h hc => h.step hc) hstart h).fresh

/-- Number 0 comes round again, and arrives before its second report. -/
theorem tracker_never_stale_turn :
    let ops := wrapStart ++ (wrapTurn ++ [.record 0 20000000, .build 1 2 0 1500])
    fresh 0 (run step (run step init wrapStart) wrapTurn).log = false ∧
      Along step Rewritten init ops ∧ neverStale (run step init ops).log = true := by
  intro ops
  have hfirst : (run step init wrapStart).Clear 1 := by
    refine ⟨by decide +kernel, fun x hx => ?_⟩
    have hlog : (run step init wrapStart).log =
      [.recorded 31745, .window ⟨0, 1, [0]⟩, .recorded 0] := by decide +kernel
    have hzero : x.toNat ≠ 0 := by
      intro h
      obtain rfl : x = 0 := UInt16.toNat_inj.1 h
      exact absurd hx (by decide +kernel)
    rw [hlog]
    simp [rewritten, recordedSince, Window.covers, hzero]
  have hsum : (wrapTurn.map TrackerOp.span).sum = 65280 := by decide +kernel
  have hturn : 1 + (wrapTurn.map TrackerOp.span).sum ≤ 2 ^ 16 := by
    rw [hsum]
    decide
  obtain ⟨halong, hrest⟩ := hfirst.along hturn
  rw [hsum] at hrest
  obtain ⟨htracker, hstale⟩ := run_wrapTurn
  have hC : Along step Rewritten init ops := by
    rw [along_append, along_append]
    generalize run step _ wrapTurn = s at *
    refine ⟨by decide +kernel, halong, trivial, fun i hi => ?_, trivial⟩
    by_cases h255 : i = 255
    · have hzero : (recvTrackerRecord s.tracker 0 20000000).number 255 = 0 := by
        rw [htracker]
        decide +kernel
      rw [h255]
      change rewritten ((recvTrackerRecord s.tracker 0 20000000).number 255) _
      rw [hzero]
      rfl
    · have hwindow : i < 256 := hi.trans_le (min_le_right _ _)
      refine (hrest.step (.record 0 20000000)).rewritten _ (number_near ?_)
      change i + (1 + 65280 + 0) < _
      omega
  exact ⟨hstale, hC, tracker_never_stale ops hC⟩

/-- The report whose window holds 65536 calls number 0 received, with the arrival of the first
packet 0. -/
theorem wrap_reports_stale : neverStale (run step init wrapRun).log = false := by
  obtain ⟨htracker, hstale⟩ := run_wrapTurn
  unfold wrapRun
  rw [run_append, run_concat]
  generalize run step _ wrapTurn = s at *
  -- the last report
  have hp : recvTrackerPending wrapTracker = true ∧
    (feedbackBuild wrapTracker 1 2 0 1500).2 ≠ .noRoom := by decide +kernel
  have hnumber : 255 < wrapTracker.window ∧ wrapTracker.number 255 = 0 ∧
    (wrapTracker.arrival 255).isSome = true := by decide +kernel
  unfold step
  dsimp only
  rw [htracker, if_pos hp]
  unfold neverStale
  rw [Bool.and_eq_false_iff]
  left
  rw [nextWindow_received, all_eq_false]
  refine ⟨0, mem_received.2 ⟨255, hnumber⟩, ?_⟩
  rw [hstale]
  exact Bool.false_ne_true

end MezonSfu.Twcc
