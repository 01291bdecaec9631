import MezonSfu.Runs
import MezonSfu.TwccFeedbackParse

/-!
The tracker of arrivals over a whole session: numbers are recorded and reports are built in any
order.

The log keeps, newest first, what was recorded and which windows were reported, skipped windows
included. The ring is never cleared, so a number that comes round again is taken for received
unless its cell was written since its last window.
-/

namespace MezonSfu.Twcc

open List

/-! ### Runs -/

/-- A window of a report, and the numbers it calls received. -/
structure Window where
  base : UInt16
  count : ℕ
  received : List UInt16
deriving DecidableEq

def Window.covers (w : Window) (seq : UInt16) : Bool := decide ((seq - w.base).toNat < w.count)

inductive Event
  | recorded (seq : UInt16)
  | window (w : Window)
deriving DecidableEq

inductive TrackerOp
  | record (seq : UInt16) (arrivalUs : ℤ)
  | build (senderSsrc mediaSsrc : ℕ) (nowUs : ℤ) (cap : ℕ)

structure Reports where
  tracker : RecvTracker
  log : List Event

section

variable (t : RecvTracker)

/-- Number `i` of the next report. -/
def RecvTracker.number (i : ℕ) : UInt16 := t.reportStartSeq + UInt16.ofNat i

/-- The numbers that the next report calls received. -/
def RecvTracker.received : List UInt16 :=
  ((List.range t.window).filter fun i =>
    (t.packets.getD i (statusNotReceived, 0)).1 ≠ statusNotReceived).map t.number

def RecvTracker.nextWindow : Window := ⟨t.reportStartSeq, t.window, t.received⟩

lemma nextWindow_received : t.nextWindow.received = t.received := rfl

end

namespace Reports

def init : Reports := ⟨recvTrackerInit, []⟩

def step (s : Reports) : TrackerOp → Reports
  | .record seq arrivalUs => ⟨recvTrackerRecord s.tracker seq arrivalUs, .recorded seq :: s.log⟩
  | .build senderSsrc mediaSsrc nowUs cap =>
    let r := feedbackBuild s.tracker senderSsrc mediaSsrc nowUs cap
    ⟨r.1, if recvTrackerPending s.tracker ∧ r.2 ≠ .noRoom then .window s.tracker.nextWindow :: s.log
      else s.log⟩

end Reports

variable {t : RecvTracker} {s : Reports}

lemma feedbackBuild_cases (t : RecvTracker) (senderSsrc mediaSsrc : ℕ) (nowUs : ℤ) (cap : ℕ) :
    let r := feedbackBuild t senderSsrc mediaSsrc nowUs cap
    (r.1 = t ∧ ¬ (recvTrackerPending t ∧ r.2 ≠ .noRoom)) ∨
      (recvTrackerPending t ∧ r.2 ≠ .noRoom ∧ r.1.entries = t.entries ∧
        r.1.started = t.started ∧ r.1.latestSeq = t.latestSeq ∧
        r.1.reportStartSeq = t.reportStartSeq + UInt16.ofNat t.window) := by
  unfold feedbackBuild
  split
  · rename_i hp
    split
    · exact .inr ⟨hp, Built.noConfusion, rfl, rfl, rfl, rfl⟩
    · split
      · exact .inl ⟨rfl, fun h => h.2 rfl⟩
      · exact .inr ⟨hp, Built.noConfusion, rfl, rfl, rfl, rfl⟩
  · rename_i hp
    exact .inl ⟨rfl, fun h => hp h.1⟩

lemma step_build (s : Reports) (senderSsrc mediaSsrc : ℕ) (nowUs : ℤ) (cap : ℕ) :
    let s' := s.step (.build senderSsrc mediaSsrc nowUs cap)
    s' = s ∨ (recvTrackerPending s.tracker ∧ s'.log = .window s.tracker.nextWindow :: s.log ∧
      s'.tracker.entries = s.tracker.entries ∧ s'.tracker.started = s.tracker.started ∧
      s'.tracker.latestSeq = s.tracker.latestSeq ∧
      s'.tracker.reportStartSeq = s.tracker.reportStartSeq + UInt16.ofNat s.tracker.window) := by
  intro s'
  have hs' : s' = s.step (.build senderSsrc mediaSsrc nowUs cap) := rfl
  unfold Reports.step at hs'
  dsimp only at hs'
  rcases feedbackBuild_cases s.tracker senderSsrc mediaSsrc nowUs cap with
    ⟨hsame, hnot⟩ | ⟨hp, hr, hentries, hstarted, hlatest, hstart⟩
  · rw [if_neg hnot, hsame] at hs'
    exact .inl hs'
  · rw [if_pos ⟨hp, hr⟩] at hs'
    rw [hs']
    exact .inr ⟨hp, rfl, hentries, hstarted, hlatest, hstart⟩

lemma record_spec (t : RecvTracker) (seq : UInt16) (arrivalUs : ℤ) :
    let t' := recvTrackerRecord t seq arrivalUs
    t'.entries = Function.update t.entries (seq.toNat % recvCapacity) ⟨seq, arrivalUs, true⟩ ∧
      t'.started ∧ (t.started → t'.reportStartSeq = t.reportStartSeq) := by
  unfold recvTrackerRecord
  dsimp only
  split_ifs with hs
  · exact ⟨rfl, hs, fun _ => rfl⟩
  · exact ⟨rfl, hs, fun _ => rfl⟩
  · exact ⟨rfl, rfl, fun h => absurd h hs⟩

lemma status_deltaUnits (clockUs : ℤ) (l : List (Option ℤ)) (i : ℕ) :
    ((deltaUnits clockUs l).getD i (statusNotReceived, 0)).1 ≠ statusNotReceived ↔
      ((l.getD i none).isSome) := by
  induction l generalizing clockUs i with
  | nil => simp [deltaUnits]
  | cons a l ih =>
    cases a with
    | none =>
      unfold deltaUnits
      cases i with
      | zero => simp
      | succ i => simpa using ih clockUs i
    | some a =>
      unfold deltaUnits
      cases i with
      | zero =>
        simp only [getD_cons_zero, Option.isSome_some, iff_true]
        unfold packetDelta
        dsimp only
        split
        · exact (by decide : statusLargeDelta ≠ statusNotReceived)
        · exact (by decide : statusSmallDelta ≠ statusNotReceived)
      | succ i => simpa using ih _ i

lemma arrivals_getD {i : ℕ} (hi : i < t.window) : t.arrivals.getD i none = t.arrival i := by
  unfold RecvTracker.arrivals
  rw [getD_eq_getElem _ _ (by simpa using hi), getElem_map, getElem_range]

lemma mem_received {x : UInt16} :
    x ∈ t.received ↔ ∃ i < t.window, t.number i = x ∧ (t.arrival i).isSome := by
  unfold RecvTracker.received RecvTracker.packets
  simp only [mem_map, mem_filter, mem_range, decide_eq_true_eq]
  constructor
  · rintro ⟨i, ⟨hi, hstatus⟩, rfl⟩
    rw [status_deltaUnits, arrivals_getD hi] at hstatus
    exact ⟨i, hi, rfl, hstatus⟩
  · rintro ⟨i, hi, rfl, hsome⟩
    refine ⟨i, ⟨hi, ?_⟩, rfl⟩
    rw [status_deltaUnits, arrivals_getD hi]
    exact hsome

lemma arrival_isSome {i : ℕ} :
    let r := t.entries ((t.number i).toNat % recvCapacity)
    (t.arrival i).isSome ↔ r.valid ∧ r.seq = t.number i := by
  unfold RecvTracker.arrival RecvTracker.number
  dsimp only
  split
  · rename_i h
    exact ⟨fun _ => h, fun _ => rfl⟩
  · rename_i h
    exact ⟨nofun, fun h' => absurd h' h⟩

def windows (log : List Event) : List Window :=
  log.filterMap fun e => match e with
    | .recorded _ => none
    | .window w => some w

def Window.stop (w : Window) : UInt16 := w.base + UInt16.ofNat w.count

/-- Every window starts where the one before it ended. -/
def Contiguous (log : List Event) : Prop := (windows log).IsChain fun w w' => w.base = w'.stop

/-- The next window will start where the last one ended. -/
structure Reports.Resumes (s : Reports) : Prop where
  contiguous : Contiguous s.log
  stop : ∀ w ∈ (windows s.log).head?, s.tracker.started = true ∧ s.tracker.reportStartSeq = w.stop

lemma Reports.Resumes.step (h : s.Resumes) (op : TrackerOp) : (s.step op).Resumes := by
  cases op with
  | record seq arrivalUs =>
    refine ⟨h.contiguous, ?_⟩
    intro w hw
    obtain ⟨hstarted, hstop⟩ := h.stop w hw
    obtain ⟨-, hstarted', hsame⟩ := record_spec s.tracker seq arrivalUs
    exact ⟨hstarted', (hsame hstarted).trans hstop⟩
  | build senderSsrc mediaSsrc nowUs cap =>
    rcases step_build s senderSsrc mediaSsrc nowUs cap with
      hsame | ⟨hp, hlog, -, hstarted, -, hstart⟩
    · rw [hsame]
      exact h
    have hwindows : windows (s.step (.build senderSsrc mediaSsrc nowUs cap)).log =
        s.tracker.nextWindow :: windows s.log := by
      rw [hlog]
      rfl
    constructor
    · unfold Contiguous
      rw [hwindows, isChain_cons]
      exact ⟨fun w hw => (h.stop w hw).2, h.contiguous⟩
    intro w hw
    rw [hwindows, List.head?_cons, Option.mem_some_iff] at hw
    subst hw
    refine ⟨?_, hstart⟩
    rw [hstarted]
    unfold recvTrackerPending at hp
    rw [decide_eq_true_eq] at hp
    exact hp.1

/-- **Windows are contiguous over every run**, from any state of the tracker. -/
lemma contiguous_run (t : RecvTracker) (ops : List TrackerOp) :
    Contiguous (Runs.run Reports.step ⟨t, []⟩ ops).log := by
  have hstart : Reports.Resumes ⟨t, []⟩ := ⟨.nil, nofun⟩
  exact (Runs.run_inv Reports.step (I := Reports.Resumes) (fun _ op h => h.step op) hstart
    ops).contiguous

end MezonSfu.Twcc
