import MezonSfu.FeedbackSender
import MezonSfu.TwccParse

/-!
The reference times of a whole session.

A member carries 24 bits of its sender's clock; the parser puts the others back from an anchor,
the largest time at which a feedback ended so far. In a session every feedback comes with its true
reference time, and is read as the parser does and from the true time. A feedback whose true time
is within half a range of the true anchor gets as many wraps as those before it. The anchor zero
means that there is none, so a feedback that ends at time zero leaves the next one to be read
without wraps.
-/

namespace MezonSfu.Congestion

open Twcc Bytes Option

/-! ### Times are relative to the reference time -/

section

variable (d : ℤ)

def shiftTime (status : Status) : Status :=
  if status.status = statusNotReceived then status
  else { status with receiveTimeUs := status.receiveTimeUs + d }

variable (p : Parser)

def shiftParser : Parser := { p with currentTimeUs := p.currentTimeUs + d }

lemma takeSymbol_shift :
    (shiftParser d p).takeSymbol = (shiftParser d p.takeSymbol.1, p.takeSymbol.2) := by
  unfold Parser.takeSymbol
  by_cases h : p.statusesLeftInChunk = 0
  · rw [if_pos h]
    exact if_pos h
  · rw [if_neg h]
    exact if_neg h

lemma getNextStatus_shift :
    getNextStatus (shiftParser d p) = (shiftParser d (getNextStatus p).1, (getNextStatus p).2) := by
  unfold getNextStatus
  by_cases h : p.statusesLeftInChunk = 0
  · rw [if_pos h]
    refine (if_pos h).trans ?_
    by_cases hend : p.deltaOffset < p.chunkOffset + 2
    · rw [if_pos hend]
      exact if_pos hend
    · rw [if_neg hend]
      exact (if_neg hend).trans (takeSymbol_shift d p.loadChunk)
  · rw [if_neg h]
    exact (if_neg h).trans (takeSymbol_shift d p)

lemma report_shift (seq status : ℕ) :
    report (shiftParser d p) seq status =
      (shiftParser d (report p seq status).1,
        (report p seq status).2.map (shiftTime d)) := by
  unfold report
  split_ifs with h1 h2
  · simp [shiftTime, shiftParser, h1]
  · rfl
  · have hread : readDelta (shiftParser d p) status = readDelta p status := rfl
    rw [hread]
    cases readDelta p status with
    | none => rfl
    | some r =>
      simp only [map_some, shiftTime, shiftParser, if_neg h1]
      rw [add_right_comm]

lemma nextStatus_shift :
    nextStatus (shiftParser d p) =
      (shiftParser d (nextStatus p).1, (nextStatus p).2.map (shiftTime d)) := by
  unfold nextStatus
  rw [getNextStatus_shift]
  split
  · rename_i h
    rw [if_pos (show p.failed ∨ p.packetStatusCount ≤ p.packetsProcessed from h)]
    rfl
  · rename_i h
    rw [if_neg (show ¬ (p.failed ∨ p.packetStatusCount ≤ p.packetsProcessed) from h)]
    exact report_shift d (getNextStatus p).1.counted p.currentSeq (getNextStatus p).2

end

namespace Sender

lemma collect_shift (d : ℤ) (n : ℕ) (p : Parser) :
    collect n (shiftParser d p) =
      ((collect n p).1.map (shiftTime d), shiftParser d (collect n p).2) := by
  induction n generalizing p with
  | zero => rfl
  | succ n ih =>
    unfold collect
    rw [nextStatus_shift]
    rcases nextStatus p with ⟨q, status⟩
    cases status with
    | none => rfl
    | some status =>
      dsimp only [map_some]
      rw [ih q]
      rfl

/-- `sfu_twcc_parser_init` with the reference time given. -/
def parserFrom (data : List UInt8) (refUs : ℤ) : Option Parser :=
  (parserInit data 0).map fun p => { p with currentTimeUs := refUs }

section

variable (member : List UInt8)

/-- The statuses of a member read from a reference time, and the time behind them. -/
def readFrom (refUs : ℤ) : Option (List Status × ℤ) :=
  (parserFrom member refUs).bind readStatuses

lemma readMember_eq (anchorUs : ℤ) :
    readMember member anchorUs = readFrom member (referenceUs (readBe24 member 16) anchorUs) := by
  have hinit : parserInit member anchorUs =
      parserFrom member (referenceUs (readBe24 member 16) anchorUs) := by
    unfold parserFrom parserInit
    split_ifs
    · rfl
    · cases validateChunks member (readBe16 member 14) <;> rfl
  unfold readMember readFrom
  rw [hinit]

lemma readFrom_shift (refUs d : ℤ) :
    readFrom member (refUs + d) =
      (readFrom member refUs).map fun r => (r.1.map (shiftTime d), r.2 + d) := by
  have hinit : parserFrom member (refUs + d) = (parserFrom member refUs).map (shiftParser d) := by
    unfold parserFrom
    rw [map_map]
    rfl
  unfold readFrom
  rw [hinit]
  cases parserFrom member refUs with
  | none => rfl
  | some p =>
    have hcount : (shiftParser d p).packetStatusCount = p.packetStatusCount := rfl
    rw [map_some, bind_some, bind_some]
    unfold readStatuses
    rw [hcount, collect_shift]
    generalize collect p.packetStatusCount p = r
    dsimp only
    rw [List.length_map]
    by_cases hcap : twccBatchCap < p.packetStatusCount
    · rw [if_pos hcap, if_pos hcap]
      rfl
    rw [if_neg hcap, if_neg hcap]
    by_cases hbad : r.2.failed ∨ r.2.packetsProcessed ≠ r.2.packetStatusCount ∨
        r.1.length ≠ r.2.packetStatusCount
    · rw [if_pos hbad]
      exact if_pos hbad
    · rw [if_neg hbad]
      exact if_neg hbad

end

variable {T : Type*} (D : Detector T)

lemma anchor_step (s : Sender T) (scan : Scan) (nowUs : ℤ) :
    (s.step D scan nowUs).twccLastFeedbackRefUs = s.twccLastFeedbackRefUs := by
  refine step_rule D (P := fun s' => s'.twccLastFeedbackRefUs = _) scan rfl rfl rfl rfl
    fun _ g k hg _ => ?_
  unfold endSending
  split_ifs <;> exact hg.anchor

lemma anchor_countStatus (t : Tally T) (status : Status) :
    (countStatus D t status).sender.twccLastFeedbackRefUs = t.sender.twccLastFeedbackRefUs := by
  unfold countStatus countLost countReceived
  split_ifs
  · dsimp only
    split
    · rfl
    · split_ifs <;> rfl
  · dsimp only
    split <;> rfl

lemma anchor_tallyBatch (s : Sender T) (batch : List Status) :
    (tallyBatch D s batch).sender.twccLastFeedbackRefUs = s.twccLastFeedbackRefUs := by
  unfold tallyBatch
  induction batch using List.reverseRecOn with
  | nil => rfl
  | append_singleton l status ih => rw [List.foldl_concat, anchor_countStatus, ih]

lemma anchor_handleBatch (s : Sender T) (batch : List Status) (currentTimeUs nowUs : ℤ) :
    (s.handleBatch D batch currentTimeUs nowUs).twccLastFeedbackRefUs =
      max currentTimeUs s.twccLastFeedbackRefUs := by
  have hloss : ∀ (r : Sender T) (a b : ℕ) (c : ℤ),
      (r.reportLoss a b c).1.twccLastFeedbackRefUs = r.twccLastFeedbackRefUs := by
    intro r a b c
    unfold reportLoss
    split_ifs <;> rfl
  unfold handleBatch
  rw [hloss]
  unfold raiseAnchor
  rw [anchor_tallyBatch]

lemma anchor_apply (s : Sender T) (op : Op) :
    (s.apply D op).twccLastFeedbackRefUs = match op with
      | .handleTwccMember member _ => match readMember member s.twccLastFeedbackRefUs with
        | none => s.twccLastFeedbackRefUs
        | some r => max r.2 s.twccLastFeedbackRefUs
      | _ => s.twccLastFeedbackRefUs := by
  cases op with
  | numberMedia | sendMedia | setUnmetDemand | startProbe | checkClusterDone => rfl
  | drainProbe sent sendTimeUs =>
    obtain ⟨q, history, heq⟩ := drainProbe_eq s sent sendTimeUs
    rw [apply, heq]
  | step scan nowUs => exact anchor_step D s scan nowUs
  | handleTwccMember member nowUs =>
    change (s.handleTwccMember D member nowUs).twccLastFeedbackRefUs = _
    unfold handleTwccMember
    dsimp only
    cases readMember member s.twccLastFeedbackRefUs with
    | none => rfl
    | some r => exact anchor_handleBatch D s r.1 r.2 nowUs

end Sender

/-! ### Sessions -/

/-- An accepted feedback: its reference time and its statuses, as they truly are and as they were
read. -/
structure Accepted where
  trueRefUs : ℤ
  trueBatch : List Status
  refUs : ℤ
  batch : List Status
deriving DecidableEq

structure Session (T : Type*) where
  sender : Sender T
  accepted : List Accepted
  /-- The latest true time at which an accepted feedback ended. -/
  trueEndUs : Option ℤ

namespace Session

open Sender

variable {T : Type*} (D : Detector T)

def init : Session T := ⟨Sender.init D, [], none⟩

def note (s : Session T) (member : List UInt8) (trueRefUs : ℤ) : List Accepted × Option ℤ :=
  match readMember member s.sender.twccLastFeedbackRefUs, readFrom member trueRefUs with
  | some r, some truth =>
    (s.accepted ++ [⟨trueRefUs, truth.1,
        referenceUs (readBe24 member 16) s.sender.twccLastFeedbackRefUs, r.1⟩],
      some (match s.trueEndUs with
        | none => truth.2
        | some e => max truth.2 e))
  | _, _ => (s.accepted, s.trueEndUs)

/-- An operation on the subscriber; a feedback comes with its true reference time. -/
def step (s : Session T) (op : Op × ℤ) : Session T :=
  let noted := match op.1 with
    | .handleTwccMember member _ => s.note member op.2
    | _ => (s.accepted, s.trueEndUs)
  ⟨s.sender.apply D op.1, noted.1, noted.2⟩

/-- All reference times differ from the true ones by one multiple of the range, and the times of
the packets with them. -/
def Unwrapped (l : List Accepted) : Prop :=
  ∃ k : ℤ, ∀ a ∈ l, a.refUs = a.trueRefUs + k * refRangeUs ∧
    a.batch = a.trueBatch.map (shiftTime (k * refRangeUs))

/-- The member carries the true reference time, a multiple of 64 milliseconds. -/
def Carries (member : List UInt8) (trueRefUs : ℤ) : Prop :=
  64000 ∣ trueRefUs ∧ (readBe24 member 16 : ℤ) = trueRefUs / 64000 % 2 ^ 24

instance (member : List UInt8) (trueRefUs : ℤ) : Decidable (Carries member trueRefUs) :=
  inferInstanceAs (Decidable (_ ∧ _))

/-- From the second accepted feedback on there is an anchor, and the true reference time is
within half a range of the latest true end of a feedback. -/
def Anchored (s : Session T) : Op × ℤ → Prop
  | (.handleTwccMember member _, trueRefUs) =>
    readMember member s.sender.twccLastFeedbackRefUs = none ∨
      (Carries member trueRefUs ∧ ∀ e ∈ s.trueEndUs, 0 < s.sender.twccLastFeedbackRefUs ∧
        e - refRangeUs / 2 ≤ trueRefUs ∧ trueRefUs < e + refRangeUs / 2)
  | _ => True

instance (s : Session T) (op : Op × ℤ) : Decidable (s.Anchored op) := by
  unfold Anchored
  split <;> infer_instance

/-- The wraps that the accepted feedbacks and the anchor have in common. -/
structure Wraps (s : Session T) (k : ℤ) : Prop where
  accepted : ∀ a ∈ s.accepted, a.refUs = a.trueRefUs + k * refRangeUs ∧
    a.batch = a.trueBatch.map (shiftTime (k * refRangeUs))
  start : s.trueEndUs = none → s.accepted = [] ∧ s.sender.twccLastFeedbackRefUs = 0
  anchor : ∀ e ∈ s.trueEndUs, s.sender.twccLastFeedbackRefUs = max 0 (e + k * refRangeUs)

variable {k trueRefUs : ℤ} {member : List UInt8} {s : Session T} {op : Op × ℤ}

/-- The nearest time with the given 24 bits is the true one, moved by the wraps. -/
lemma referenceUs_eq {anchorUs e : ℤ} (hc : Carries member trueRefUs) (hpos : 0 < anchorUs)
    (ha : anchorUs = e + k * refRangeUs) (hlo : e - refRangeUs / 2 ≤ trueRefUs)
    (hhi : trueRefUs < e + refRangeUs / 2) :
    referenceUs (readBe24 member 16) anchorUs = trueRefUs + k * refRangeUs := by
  obtain ⟨⟨q, hq⟩, href⟩ := hc
  obtain ⟨⟨j, hj⟩, hlo', hhi'⟩ := (referenceUs_spec (readBe24 member 16) anchorUs).2 hpos
  have hR : refRangeUs = 1073741824000 := by norm_num [refRangeUs]
  rw [hR] at ha hlo hhi hj hlo' hhi' ⊢
  omega

lemma exists_wraps (hc : Carries member trueRefUs) :
    ∃ k, referenceUs (readBe24 member 16) 0 = trueRefUs + k * refRangeUs := by
  obtain ⟨⟨q, hq⟩, href⟩ := hc
  refine ⟨-(q / 2 ^ 24), ?_⟩
  rw [(referenceUs_spec (readBe24 member 16) 0).1 le_rfl, href]
  have hR : refRangeUs = 1073741824000 := by norm_num [refRangeUs]
  rw [hR]
  omega

lemma Wraps.feedback (h : Wraps s k) {nowUs : ℤ} {r : List Status × ℤ}
    (hr : readMember member s.sender.twccLastFeedbackRefUs = some r)
    (href : referenceUs (readBe24 member 16) s.sender.twccLastFeedbackRefUs =
      trueRefUs + k * refRangeUs) :
    Wraps (s.step D (.handleTwccMember member nowUs, trueRefUs)) k := by
  have hanchor := anchor_apply D s.sender (.handleTwccMember member nowUs)
  dsimp only at hanchor
  rw [hr] at hanchor
  dsimp only at hanchor
  -- the member reads from the true time, too
  have hread := hr
  rw [readMember_eq, href, readFrom_shift, map_eq_some_iff] at hread
  obtain ⟨truth, htruth, rfl⟩ := hread
  have hnote : s.note member trueRefUs = (s.accepted ++ [⟨trueRefUs, truth.1,
      trueRefUs + k * refRangeUs, truth.1.map (shiftTime (k * refRangeUs))⟩],
      some (match s.trueEndUs with
        | none => truth.2
        | some e => max truth.2 e)) := by
    unfold note
    rw [hr, htruth, href]
  unfold step
  dsimp only
  rw [hnote]
  refine ⟨?_, nofun, ?_⟩
  · exact List.forall_mem_append.2 ⟨h.accepted, List.forall_mem_singleton.2 ⟨rfl, rfl⟩⟩
  intro e he
  rw [mem_some_iff] at he
  subst he
  rw [hanchor]
  cases hend : s.trueEndUs with
  | none =>
    rw [(h.start hend).2]
    exact max_comm _ _
  | some e =>
    rw [h.anchor e hend]
    dsimp only
    rw [max_left_comm, ← max_add_add_right]

lemma Wraps.other (h : Wraps s k)
    (hanchor : (s.sender.apply D op.1).twccLastFeedbackRefUs = s.sender.twccLastFeedbackRefUs)
    (hnote : (s.step D op).accepted = s.accepted ∧ (s.step D op).trueEndUs = s.trueEndUs) :
    Wraps (s.step D op) k := by
  have hstep : (s.step D op).sender.twccLastFeedbackRefUs = s.sender.twccLastFeedbackRefUs :=
    hanchor
  constructor
  · rw [hnote.1]
    exact h.accepted
  · rw [hnote.1, hnote.2, hstep]
    exact h.start
  · rw [hnote.2, hstep]
    exact h.anchor

lemma wraps_step (h : ∃ k, Wraps s k) (hc : s.Anchored op) : ∃ k, Wraps (s.step D op) k := by
  obtain ⟨k, h⟩ := h
  obtain ⟨op, trueRefUs⟩ := op
  cases op with
  | handleTwccMember member nowUs =>
    cases hr : readMember member s.sender.twccLastFeedbackRefUs with
    | none =>
      refine ⟨k, h.other D ?_ ?_⟩
      · rw [anchor_apply]
        dsimp only
        rw [hr]
      · unfold step note
        dsimp only
        rw [hr]
        exact ⟨rfl, rfl⟩
    | some r =>
      obtain ⟨hcarries, hnear⟩ := hc.resolve_left (by rw [hr]; exact some_ne_none r)
      cases hend : s.trueEndUs with
      | none =>
        -- the first feedback decides how many wraps are missing
        obtain ⟨hnil, hzero⟩ := h.start hend
        obtain ⟨k', hk'⟩ := exists_wraps hcarries
        have hfirst : Wraps s k' := by
          refine ⟨?_, h.start, ?_⟩
          · rw [hnil]
            exact nofun
          · rw [hend]
            exact nofun
        exact ⟨k', hfirst.feedback D hr (by rw [hzero]; exact hk')⟩
      | some e =>
        obtain ⟨hpos, hlo, hhi⟩ := hnear e hend
        have hanchor := h.anchor e hend
        have hset : s.sender.twccLastFeedbackRefUs = e + k * refRangeUs := by
          rw [hanchor] at hpos ⊢
          exact max_eq_right (lt_max_iff.1 hpos |>.resolve_left (lt_irrefl 0)).le
        exact ⟨k, h.feedback D hr (referenceUs_eq hcarries hpos hset hlo hhi)⟩
  | numberMedia | sendMedia _ _ _ | drainProbe _ _ | setUnmetDemand _ | startProbe _ | step _ _
  | checkClusterDone _ => exact ⟨k, h.other D (anchor_apply D s.sender _) ⟨rfl, rfl⟩⟩

/-- **Reference times unwrap over a whole session.** If every accepted feedback after the first
finds an anchor, and its true reference time is within half a range of the latest true end of a
feedback, then all reference times and all packet times differ from the true ones by one multiple
of the range. -/
theorem reference_time_unwraps (ops : List (Op × ℤ))
    (h : Runs.Along (step D) Anchored (init D) ops) :
    Unwrapped (Runs.run (step D) (init D) ops).accepted := by
  have hstart : ∃ k, Wraps (init D) k := ⟨0, nofun, fun _ => ⟨rfl, rfl⟩, nofun⟩
  obtain ⟨k, hk⟩ := Runs.run_inv_along (step D) (I := fun s => ∃ k, Wraps s k)
    (fun _ _ h hc => wraps_step D h hc) hstart h
  exact ⟨k, hk.accepted⟩

/-- A member about one received packet, with a reference field and a delta. -/
def onePacket (ref24 : ℕ) (delta : UInt8) : List UInt8 :=
  List.replicate 12 0 ++ [0, 1, 0, 1] ++ writeBe24 ref24 ++ [0, 0x20, 0x01, delta]

/-- Before, behind and again before the fifth wrap: all three are read without the four wraps
before. -/
theorem reference_time_unwraps_three :
    let ops : List (Op × ℤ) := [
      (.handleTwccMember (onePacket 0xFFFFFF 4) 0, 5 * refRangeUs - 64000),
      (.handleTwccMember (onePacket 1 4) 0, 5 * refRangeUs + 64000),
      (.handleTwccMember (onePacket 0xFFFFFF 8) 0, 5 * refRangeUs - 64000)]
    Runs.Along (step calm) Anchored (init calm) ops ∧
      (Runs.run (step calm) (init calm) ops).accepted.map Accepted.refUs =
        [refRangeUs - 64000, refRangeUs + 64000, refRangeUs - 64000] ∧
      Unwrapped (Runs.run (step calm) (init calm) ops).accepted :=
  ⟨by decide +kernel, by decide +kernel, reference_time_unwraps calm _ (by decide +kernel)⟩

def largestPacket (l : List Accepted) : Option ℤ :=
  (((l.flatMap Accepted.trueBatch).filter fun r => r.status ≠ statusNotReceived).map
    Status.receiveTimeUs).max?

/-- The true reference time is within half a range of the largest true packet time so far. -/
def NearLargest (s : Session T) : Op × ℤ → Prop
  | (.handleTwccMember member _, trueRefUs) =>
    Carries member trueRefUs ∧ ∀ e ∈ largestPacket s.accepted, |trueRefUs - e| < refRangeUs / 2
  | _ => True

instance (s : Session T) (op : Op × ℤ) : Decidable (s.NearLargest op) := by
  unfold NearLargest
  split <;> infer_instance

/-- A first feedback at a wrap ends at time zero and leaves no anchor; one from just before the
wrap is then read a whole range later. -/
theorem zero_anchor_wraps :
    let ops : List (Op × ℤ) := [
      (.handleTwccMember (onePacket 0 0) 0, refRangeUs),
      (.handleTwccMember (onePacket 0xFFFFFF 0) 0, refRangeUs - 64000)]
    Runs.Along (step calm) NearLargest (init calm) ops ∧
      ¬ Unwrapped (Runs.run (step calm) (init calm) ops).accepted := by
  intro ops
  refine ⟨by decide +kernel, ?_⟩
  rintro ⟨k, hk⟩
  have hread : (Runs.run (step calm) (init calm) ops).accepted.map
      (fun a => a.refUs - a.trueRefUs) = [-refRangeUs, 0] := by decide +kernel
  have hall : ∀ x ∈ [-refRangeUs, 0], x = k * refRangeUs := by
    rw [← hread]
    intro x hx
    obtain ⟨a, ha, rfl⟩ := List.mem_map.1 hx
    rw [(hk a ha).1]
    ring
  have hone := hall (-refRangeUs) (.head _)
  have hzero := hall 0 (.tail _ (.head _))
  rw [← hzero] at hone
  exact absurd hone (by decide)

end Session

end MezonSfu.Congestion
