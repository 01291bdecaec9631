import MezonSfu.Gcc
import MezonSfu.Runs

/-!
The bounds of the bandwidth estimate, and the direction in which each operation moves it.

The verdict of the detector and the additive step may be anything, at every packet anew: a packet
comes with a detector of its own. The controller only notes when it may take the next recovery
step; the time of the last one is kept beside it along a run.
-/

namespace MezonSfu.Congestion

namespace AimdController

variable {a b : AimdController} {nowUs : ℤ}

/-- The rate is within its bounds, which fit into 32 bits. -/
structure Bounded (a : AimdController) : Prop where
  le : a.minBitrateBps ≤ a.currentBitrateBps
  le_max : a.currentBitrateBps ≤ a.maxBitrateBps
  fits : a.maxBitrateBps ≤ uint32Max

/-- What every operation at a time does: the bounds stay, and so does the note of the recovery
probe, unless it is cleared or set. -/
structure Keeps (a b : AimdController) (nowUs : ℤ) : Prop where
  bounded : b.Bounded
  min : b.minBitrateBps = a.minBitrateBps
  max : b.maxBitrateBps = a.maxBitrateBps
  note : b.lastRecoveryProbeUs = a.lastRecoveryProbeUs ∨ b.lastRecoveryProbeUs = 0 ∨
    b.lastRecoveryProbeUs = nowUs

/-- A recovery step: above 3/2 of the acknowledged rate, with active probing off, an interval
after the note. -/
structure Recovers (a b : AimdController) (nowUs : ℤ) : Prop where
  above : a.increaseCap ≤ a.currentBitrateBps
  step : b.currentBitrateBps ≤ a.currentBitrateBps + 50000
  cap : b.currentBitrateBps ≤ a.increaseCap + 200000
  idle : a.activeProbing = false
  noted : a.lastRecoveryProbeUs ≠ 0
  interval : 1000000 ≤ nowUs - a.lastRecoveryProbeUs
  note : b.lastRecoveryProbeUs = nowUs

/-- What a normal verdict does. -/
structure Rises (a b : AimdController) (nowUs : ℤ) : Prop extends Keeps a b nowUs where
  le : a.currentBitrateBps ≤ b.currentBitrateBps
  raise : a.currentBitrateBps < b.currentBitrateBps →
    b.currentBitrateBps ≤ a.increaseCap ∨ a.Recovers b nowUs

lemma Bounded.same (h : a.Bounded) (hc : b.currentBitrateBps = a.currentBitrateBps)
    (hmin : b.minBitrateBps = a.minBitrateBps) (hmax : b.maxBitrateBps = a.maxBitrateBps)
    (hnote : b.lastRecoveryProbeUs = a.lastRecoveryProbeUs ∨ b.lastRecoveryProbeUs = 0 ∨
      b.lastRecoveryProbeUs = nowUs) : a.Rises b nowUs := by
  obtain ⟨h1, h2, h3⟩ := h
  exact ⟨⟨⟨by omega, by omega, by omega⟩, hmin, hmax, hnote⟩, hc.ge, fun hlt => by omega⟩

lemma clamp_eq (h : a.Bounded) : a.clamp = a := by
  unfold clamp
  simp only [if_neg (not_lt.2 h.le), if_neg (not_lt.2 h.le_max)]

lemma decreaseBasis_le : a.decreaseBasis ≤ a.currentBitrateBps := by
  unfold decreaseBasis
  split_ifs <;> omega

section

variable (h : a.Bounded)

include h

lemma rises_recoveryProbe (nowUs : ℤ) (habove : a.increaseCap ≤ a.currentBitrateBps)
    (hidle : a.activeProbing = false) : a.Rises (a.recoveryProbe nowUs) nowUs := by
  obtain ⟨hmin, hmax, hfits⟩ := id h
  unfold recoveryProbe
  dsimp only
  split_ifs with hcap h0 hint
  · exact h.same rfl rfl rfl (.inr (.inr rfl))
  · refine ⟨⟨⟨?_, ?_, hfits⟩, rfl, rfl, .inr (.inr rfl)⟩, ?_, fun _ =>
      .inr ⟨habove, ?_, ?_, hidle, h0, hint, rfl⟩⟩ <;> dsimp only <;> omega
  · exact h.same rfl rfl rfl (.inl rfl)
  · exact h.same rfl rfl rfl (.inl rfl)

variable (additive : ℤ → ℕ)

section

variable (nowUs : ℤ)

lemma rises_increase : a.Rises (a.increase additive nowUs).clamp nowUs := by
  obtain ⟨hmin, hmax, hfits⟩ := id h
  unfold increase
  by_cases hcap : a.currentBitrateBps < a.increaseCap
  · rw [if_pos hcap]
    unfold clamp
    refine ⟨⟨⟨?_, ?_, hfits⟩, rfl, rfl, .inr (.inl rfl)⟩, ?_, fun _ => .inl ?_⟩ <;> dsimp only <;>
      split_ifs <;> omega
  · rw [if_neg hcap]
    split_ifs with hprobe
    · rw [clamp_eq h]
      exact h.same rfl rfl rfl (.inl rfl)
    · have hr := rises_recoveryProbe h nowUs (not_lt.1 hcap) hprobe.2
      rwa [clamp_eq hr.bounded]
    · rw [clamp_eq h]
      exact h.same rfl rfl rfl (.inl rfl)

/-- **A normal verdict** raises the rate within 3/2 of the acknowledged one, or by a recovery
step, and not at all while the controller decreases. -/
lemma rises_updateAimd :
    let r := a.updateAimd additive .normal nowUs
    a.Rises r nowUs ∧ (a.state = .decrease → r.currentBitrateBps = a.currentBitrateBps) := by
  have hkeep : ∀ s t, ({ a with state := s, lastIncreaseUs := t } : AimdController).clamp =
      { a with state := s, lastIncreaseUs := t } := fun s t => clamp_eq { h with }
  unfold updateAimd
  dsimp only
  split_ifs with hd h0 hint
  · rw [hkeep]
    exact ⟨h.same rfl rfl rfl (.inl rfl), fun _ => rfl⟩
  · rw [hkeep]
    exact ⟨h.same rfl rfl rfl (.inl rfl), fun hd' => absurd hd' hd⟩
  · have hr := rises_increase (a := { a with state := .increase }) { h with }
      additive nowUs
    refine ⟨⟨⟨{ hr.bounded with }, hr.min, hr.max, hr.note⟩, hr.le,
      fun hlt => (hr.raise hlt).imp id fun hrec => ?_⟩, fun hd' => absurd hd' hd⟩
    exact { hrec with }
  · rw [hkeep]
    exact ⟨h.same rfl rfl rfl (.inl rfl), fun hd' => absurd hd' hd⟩

lemma falls_overuse :
    let r := a.updateAimd additive .overuse nowUs
    a.Keeps r nowUs ∧ r.currentBitrateBps ≤ a.currentBitrateBps := by
  obtain ⟨hmin, hmax, hfits⟩ := h
  have hbasis := a.decreaseBasis_le
  unfold updateAimd clamp
  refine ⟨⟨⟨?_, ?_, hfits⟩, rfl, rfl, .inr (.inl rfl)⟩, ?_⟩ <;> dsimp only <;> split_ifs <;> omega

lemma falls_lossBackoff : a.Keeps a.lossBackoff nowUs ∧
    a.lossBackoff.currentBitrateBps ≤ a.currentBitrateBps := by
  obtain ⟨hmin, hmax, hfits⟩ := h
  have hbasis := a.decreaseBasis_le
  unfold lossBackoff
  refine ⟨⟨⟨?_, ?_, hfits⟩, rfl, rfl, .inr (.inl rfl)⟩, ?_⟩ <;> dsimp only <;> split_ifs <;> omega

end

lemma falls_reportLoss (lost total : ℕ) (nowUs : ℤ) :
    a.Keeps (a.reportLoss lost total).1 nowUs ∧
      (a.reportLoss lost total).1.currentBitrateBps ≤ a.currentBitrateBps := by
  obtain ⟨hmin, hmax, hfits⟩ := h
  unfold reportLoss
  dsimp only
  split_ifs
  any_goals exact ⟨⟨⟨hmin, hmax, hfits⟩, rfl, rfl, .inl rfl⟩, le_rfl⟩
  · obtain ⟨hk, hle⟩ := falls_lossBackoff (a := { a with
      consecutiveHighLossWindows := a.consecutiveHighLossWindows + 1 }) ⟨hmin, hmax, hfits⟩ nowUs
    exact ⟨{ hk with }, hle⟩
  · exact ⟨⟨⟨hmin, hmax, hfits⟩, rfl, rfl, .inr (.inl rfl)⟩, le_rfl⟩

end

/-- The acknowledged rate is all that a received packet changes before the verdict. -/
lemma updateAckBitrate_eq (a : AimdController) (pkt : PacketInfo) :
    ∃ rate bytes low high known, a.updateAckBitrate pkt = { a with
      ackBitrateBps := rate, ackWindowBytes := bytes, ackWindowMinRecvUs := low,
      ackWindowMaxRecvUs := high, haveAckBitrate := known } := by
  unfold updateAckBitrate closeAckWindow growAckWindow resetAckGap
  dsimp only
  split_ifs <;> exact ⟨_, _, _, _, _, rfl⟩

end AimdController

namespace Gcc

variable {T : Type*}

/-- An operation on the estimator; the detector of a packet is its own. -/
inductive Op (T : Type*)
  | packet (D : Detector T) (pkt : PacketInfo)
  | loss (lost total : ℕ)
  | probed (D : Detector T) (probeBitrateBps : ℕ) (nowUs : ℤ)
  | probing (active : Bool)

def apply (g : Gcc T) : Op T → Gcc T
  | .packet D pkt => g.processTwccPacket D pkt
  | .loss lost total => (g.reportLoss lost total).1
  | .probed D probeBitrateBps nowUs => g.onProbeClusterCompleted D probeBitrateBps nowUs
  | .probing active => g.setActiveProbing active

/-- The verdict that an operation brings about, with its time and the controller that it is for:
the packet begins a new group, and the one before it is compared with the one before that. -/
def verdict (g : Gcc T) : Op T → Option (Usage × ℤ × AimdController)
  | .packet D pkt =>
    let cg := g.currentGroup
    if cg.packetCount = 0 ∨ pkt.sendTimeUs - cg.firstSendTimeUs ≤ 5000 ∨
        g.prevGroup.packetCount = 0 then none
    else
      some (D.usageState (D.updateTrendline g.trendline
        (cg.lastSendTimeUs - g.prevGroup.lastSendTimeUs)
        (cg.lastRecvTimeUs - g.prevGroup.lastRecvTimeUs) cg.lastRecvTimeUs), cg.lastRecvTimeUs,
        g.aimd.updateAckBitrate pkt)
  | _ => none

def updateTime (g : Gcc T) (o : Op T) : Option ℤ :=
  match o with
  | .probed _ _ nowUs => some nowUs
  | _ => (g.verdict o).map (·.2.1)

/-- The estimator, with the time of the last update and of the last recovery step, and whether
the operation before was an overuse verdict. -/
structure Trail (T : Type*) where
  gcc : Gcc T
  time : ℤ
  recovered : Option ℤ := none
  overused : Bool := false

namespace Trail

/-- A raise above 3/2 of the acknowledged rate is a recovery step. A packet without a verdict
counts as no operation. -/
def step (s : Trail T) (o : Op T) : Trail T :=
  let gcc := s.gcc.apply o
  let time := (s.gcc.updateTime o).getD s.time
  match s.gcc.verdict o, o with
  | some (usage, _, a), _ =>
    { gcc := gcc, time := time, overused := usage = .overuse
      recovered := if a.increaseCap ≤ a.currentBitrateBps ∧
          a.currentBitrateBps < gcc.aimd.currentBitrateBps then some time else s.recovered }
  | none, .packet _ _ => { s with gcc := gcc }
  | none, _ => { s with gcc := gcc, time := time, overused := false }

def Timely (s : Trail T) (o : Op T) : Prop := ∀ t ∈ s.gcc.updateTime o, s.time ≤ t

def Directed (s : Trail T) (o : Op T) : Prop :=
  let rate := s.gcc.aimd.currentBitrateBps
  let rate' := (s.gcc.apply o).aimd.currentBitrateBps
  match s.gcc.verdict o, o with
  | some (.overuse, _), _ => rate' ≤ rate
  | some (.underuse, _), _ => rate' = rate
  | some (.normal, t, a), _ => rate ≤ rate' ∧ (s.overused = true → rate' = rate) ∧
      (a.haveAckBitrate = true → rate < rate' → rate' ≤ a.ackBitrateBps * 3 / 2 ∨
        rate' ≤ rate + 50000 ∧ rate' ≤ a.ackBitrateBps * 3 / 2 + 200000 ∧
          a.activeProbing = false ∧ ∀ r ∈ s.recovered, r + 1000000 ≤ t)
  | none, .loss _ _ => rate' ≤ rate
  | none, .probed _ _ _ => rate ≤ rate'
  | none, _ => rate' = rate

/-- The rate is within the bounds; a recovery step is not later than the last update, nor than the
note for the next one; after an overuse verdict the controller is still decreasing. -/
structure Inv (low high : ℕ) (a : AimdController) (time : ℤ) (recovered : Option ℤ)
    (overused : Bool) : Prop where
  bounded : a.Bounded
  low : a.minBitrateBps = low
  high : a.maxBitrateBps = high
  past : ∀ r ∈ recovered, r ≤ time
  note : ∀ r ∈ recovered, a.lastRecoveryProbeUs ≠ 0 → r ≤ a.lastRecoveryProbeUs
  state : overused = true → a.state = .decrease

variable {low high : ℕ} {a b : AimdController} {time t : ℤ} {recovered : Option ℤ}
  {overused overused' : Bool}

section

variable (h : Inv low high a time recovered overused)

include h

lemma Inv.keeps (hk : a.Keeps b t) (ht : time ≤ t)
    (hs : overused' → b.state = .decrease) : Inv low high b t recovered overused' := by
  refine ⟨hk.bounded, hk.min.trans h.low, hk.max.trans h.high, fun r hr => (h.past r hr).trans ht,
    fun r hr h0 => ?_, hs⟩
  rcases hk.note with hn | hn | hn
  · rw [hn] at h0 ⊢
    exact h.note r hr h0
  · exact absurd hn h0
  · rw [hn]
    exact (h.past r hr).trans ht

lemma Inv.ack (pkt : PacketInfo) :
    Inv low high (a.updateAckBitrate pkt) time recovered overused ∧
      (a.updateAckBitrate pkt).currentBitrateBps = a.currentBitrateBps := by
  obtain ⟨rate, bytes, lo, hi, known, hack⟩ := a.updateAckBitrate_eq pkt
  rw [hack]
  exact ⟨⟨{ h.bounded with }, h.low, h.high, h.past, h.note, h.state⟩, rfl⟩

lemma Inv.rises (hr : a.Rises b t) (ht : time ≤ t) :
    Inv low high b t (if a.increaseCap ≤ a.currentBitrateBps ∧
      a.currentBitrateBps < b.currentBitrateBps then some t else recovered) false := by
  split_ifs with hup
  · refine ⟨hr.bounded, hr.min.trans h.low, hr.max.trans h.high, ?_, ?_, nofun⟩
    · rintro r ⟨⟩
      exact le_rfl
    · rintro r ⟨⟩ -
      rcases hr.raise hup.2 with hcap | hrec
      · exact absurd hup.2 (by omega)
      · exact hrec.note.ge
  · exact h.keeps hr.toKeeps ht nofun

end

lemma Inv.packet {s : Trail T} (h : Inv low high s.gcc.aimd s.time s.recovered s.overused)
    {D : Detector T} {pkt : PacketInfo} (hv : s.gcc.verdict (.packet D pkt) = none) :
    let r := s.gcc.processTwccPacket D pkt
    Inv low high r.aimd s.time s.recovered s.overused ∧ r.aimd.currentBitrateBps =
        s.gcc.aimd.currentBitrateBps := by
  have hack := h.ack pkt
  unfold verdict at hv
  unfold processTwccPacket closeGroup
  dsimp only at hv ⊢
  split_ifs at hv ⊢ with h1 h2 h3 h4
  · exact ⟨h, rfl⟩
  · exact hack
  · omega
  · exact hack

lemma verdict_aimd {g : Gcc T} {o : Op T} {usage : Usage} (hv : g.verdict o = some (usage, t, a)) :
    ∃ additive pkt, a = g.aimd.updateAckBitrate pkt ∧
      (g.apply o).aimd = a.updateAimd additive usage t := by
  cases o with
  | packet D pkt =>
    unfold verdict at hv
    dsimp only at hv
    split_ifs at hv with hg
    cases hv
    refine ⟨D.additive, pkt, rfl, ?_⟩
    unfold apply processTwccPacket closeGroup
    dsimp only
    rw [if_neg (by omega), if_neg (by omega), if_pos (by omega)]
  | loss | probed | probing => cases hv

/-- **One operation** keeps the invariant, and moves the rate in its own direction. -/
lemma Inv.step {s : Trail T} (h : Inv low high s.gcc.aimd s.time s.recovered s.overused) {o : Op T}
    (ht : s.Timely o) : Inv low high (s.step o).gcc.aimd (s.step o).time (s.step o).recovered
      (s.step o).overused ∧ s.Directed o := by
  unfold Trail.step Directed
  cases hv : s.gcc.verdict o with
  | some v =>
    obtain ⟨usage, t, a⟩ := v
    obtain ⟨additive, pkt, rfl, haimd⟩ := verdict_aimd hv
    obtain ⟨hi, hcur⟩ := h.ack pkt
    have htime : s.gcc.updateTime o = some t := by
      cases o with
      | packet => exact congrArg (Option.map (·.2.1)) hv
      | loss | probed | probing => cases hv
    have hnow : s.time ≤ t := ht t htime
    generalize s.gcc.aimd.updateAckBitrate pkt = a at *
    dsimp only
    rw [htime, Option.getD_some, haimd, ← hcur]
    cases usage with
    | overuse =>
      obtain ⟨hk, hle⟩ := AimdController.falls_overuse hi.bounded additive t
      refine ⟨?_, hle⟩
      rw [if_neg fun hup => absurd hup.2 (not_lt.2 hle)]
      exact hi.keeps hk hnow fun _ => rfl
    | underuse =>
      have hu : a.updateAimd additive .underuse t = { a with state := .hold } :=
        AimdController.clamp_eq { hi.bounded with }
      rw [hu]
      exact ⟨hi.rises (hi.bounded.same rfl rfl rfl (.inl rfl)) hnow, rfl⟩
    | normal =>
      obtain ⟨hr, hd⟩ := AimdController.rises_updateAimd hi.bounded additive t
      refine ⟨hi.rises hr hnow, hr.le, fun ho => hd (hi.state ho), fun hack hlt => ?_⟩
      rw [show a.ackBitrateBps * 3 / 2 = a.increaseCap from (if_pos hack).symm]
      refine (hr.raise hlt).imp id fun hrec => ⟨hrec.step, hrec.cap, hrec.idle, fun r hr' => ?_⟩
      have := hi.note r hr' hrec.noted
      have := hrec.interval
      omega
  | none =>
    cases o with
    | packet D pkt => exact h.packet hv
    | loss lost total =>
      obtain ⟨hk, hle⟩ := AimdController.falls_reportLoss h.bounded lost total s.time
      exact ⟨h.keeps hk le_rfl nofun, hle⟩
    | probed D bps nowUs =>
      have hnow : s.time ≤ nowUs := ht nowUs rfl
      obtain ⟨hmin, hmax, hfits⟩ := h.bounded
      dsimp only [apply, updateTime, Option.getD_some]
      unfold onProbeClusterCompleted
      by_cases hg : bps = 0 ∨ s.gcc.isOverusing D
      · rw [if_pos hg]
        exact ⟨h.keeps (h.bounded.same rfl rfl rfl (.inl rfl)).toKeeps hnow nofun, le_rfl⟩
      · rw [if_neg hg]
        refine ⟨h.keeps ⟨⟨?_, ?_, hfits⟩, rfl, rfl, .inr (.inr rfl)⟩ hnow nofun, ?_⟩ <;>
          dsimp only [probedRates] <;> split_ifs <;> omega
    | probing active =>
      obtain ⟨hmin, hmax, hfits⟩ := h.bounded
      refine ⟨h.keeps (t := s.time) ⟨⟨hmin, hmax, hfits⟩, rfl, rfl, ?_⟩ le_rfl nofun, rfl⟩
      cases active with
      | true => exact .inr (.inl rfl)
      | false => exact .inl rfl

/-- The estimator as it is started, with `time` not after any update. -/
def start (D : Detector T) (startBitrate minBitrate maxBitrate : ℕ) (time : ℤ) : Trail T :=
  { gcc := Gcc.init D startBitrate minBitrate maxBitrate, time := time }

/-- **The estimate stays within its bounds**, in every run of packets, loss reports, probe results
and changes of the probing flag whose updates come in order of time, and the next operation moves
it only in its own direction. -/
theorem estimate_bounded_and_directed (D : Detector T) (startBitrate minBitrate maxBitrate : ℕ)
    (time : ℤ) (hmax : maxBitrate ≤ uint32Max) (ops : List (Op T))
    (h : Runs.Along step Timely (start D startBitrate minBitrate maxBitrate time) ops) :
    let g := Gcc.init D startBitrate minBitrate maxBitrate
    let s := Runs.run step (start D startBitrate minBitrate maxBitrate time) ops
    g.aimd.minBitrateBps ≤ s.gcc.aimd.currentBitrateBps ∧
      s.gcc.aimd.currentBitrateBps ≤ g.aimd.maxBitrateBps ∧
      ∀ o, s.Timely o → s.Directed o := by
  intro g s
  have hinit : g.aimd.Bounded := by
    refine ⟨?_, ?_, ?_⟩ <;> dsimp only [g, Gcc.init] <;> split_ifs with hbad <;>
      first | decide | (simp only [not_or, not_lt] at hbad; omega)
  have hinv := Runs.run_inv_along step (I := fun s => Inv g.aimd.minBitrateBps
      g.aimd.maxBitrateBps s.gcc.aimd s.time s.recovered s.overused)
    (fun s o hs ho => (hs.step ho).1)
    (s := start D startBitrate minBitrate maxBitrate time) ⟨hinit, rfl, rfl, nofun, nofun, nofun⟩ h
  exact ⟨hinv.low ▸ hinv.bounded.le, hinv.high ▸ hinv.bounded.le_max, fun o ho => (hinv.step ho).2⟩

/-- A probe result of 900 kbit/s, with active probing on, on an estimate of at most 1 Mbit/s. -/
theorem estimate_bounded_and_directed_probed :
    let D : Detector Unit := ⟨(), fun _ _ _ _ => (), fun _ => .normal, fun _ => 0⟩
    let s := Runs.run step (start D 300000 50000 1000000 0) [.probing true, .probed D 900000 5]
    s.gcc.aimd.currentBitrateBps = 900000 ∧ s.gcc.aimd.currentBitrateBps ≤ 1000000 := by
  intro D s
  have h : Runs.Along step Timely (start D 300000 50000 1000000 0)
      [.probing true, .probed D 900000 5] := by
    refine ⟨nofun, ?_, trivial⟩
    rintro t ⟨⟩
    decide
  exact ⟨rfl, (estimate_bounded_and_directed D 300000 50000 1000000 0 (by decide) _ h).2.1⟩

end Trail

end Gcc

end MezonSfu.Congestion
