import Mathlib.Tactic

/-!
The delay-based bandwidth estimator of one subscriber (`gcc.c`).

The trend line and the additive step are computed in floating point; they are the operations of a
`Detector`, over whatever state it keeps. Rates and sizes are natural numbers, cut off at
`UINT32_MAX` where the source does so; times are integers.
-/

namespace MezonSfu.Congestion

inductive Usage
  | normal
  | underuse
  | overuse
  deriving DecidableEq

inductive RateCtrlState
  | hold
  | increase
  | decrease
  deriving DecidableEq

structure PacketInfo where
  sequenceNumber : ℕ
  sendTimeUs : ℤ
  receiveTimeUs : ℤ
  sizeBytes : ℕ

structure ArrivalGroup where
  firstSendTimeUs : ℤ := 0
  lastSendTimeUs : ℤ := 0
  firstRecvTimeUs : ℤ := 0
  lastRecvTimeUs : ℤ := 0
  totalSize : ℕ := 0
  packetCount : ℕ := 0

structure AimdController where
  currentBitrateBps : ℕ
  minBitrateBps : ℕ
  maxBitrateBps : ℕ
  state : RateCtrlState
  lastIncreaseUs : ℤ := 0
  lastRecoveryProbeUs : ℤ := 0
  lastActiveProbeUs : ℤ := 0
  ackBitrateBps : ℕ := 0
  ackWindowBytes : ℕ := 0
  ackWindowMinRecvUs : ℤ := 0
  ackWindowMaxRecvUs : ℤ := 0
  consecutiveHighLossWindows : ℕ := 0
  haveAckBitrate : Bool := false
  activeProbing : Bool := false

/-- The floating-point part of the estimator. -/
structure Detector (T : Type*) where
  /-- The state that `gcc_bwe_init` leaves. -/
  init : T
  /-- `update_trendline`, from the two differences between the groups and the arrival. -/
  updateTrendline : T → ℤ → ℤ → ℤ → T
  usageState : T → Usage
  /-- `GCC_AIMD_ADDITIVE_BPS_PER_S` times the elapsed time, rounded down. -/
  additive : ℤ → ℕ

structure Gcc (T : Type*) where
  currentGroup : ArrivalGroup
  prevGroup : ArrivalGroup
  trendline : T
  aimd : AimdController
  lastFeedbackUs : ℤ

namespace ArrivalGroup

def single (pkt : PacketInfo) : ArrivalGroup :=
  { firstSendTimeUs := pkt.sendTimeUs
    lastSendTimeUs := pkt.sendTimeUs
    firstRecvTimeUs := pkt.receiveTimeUs
    lastRecvTimeUs := pkt.receiveTimeUs
    totalSize := pkt.sizeBytes
    packetCount := 1 }

def join (cg : ArrivalGroup) (pkt : PacketInfo) : ArrivalGroup :=
  if cg.packetCount = 0 then single pkt
  else { cg with
    lastSendTimeUs := pkt.sendTimeUs
    lastRecvTimeUs := pkt.receiveTimeUs
    totalSize := cg.totalSize + pkt.sizeBytes
    packetCount := cg.packetCount + 1 }

end ArrivalGroup

def uint32Max : ℕ := 2 ^ 32 - 1

def highLossBackoffWindows : ℕ := 3

namespace AimdController

section

variable (a : AimdController)

/-- What a decrease starts from: the acknowledged rate where that is lower. -/
def decreaseBasis : ℕ :=
  if a.haveAckBitrate ∧ a.ackBitrateBps < a.currentBitrateBps then a.ackBitrateBps
  else a.currentBitrateBps

def increaseCap : ℕ := if a.haveAckBitrate then a.ackBitrateBps * 3 / 2 else uint32Max

/-- An active probe ended less than `GCC_RECOVERY_PROBE_INTERVAL_US` ago. -/
def recentlyProbed (nowUs : ℤ) : Bool :=
  decide (0 < a.lastActiveProbeUs ∧ a.lastActiveProbeUs < nowUs ∧
    nowUs - a.lastActiveProbeUs < 1000000)

/-- The passive probe above the acknowledged rate. -/
def recoveryProbe (nowUs : ℤ) : AimdController :=
  let recoveryCap := min (a.increaseCap + 200000) a.maxBitrateBps
  if a.currentBitrateBps < recoveryCap then
    if a.lastRecoveryProbeUs = 0 then { a with lastRecoveryProbeUs := nowUs }
    else if 1000000 ≤ nowUs - a.lastRecoveryProbeUs then
      { a with
        currentBitrateBps := min (a.currentBitrateBps + 50000) recoveryCap
        lastRecoveryProbeUs := nowUs }
    else a
  else a

end

/-- The increase after at least `GCC_AIMD_MIN_INCREASE_INTERVAL_US`. -/
def increase (additive : ℤ → ℕ) (a : AimdController) (nowUs : ℤ) : AimdController :=
  let add := additive (nowUs - a.lastIncreaseUs)
  let add := if add = 0 then 1000 else add
  if a.currentBitrateBps < a.increaseCap then
    { a with
      currentBitrateBps := min (min (a.currentBitrateBps + add) a.increaseCap) uint32Max
      lastRecoveryProbeUs := 0 }
  else if a.haveAckBitrate ∧ a.activeProbing = false then
    if a.recentlyProbed nowUs then a else a.recoveryProbe nowUs
  else a

def clamp (a : AimdController) : AimdController :=
  let low := if a.currentBitrateBps < a.minBitrateBps then a.minBitrateBps
    else a.currentBitrateBps
  { a with currentBitrateBps := if a.maxBitrateBps < low then a.maxBitrateBps else low }

def updateAimd (additive : ℤ → ℕ) (a : AimdController) (usage : Usage) (nowUs : ℤ) :
    AimdController :=
  clamp <| match usage with
    | .overuse => { a with
        currentBitrateBps := min (a.decreaseBasis * 85 / 100) uint32Max
        state := .decrease
        lastRecoveryProbeUs := 0 }
    | .underuse => { a with state := .hold }
    | .normal =>
      if a.state = .decrease then { a with state := .hold }
      else
        let a := { a with state := .increase }
        if a.lastIncreaseUs = 0 then { a with lastIncreaseUs := nowUs }
        else if 100000 ≤ nowUs - a.lastIncreaseUs then
          { a.increase additive nowUs with lastIncreaseUs := nowUs }
        else a

variable (a : AimdController)

/-- The window of acknowledged bytes is dropped after a gap of `GCC_ACK_GAP_RESET_US`. -/
def resetAckGap (pkt : PacketInfo) : AimdController :=
  if 0 < a.ackWindowBytes ∧ a.ackWindowMaxRecvUs < pkt.receiveTimeUs ∧
      300000 < pkt.receiveTimeUs - a.ackWindowMaxRecvUs then
    { a with
      ackWindowBytes := 0, ackWindowMinRecvUs := 0, ackWindowMaxRecvUs := 0
      ackBitrateBps := 0, haveAckBitrate := false }
  else a

def growAckWindow (pkt : PacketInfo) : AimdController :=
  { a with
    ackWindowMinRecvUs :=
      if a.ackWindowBytes = 0 then pkt.receiveTimeUs
      else min pkt.receiveTimeUs a.ackWindowMinRecvUs
    ackWindowMaxRecvUs :=
      if a.ackWindowBytes = 0 then pkt.receiveTimeUs
      else max pkt.receiveTimeUs a.ackWindowMaxRecvUs
    ackWindowBytes := a.ackWindowBytes + pkt.sizeBytes }

/-- A window of `GCC_ACK_WINDOW_US` gives a sample. -/
def closeAckWindow : AimdController :=
  let spanUs := a.ackWindowMaxRecvUs - a.ackWindowMinRecvUs
  if spanUs < 300000 then a
  else
    let sample := min (a.ackWindowBytes * 8 * 1000000 / spanUs.toNat) uint32Max
    { a with
      ackBitrateBps := if a.haveAckBitrate then (a.ackBitrateBps * 9 + sample) / 10 else sample
      haveAckBitrate := true
      ackWindowBytes := 0, ackWindowMinRecvUs := 0, ackWindowMaxRecvUs := 0 }

def updateAckBitrate (pkt : PacketInfo) : AimdController :=
  if pkt.sizeBytes = 0 then a
  else ((a.resetAckGap pkt).growAckWindow pkt).closeAckWindow

/-- The back-off of `gcc_bwe_report_loss`. -/
def lossBackoff : AimdController :=
  let next := a.decreaseBasis * 85 / 100
  { a with
    currentBitrateBps :=
      if next < a.minBitrateBps then a.minBitrateBps
      else if a.maxBitrateBps < next then a.maxBitrateBps
      else next
    state := .hold
    lastRecoveryProbeUs := 0
    consecutiveHighLossWindows := 0 }

/-- `gcc_bwe_report_loss`, and whether it lowered the rate. -/
def reportLoss (lost total : ℕ) : AimdController × Bool :=
  if total = 0 then (a, false)
  else if lost = 0 then ({ a with consecutiveHighLossWindows := 0 }, false)
  else if total * 10 < lost * 100 then
    let a := { a with consecutiveHighLossWindows := a.consecutiveHighLossWindows + 1 }
    if highLossBackoffWindows ≤ a.consecutiveHighLossWindows then (a.lossBackoff, true)
    else (a, false)
  else
    let a := { a with consecutiveHighLossWindows := 0 }
    if total * 2 < lost * 100 then
      ({ a with state := .hold, lastRecoveryProbeUs := 0 }, false)
    else (a, false)

end AimdController

namespace Gcc

variable {T : Type*} (D : Detector T)

/-- `gcc_bwe_init`: rates that do not fit together give way to the defaults. -/
def init (startBitrate minBitrate maxBitrate : ℕ) : Gcc T :=
  let bad := minBitrate = 0 ∨ maxBitrate = 0 ∨ maxBitrate < minBitrate ∨
    startBitrate < minBitrate ∨ maxBitrate < startBitrate
  { currentGroup := {}
    prevGroup := {}
    trendline := D.init
    aimd := {
      currentBitrateBps := if bad then 300000 else startBitrate
      minBitrateBps := if bad then 50000 else minBitrate
      maxBitrateBps := if bad then 5000000 else maxBitrate
      state := .increase }
    lastFeedbackUs := 0 }

section

variable (g : Gcc T)

def getUsage : Usage := D.usageState g.trendline

def isOverusing : Bool := g.getUsage D = .overuse

/-- A complete group is compared with the one before it. -/
def closeGroup : Gcc T :=
  if 0 < g.prevGroup.packetCount then
    let trendline := D.updateTrendline g.trendline
      (g.currentGroup.lastSendTimeUs - g.prevGroup.lastSendTimeUs)
      (g.currentGroup.lastRecvTimeUs - g.prevGroup.lastRecvTimeUs)
      g.currentGroup.lastRecvTimeUs
    { g with
      trendline := trendline
      aimd := g.aimd.updateAimd D.additive (D.usageState trendline)
        g.currentGroup.lastRecvTimeUs }
  else g

def processTwccPacket (pkt : PacketInfo) : Gcc T :=
  let g := { g with lastFeedbackUs := max pkt.sendTimeUs g.lastFeedbackUs }
  let cg := g.currentGroup
  -- a packet sent before the current group began is out of order
  if 0 < cg.packetCount ∧ pkt.sendTimeUs < cg.firstSendTimeUs then g
  else
    let g := { g with aimd := g.aimd.updateAckBitrate pkt }
    if cg.packetCount = 0 ∨ pkt.sendTimeUs - cg.firstSendTimeUs ≤ 5000 then
      { g with currentGroup := cg.join pkt }
    else
      { closeGroup D g with
        prevGroup := cg
        currentGroup := .single pkt }

def hasRecentFeedback (nowUs maxAgeUs : ℤ) : Bool :=
  decide (g.lastFeedbackUs ≠ 0) &&
    (decide (nowUs ≤ g.lastFeedbackUs) || decide (nowUs - g.lastFeedbackUs ≤ maxAgeUs))

def setActiveProbing (active : Bool) : Gcc T :=
  { g with aimd := { g.aimd with
      activeProbing := active
      lastRecoveryProbeUs := if active then 0 else g.aimd.lastRecoveryProbeUs } }

def reportLoss (lost total : ℕ) : Gcc T × Bool :=
  ({ g with aimd := (g.aimd.reportLoss lost total).1 }, (g.aimd.reportLoss lost total).2)

end

def probedRates (a : AimdController) (probeBitrateBps : ℕ) : AimdController :=
  { a with
    currentBitrateBps :=
      if a.currentBitrateBps < probeBitrateBps then
        max (min probeBitrateBps a.maxBitrateBps) a.minBitrateBps
      else a.currentBitrateBps
    ackBitrateBps := max probeBitrateBps a.ackBitrateBps
    haveAckBitrate := decide (a.ackBitrateBps < probeBitrateBps) || a.haveAckBitrate }

def onProbeClusterCompleted (g : Gcc T) (probeBitrateBps : ℕ) (nowUs : ℤ) : Gcc T :=
  if probeBitrateBps = 0 ∨ g.isOverusing D then g
  else { g with aimd := { probedRates g.aimd probeBitrateBps with
      lastIncreaseUs := nowUs
      lastRecoveryProbeUs := nowUs
      lastActiveProbeUs := nowUs
      state := if g.aimd.state = .hold then .increase else g.aimd.state } }

/-! ### The loss windows and the probing flag

A received packet touches neither. -/

/-- The loss windows and the probing flag of two controllers agree. -/
structure SameWindows (a b : AimdController) : Prop where
  windows : b.consecutiveHighLossWindows = a.consecutiveHighLossWindows
  activeProbing : b.activeProbing = a.activeProbing

lemma SameWindows.refl (a : AimdController) : SameWindows a a := ⟨rfl, rfl⟩

lemma SameWindows.trans {a b c : AimdController} (h : SameWindows a b) (h' : SameWindows b c) :
    SameWindows a c :=
  ⟨h'.windows.trans h.windows, h'.activeProbing.trans h.activeProbing⟩

lemma sameWindows_recoveryProbe (a : AimdController) (nowUs : ℤ) :
    SameWindows a (a.recoveryProbe nowUs) := by
  unfold AimdController.recoveryProbe
  dsimp only
  split_ifs <;> exact ⟨rfl, rfl⟩

lemma sameWindows_increase (additive : ℤ → ℕ) (a : AimdController) (nowUs : ℤ) :
    SameWindows a (a.increase additive nowUs) := by
  unfold AimdController.increase
  split_ifs
  any_goals exact ⟨rfl, rfl⟩
  exact sameWindows_recoveryProbe a nowUs

lemma sameWindows_updateAimd (additive : ℤ → ℕ) (a : AimdController) (usage : Usage)
    (nowUs : ℤ) : SameWindows a (a.updateAimd additive usage nowUs) := by
  unfold AimdController.updateAimd AimdController.clamp
  cases usage with
  | overuse | underuse => exact ⟨rfl, rfl⟩
  | normal =>
    dsimp only
    split_ifs
    any_goals exact ⟨rfl, rfl⟩
    all_goals
      have h := sameWindows_increase additive { a with state := .increase } nowUs
      exact ⟨h.windows, h.activeProbing⟩

lemma sameWindows_updateAckBitrate (a : AimdController) (pkt : PacketInfo) :
    SameWindows a (a.updateAckBitrate pkt) := by
  unfold AimdController.updateAckBitrate AimdController.closeAckWindow
    AimdController.growAckWindow AimdController.resetAckGap
  dsimp only
  split_ifs <;> exact ⟨rfl, rfl⟩

lemma sameWindows_closeGroup (g : Gcc T) : SameWindows g.aimd (g.closeGroup D).aimd := by
  unfold closeGroup
  split_ifs
  · exact sameWindows_updateAimd _ _ _ _
  · exact .refl _

lemma sameWindows_processTwccPacket (g : Gcc T) (pkt : PacketInfo) :
    SameWindows g.aimd (g.processTwccPacket D pkt).aimd := by
  unfold processTwccPacket
  dsimp only
  split_ifs
  · exact .refl _
  · exact sameWindows_updateAckBitrate _ _
  · refine (sameWindows_updateAckBitrate g.aimd pkt).trans ?_
    exact sameWindows_closeGroup D { g with
      aimd := g.aimd.updateAckBitrate pkt
      lastFeedbackUs := max pkt.sendTimeUs g.lastFeedbackUs }

lemma sameWindows_onProbeClusterCompleted (g : Gcc T) (bps : ℕ) (nowUs : ℤ) :
    SameWindows g.aimd (g.onProbeClusterCompleted D bps nowUs).aimd := by
  unfold onProbeClusterCompleted
  split_ifs <;> exact ⟨rfl, rfl⟩

end Gcc

end MezonSfu.Congestion
