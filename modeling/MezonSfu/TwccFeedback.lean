import MezonSfu.TwccParser

/-!
The receive side of transport-wide feedback: the tracker of arrivals and the packet that
`sfu_twcc_feedback_build` makes of it.

Arrival times are unbounded integers; sequence numbers and the feedback counter have the widths
of the source.
-/

namespace MezonSfu.Twcc

open Bytes

def recvCapacity : ℕ := 1024
def feedbackMaxPackets : ℕ := 256

structure RecvEntry where
  seq : UInt16
  arrivalUs : ℤ
  valid : Bool

structure RecvTracker where
  entries : ℕ → RecvEntry
  started : Bool
  reportStartSeq : UInt16
  latestSeq : UInt16
  lastFeedbackUs : ℤ
  fbPktCount : UInt8

def recvTrackerInit : RecvTracker where
  entries := fun _ => ⟨0, 0, false⟩
  started := false
  reportStartSeq := 0
  latestSeq := 0
  lastFeedbackUs := 0
  fbPktCount := 0

section

variable (t : RecvTracker)

def recvTrackerRecord (seq : UInt16) (arrivalUs : ℤ) : RecvTracker :=
  let t := { t with
    entries := Function.update t.entries (seq.toNat % recvCapacity) ⟨seq, arrivalUs, true⟩ }
  if t.started then
    let fwd := (seq - t.latestSeq).toNat
    if 0 < fwd ∧ fwd < 0x8000 then { t with latestSeq := seq } else t
  else { t with started := true, reportStartSeq := seq, latestSeq := seq }

def recvTrackerPending : Bool := t.started ∧ (t.latestSeq - t.reportStartSeq).toNat < 0x8000

/-- How many packets the next report covers. -/
def RecvTracker.window : ℕ := min ((t.latestSeq - t.reportStartSeq).toNat + 1) feedbackMaxPackets

/-- When packet `i` of the next report arrived, if the tracker still knows it. -/
def RecvTracker.arrival (i : ℕ) : Option ℤ :=
  let seq := t.reportStartSeq + UInt16.ofNat i
  let e := t.entries (seq.toNat % recvCapacity)
  if e.valid ∧ e.seq = seq then some e.arrivalUs else none

def RecvTracker.arrivals : List (Option ℤ) := (List.range t.window).map t.arrival

def RecvTracker.refUs : ℤ := (t.arrivals.findSome? id).getD 0

def RecvTracker.refQuant : ℕ := (t.refUs.tdiv 64000 % 2 ^ 24).toNat

end

/-- A time difference in units of 250 microseconds, rounded to the nearest. -/
def roundUnits (dUs : ℤ) : ℤ := if 0 ≤ dUs then (dUs + 125).tdiv 250 else -((-dUs + 125).tdiv 250)

/-- The status and the delta of a packet that arrived when the clock of the report stood at
`clockUs`. -/
def packetDelta (clockUs arrivalUs : ℤ) : ℕ × ℤ :=
  let units := roundUnits (arrivalUs - clockUs)
  if units < 0 ∨ 255 < units then
    let units := if 32767 < units then 32767 else units
    let units := if units < -32768 then -32768 else units
    (statusLargeDelta, units)
  else (statusSmallDelta, units)

/-- The loop over the packets that fills `status` and `delta_units`. -/
def deltaUnits : ℤ → List (Option ℤ) → List (ℕ × ℤ)
  | _, [] => []
  | clockUs, none :: l => (statusNotReceived, 0) :: deltaUnits clockUs l
  | clockUs, some arrivalUs :: l =>
    packetDelta clockUs arrivalUs ::
      deltaUnits (clockUs + (packetDelta clockUs arrivalUs).2 * 250) l

def RecvTracker.packets (t : RecvTracker) : List (ℕ × ℤ) :=
  deltaUnits (t.refUs.tdiv 64000 * 64000) t.arrivals

def homogeneous (status : List ℕ) : Bool := status.all (· == status.headD 0)

def writeRunChunk (symbol run : ℕ) : ℕ := (symbol <<< 13) ||| (run &&& 0x1FFF)

/-- `write_vector_chunk`: missing symbols are written as not received. -/
def writeVectorChunk (symbols : List ℕ) : ℕ :=
  (List.range 7).foldl (fun chunk k =>
    chunk ||| ((symbols.getD k statusNotReceived &&& 0x3) <<< (12 - 2 * k))) (0x8000 ||| 0x4000)

/-- The loop over the vector chunks; the fuel is the number of packets. -/
def vectorChunks : ℕ → List ℕ → List ℕ
  | 0, _ => []
  | fuel + 1, status =>
    if status = [] then []
    else writeVectorChunk (status.take 7) :: vectorChunks fuel (status.drop 7)

def chunkWords (status : List ℕ) : List ℕ :=
  if homogeneous status then [writeRunChunk (status.headD 0) status.length]
  else vectorChunks status.length status

def deltaBytes (packet : ℕ × ℤ) : List UInt8 :=
  if packet.1 = statusSmallDelta then [UInt8.ofNat (packet.2 % 2 ^ 8).toNat]
  else if packet.1 = statusLargeDelta then writeBe16 (packet.2 % 2 ^ 16).toNat
  else []

def padBytes (pad : ℕ) : List UInt8 :=
  if pad = 0 then [] else List.replicate (pad - 1) 0 ++ [UInt8.ofNat pad]

/-- What `sfu_twcc_feedback_build` returns: zero, minus one, or a packet. -/
inductive Built
  | nothing
  | noRoom
  | packet (bytes : List UInt8)
  deriving DecidableEq

/-- The packet for the statuses and deltas, and its length. -/
def feedbackPacket (t : RecvTracker) (senderSsrc mediaSsrc : ℕ) : List UInt8 :=
  let chunks := (chunkWords (t.packets.map Prod.fst)).flatMap writeBe16
  let deltas := t.packets.flatMap deltaBytes
  let total := fixedLen + chunks.length + deltas.length
  let pad := (4 - total % 4) % 4
  let words := (total + pad) / 4 - 1
  [if pad = 0 then 0x8F else 0xAF, 205] ++ writeBe16 words ++ writeBe32 senderSsrc ++
    writeBe32 mediaSsrc ++ writeBe16 t.reportStartSeq.toNat ++ writeBe16 t.window ++
    writeBe24 t.refQuant ++ [t.fbPktCount] ++ chunks ++ deltas ++ padBytes pad

def feedbackBuild (t : RecvTracker) (senderSsrc mediaSsrc : ℕ) (nowUs : ℤ) (cap : ℕ) :
    RecvTracker × Built :=
  if recvTrackerPending t then
    let next := t.reportStartSeq + UInt16.ofNat t.window
    if t.arrivals.all Option.isNone then ({ t with reportStartSeq := next }, .nothing)
    else if cap < (feedbackPacket t senderSsrc mediaSsrc).length then (t, .noRoom)
    else ({ t with
        reportStartSeq := next
        lastFeedbackUs := nowUs
        fbPktCount := t.fbPktCount + 1 },
      .packet (feedbackPacket t senderSsrc mediaSsrc))
  else (t, .nothing)

end MezonSfu.Twcc
