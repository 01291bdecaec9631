import MezonSfu.Bytes

/-!
The parser of transport-wide feedback: `sfu_twcc_parser_init` walks the chunks once to find
where the deltas begin, and `sfu_twcc_parser_next_status` then reads one status at a time.

Offsets and counters are natural numbers; only differences in 32-bit unsigned arithmetic are
reduced.
-/

namespace MezonSfu.Twcc

open Bytes

def fixedLen : ℕ := 20

def refRangeUs : ℤ := 2 ^ 24 * 64000

def statusNotReceived : ℕ := 0
def statusSmallDelta : ℕ := 1
def statusLargeDelta : ℕ := 2
def statusReserved : ℕ := 3

/-! ### The fields of a chunk -/

def isRunLength (chunk : ℕ) : Bool := chunk &&& 0x8000 = 0
def runSymbol (chunk : ℕ) : ℕ := (chunk >>> 13) &&& 0x03
def runLength (chunk : ℕ) : ℕ := chunk &&& 0x1FFF
def isTwoBit (chunk : ℕ) : Bool := chunk &&& 0x4000 ≠ 0
def vectorCount (chunk : ℕ) : ℕ := if isTwoBit chunk then 7 else 14

def sub32 (a b : ℕ) : ℕ := (a + 2 ^ 32 - b) % 2 ^ 32

/-- The loop of `validate_chunks`. It runs at most `count` times, since each chunk it accepts
covers at least one status. -/
def validateFrom (data : List UInt8) (count : ℕ) : ℕ → ℕ → ℕ → Option ℕ
  | 0, offset, processed => if processed < count then none else some offset
  | fuel + 1, offset, processed =>
    if processed < count then
      if data.length < offset + 2 then none
      else
        let chunk := readBe16 data offset
        if isRunLength chunk then
          if runSymbol chunk = statusReserved ∨ runLength chunk = 0 then none
          else if sub32 count (runLength chunk) < processed then none
          else validateFrom data count fuel (offset + 2) (processed + runLength chunk)
        else if sub32 count (vectorCount chunk) < processed then none
        else validateFrom data count fuel (offset + 2) (processed + vectorCount chunk)
    else some offset

/-- `validate_chunks`: the offset of the deltas. -/
def validateChunks (data : List UInt8) (count : ℕ) : Option ℕ :=
  validateFrom data count count fixedLen 0

structure Parser where
  data : List UInt8
  baseSeq : ℕ
  packetStatusCount : ℕ
  currentTimeUs : ℤ
  currentSeq : ℕ
  chunkOffset : ℕ
  deltaOffset : ℕ
  currentChunk : ℕ
  isRunLength : Bool
  runLengthSymbol : ℕ
  statusesLeftInChunk : ℕ
  packetsProcessed : ℕ
  packetsLost : ℕ
  failed : Bool

/-- The reference time, unwrapped towards the anchor. -/
def referenceUs (ref24 : ℕ) (unwrapAnchorUs : ℤ) : ℤ :=
  let refUs : ℤ := ref24 * 64000
  if 0 < unwrapAnchorUs then
    let delta := refUs - unwrapAnchorUs.tmod refRangeUs
    unwrapAnchorUs + (((delta.tmod refRangeUs + refRangeUs + refRangeUs.tdiv 2).tmod refRangeUs) -
      refRangeUs.tdiv 2)
  else refUs

def parserInit (data : List UInt8) (unwrapAnchorUs : ℤ) : Option Parser :=
  if data.length < fixedLen then none
  else match validateChunks data (readBe16 data 14) with
    | none => none
    | some deltaOffset => some {
        data := data
        baseSeq := readBe16 data 12
        packetStatusCount := readBe16 data 14
        currentTimeUs := referenceUs (readBe24 data 16) unwrapAnchorUs
        currentSeq := readBe16 data 12
        chunkOffset := fixedLen
        deltaOffset := deltaOffset
        currentChunk := 0
        isRunLength := false
        runLengthSymbol := 0
        statusesLeftInChunk := 0
        packetsProcessed := 0
        packetsLost := 0
        failed := false }

variable (p : Parser)

def Parser.loadChunk : Parser :=
  let chunk := readBe16 p.data p.chunkOffset
  { p with
    currentChunk := chunk
    chunkOffset := p.chunkOffset + 2
    isRunLength := Twcc.isRunLength chunk
    runLengthSymbol := if Twcc.isRunLength chunk then runSymbol chunk else p.runLengthSymbol
    statusesLeftInChunk := if Twcc.isRunLength chunk then runLength chunk else vectorCount chunk }

/-- The symbol of the current chunk with `left` symbols after it. -/
def Parser.symbolAt (left : ℕ) : ℕ :=
  if p.isRunLength then p.runLengthSymbol
  else if isTwoBit p.currentChunk then (p.currentChunk >>> (left * 2)) &&& 0x03
  else (p.currentChunk >>> left) &&& 0x01

def Parser.takeSymbol : Parser × ℕ :=
  if p.statusesLeftInChunk = 0 then (p, statusReserved)
  else ({ p with statusesLeftInChunk := p.statusesLeftInChunk - 1 },
    p.symbolAt (p.statusesLeftInChunk - 1))

def getNextStatus : Parser × ℕ :=
  if p.statusesLeftInChunk = 0 then
    if p.deltaOffset < p.chunkOffset + 2 then (p, statusReserved)
    else p.loadChunk.takeSymbol
  else p.takeSymbol

structure Status where
  sequenceNumber : ℕ
  status : ℕ
  receiveTimeUs : ℤ
  deriving DecidableEq, Repr

def int16 (v : ℕ) : ℤ := if v < 2 ^ 15 then v else v - 2 ^ 16

/-- The delta of a received packet, in microseconds, and where the next one begins. -/
def readDelta (status : ℕ) : Option (ℤ × ℕ) :=
  if status = statusSmallDelta then
    if p.data.length < p.deltaOffset + 1 then none
    else some (byteAt p.data p.deltaOffset * 250, p.deltaOffset + 1)
  else
    if p.data.length < p.deltaOffset + 2 then none
    else some (int16 (readBe16 p.data p.deltaOffset) * 250, p.deltaOffset + 2)

def Parser.counted : Parser :=
  { p with currentSeq := (p.currentSeq + 1) % 2 ^ 16, packetsProcessed := p.packetsProcessed + 1 }

/-- The end of `sfu_twcc_parser_next_status`: what is reported for a symbol. -/
def report (seq status : ℕ) : Parser × Option Status :=
  if status = statusNotReceived then
    ({ p with packetsLost := p.packetsLost + 1 }, some ⟨seq, status, 0⟩)
  else if status = statusReserved then ({ p with failed := true }, none)
  else match readDelta p status with
    | none => ({ p with failed := true }, none)
    | some (deltaUs, deltaOffset) =>
      ({ p with deltaOffset := deltaOffset, currentTimeUs := p.currentTimeUs + deltaUs },
        some ⟨seq, status, p.currentTimeUs + deltaUs⟩)

def nextStatus : Parser × Option Status :=
  if p.failed ∨ p.packetStatusCount ≤ p.packetsProcessed then (p, none)
  else
    let (q, status) := getNextStatus p
    report q.counted p.currentSeq status

/-- The statuses that successive calls yield until the first one that fails. -/
def statuses : ℕ → Parser → List Status
  | 0, _ => []
  | fuel + 1, p => match nextStatus p with
    | (q, some s) => s :: statuses fuel q
    | (_, none) => []

end MezonSfu.Twcc
