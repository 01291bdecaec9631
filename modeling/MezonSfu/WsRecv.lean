import MezonSfu.WsRead

/-!
`sfu_ws_recv_text`: reading frames from a connection until a text message is complete.

A call can stop inside any field of a frame when no more bytes are there, and the next one goes on
from the same place. The buffers are lists of the bytes read so far. Whether memory can be had and
whether a frame can be sent come with the call.
-/

namespace MezonSfu.WebSocket

open Bytes

inductive FrameState
  | header
  | extLen
  | mask
  | payload
deriving DecidableEq

/-- `sfu_ws_read_state_t`, without the prefetched bytes. -/
structure Reader where
  frameState : FrameState
  hdr : List UInt8
  extLenNeeded : ℕ
  extLen : List UInt8
  maskKey : List UInt8
  opcode : UInt8
  fin : Bool
  masked : Bool
  payloadLen : ℕ
  payloadRead : ℕ
  controlPayload : List UInt8
  msg : List UInt8
  fragmented : Bool
deriving DecidableEq

/-- What a call returns. A message returns its length, a closed connection zero, and everything
else minus one. -/
inductive Recv
  | text (msg : List UInt8)
  | closed
  | wouldBlock
  | protocolError
  | noMemory
  | failed
deriving DecidableEq

/-- Where payload bytes go: the buffer for control frames or the message. -/
inductive Buffer
  | control
  | message

/-- The outcomes of a call: memory is there, frames can be sent. -/
structure Outcomes where
  allocated : Bool
  sends : Bool

/-- `send_frame`, the bytes. -/
def sendFrame (opcode : UInt8) (payload : List UInt8) : List UInt8 :=
  let len := payload.length
  if len < 126 then [0x80 ||| opcode, UInt8.ofNat len] ++ payload
  else if len ≤ 0xFFFF then [0x80 ||| opcode, 126] ++ writeBe16 len ++ payload
  else
    [0x80 ||| opcode, 127] ++
      (List.range 8).map (fun i => UInt8.ofNat (len >>> (8 * (7 - i)))) ++ payload

namespace Reader

def init : Reader :=
  { frameState := .header, hdr := [], extLenNeeded := 0, extLen := [], maskKey := [], opcode := 0,
    fin := false, masked := false, payloadLen := 0, payloadRead := 0, controlPayload := [],
    msg := [], fragmented := false }

variable (r : Reader)

def resetCurrentFrame : Reader :=
  { r with
    frameState := .header, hdr := [], extLenNeeded := 0, extLen := [], maskKey := [], opcode := 0,
    fin := false, masked := false, payloadLen := 0, payloadRead := 0, controlPayload := [] }

/-- `reset_all_state`. -/
def resetAll : Reader := { r.resetCurrentFrame with msg := [], fragmented := false }

def refuse : Reader × Option Recv := (r.resetAll, some .protocolError)

def halt : Stop → Reader × Option Recv
  | .wouldBlock => (r, some .wouldBlock)
  | .eof => (r.resetAll, some .closed)
  | .failed => (r, some .failed)

def enterPayload (len : ℕ) : Reader :=
  let r := { r with payloadLen := len, payloadRead := 0 }
  if r.masked then { r with maskKey := [], frameState := .mask }
  else { r with frameState := .payload }

/-- A data frame that does not fit to the message so far. -/
def refusesData (opcode : UInt8) (fragmented : Bool) : Bool :=
  if opcode = 0 then !fragmented else if opcode = 1 then fragmented else true

def parseHeader : Reader × Option Recv :=
  let h0 := r.hdr.getD 0 0
  let h1 := r.hdr.getD 1 0
  let r := { r with
    fin := h0 &&& 0x80 != 0
    opcode := h0 &&& 0x0F
    masked := h1 &&& 0x80 != 0 }
  let initialLen := (h1 &&& 0x7F).toNat
  let control := r.opcode &&& 0x08 != 0
  if h0 &&& 0x70 != 0 then r.refuse
  else if control && (!r.fin || decide (initialLen > 125)) then r.refuse
  else if !control && refusesData r.opcode r.fragmented then r.refuse
  else if initialLen = 126 then
    ({ r with extLenNeeded := 2, extLen := [], frameState := .extLen }, none)
  else if initialLen = 127 then
    ({ r with extLenNeeded := 8, extLen := [], frameState := .extLen }, none)
  else (r.enterPayload initialLen, none)

def parseExtLen : Reader × Option Recv :=
  if r.extLenNeeded = 2 then (r.enterPayload (readBe16 r.extLen 0), none)
  else if r.extLen.getD 0 0 &&& 0x80 != 0 then r.refuse
  else (r.enterPayload (r.extLen.foldl (fun len b => len * 2 ^ 8 + b.toNat) 0), none)

/-- Payload bytes as they are stored: the ones of a masked frame are unmasked, by their place in
the payload. -/
def unmasked (b : List UInt8) : List UInt8 :=
  if r.masked then b.mapIdx fun i x => x ^^^ r.maskKey.getD ((r.payloadRead + i) % 4) 0 else b

def take (buffer : Buffer) (b : List UInt8) : Reader :=
  let stored := r.unmasked b
  match buffer with
  | .control =>
    { r with
      controlPayload := r.controlPayload ++ stored, payloadRead := r.payloadRead + b.length }
  | .message => { r with msg := r.msg ++ stored, payloadRead := r.payloadRead + b.length }

end Reader

/-- The reader and the connection after a part of a call, with what the call returns if it ends
there. -/
abbrev Phase := Reader × Wire × Option Recv

namespace Phase

def of (p : Reader × Option Recv) (w : Wire) : Phase := (p.1, w, p.2)

/-- Go on with the next part of the call, if it has not ended. -/
def andThen (p : Phase) (next : Reader → Wire → Phase) : Phase :=
  match p.2.2 with
  | none => next p.1 p.2.1
  | some _ => p

end Phase

variable (cap : ℕ) (o : Outcomes) (r : Reader) (w : Wire)

def readHeader : Phase :=
  if r.frameState = .header then
    let f := w.fill 2 2 r.hdr
    let r := { r with hdr := f.2.1 }
    match f.2.2 with
    | some s => Phase.of (r.halt s) f.1
    | none => Phase.of r.parseHeader f.1
  else (r, w, none)

def readExtLen : Phase :=
  if r.frameState = .extLen then
    let f := w.fill r.extLenNeeded r.extLenNeeded r.extLen
    let r := { r with extLen := f.2.1 }
    match f.2.2 with
    | some s => Phase.of (r.halt s) f.1
    | none => Phase.of r.parseExtLen f.1
  else (r, w, none)

def readMask : Phase :=
  if r.frameState = .mask then
    let f := w.fill 4 4 r.maskKey
    let r := { r with maskKey := f.2.1 }
    match f.2.2 with
    | some s => Phase.of (r.halt s) f.1
    | none => ({ r with frameState := .payload }, f.1, none)
  else (r, w, none)

/-- Read the payload into its buffer. Every pass reads a byte of it. -/
def fillPayload (buffer : Buffer) : ℕ → Reader → Wire → Reader × Wire × Option Stop
  | 0, r, w => (r, w, none)
  | n + 1, r, w =>
    if r.payloadLen ≤ r.payloadRead then (r, w, none)
    else
      let got := w.readBytes (r.payloadLen - r.payloadRead)
      match got.2 with
      | .bytes b => fillPayload buffer n (r.take buffer b) got.1
      | .stop s => (r, got.1, some s)

def finishControl : Phase :=
  let c := r.resetCurrentFrame
  if r.opcode = 0x8 then (c.resetAll, w, some .closed)
  else if r.opcode = 0x9 then
    if o.sends then (c, { w with sent := w.sent ++ [sendFrame 0xA r.controlPayload] }, none)
    else (c.resetAll, w, some .failed)
  else if r.opcode = 0xA then (c, w, none)
  else Phase.of c.refuse w

def finishData : Phase :=
  let c := r.resetCurrentFrame
  if r.fin then (c.resetAll, w, some (.text c.msg)) else ({ c with fragmented := true }, w, none)

def readControl : Phase :=
  let f := fillPayload .control (r.payloadLen - r.payloadRead) r w
  match f.2.2 with
  | some s => Phase.of (f.1.halt s) f.2.1
  | none => finishControl o f.1 f.2.1

def readData : Phase :=
  if r.msg.length ≥ cap ∨ r.payloadLen - r.payloadRead > cap - 1 - r.msg.length then
    Phase.of r.refuse w
  else if !o.allocated then (r.resetAll, w, some .noMemory)
  else
    let f := fillPayload .message (r.payloadLen - r.payloadRead) r w
    match f.2.2 with
    | some s => Phase.of (f.1.halt s) f.2.1
    | none => finishData f.1 f.2.1

def readPayload : Phase :=
  if r.frameState = .payload then
    if r.opcode &&& 0x08 != 0 then readControl o r w else readData cap o r w
  else (r, w, none)

def readFrame : Phase :=
  (((readHeader r w).andThen readExtLen).andThen readMask).andThen (readPayload cap o)

/-- The loop, for at most `n` frames; none where that is not enough. -/
def recvLoop : ℕ → Reader → Wire → Phase
  | 0, r, w => (r, w, none)
  | n + 1, r, w => (readFrame cap o r w).andThen (recvLoop n)

/-- `sfu_ws_recv_text`, without its check that `cap` is not zero. Every frame takes bytes, so there
are at most as many passes as bytes before the call blocks. -/
def recvText : Phase :=
  recvLoop cap o (w.rest.length + 1) r w

end MezonSfu.WebSocket
