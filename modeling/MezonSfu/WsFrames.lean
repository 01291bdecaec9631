import MezonSfu.Bytes

/-!
WebSocket frames as a client sends them, their bytes, and what a stream of frames means.

The meaning is a whole-stream decoder: it gives the messages that the frames make up and the pings
to be answered, in order.
-/

namespace MezonSfu.WebSocket

open Bytes

inductive FrameKind
  | text
  | continuation
  | ping
  | pong
deriving DecidableEq

def FrameKind.opcode : FrameKind → ℕ
  | .text => 0x1
  | .continuation => 0x0
  | .ping => 0x9
  | .pong => 0xA

def FrameKind.isControl : FrameKind → Bool
  | .text => false
  | .continuation => false
  | .ping => true
  | .pong => true

inductive LengthCode
  | short
  | ext16
  | ext64
deriving DecidableEq

namespace LengthCode

def marker (code : LengthCode) (len : ℕ) : ℕ :=
  match code with
  | .short => len
  | .ext16 => 126
  | .ext64 => 127

def extension (code : LengthCode) (len : ℕ) : List UInt8 :=
  match code with
  | .short => []
  | .ext16 => writeBe16 len
  | .ext64 => writeBe 8 len

/-- A longer encoding may be used for a short payload too. -/
def Fits (code : LengthCode) (len : ℕ) : Prop :=
  match code with
  | .short => len < 126
  | .ext16 => len < 2 ^ 16
  | .ext64 => len < 2 ^ 63

instance (code : LengthCode) (len : ℕ) : Decidable (code.Fits len) := by
  cases code <;> exact inferInstanceAs (Decidable (_ < _))

end LengthCode

structure Frame where
  kind : FrameKind
  fin : Bool
  mask : Option (UInt8 × UInt8 × UInt8 × UInt8)
  code : LengthCode
  payload : List UInt8
deriving DecidableEq

namespace Frame

def maskBytes (f : Frame) : List UInt8 :=
  match f.mask with
  | none => []
  | some (a, b, c, d) => [a, b, c, d]

def wirePayload (f : Frame) : List UInt8 :=
  match f.mask with
  | none => f.payload
  | some _ => f.payload.mapIdx fun i x => x ^^^ f.maskBytes.getD (i % 4) 0

def headerBytes (f : Frame) : List UInt8 :=
  [UInt8.ofNat ((if f.fin then 0x80 else 0) + f.kind.opcode),
    UInt8.ofNat ((if f.mask.isSome then 0x80 else 0) + f.code.marker f.payload.length)]

def encode (f : Frame) : List UInt8 :=
  f.headerBytes ++ (f.code.extension f.payload.length ++ (f.maskBytes ++ f.wirePayload))

end Frame

def encodeAll (fs : List Frame) : List UInt8 := fs.flatMap Frame.encode

/-- How far a message is: whether it has fragments, and its bytes so far. -/
structure Progress where
  fragmented : Bool
  msg : List UInt8
deriving DecidableEq

def Progress.idle : Progress := ⟨false, []⟩

/-- What is to come out of a stream. -/
inductive Output
  | message (msg : List UInt8)
  | pong (payload : List UInt8)
deriving DecidableEq

def Progress.next (p : Progress) (f : Frame) : Progress :=
  if f.kind.isControl then p
  else if f.fin then .idle
  else ⟨true, p.msg ++ f.payload⟩

def Progress.output (p : Progress) (f : Frame) : List Output :=
  match f.kind with
  | .ping => [.pong f.payload]
  | .pong => []
  | _ => if f.fin then [.message (p.msg ++ f.payload)] else []

def outputs : Progress → List Frame → List Output
  | _, [] => []
  | p, f :: fs => p.output f ++ outputs (p.next f) fs

/-- A frame that may follow: control frames are short and whole, a message begins with a text
frame and goes on with continuations, and it is shorter than the buffer. -/
structure Progress.Permits (p : Progress) (cap : ℕ) (f : Frame) : Prop where
  fits : f.code.Fits f.payload.length
  control : f.kind.isControl = true → f.fin = true ∧ f.payload.length ≤ 125 ∧ f.code = .short
  begins : f.kind = .text → p.fragmented = false
  continues : f.kind = .continuation → p.fragmented = true
  short : f.kind.isControl = false → (p.msg ++ f.payload).length < cap

/-- A frame that may follow and does not make an empty message. -/
structure Progress.Allows (p : Progress) (cap : ℕ) (f : Frame) : Prop extends p.Permits cap f where
  nonempty : f.kind.isControl = false → f.fin = true → p.msg ++ f.payload ≠ []

/-- A valid stream from a client. -/
def Valid (cap : ℕ) : Progress → List Frame → Prop
  | _, [] => True
  | p, f :: fs => p.Allows cap f ∧ Valid cap (p.next f) fs

/-- A valid stream, empty messages included. -/
def Permitted (cap : ℕ) : Progress → List Frame → Prop
  | _, [] => True
  | p, f :: fs => p.Permits cap f ∧ Permitted cap (p.next f) fs

lemma Valid.permitted {cap : ℕ} {p : Progress} {fs : List Frame} (h : Valid cap p fs) :
    Permitted cap p fs := by
  induction fs generalizing p with
  | nil => trivial
  | cons f fs ih => exact ⟨h.1.toPermits, ih h.2⟩

lemma getD_writeBe_eight {v : ℕ} (h : v < 2 ^ 63) :
    ((writeBe 8 v).getD 0 0 &&& 0x80 != 0) = false := by
  have hfirst : (writeBe 8 v).getD 0 0 = UInt8.ofNat (v / 2 ^ 56) := by
    simp [writeBe, Nat.div_div_eq_div_mul]
  have hlt : v / 2 ^ 56 < 128 := by omega
  have hbits : ∀ n < 128, (UInt8.ofNat n &&& 0x80 != 0) = false := by decide
  rw [hfirst]
  exact hbits _ hlt

lemma length_wirePayload (f : Frame) : f.wirePayload.length = f.payload.length := by
  unfold Frame.wirePayload
  split <;> simp

variable {f : Frame}

lemma unmask_wirePayload (h : f.mask.isSome) (n m : ℕ) :
    ((f.wirePayload.drop n).take m).mapIdx
        (fun i x => x ^^^ f.maskBytes.getD ((n + i) % 4) 0) = (f.payload.drop n).take m := by
  obtain ⟨k, hk⟩ := Option.isSome_iff_exists.1 h
  have hwire : f.wirePayload =
      f.payload.mapIdx fun i x => x ^^^ f.maskBytes.getD (i % 4) 0 := by
    unfold Frame.wirePayload
    rw [hk]
  refine List.ext_getElem? fun i => ?_
  rw [hwire, List.getElem?_mapIdx, List.getElem?_take, List.getElem?_take, List.getElem?_drop,
    List.getElem?_drop, List.getElem?_mapIdx]
  split_ifs
  · rw [Option.map_map]
    cases f.payload[n + i]? with
    | none => rfl
    | some x =>
      change some (x ^^^ _ ^^^ _) = some x
      rw [UInt8.xor_assoc, UInt8.xor_self, UInt8.xor_zero]
  · rfl

lemma wirePayload_of_unmasked (h : f.mask.isSome = false) : f.wirePayload = f.payload := by
  have hnone : f.mask = none := by simpa using h
  unfold Frame.wirePayload
  rw [hnone]

@[simp] lemma encodeAll_cons (f : Frame) (fs : List Frame) :
    encodeAll (f :: fs) = f.encode ++ encodeAll fs := rfl

lemma length_maskBytes (h : f.mask.isSome) : f.maskBytes.length = 4 := by
  obtain ⟨k, hk⟩ := Option.isSome_iff_exists.1 h
  unfold Frame.maskBytes
  rw [hk]
  rfl

lemma maskBytes_of_unmasked (h : f.mask.isSome = false) : f.maskBytes = [] := by
  have hnone : f.mask = none := by simpa using h
  unfold Frame.maskBytes
  rw [hnone]

end MezonSfu.WebSocket
