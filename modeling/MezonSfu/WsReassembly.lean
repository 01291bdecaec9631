import MezonSfu.WsFrames
import MezonSfu.WsRecv

/-!
What comes out of a WebSocket connection does not depend on how its bytes are cut.

`At p r rest fs` says that the reader `r` stands in the stream `fs` with `rest` still to come, and
`p` is the message so far: it is between two frames or in one of the fields of the first frame. A
call reads the rest of a field or blocks inside it; either way the reader stands where it should,
so the frames decide what comes out, and the cuts only when.
-/

namespace MezonSfu.WebSocket

open Bytes List

/-! ### Where the reader stands -/

section

variable (p : Progress) (f : Frame) (r : Reader) (rest : List UInt8) (fs : List Frame)

/-- Between two frames, or in the header of the first one. -/
structure AtHeader : Prop where
  state : r.frameState = .header
  short : r.hdr.length < 2
  bytes : r.hdr ++ rest = encodeAll fs
  fragmented : r.fragmented = p.fragmented
  msg : r.msg = p.msg
  control : r.controlPayload = []

/-- The header of `f` was read. -/
structure Parsed : Prop where
  fin : r.fin = f.fin
  opcode : r.opcode = UInt8.ofNat f.kind.opcode
  masked : r.masked = f.mask.isSome
  fragmented : r.fragmented = p.fragmented

/-- In the extended length of `f`. -/
structure AtExtLen : Prop where
  state : r.frameState = .extLen
  parsed : Parsed p f r
  code : f.code ≠ .short
  needed : r.extLenNeeded = (f.code.extension f.payload.length).length
  short : r.extLen.length < r.extLenNeeded
  bytes : r.extLen ++ rest = f.code.extension f.payload.length ++
    (f.maskBytes ++ (f.wirePayload ++ encodeAll fs))
  msg : r.msg = p.msg
  control : r.controlPayload = []

/-- In the masking key of `f`. -/
structure AtMask : Prop where
  state : r.frameState = .mask
  parsed : Parsed p f r
  isMasked : f.mask.isSome = true
  len : r.payloadLen = f.payload.length
  read : r.payloadRead = 0
  short : r.maskKey.length < 4
  bytes : r.maskKey ++ rest = f.maskBytes ++ (f.wirePayload ++ encodeAll fs)
  msg : r.msg = p.msg
  control : r.controlPayload = []

/-- In the payload of `f`; the part of it that was read is in its buffer. -/
structure AtPayload : Prop where
  state : r.frameState = .payload
  parsed : Parsed p f r
  len : r.payloadLen = f.payload.length
  le : r.payloadRead ≤ r.payloadLen
  key : f.mask.isSome = true → r.maskKey = f.maskBytes
  bytes : rest = f.wirePayload.drop r.payloadRead ++ encodeAll fs
  msg : r.msg = p.msg ++ if f.kind.isControl then [] else f.payload.take r.payloadRead
  control : r.controlPayload = if f.kind.isControl then f.payload.take r.payloadRead else []

/-- The length of `f` was read: in its masking key or in its payload. -/
inductive Behind : Prop
  | mask (h : AtMask p f r rest fs)
  | payload (h : AtPayload p f r rest fs)

/-- The header of `f` was read. -/
inductive Within : Prop
  | extLen (h : AtExtLen p f r rest fs)
  | behind (h : Behind p f r rest fs)

end

variable {cap : ℕ} {p : Progress} {f : Frame} {r : Reader} {rest : List UInt8} {fs : List Frame}
  {w : Wire}

inductive At (p : Progress) (r : Reader) (rest : List UInt8) : List Frame → Prop
  | header {fs : List Frame} (h : AtHeader p r rest fs) : At p r rest fs
  | extLen {f : Frame} {fs : List Frame} (h : AtExtLen p f r rest fs) : At p r rest (f :: fs)
  | mask {f : Frame} {fs : List Frame} (h : AtMask p f r rest fs) : At p r rest (f :: fs)
  | payload {f : Frame} {fs : List Frame} (h : AtPayload p f r rest fs)
      (hlt : r.payloadRead < r.payloadLen) : At p r rest (f :: fs)

lemma at_init : At .idle .init (encodeAll fs) fs :=
  .header ⟨rfl, Nat.zero_lt_two, rfl, rfl, rfl, rfl⟩

@[simp] lemma length_headerBytes (f : Frame) : f.headerBytes.length = 2 := rfl

lemma At.length_lt (h : At p r rest (f :: fs)) : (encodeAll fs).length < rest.length := by
  cases h with
  | header h =>
    have hlen := congrArg List.length h.bytes
    have hshort := h.short
    rw [length_append, encodeAll_cons, Frame.encode, length_append, length_append,
      length_headerBytes] at hlen
    omega
  | extLen h =>
    have hlen := congrArg List.length h.bytes
    have hshort := h.short
    have hneed := h.needed
    simp only [length_append] at hlen
    omega
  | mask h =>
    have hlen := congrArg List.length h.bytes
    have hshort := h.short
    have hmask := length_maskBytes h.isMasked
    simp only [length_append] at hlen
    omega
  | payload h hlt =>
    have hlen := congrArg List.length h.bytes
    have hl := h.len
    rw [length_append, length_drop, length_wirePayload] at hlen
    omega

lemma At.eq_nil (h : At p r [] fs) : fs = [] := by
  cases fs with
  | nil => rfl
  | cons f fs => exact absurd h.length_lt (Nat.not_lt_zero _)

lemma header_bits (kind : FrameKind) (fin : Bool) :
    let r := (if fin then 0x80 else 0) + kind.opcode
    ((UInt8.ofNat r &&& 0x80 != 0) = fin) ∧ (UInt8.ofNat r &&& 0x0F = UInt8.ofNat kind.opcode) ∧
      ((UInt8.ofNat r &&& 0x70 != 0) = false) := by
  cases kind <;> cases fin <;> decide

lemma opcode_control (kind : FrameKind) :
    (UInt8.ofNat kind.opcode &&& 0x08 != 0) = kind.isControl := by
  cases kind <;> decide

lemma length_bits (masked : Bool) {n : ℕ} (h : n < 128) :
    let r := (if masked then 0x80 else 0) + n
    ((UInt8.ofNat r &&& 0x80 != 0) = masked) ∧ (UInt8.ofNat r &&& 0x7F).toNat = n := by
  revert masked n
  decide +kernel

lemma marker_lt (h : p.Permits cap f) : f.code.marker f.payload.length < 128 := by
  have hfits := h.fits
  unfold LengthCode.marker
  unfold LengthCode.Fits at hfits
  split at hfits
  · omega
  · decide
  · decide

lemma refusesData_eq_false (h : p.Permits cap f) (hc : f.kind.isControl = false) :
    Reader.refusesData (UInt8.ofNat f.kind.opcode) p.fragmented = false := by
  cases hk : f.kind with
  | text =>
    rw [h.begins hk]
    rfl
  | continuation =>
    rw [h.continues hk]
    rfl
  | ping | pong =>
    rw [hk] at hc
    cases hc

/-- The reader with the header of `f`. -/
def withHeader (r : Reader) (f : Frame) : Reader :=
  { r with fin := f.fin, opcode := UInt8.ofNat f.kind.opcode, masked := f.mask.isSome }

lemma parseHeader_eq (h : p.Permits cap f) (hh : r.hdr = f.headerBytes)
    (hfrag : r.fragmented = p.fragmented) :
    r.parseHeader =
      (match f.code with
        | .short => ((withHeader r f).enterPayload f.payload.length, none)
        | .ext16 =>
          ({ withHeader r f with extLenNeeded := 2, extLen := [], frameState := .extLen }, none)
        | .ext64 =>
          ({ withHeader r f with extLenNeeded := 8, extLen := [], frameState := .extLen },
            none)) := by
  obtain ⟨hfin, hop, hrsv⟩ := header_bits f.kind f.fin
  obtain ⟨hmask, hlen⟩ := length_bits f.mask.isSome (marker_lt h)
  have hcontrol := opcode_control f.kind
  have h0 : r.hdr.getD 0 0 = UInt8.ofNat ((if f.fin then 0x80 else 0) + f.kind.opcode) := by
    rw [hh]
    rfl
  have h1 : r.hdr.getD 1 0 = UInt8.ofNat ((if f.mask.isSome then 0x80 else 0) +
      f.code.marker f.payload.length) := by
    rw [hh]
    rfl
  have hctl : (f.kind.isControl &&
      (!f.fin || decide (f.code.marker f.payload.length > 125))) = false := by
    cases hc : f.kind.isControl with
    | true =>
      obtain ⟨hf, hle, hcode⟩ := h.control hc
      rw [hf, hcode]
      simpa [LengthCode.marker] using hle
    | false => rfl
  have hdata : (!f.kind.isControl &&
      Reader.refusesData (UInt8.ofNat f.kind.opcode) r.fragmented) = false := by
    cases hc : f.kind.isControl with
    | true => rfl
    | false =>
      rw [hfrag, refusesData_eq_false h hc]
      rfl
  unfold Reader.parseHeader
  simp only [h0, h1, hfin, hop, hmask, hlen, hrsv, hcontrol, hctl, hdata, Bool.false_eq_true,
    if_false]
  have hfits := h.fits
  cases hcode : f.code with
  | short =>
    rw [hcode] at hfits
    have hlt : f.payload.length < 126 := hfits
    rw [LengthCode.marker, if_neg (by omega), if_neg (by omega)]
    rfl
  | ext16 | ext64 => rfl

/-! ### The parts of a call -/

/-- A part of a call blocks, and the reader stands in the same stream. -/
structure Waits (p : Progress) (fs : List Frame) (w : Wire) (ph : Phase) : Prop where
  result : ph.2.2 = some .wouldBlock
  place : At p ph.1 ph.2.1.rest fs
  took : ∃ t, Wire.Took w ph.2.1 t
  blocked : Wire.Blocked w ph.2.1

/-- A part of a call has read what it should. -/
structure Goes (w : Wire) (ph : Phase) : Prop where
  result : ph.2.2 = none
  took : ∃ t, Wire.Took w ph.2.1 t

variable {ph : Phase} {rest' t : List UInt8} {o : Outcomes}

lemma Waits.andThen (h : Waits p fs w ph) (next : Reader → Wire → Phase) :
    Waits p fs w (ph.andThen next) := by
  have heq : ph.andThen next = ph := by
    unfold Phase.andThen
    rw [h.result]
  rw [heq]
  exact h

lemma Goes.andThen (h : Goes w ph) (next : Reader → Wire → Phase) :
    ph.andThen next = next ph.1 ph.2.1 := by
  unfold Phase.andThen
  rw [h.result]

lemma Waits.after {ph' : Phase} (hg : Goes w ph) (h : Waits p fs ph.2.1 ph') :
    Waits p fs w ph' := by
  obtain ⟨t, ht⟩ := hg.took
  obtain ⟨t', ht'⟩ := h.took
  exact ⟨h.result, h.place, ⟨_, ht.trans ht'⟩, h.blocked.of_took ht⟩

lemma enterPayload_spec (hp : Parsed p f r) (hm : r.msg = p.msg) (hc : r.controlPayload = [])
    (hb : rest = f.maskBytes ++ (f.wirePayload ++ encodeAll fs)) :
    Behind p f (r.enterPayload f.payload.length) rest fs := by
  unfold Reader.enterPayload
  cases hmask : f.mask.isSome with
  | true =>
    rw [if_pos (hp.masked.trans hmask)]
    exact .mask ⟨rfl, { hp with }, hmask, rfl, rfl, Nat.zero_lt_succ _, hb, hm, hc⟩
  | false =>
    rw [if_neg (by rw [hp.masked, hmask]; decide)]
    refine .payload ⟨rfl, { hp with }, rfl, Nat.zero_le _, ?_, ?_, ?_, ?_⟩
    · intro hyes
      rw [hmask] at hyes
      cases hyes
    · rw [hb, maskBytes_of_unmasked hmask]
      rfl
    · rw [hm]
      simp
    · rw [hc]
      simp

lemma parseHeader_spec (h : p.Permits cap f) (hh : r.hdr = f.headerBytes)
    (hfrag : r.fragmented = p.fragmented) (hm : r.msg = p.msg) (hc : r.controlPayload = [])
    (hb : rest = f.code.extension f.payload.length ++
      (f.maskBytes ++ (f.wirePayload ++ encodeAll fs))) :
    r.parseHeader.2 = none ∧ Within p f r.parseHeader.1 rest fs := by
  rw [parseHeader_eq h hh hfrag]
  cases hcode : f.code with
  | short =>
    rw [hcode] at hb
    exact ⟨rfl, .behind (enterPayload_spec ⟨rfl, rfl, rfl, hfrag⟩ hm hc hb)⟩
  | ext16 =>
    refine ⟨rfl, .extLen ⟨rfl, ⟨rfl, rfl, rfl, hfrag⟩, by rw [hcode]; decide, ?_, ?_, hb, hm, hc⟩⟩
    · rw [hcode]
      rfl
    · exact Nat.zero_lt_two
  | ext64 =>
    refine ⟨rfl, .extLen ⟨rfl, ⟨rfl, rfl, rfl, hfrag⟩, by rw [hcode]; decide, ?_, ?_, hb, hm, hc⟩⟩
    · rw [hcode]
      exact (length_writeBe 8 _).symm
    · exact Nat.zero_lt_succ _

/-- **The header.** -/
lemma readHeader_spec (h : AtHeader p r w.rest fs) (hv : Permitted cap p fs) (hp : w.Plain) :
    let out := readHeader r w
    Waits p fs w out ∨
      ∃ f fs', fs = f :: fs' ∧ Goes w out ∧
        Within p f out.1 out.2.1.rest fs' := by
  obtain ⟨htook, hsame, hcases⟩ := Wire.fill_spec 2 2 r.hdr hp h.short.le (Nat.le_add_left 2 _)
  have hbytes := hsame.trans h.bytes
  unfold readHeader
  rw [if_pos h.state]
  dsimp only
  rcases hcases with ⟨hnone, hlen⟩ | ⟨hsome, hlen, hblocked⟩
  · rw [hnone]
    cases fs with
    | nil =>
      rw [append_eq_nil_iff.1 hbytes |>.1] at hlen
      cases hlen
    | cons f fs =>
      rw [encodeAll_cons, Frame.encode, append_assoc] at hbytes
      obtain ⟨hfield, hrest⟩ := append_inj hbytes (hlen.trans (length_headerBytes f).symm)
      obtain ⟨hres, hwithin⟩ := parseHeader_spec (r := { r with hdr := (w.fill 2 2 r.hdr).2.1 })
        hv.1 hfield h.fragmented h.msg h.control (hrest.trans (by rw [append_assoc, append_assoc]))
      exact .inr ⟨f, fs, rfl, ⟨hres, htook⟩, hwithin⟩
  · rw [hsome]
    exact .inl ⟨rfl, .header ⟨h.state, hlen, hbytes, h.fragmented, h.msg, h.control⟩, htook,
      hblocked⟩

lemma parseExtLen_spec (ha : p.Permits cap f) (hp : Parsed p f r) (hcode : f.code ≠ .short)
    (hn : r.extLenNeeded = (f.code.extension f.payload.length).length)
    (he : r.extLen = f.code.extension f.payload.length) (hm : r.msg = p.msg)
    (hc : r.controlPayload = []) (hb : rest = f.maskBytes ++ (f.wirePayload ++ encodeAll fs)) :
    r.parseExtLen.2 = none ∧ Behind p f r.parseExtLen.1 rest fs := by
  have hpayload := enterPayload_spec hp hm hc hb
  have hfits := ha.fits
  unfold Reader.parseExtLen
  cases hk : f.code with
  | short => exact absurd hk hcode
  | ext16 =>
    rw [hk] at hn he hfits
    have hlen : readBe16 r.extLen 0 = f.payload.length := by
      rw [he]
      change readBe16 (writeBe16 f.payload.length) 0 = _
      rw [← append_nil (writeBe16 _), readBe16_write]
      exact Nat.mod_eq_of_lt hfits
    have hneed : r.extLenNeeded = 2 := hn
    rw [if_pos hneed, hlen]
    exact ⟨rfl, hpayload⟩
  | ext64 =>
    rw [hk] at hn he hfits
    have hneed : r.extLenNeeded = 8 := hn.trans (length_writeBe 8 _)
    have hlen : r.extLen.foldl (fun len b => len * 2 ^ 8 + b.toNat) 0 = f.payload.length := by
      rw [he]
      refine (foldl_writeBe 8 _).trans (Nat.mod_eq_of_lt ?_)
      exact Nat.lt_trans hfits (by decide)
    have hbit : (r.extLen.getD 0 0 &&& 0x80 != 0) = false := by
      rw [he]
      exact getD_writeBe_eight hfits
    rw [if_neg (by rw [hneed]; decide), hbit, if_neg Bool.false_ne_true, hlen]
    exact ⟨rfl, hpayload⟩

/-- **The extended length.** -/
lemma readExtLen_spec (ha : p.Permits cap f) (h : Within p f r w.rest fs) (hp : w.Plain) :
    let out := readExtLen r w
    Waits p (f :: fs) w out ∨
      (Goes w out ∧
        Behind p f out.1 out.2.1.rest fs) := by
  have hskip : r.frameState ≠ .extLen → readExtLen r w = (r, w, none) := fun hne => if_neg hne
  cases h with
  | behind hb =>
    have hne : r.frameState ≠ .extLen := by
      cases hb with
      | mask h | payload h =>
        rw [h.state]
        decide
    rw [hskip hne]
    exact .inr ⟨⟨rfl, [], .refl hp⟩, hb⟩
  | extLen h =>
    obtain ⟨htook, hsame, hcases⟩ :=
      Wire.fill_spec r.extLenNeeded r.extLenNeeded r.extLen hp h.short.le (Nat.le_add_left _ _)
    have hbytes := hsame.trans h.bytes
    unfold readExtLen
    rw [if_pos h.state]
    dsimp only
    rcases hcases with ⟨hnone, hlen⟩ | ⟨hsome, hlen, hblocked⟩
    · rw [hnone]
      obtain ⟨hfield, hrest⟩ := append_inj hbytes (hlen.trans h.needed)
      obtain ⟨hres, hbehind⟩ := parseExtLen_spec
        (r := { r with extLen := (w.fill r.extLenNeeded r.extLenNeeded r.extLen).2.1 }) ha
        { h.parsed with } h.code h.needed hfield h.msg h.control hrest
      exact .inr ⟨⟨hres, htook⟩, hbehind⟩
    · rw [hsome]
      exact .inl ⟨rfl, .extLen ⟨h.state, { h.parsed with }, h.code, h.needed, hlen, hbytes, h.msg,
        h.control⟩, htook, hblocked⟩

/-- **The masking key.** -/
lemma readMask_spec (h : Behind p f r w.rest fs) (hp : w.Plain) :
    Waits p (f :: fs) w (readMask r w) ∨
      (Goes w (readMask r w) ∧ AtPayload p f (readMask r w).1 (readMask r w).2.1.rest fs) := by
  cases h with
  | payload h =>
    have hskip : readMask r w = (r, w, none) := if_neg (by rw [h.state]; decide)
    rw [hskip]
    exact .inr ⟨⟨rfl, [], .refl hp⟩, h⟩
  | mask h =>
    obtain ⟨htook, hsame, hcases⟩ :=
      Wire.fill_spec 4 4 r.maskKey hp h.short.le (Nat.le_add_left 4 _)
    have hbytes := hsame.trans h.bytes
    unfold readMask
    rw [if_pos h.state]
    dsimp only
    have hparsed : ∀ key state, Parsed p f { r with maskKey := key, frameState := state } :=
      fun _ _ => { h.parsed with }
    rcases hcases with ⟨hnone, hlen⟩ | ⟨hsome, hlen, hblocked⟩
    · rw [hnone]
      obtain ⟨hfield, hrest⟩ := append_inj hbytes (hlen.trans (length_maskBytes h.isMasked).symm)
      refine .inr ⟨⟨rfl, htook⟩, rfl, hparsed _ _, h.len, ?_, fun _ => hfield, ?_, ?_, ?_⟩
      · rw [h.read]
        exact Nat.zero_le _
      · rw [h.read, hrest]
        rfl
      · rw [h.read, h.msg]
        simp
      · rw [h.read, h.control]
        simp
    · rw [hsome]
      exact .inl ⟨rfl, .mask ⟨h.state, hparsed _ _, h.isMasked, h.len, h.read, hlen, hbytes, h.msg,
        h.control⟩, htook, hblocked⟩

/-! ### The payload -/

def Frame.buffer (f : Frame) : Buffer := if f.kind.isControl then .control else .message

lemma payloadRead_take (r : Reader) (buffer : Buffer) (t : List UInt8) :
    (r.take buffer t).payloadRead = r.payloadRead + t.length := by
  cases buffer <;> rfl

lemma payloadLen_take (r : Reader) (buffer : Buffer) (t : List UInt8) :
    (r.take buffer t).payloadLen = r.payloadLen := by
  cases buffer <;> rfl

lemma unmasked_append (r : Reader) (buffer : Buffer) (t t' : List UInt8) :
    r.unmasked (t ++ t') = r.unmasked t ++ (r.take buffer t).unmasked t' := by
  have hkey : (r.take buffer t).maskKey = r.maskKey := by cases buffer <;> rfl
  have hmask : (r.take buffer t).masked = r.masked := by cases buffer <;> rfl
  unfold Reader.unmasked
  rw [hkey, hmask, payloadRead_take]
  split_ifs
  · rw [mapIdx_append]
    congr 2
    funext i x
    rw [Nat.add_assoc, Nat.add_comm i]
  · rfl

lemma take_take (r : Reader) (buffer : Buffer) (t t' : List UInt8) :
    (r.take buffer t).take buffer t' = r.take buffer (t ++ t') := by
  have hsplit := unmasked_append r buffer t t'
  cases buffer with
  | control | message =>
    unfold Reader.take at hsplit ⊢
    dsimp only at hsplit ⊢
    rw [hsplit, length_append, append_assoc, Nat.add_assoc]

lemma take_nil (r : Reader) (buffer : Buffer) : r.take buffer [] = r := by
  have hnil : r.unmasked [] = [] := by
    unfold Reader.unmasked
    split_ifs <;> rfl
  cases buffer with
  | control | message =>
    unfold Reader.take
    dsimp only
    rw [hnil, append_nil]
    rfl

/-- **Filling the payload**: all of it is stored, or a part of it and the call blocks. -/
lemma fillPayload_spec (buffer : Buffer) (n : ℕ) (r : Reader) (w : Wire) (hp : w.Plain)
    (hle : r.payloadRead ≤ r.payloadLen) (hn : r.payloadLen ≤ r.payloadRead + n) :
    let ph := fillPayload buffer n r w
    ∃ t, Wire.Took w ph.2.1 t ∧ ph.1 = r.take buffer t ∧
      ((ph.2.2 = none ∧ r.payloadRead + t.length = r.payloadLen) ∨
        (ph.2.2 = some .wouldBlock ∧ r.payloadRead + t.length < r.payloadLen ∧
          Wire.Blocked w ph.2.1)) := by
  induction n generalizing r w with
  | zero =>
    exact ⟨[], .refl hp, (take_nil r buffer).symm, .inl ⟨rfl, le_antisymm hle hn⟩⟩
  | succ n ih =>
    unfold fillPayload
    split_ifs with hfull
    · exact ⟨[], .refl hp, (take_nil r buffer).symm, .inl ⟨rfl, le_antisymm hle hfull⟩⟩
    rcases Wire.readBytes_spec hp (show 0 < r.payloadLen - r.payloadRead by omega) with
      ⟨t, hout, hne, hlen, htook⟩ | ⟨hout, htook, hblocked⟩
    · have hpos := length_pos_of_ne_nil hne
      have hread := payloadRead_take r buffer t
      have hplen := payloadLen_take r buffer t
      obtain ⟨t', htook', htake, hcases⟩ :=
        ih (r.take buffer t) (w.readBytes (r.payloadLen - r.payloadRead)).1 htook.plain
          (by omega) (by omega)
      rw [hread, hplen] at hcases
      dsimp only
      rw [hout]
      refine ⟨t ++ t', htook.trans htook', ?_, ?_⟩
      · rw [← take_take]
        exact htake
      · rw [length_append, ← Nat.add_assoc]
        rcases hcases with hdone | ⟨hstop, hlt, hblocked⟩
        · exact .inl hdone
        · exact .inr ⟨hstop, hlt, hblocked.of_took htook⟩
    · dsimp only
      rw [hout]
      refine ⟨[], htook, (take_nil r buffer).symm, .inr ⟨rfl, ?_, hblocked⟩⟩
      rw [length_nil]
      omega

lemma AtPayload.unmasked (h : AtPayload p f r (t ++ rest') fs)
    (hle : r.payloadRead + t.length ≤ r.payloadLen) :
    r.unmasked t = (f.payload.drop r.payloadRead).take t.length ∧
      rest' = f.wirePayload.drop (r.payloadRead + t.length) ++ encodeAll fs := by
  have hlen : t.length ≤ (f.wirePayload.drop r.payloadRead).length := by
    rw [length_drop, length_wirePayload, ← h.len]
    omega
  have ht : t = (f.wirePayload.drop r.payloadRead).take t.length := by
    have hbytes := congrArg (List.take t.length) h.bytes
    rwa [take_left, take_append_of_le_length hlen] at hbytes
  constructor
  · unfold Reader.unmasked
    rw [h.parsed.masked]
    split_ifs with hmask
    · rw [h.key hmask]
      conv_lhs => rw [ht]
      exact unmask_wirePayload hmask _ _
    · conv_lhs => rw [ht]
      rw [wirePayload_of_unmasked (Bool.eq_false_of_not_eq_true hmask)]
  · have hbytes := congrArg (List.drop t.length) h.bytes
    rwa [drop_left, drop_append_of_le_length hlen, drop_drop] at hbytes

lemma AtPayload.take (h : AtPayload p f r (t ++ rest') fs)
    (hle : r.payloadRead + t.length ≤ r.payloadLen) :
    AtPayload p f (r.take f.buffer t) rest' fs := by
  obtain ⟨hstored, hrest⟩ := h.unmasked hle
  have hparts : f.payload.take r.payloadRead ++ r.unmasked t =
      f.payload.take (r.payloadRead + t.length) := by
    rw [hstored, take_add]
  have hmsg := h.msg
  have hcontrol := h.control
  unfold Frame.buffer
  cases hc : f.kind.isControl with
  | true =>
    rw [hc] at hmsg hcontrol
    refine ⟨h.state, { h.parsed with }, h.len, hle, h.key, hrest, ?_, ?_⟩
    · rw [hc]
      exact hmsg
    · rw [hc]
      change r.controlPayload ++ r.unmasked t = f.payload.take (r.payloadRead + t.length)
      rw [hcontrol, ← hparts]
      rfl
  | false =>
    rw [hc] at hmsg hcontrol
    refine ⟨h.state, { h.parsed with }, h.len, hle, h.key, hrest, ?_, ?_⟩
    · rw [hc]
      change r.msg ++ r.unmasked t = p.msg ++ f.payload.take (r.payloadRead + t.length)
      rw [hmsg, ← hparts, ← append_assoc]
      rfl
    · rw [hc]
      exact hcontrol

/-- A frame is complete: the reader is at the next one, and what comes out at the frame came
out. -/
structure Ends (p : Progress) (f : Frame) (fs : List Frame) (w : Wire) (ph : Phase) : Prop where
  place : AtHeader (p.next f) ph.1 ph.2.1.rest fs
  rest : ph.2.1.rest = encodeAll fs
  plain : ph.2.1.Plain
  blocks : ph.2.1.blocks ≤ w.blocks
  out : (∃ ps : List (List UInt8), ph.2.2 = none ∧ p.output f = ps.map .pong ∧
      ph.2.1.sent = w.sent ++ ps.map (sendFrame 0xA)) ∨
    (∃ m, ph.2.2 = some (.text m) ∧ p.output f = [.message m] ∧ ph.2.1.sent = w.sent)

lemma AtPayload.complete (h : AtPayload p f r rest fs) (hfull : r.payloadRead = r.payloadLen) :
    f.payload.take r.payloadRead = f.payload ∧ rest = encodeAll fs := by
  have hdrop : f.wirePayload.drop r.payloadRead = [] :=
    drop_of_length_le (by rw [hfull, h.len, length_wirePayload])
  refine ⟨take_of_length_le (by rw [hfull, h.len]), ?_⟩
  rw [h.bytes, hdrop]
  rfl

lemma finishControl_spec (ho : o.sends) (h : AtPayload p f r w.rest fs)
    (hfull : r.payloadRead = r.payloadLen) (hc : f.kind.isControl) (hp : w.Plain) :
    Ends p f fs w (finishControl o r w) := by
  have hmsg := h.msg
  have hcontrol := h.control
  obtain ⟨hall, hrest⟩ := h.complete hfull
  rw [hc, hall] at hcontrol
  rw [hc] at hmsg
  have hnext : p.next f = p := if_pos hc
  have hplace : AtHeader (p.next f) r.resetCurrentFrame w.rest fs := by
    rw [hnext]
    exact ⟨rfl, Nat.zero_lt_two, hrest, h.parsed.fragmented, hmsg.trans (append_nil _), rfl⟩
  unfold finishControl
  cases hk : f.kind with
  | text | continuation =>
    rw [hk] at hc
    cases hc
  | ping =>
    have hop : r.opcode = 0x9 := by
      rw [h.parsed.opcode, hk]
      rfl
    rw [hop, if_neg (by decide), if_pos rfl, if_pos ho]
    refine ⟨hplace, hrest, hp, le_rfl, .inl ⟨[f.payload], rfl, ?_, ?_⟩⟩
    · unfold Progress.output
      rw [hk]
      rfl
    · rw [hcontrol]
      rfl
  | pong =>
    have hop : r.opcode = 0xA := by
      rw [h.parsed.opcode, hk]
      rfl
    rw [hop, if_neg (by decide), if_neg (by decide), if_pos rfl]
    refine ⟨hplace, hrest, hp, le_rfl, .inl ⟨[], rfl, ?_, (append_nil _).symm⟩⟩
    unfold Progress.output
    rw [hk]
    rfl

lemma finishData_spec (h : AtPayload p f r w.rest fs) (hfull : r.payloadRead = r.payloadLen)
    (hc : f.kind.isControl = false) (hp : w.Plain) : Ends p f fs w (finishData r w) := by
  have hmsg := h.msg
  obtain ⟨hall, hrest⟩ := h.complete hfull
  rw [hc, hall] at hmsg
  have houtput : p.output f = if f.fin then [.message (p.msg ++ f.payload)] else [] := by
    unfold Progress.output
    cases hk : f.kind with
    | text | continuation => rfl
    | ping | pong =>
      rw [hk] at hc
      cases hc
  have hnext : p.next f = if f.fin then .idle else ⟨true, p.msg ++ f.payload⟩ :=
    if_neg (by rw [hc]; decide)
  unfold finishData
  rw [h.parsed.fin]
  cases hfin : f.fin with
  | true =>
    rw [hfin] at houtput hnext
    refine ⟨?_, hrest, hp, le_rfl, .inr ⟨p.msg ++ f.payload, ?_, houtput, rfl⟩⟩
    · rw [hnext]
      exact ⟨rfl, Nat.zero_lt_two, hrest, rfl, rfl, rfl⟩
    · change some (Recv.text r.msg) = _
      rw [hmsg]
      rfl
  | false =>
    rw [hfin] at houtput hnext
    refine ⟨?_, hrest, hp, le_rfl, .inl ⟨[], rfl, houtput, (append_nil _).symm⟩⟩
    rw [hnext]
    exact ⟨rfl, Nat.zero_lt_two, hrest, rfl, hmsg, rfl⟩

lemma Ends.after {v : Wire} (ht : Wire.Took w v t) (h : Ends p f fs v ph) : Ends p f fs w ph where
  place := h.place
  rest := h.rest
  plain := h.plain
  blocks := h.blocks.trans ht.blocks
  out := by
    have hsent := h.out
    rw [ht.sent] at hsent
    exact hsent

/-- **The payload.** -/
lemma readPayload_spec (ha : o.allocated) (hs : o.sends) (hv : p.Permits cap f)
    (h : AtPayload p f r w.rest fs) (hp : w.Plain) :
    Waits p (f :: fs) w (readPayload cap o r w) ∨ Ends p f fs w (readPayload cap o r w) := by
  obtain ⟨t, htook, htake, hcases⟩ := fillPayload_spec f.buffer (r.payloadLen - r.payloadRead) r w
    hp h.le (by have := h.le; omega)
  have hle : r.payloadRead + t.length ≤ r.payloadLen := by
    rcases hcases with ⟨-, heq⟩ | ⟨-, hlt, -⟩
    · exact heq.le
    · exact hlt.le
  have hfull : r.payloadRead + t.length = r.payloadLen →
      (r.take f.buffer t).payloadRead = (r.take f.buffer t).payloadLen := fun heq => by
    rw [payloadRead_take, payloadLen_take, heq]
  have hplace : AtPayload p f (r.take f.buffer t)
      (fillPayload f.buffer (r.payloadLen - r.payloadRead) r w).2.1.rest fs := by
    rw [htook.rest] at h
    exact h.take hle
  have hctl : (r.opcode &&& 0x08 != 0) = f.kind.isControl := by
    rw [h.parsed.opcode, opcode_control]
  unfold readPayload
  rw [if_pos h.state, hctl]
  cases hc : f.kind.isControl with
  | true =>
    have hbuf : f.buffer = .control := if_pos hc
    rw [hbuf] at htook htake hcases hplace hfull
    unfold readControl
    dsimp only
    rcases hcases with ⟨hnone, heq⟩ | ⟨hsome, hlt, hblocked⟩
    · rw [hnone, htake]
      exact .inr ((finishControl_spec hs hplace (hfull heq) hc htook.plain).after htook)
    · rw [hsome, htake]
      exact .inl ⟨rfl, .payload hplace hlt, ⟨t, htook⟩, hblocked⟩
  | false =>
    have hbuf : f.buffer = .message := if_neg (by rw [hc]; decide)
    rw [hbuf] at htook htake hcases hplace hfull
    have hroom : ¬ (r.msg.length ≥ cap ∨
        r.payloadLen - r.payloadRead > cap - 1 - r.msg.length) := by
      have hshort := hv.short hc
      have hmsg := congrArg List.length h.msg
      have hlen := h.len
      rw [hc, if_neg Bool.false_ne_true, length_append, length_take] at hmsg
      rw [length_append] at hshort
      omega
    unfold readData
    rw [if_neg hroom, ha, Bool.not_true, if_neg Bool.false_ne_true]
    dsimp only
    rcases hcases with ⟨hnone, heq⟩ | ⟨hsome, hlt, hblocked⟩
    · rw [hnone, htake]
      exact .inr ((finishData_spec hplace (hfull heq) hc htook.plain).after htook)
    · rw [hsome, htake]
      exact .inl ⟨rfl, .payload hplace hlt, ⟨t, htook⟩, hblocked⟩

/-! ### Whole frames, whole calls -/

/-- **One pass of the loop** completes the first frame or blocks inside it. -/
lemma readFrame_spec (ha : o.allocated) (hs : o.sends) (hv : Permitted cap p fs)
    (h : At p r w.rest fs) (hp : w.Plain) :
    Waits p fs w (readFrame cap o r w) ∨
      ∃ f fs', fs = f :: fs' ∧ Ends p f fs' w (readFrame cap o r w) := by
  -- the header, if the reader is not past it
  have hheader : Waits p fs w (readHeader r w) ∨ ∃ f fs', fs = f :: fs' ∧
      Goes w (readHeader r w) ∧ Within p f (readHeader r w).1 (readHeader r w).2.1.rest fs' := by
    have hskip : r.frameState ≠ .header → readHeader r w = (r, w, none) := fun hne => if_neg hne
    cases h with
    | header h => exact readHeader_spec h hv hp
    | @extLen f fs h =>
      rw [hskip (by rw [h.state]; decide)]
      exact .inr ⟨f, fs, rfl, ⟨rfl, [], .refl hp⟩, .extLen h⟩
    | @mask f fs h =>
      rw [hskip (by rw [h.state]; decide)]
      exact .inr ⟨f, fs, rfl, ⟨rfl, [], .refl hp⟩, .behind (.mask h)⟩
    | @payload f fs h hlt =>
      rw [hskip (by rw [h.state]; decide)]
      exact .inr ⟨f, fs, rfl, ⟨rfl, [], .refl hp⟩, .behind (.payload h)⟩
  unfold readFrame
  rcases hheader with hwait | ⟨f, fs', rfl, hgo, hwithin⟩
  · exact .inl (((hwait.andThen _).andThen _).andThen _)
  obtain ⟨t, ht⟩ := hgo.took
  rw [hgo.andThen]
  rcases readExtLen_spec hv.1 hwithin ht.plain with hwait | ⟨hgo', hbehind⟩
  · exact .inl (((Waits.after hgo hwait).andThen _).andThen _)
  obtain ⟨t', ht'⟩ := hgo'.took
  rw [hgo'.andThen]
  rcases readMask_spec hbehind ht'.plain with hwait | ⟨hgo'', hpayload⟩
  · exact .inl ((Waits.after hgo (Waits.after hgo' hwait)).andThen _)
  obtain ⟨t'', ht''⟩ := hgo''.took
  rw [hgo''.andThen]
  rcases readPayload_spec ha hs hv.1 hpayload ht''.plain with hwait | hends
  · exact .inl (Waits.after hgo (Waits.after hgo' (Waits.after hgo'' hwait)))
  · exact .inr ⟨f, fs', rfl, (((hends.after ht'').after ht').after ht)⟩

/-- What a call has done: pongs were sent, and it returned a message or blocked; the rest of what
is to come out is still to come. -/
structure Returns (cap : ℕ) (p : Progress) (fs : List Frame) (w : Wire) (ph : Phase)
    (ps : List (List UInt8)) (p' : Progress) (fs' : List Frame) : Prop where
  place : At p' ph.1 ph.2.1.rest fs'
  valid : Permitted cap p' fs'
  plain : ph.2.1.Plain
  blocks : ph.2.1.blocks ≤ w.blocks
  sent : ph.2.1.sent = w.sent ++ ps.map (sendFrame 0xA)
  out : (ph.2.2 = some .wouldBlock ∧ outputs p fs = ps.map .pong ++ outputs p' fs' ∧
      Wire.Blocked w ph.2.1) ∨
    (∃ m, ph.2.2 = some (.text m) ∧ outputs p fs = ps.map .pong ++ .message m :: outputs p' fs')

lemma recvLoop_spec (ha : o.allocated) (hs : o.sends) (n : ℕ) (p : Progress)
    (r : Reader) (w : Wire) (fs : List Frame) (hv : Permitted cap p fs) (h : At p r w.rest fs)
    (hp : w.Plain) (hn : w.rest.length < n) :
    ∃ ps p' fs', Returns cap p fs w (recvLoop cap o n r w) ps p' fs' := by
  set ph := readFrame cap o r w
  induction n generalizing p r w fs with
  | zero => exact absurd hn (Nat.not_lt_zero _)
  | succ n ih =>
    unfold recvLoop
    rcases readFrame_spec ha hs hv h hp with hwait | ⟨f, fs', rfl, hends⟩
    · have hw := hwait.andThen (recvLoop cap o n)
      obtain ⟨t, ht⟩ := hw.took
      refine ⟨[], p, fs, hw.place, hv, ht.plain, ht.blocks, ?_, .inl ⟨hw.result, rfl, hw.blocked⟩⟩
      rw [map_nil, append_nil]
      exact ht.sent
    rcases hends.out with ⟨ps, hnone, hout, hsent⟩ | ⟨m, htext, hout, hsent⟩
    · -- the frame is complete but no message: the loop goes on with fewer bytes
      have hgo : ph.andThen (recvLoop cap o n) =
          recvLoop cap o n ph.1 ph.2.1 := by
        unfold Phase.andThen
        rw [hnone]
      have hless : ph.2.1.rest.length < n := by
        have hlt := h.length_lt
        rw [hends.rest]
        omega
      obtain ⟨ps', p', fs'', hret⟩ := ih (p.next f) ph.1
        ph.2.1 fs' hv.2 (.header hends.place) hends.plain hless
      rw [hgo]
      refine ⟨ps ++ ps', p', fs'', hret.place, hret.valid, hret.plain,
        hret.blocks.trans hends.blocks, ?_, ?_⟩
      · rw [hret.sent, hsent, map_append, append_assoc]
      rw [outputs, hout, map_append]
      rcases hret.out with ⟨hres, heq, hblocked⟩ | ⟨m, hres, heq⟩
      · refine .inl ⟨hres, by rw [heq, append_assoc], ?_⟩
        rcases hblocked with hb | hb
        · exact .inl (hb.trans_le hends.blocks)
        · exact .inr hb
      · exact .inr ⟨m, hres, by rw [heq, append_assoc]⟩
    · have hstop : ph.andThen (recvLoop cap o n) = readFrame cap o r w := by
        unfold Phase.andThen
        rw [htext]
      rw [hstop]
      refine ⟨[], p.next f, fs', .header hends.place, hv.2, hends.plain, hends.blocks, ?_,
        .inr ⟨m, htext, ?_⟩⟩
      · rw [map_nil, append_nil]
        exact hsent
      · rw [outputs, hout]
        rfl

/-- **One call.** -/
theorem recvText_spec (ha : o.allocated) (hs : o.sends) (hv : Permitted cap p fs)
    (h : At p r w.rest fs) (hp : w.Plain) :
    ∃ ps p' fs', Returns cap p fs w (recvText cap o r w) ps p' fs' :=
  recvLoop_spec ha hs (w.rest.length + 1) p r w fs hv h hp (Nat.lt_succ_self _)

/-- `n` calls one after the other, with what they return. -/
def recvCalls (cap : ℕ) (o : Outcomes) : ℕ → Reader → Wire → List (Option Recv) × Wire
  | 0, _, w => ([], w)
  | n + 1, r, w =>
    let call := recvText cap o r w
    let later := recvCalls cap o n call.1 call.2.1
    (call.2.2 :: later.1, later.2)

def textOf : Option Recv → Option (List UInt8)
  | some (.text m) => some m
  | _ => none

def messages (l : List Output) : List (List UInt8) :=
  l.filterMap fun
    | .message m => some m
    | .pong _ => none

/-- The pings that are answered, among what comes out. -/
def pongs (l : List Output) : List (List UInt8) :=
  l.filterMap fun
    | .message _ => none
    | .pong m => some m

@[simp] lemma messages_pong (ps : List (List UInt8)) (l : List Output) :
    messages (ps.map .pong ++ l) = messages l := by
  induction ps with
  | nil => rfl
  | cons m ps ih => exact ih

@[simp] lemma pongs_pong (ps : List (List UInt8)) (l : List Output) :
    pongs (ps.map .pong ++ l) = ps ++ pongs l := by
  induction ps with
  | nil => rfl
  | cons m ps ih => exact congrArg (m :: ·) ih

lemma outputs_eq_nil {l : List Output} (hm : messages l = []) (hp : pongs l = []) : l = [] := by
  cases l with
  | nil => rfl
  | cons x l =>
    cases x with
    | message m => cases hm
    | pong m => cases hp

/-- What `n` calls have brought, and what is still to come after them. -/
structure Brings (p : Progress) (fs : List Frame) (w : Wire) (n : ℕ)
    (results : List (Option Recv)) (v : Wire) (todo : List Output) : Prop where
  texts : results.filterMap textOf ++ messages todo = messages (outputs p fs)
  sent : ∃ ps, v.sent = w.sent ++ ps.map (sendFrame 0xA) ∧ ps ++ pongs todo = pongs (outputs p fs)
  others : ∀ x ∈ results, x = some .wouldBlock ∨ ∃ m, x = some (.text m)
  all : w.blocks + (messages (outputs p fs)).length < n → todo = []

/-- **Any number of calls.** A call that brings no message has waited for one of the reads that
block, or nothing is left. -/
theorem recvCalls_spec (ha : o.allocated) (hs : o.sends) (n : ℕ) (p : Progress) (r : Reader)
    (w : Wire) (fs : List Frame) (hv : Permitted cap p fs) (h : At p r w.rest fs) (hp : w.Plain) :
    ∃ todo, Brings p fs w n (recvCalls cap o n r w).1 (recvCalls cap o n r w).2 todo := by
  induction n generalizing p r w fs with
  | zero =>
    exact ⟨outputs p fs, rfl, ⟨[], (append_nil _).symm, rfl⟩, nofun,
      fun hlt => absurd hlt (Nat.not_lt_zero _)⟩
  | succ n ih =>
    obtain ⟨ps, p', fs', hret⟩ := recvText_spec ha hs hv h hp
    set ph := recvText cap o r w
    obtain ⟨todo, hlater⟩ := ih p' ph.1 ph.2.1 fs' hret.valid
      hret.place hret.plain
    obtain ⟨ps', hsent, hpongs⟩ := hlater.sent
    have hsent' : (recvCalls cap o (n + 1) r w).2.sent =
        w.sent ++ (ps ++ ps').map (sendFrame 0xA) := by
      change (recvCalls cap o n _ _).2.sent = _
      rw [hsent, hret.sent, map_append, append_assoc]
    have hblocks := hret.blocks
    refine ⟨todo, ?_⟩
    rcases hret.out with ⟨hres, heq, hblocked⟩ | ⟨m, hres, heq⟩
    · have hm : messages (outputs p fs) = messages (outputs p' fs') := by
        rw [heq, messages_pong]
      refine ⟨?_, ⟨ps ++ ps', hsent', ?_⟩, ?_, ?_⟩
      · change (ph.2.2 :: _).filterMap textOf ++ _ = _
        rw [hres, hm]
        exact hlater.texts
      · rw [heq, pongs_pong, append_assoc, hpongs]
      · exact forall_mem_cons.2 ⟨.inl hres, hlater.others⟩
      · intro hlt
        rw [hm] at hlt
        rcases hblocked with hb | hb
        · exact hlater.all (by omega)
        -- every frame was read: nothing is left for the later calls to bring
        have hplace := hret.place
        rw [hb] at hplace
        have hnil := hplace.eq_nil
        have hmsgs := hlater.texts
        rw [hnil] at hmsgs hpongs
        exact outputs_eq_nil (append_eq_nil_iff.1 hmsgs).2 (append_eq_nil_iff.1 hpongs).2
    · have hm : messages (outputs p fs) = m :: messages (outputs p' fs') := by
        rw [heq, messages_pong]
        rfl
      refine ⟨?_, ⟨ps ++ ps', hsent', ?_⟩, ?_, ?_⟩
      · change (ph.2.2 :: _).filterMap textOf ++ _ = _
        rw [hres, hm, ← hlater.texts]
        rfl
      · rw [heq, pongs_pong, append_assoc, hpongs]
        rfl
      · exact forall_mem_cons.2 ⟨.inr ⟨m, hres⟩, hlater.others⟩
      · intro hlt
        rw [hm, length_cons] at hlt
        exact hlater.all (by omega)

lemma sendFrame_pong {m : List UInt8} (h : m.length < 126) :
    sendFrame 0xA m = Frame.encode ⟨.pong, true, none, .short, m⟩ := by
  unfold sendFrame
  rw [if_pos h]
  simp [Frame.encode, Frame.headerBytes, Frame.maskBytes, Frame.wirePayload, FrameKind.opcode,
    LengthCode.marker, LengthCode.extension]
  rfl

lemma pongs_short (hv : Permitted cap p fs) {m : List UInt8} (hm : m ∈ pongs (outputs p fs)) :
    m.length < 126 := by
  induction fs generalizing p with
  | nil => cases hm
  | cons f fs ih =>
    obtain ⟨x, hx, hpong⟩ := mem_filterMap.1 hm
    rcases mem_append.1 hx with hf | hlater
    · -- only a ping is answered, and a control frame is short
      have hcontrol := hv.1.control
      unfold Progress.output at hf
      cases hk : f.kind with
      | ping =>
        rw [hk] at hf hcontrol
        cases mem_singleton.1 hf
        cases hpong
        exact Nat.lt_succ_of_le (hcontrol rfl).2.1
      | pong => simp [hk] at hf
      | text | continuation =>
        rw [hk] at hf
        dsimp only at hf
        split_ifs at hf
        · cases mem_singleton.1 hf
          cases hpong
        · cases hf
    · exact ih hv.2 (mem_filterMap.2 ⟨x, hlater, hpong⟩)

lemma sendFrame_pongs (hv : Permitted cap p fs) {ms : List (List UInt8)}
    (hms : ms <+: pongs (outputs p fs)) :
    ms.map (sendFrame 0xA) = ms.map fun m => Frame.encode ⟨.pong, true, none, .short, m⟩ :=
  map_congr_left fun _ hm => sendFrame_pong (pongs_short hv (hms.subset hm))

/-- **WebSocket reassembly does not depend on the cuts.** The bytes of a valid stream come in any
pieces, with reads that block or are interrupted in between. The calls return the messages of the
stream in order and otherwise say that they would block, and the pings are answered in order; both
are complete after one call for every message, one for every read that blocks, and one more. -/
theorem ws_reassembly (cap : ℕ) (fs : List Frame) (w : Wire) (hv : Valid cap .idle fs)
    (hw : w.rest = encodeAll fs) (hp : w.Plain) (n : ℕ) :
    ((recvCalls cap ⟨true, true⟩ n .init w).1.filterMap textOf <+: messages (outputs .idle fs)) ∧
      (∀ x ∈ (recvCalls cap ⟨true, true⟩ n .init w).1,
        x = some .wouldBlock ∨ ∃ m, x = some (.text m)) ∧
      (∃ ps, ps <+: pongs (outputs .idle fs) ∧
        (recvCalls cap ⟨true, true⟩ n .init w).2.sent =
          w.sent ++ ps.map fun m => Frame.encode ⟨.pong, true, none, .short, m⟩) ∧
      (w.blocks + (messages (outputs .idle fs)).length < n →
        (recvCalls cap ⟨true, true⟩ n .init w).1.filterMap textOf = messages (outputs .idle fs) ∧
        (recvCalls cap ⟨true, true⟩ n .init w).2.sent =
          w.sent ++ (pongs (outputs .idle fs)).map fun m =>
            Frame.encode ⟨.pong, true, none, .short, m⟩) := by
  have hat : At .idle .init w.rest fs := by
    rw [hw]
    exact at_init
  obtain ⟨todo, h⟩ := recvCalls_spec (o := ⟨true, true⟩) rfl rfl n .idle .init w fs hv.permitted
    hat hp
  obtain ⟨ps, hsent, hpongs⟩ := h.sent
  have hfirst : ps <+: pongs (outputs .idle fs) := ⟨pongs todo, hpongs⟩
  rw [sendFrame_pongs hv.permitted hfirst] at hsent
  refine ⟨⟨messages todo, h.texts⟩, h.others, ⟨ps, hfirst, hsent⟩, fun hlt => ?_⟩
  have hnil := h.all hlt
  have htexts := h.texts
  rw [hnil] at htexts hpongs
  refine ⟨(append_nil _).symm.trans htexts, ?_⟩
  rw [hsent, ← hpongs, show pongs [] = [] from rfl, append_nil]

/-- A message in three fragments, one of them empty, with a ping inside, and a second message. -/
def twoMessages : List Frame :=
  [⟨.text, false, some (1, 2, 3, 4), .short, [72, 101]⟩, ⟨.ping, true, none, .short, [63]⟩,
    ⟨.continuation, false, none, .ext16, []⟩, ⟨.continuation, true, some (9, 8, 7, 6), .ext64,
    [121]⟩, ⟨.text, true, none, .short, [122]⟩]

/-- The stream, cut inside the first header and inside the long length. -/
def twoMessagesCut : Wire :=
  let bytes := encodeAll twoMessages
  { prefetched := bytes.take 1
    reads := pushBack ((bytes.drop 1).take 15) (.wouldBlock :: .interrupted ::
      pushBack ((bytes.drop 16).take 9) (.wouldBlock :: pushBack (bytes.drop 25) []))
    sent := [] }

lemma twoMessages_valid : Valid 4 .idle twoMessages :=
  ⟨⟨⟨by decide, by decide, by decide, by decide, by decide⟩, by decide⟩,
    ⟨⟨by decide, by decide, by decide, by decide, by decide⟩, by decide⟩,
    ⟨⟨by decide, by decide, by decide, by decide, by decide⟩, by decide⟩,
    ⟨⟨by decide, by decide, by decide, by decide, by decide⟩, by decide⟩,
    ⟨⟨by decide, by decide, by decide, by decide, by decide⟩, by decide⟩, trivial⟩

theorem ws_reassembly_two :
    Valid 4 .idle twoMessages ∧ twoMessagesCut.rest = encodeAll twoMessages ∧
      (recvCalls 4 ⟨true, true⟩ 5 .init twoMessagesCut).1.filterMap textOf =
        [[72, 101, 121], [122]] ∧
      (recvCalls 4 ⟨true, true⟩ 5 .init twoMessagesCut).2.sent = [[0x8A, 1, 63]] :=
  have hvalid := twoMessages_valid
  have hrest : twoMessagesCut.rest = encodeAll twoMessages := by decide
  have hplain : ∀ r ∈ twoMessagesCut.reads, r.plain = true := by decide
  ⟨hvalid, hrest,
    ((ws_reassembly 4 twoMessages twoMessagesCut hvalid hrest hplain 5).2.2.2 (by decide)).1,
    ((ws_reassembly 4 twoMessages twoMessagesCut hvalid hrest hplain 5).2.2.2 (by decide)).2⟩

def returnValue : Option Recv → ℤ
  | some (.text m) => m.length
  | some .closed => 0
  | _ => -1

/-- `on_client_readable` drops the client at the end of the stream, and at an error other than that
the call would block. -/
def disconnects (x : Option Recv) : Bool :=
  returnValue x = 0 || (returnValue x < 0 && x ≠ some .wouldBlock)

/-- **The end of the stream is signalled only by the end of the stream** exactly for the streams
without an empty message: while the client neither sends a Close frame nor closes the connection,
no call returns zero, and the client is not dropped. -/
theorem zero_only_at_end (cap : ℕ) (fs : List Frame) (w : Wire) (hv : Permitted cap .idle fs)
    (hw : w.rest = encodeAll fs) (hp : w.Plain) :
    (∀ n, ∀ x ∈ (recvCalls cap ⟨true, true⟩ n .init w).1,
      returnValue x ≠ 0 ∧ disconnects x = false) ↔ [] ∉ messages (outputs .idle fs) := by
  have hat : At .idle .init w.rest fs := by
    rw [hw]
    exact at_init
  have hspec := fun n => recvCalls_spec (o := ⟨true, true⟩) rfl rfl n .idle .init w fs hv hat hp
  constructor
  · intro h hmem
    obtain ⟨todo, hbrings⟩ := hspec (w.blocks + (messages (outputs .idle fs)).length + 1)
    rw [← hbrings.texts, hbrings.all (Nat.lt_succ_self _)] at hmem
    obtain ⟨x, hx, htext⟩ := mem_filterMap.1 ((append_nil _) ▸ hmem)
    rcases hbrings.others x hx with rfl | ⟨m, rfl⟩
    · cases htext
    · cases htext
      exact (h _ _ hx).1 rfl
  · intro h n x hx
    obtain ⟨todo, hbrings⟩ := hspec n
    rcases hbrings.others x hx with rfl | ⟨m, rfl⟩
    · decide
    have hm : m ∈ messages (outputs .idle fs) := by
      rw [← hbrings.texts]
      exact mem_append_left _ (mem_filterMap.2 ⟨_, hx, rfl⟩)
    have hne : m ≠ [] := fun hnil => h (hnil ▸ hm)
    have hpos : 0 < m.length := length_pos_of_ne_nil hne
    have hzero : (m.length : ℤ) ≠ 0 := by omega
    have hneg : ¬ (m.length : ℤ) < 0 := by omega
    exact ⟨hzero, by simp [disconnects, returnValue, hne, hneg]⟩

theorem zero_only_at_end_two :
    [] ∉ messages (outputs .idle twoMessages) ∧
      ∀ x ∈ (recvCalls 4 ⟨true, true⟩ 5 .init twoMessagesCut).1,
        returnValue x ≠ 0 ∧ disconnects x = false :=
  have hplain : ∀ r ∈ twoMessagesCut.reads, r.plain = true := by decide
  ⟨by decide, (zero_only_at_end 4 twoMessages twoMessagesCut twoMessages_valid.permitted
    (by decide) hplain).2 (by decide) 5⟩

/-- An empty text message ends the call with zero, and the client is dropped. -/
theorem empty_message_returns_zero :
    let f : Frame := ⟨.text, true, some (1, 2, 3, 4), .short, []⟩
    let w : Wire := ⟨[], pushBack f.encode [], []⟩
    Permitted 4 .idle [f] ∧ w.rest = encodeAll [f] ∧
      (recvCalls 4 ⟨true, true⟩ 1 .init w).1 = [some (.text [])] ∧
      returnValue (some (.text [])) = 0 ∧ disconnects (some (.text [])) = true :=
  ⟨⟨⟨by decide, by decide, by decide, by decide, by decide⟩, trivial⟩, by decide, by decide,
    rfl, rfl⟩

end MezonSfu.WebSocket
