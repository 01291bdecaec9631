import MezonSfu.AfXdpChecksum

/-!
Frames of the AF_XDP path: Ethernet, IPv4 and UDP headers around a datagram.

A frame is the list of its bytes. A checksum verifies if the one's-complement sum of the words, the
checksum among them, is 65535.
-/

namespace MezonSfu.AfXdp

open Bytes List ChecksumState

structure FrameParams where
  sourceMac : Fin 6 → UInt8
  destinationMac : Fin 6 → UInt8
  sourceIp : Fin 4 → UInt8
  destinationIp : Fin 4 → UInt8
  sourcePort : UInt16
  destinationPort : UInt16
  payload : List UInt8

variable (p : FrameParams) (check : ℕ)

def ethHeader : List UInt8 := ofFn p.destinationMac ++ ofFn p.sourceMac ++ writeBe16 0x0800

def ipHeader : List UInt8 :=
  [0x45, 0] ++ writeBe16 (20 + 8 + p.payload.length) ++ [0, 0, 0, 0, 64, 17] ++
    (writeBe16 check ++ (ofFn p.sourceIp ++ ofFn p.destinationIp))

def udpHeader : List UInt8 :=
  writeBe16 p.sourcePort.toNat ++ writeBe16 p.destinationPort.toNat ++
    writeBe16 (8 + p.payload.length) ++ writeBe16 check

/-- The checksum that is sent; zero would say that there is none. -/
def sentUdpChecksum : ℕ :=
  let check := udpChecksum (ofFn p.sourceIp) (ofFn p.destinationIp) (udpHeader p 0 ++ p.payload)
  if check = 0 then 0xFFFF else check

def frameOf (ipCheck udpCheck : ℕ) : List UInt8 :=
  ethHeader p ++ ipHeader p ipCheck ++ udpHeader p udpCheck ++ p.payload

/-- `sfu_af_xdp_build_frame` -/
def buildFrame (frameCapacity : ℕ) : Option (List UInt8) :=
  if p.payload = [] ∨ 0xFFFF - 20 - 8 < p.payload.length ∨ frameCapacity < p.payload.length ∨
      frameCapacity - p.payload.length < 14 + 20 + 8 then none
  else some (frameOf p (checksum (ipHeader p 0)) (sentUdpChecksum p))

structure ParseResult where
  payload : List UInt8
  payloadCap : ℕ
  sourceIp : List UInt8
  sourcePort : ℕ
  headerLen : ℕ
  vlan : Bool

/-- The part of `sfu_af_xdp_parse_frame` behind the link layer. -/
def parseIp (frame : List UInt8) (frameCapacity mediaPort protocol offset : ℕ) (vlan : Bool) :
    Option ParseResult :=
  let ihl := byteAt frame offset % 2 ^ 4 * 4
  let ipTotalLen := readBe16 frame (offset + 2)
  let udpLen := readBe16 frame (offset + ihl + 4)
  let headerLen := offset + ihl + 8
  if protocol ≠ 0x0800 ∨ frame.length < offset + 20 then none
  else if byteAt frame offset / 2 ^ 4 ≠ 4 ∨ ihl < 20 ∨ ipTotalLen < ihl + 8 ∨
      frame.length < offset + ihl ∨ frame.length - offset < ipTotalLen ∨
      byteAt frame (offset + 9) ≠ 17 ∨ readBe16 frame (offset + 6) % 2 ^ 14 ≠ 0 ∨
      checksum (slice frame offset ihl) ≠ 0 then none
  else if udpLen ≤ 8 ∨ ipTotalLen - ihl < udpLen ∨ frame.length < offset + ihl + udpLen ∨
      readBe16 frame (offset + ihl + 2) ≠ mediaPort ∨ (readBe16 frame (offset + ihl + 6) ≠ 0 ∧
        udpChecksum (slice frame (offset + 12) 4) (slice frame (offset + 16) 4)
          (slice frame (offset + ihl) udpLen) ≠ 0) then none
  else some ⟨slice frame headerLen (udpLen - 8), frameCapacity - headerLen,
    slice frame (offset + 12) 4, readBe16 frame (offset + ihl), headerLen, vlan⟩

/-- `sfu_af_xdp_parse_frame` -/
def parseFrame (frame : List UInt8) (frameCapacity mediaPort : ℕ) : Option ParseResult :=
  let protocol := readBe16 frame 12
  if frameCapacity < frame.length ∨ frame.length < 14 then none
  else if protocol = 0x8100 ∨ protocol = 0x88A8 then
    if frame.length < 14 + 4 then none
    else parseIp frame frameCapacity mediaPort (readBe16 frame 16) 18 true
  else parseIp frame frameCapacity mediaPort protocol 14 false

variable {front rest : List UInt8} {c : ℕ}

lemma sum_words_append (h : front.length % 2 = 0) :
    (words (front ++ rest)).sum = (words front).sum + (words rest).sum := by
  fun_induction words front with
  | case1 a b front ih =>
    rw [length_cons, length_cons] at h
    change (word a b :: words (front ++ rest)).sum = _
    rw [sum_cons, sum_cons, ih (by omega), Nat.add_assoc]
  | case2 a => cases h
  | case3 => exact (Nat.zero_add _).symm

lemma sum_words_writeBe16 (h : c < 2 ^ 16) : (words (writeBe16 c)).sum = c := by
  simp only [words, writeBe16, word, UInt8.toNat_ofNat', sum_singleton]
  omega

/-- **A checksum verifies** where it was put, also if it is sent as 65535 for zero. -/
lemma checksum_verifies (heven : front.length % 2 = 0)
    (hlen : front.length + rest.length < 2 ^ 16)
    (hc : c = checksum (front ++ (writeBe16 0 ++ rest)) ∨
      c = 0xFFFF ∧ checksum (front ++ (writeBe16 0 ++ rest)) = 0) :
    c < 2 ^ 16 ∧ checksum (front ++ (writeBe16 c ++ rest)) = 0 := by
  have hsum : ∀ {c}, c < 2 ^ 16 → checksum (front ++ (writeBe16 c ++ rest)) =
      0xFFFF - fold ((words front).sum + (c + (words rest).sum)) := by
    intro c hc
    rw [checksum_eq (by simp only [length_append, length_writeBe16]; omega),
      sum_words_append heven, sum_words_append (by rw [length_writeBe16]), sum_words_writeBe16 hc]
  rw [hsum (by decide)] at hc
  obtain ⟨hlt, hmod, hzero⟩ := folds_fold ((words front).sum + (0 + (words rest).sum))
  have hclt : c < 2 ^ 16 := by omega
  obtain ⟨hlt', hmod', hzero'⟩ := folds_fold ((words front).sum + (c + (words rest).sum))
  refine ⟨hclt, ?_⟩
  rw [hsum hclt]
  omega

/-- A frame with checksums that verify is accepted and read back. -/
lemma parseFrame_frameOf {ipCheck udpCheck capacity : ℕ} (hpos : p.payload ≠ [])
    (hlen : p.payload.length ≤ 0xFFFF - 20 - 8) (hcap : p.payload.length + 42 ≤ capacity)
    (hip : checksum (ipHeader p ipCheck) = 0)
    (hudp : udpChecksum (ofFn p.sourceIp) (ofFn p.destinationIp)
      (udpHeader p udpCheck ++ p.payload) = 0) :
    parseFrame (frameOf p ipCheck udpCheck) capacity p.destinationPort.toNat =
      some ⟨p.payload, capacity - 42, ofFn p.sourceIp, p.sourcePort.toNat, 42, false⟩ := by
  have hnonempty := length_pos_of_ne_nil hpos
  set f := frameOf p ipCheck udpCheck
  have hlength : f.length = p.payload.length + 42 := rfl
  have hprotocol : readBe16 f 12 = 0x0800 := readBe16_writeBe16 (by decide)
  have hversion : byteAt f 14 = 0x45 := rfl
  have htotal : readBe16 f 16 = 20 + 8 + p.payload.length := readBe16_writeBe16 (by omega)
  have hsource : readBe16 f 34 = p.sourcePort.toNat := readBe16_writeBe16 p.sourcePort.toNat_lt
  have hport : readBe16 f 36 = p.destinationPort.toNat :=
    readBe16_writeBe16 p.destinationPort.toNat_lt
  have hudpLen : readBe16 f 38 = 8 + p.payload.length := readBe16_writeBe16 (by omega)
  have hdrop : f.drop 34 = udpHeader p udpCheck ++ p.payload := rfl
  have hdatagram : slice f 34 (8 + p.payload.length) = udpHeader p udpCheck ++ p.payload := by
    rw [slice, hdrop]
    exact take_of_length_le (Nat.add_comm p.payload.length 8).le
  have hrest : f.drop 42 = p.payload := rfl
  have hpayload : slice f 42 (8 + p.payload.length - 8) = p.payload := by
    rw [slice, hrest]
    exact take_of_length_le (by omega)
  have haddress : slice f 26 4 = ofFn p.sourceIp := rfl
  have haddress' : slice f 30 4 = ofFn p.destinationIp := rfl
  unfold parseFrame
  rw [hprotocol, if_neg (by omega), if_neg (by decide)]
  unfold parseIp
  simp only [hversion, Nat.reduceMod, Nat.reducePow, Nat.reduceMul, Nat.reduceAdd, hsource, hport,
    hudpLen, htotal, hdatagram, hpayload, haddress, haddress']
  have hfragment : readBe16 f 20 = 0 := readBe16_writeBe16 (v := 0) (by decide)
  have hproto : byteAt f 23 = 17 := rfl
  have hheader : checksum (slice f 14 20) = 0 := hip
  rw [if_neg (by omega), if_neg (by omega), if_neg (by omega)]

lemma ip_verifies : checksum (ipHeader p (checksum (ipHeader p 0))) = 0 := by
  unfold ipHeader
  exact (checksum_verifies (by simp) (by simp) (.inl rfl)).2

lemma udp_verifies (h : p.payload.length ≤ 0xFFFF - 20 - 8) :
    sentUdpChecksum p < 2 ^ 16 ∧ udpChecksum (ofFn p.sourceIp) (ofFn p.destinationIp)
      (udpHeader p (sentUdpChecksum p) ++ p.payload) = 0 := by
  have hsplit : ∀ c, udpChecksum (ofFn p.sourceIp) (ofFn p.destinationIp)
      (udpHeader p c ++ p.payload) = checksum ((ofFn p.sourceIp ++ ofFn p.destinationIp ++
        [0, 17] ++ writeBe16 (p.payload.length + 8) ++ (udpHeader p 0).take 6) ++
          (writeBe16 c ++ p.payload)) := by
    intro c
    rw [udpChecksum_eq, append_assoc _ (take 6 _)]
    rfl
  unfold sentUdpChecksum
  rw [hsplit, hsplit]
  refine checksum_verifies (by simp [udpHeader]) (by simp [udpHeader]; omega) ?_
  dsimp only
  split_ifs with hzero
  · exact .inr ⟨rfl, hzero⟩
  · exact .inl rfl

/-- **AF_XDP frames round trip**, and both checksums verify: the words of the IPv4 header sum to
65535, and so do those of the pseudo-header and the datagram. -/
theorem af_xdp_round_trip (frameCapacity : ℕ) (frame : List UInt8)
    (h : buildFrame p frameCapacity = some frame) (capacity : ℕ) (hcap : frame.length ≤ capacity) :
    (∃ r, parseFrame frame capacity p.destinationPort.toNat = some r ∧ r.payload = p.payload ∧
      r.sourceIp = ofFn p.sourceIp ∧ r.sourcePort = p.sourcePort.toNat) ∧
    (words (slice frame 14 20)).foldl onesAdd 0 = 0xFFFF ∧ readBe16 frame 40 ≠ 0 ∧
    (words (slice frame 26 4 ++ slice frame 30 4 ++ [0, 17] ++ writeBe16 (frame.drop 34).length ++
      frame.drop 34)).foldl onesAdd 0 = 0xFFFF := by
  unfold buildFrame at h
  split_ifs at h with hargs
  obtain rfl := Option.some.inj h
  rw [not_or] at hargs
  have hip := ip_verifies p
  obtain ⟨hlt, hudp⟩ := udp_verifies p (by omega)
  have hread : readBe16 (frameOf p (checksum (ipHeader p 0)) (sentUdpChecksum p)) 40 =
    sentUdpChecksum p := readBe16_writeBe16 hlt
  refine ⟨⟨_, parseFrame_frameOf p hargs.1 (by omega) hcap hip hudp, rfl, rfl, rfl⟩, ?_, ?_, ?_⟩
  · exact onesAdd_of_checksum (by decide : 20 < 2 ^ 16 + 16) hip
  · rw [hread]
    unfold sentUdpChecksum
    dsimp only
    split_ifs with hzero
    · decide
    · exact hzero
  · refine onesAdd_of_checksum ?_ ((udpChecksum_eq _ _ _).symm.trans hudp)
    change p.payload.length + 8 + 12 < 2 ^ 16 + 16
    omega

theorem af_xdp_round_trip_byte : ∃ frame r,
    buildFrame ⟨fun _ => 2, fun _ => 4, fun _ => 10, fun _ => 11, 40000, 7000, [1]⟩ 64 =
      some frame ∧ parseFrame frame 64 7000 = some r ∧ r.payload = [1] := by
  let p : FrameParams := ⟨fun _ => 2, fun _ => 4, fun _ => 10, fun _ => 11, 40000, 7000, [1]⟩
  have hbuild : buildFrame p 64 = some _ := if_neg (by decide)
  obtain ⟨⟨r, hr, hpayload, -⟩, -⟩ := af_xdp_round_trip p 64 _ hbuild 64 (Nat.le_of_ble_eq_true rfl)
  exact ⟨_, r, hbuild, hr, hpayload⟩

end MezonSfu.AfXdp
