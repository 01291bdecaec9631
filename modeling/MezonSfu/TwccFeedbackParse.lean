import MezonSfu.TwccFeedback
import MezonSfu.TwccParse

/-!
The feedback that this server builds is a member of the format, so the parser's verdict on it
follows from the verdict on members: a report whose statuses differ is written in vectors of
seven, and is read back only when it fills its last vector or is shorter than one.
-/

namespace MezonSfu.Twcc

open Bytes List

/-! ### The chunks the builder writes -/

lemma writeRunChunk_eq {symbol run : ℕ} (h : run < 2 ^ 13) :
    writeRunChunk symbol run = symbol * 2 ^ 13 + run := by
  rw [writeRunChunk, show 0x1FFF = 2 ^ 13 - 1 from rfl, Nat.and_two_pow_sub_one_eq_mod,
    Nat.mod_eq_of_lt h, Nat.shiftLeft_eq, Nat.mul_comm, ← Nat.two_pow_add_eq_or_of_lt h]

/-- Seven fields of two bits, set one after the other below the two bits of the kind. -/
lemma orFields_eq (f : ℕ → ℕ) {n : ℕ} (hn : n ≤ 7) :
    (List.range n).foldl (fun chunk k => chunk ||| ((f k &&& 0x3) <<< (12 - 2 * k)))
      (0x8000 ||| 0x4000) =
    4 ^ (7 - n) * (3 * 4 ^ n + pack 4 ((List.range n).map fun k => f k % 4)) := by
  induction n with
  | zero => simp
  | succ n ih =>
    have hmask : f n &&& 0x3 = f n % 4 := Nat.and_two_pow_sub_one_eq_mod (f n) 2
    have hshift : (f n % 4) <<< (12 - 2 * n) = 4 ^ (6 - n) * (f n % 4) := by
      have hexp : 12 - 2 * n = 2 * (6 - n) := by omega
      rw [Nat.shiftLeft_eq, hexp, pow_mul, Nat.mul_comm, show 2 ^ 2 = 4 from rfl]
    have hpow : 4 ^ (7 - n) = 4 ^ (6 - n) * 4 := by
      rw [show 7 - n = 6 - n + 1 by omega, pow_succ]
    have hlt : 4 ^ (6 - n) * (f n % 4) < 2 ^ (2 * (7 - n)) := by
      rw [pow_mul, show 2 ^ 2 = 4 from rfl, hpow]
      exact Nat.mul_lt_mul_of_pos_left (Nat.mod_lt _ (by norm_num)) (by positivity)
    -- the field lies below all that is set so far, so setting it is adding it
    have hor := Nat.two_pow_add_eq_or_of_lt hlt
      (3 * 4 ^ n + pack 4 ((List.range n).map fun k => f k % 4))
    rw [pow_mul, show 2 ^ 2 = 4 from rfl] at hor
    rw [range_succ, foldl_append, ih (by omega), foldl_cons, foldl_nil, hmask, hshift, ← hor,
      map_append, map_singleton, pack_concat, hpow, show 7 - (n + 1) = 6 - n by omega, pow_succ]
    ring

section

variable (symbols : List ℕ)

/-- The symbols of a vector chunk, filled up with zeros. -/
def filled : List (Fin 4) :=
  (List.range 7).map fun k => ⟨symbols.getD k statusNotReceived % 4, Nat.mod_lt _ (by norm_num)⟩

lemma length_filled : (filled symbols).length = 7 := by simp [filled]

def vectorOf : Chunk := .twoBit (filled symbols) (length_filled symbols)

lemma writeVectorChunk_eq : writeVectorChunk symbols = (vectorOf symbols).word := by
  have h := orFields_eq (fun k => symbols.getD k statusNotReceived) (n := 7) le_rfl
  have hpack : (vectorOf symbols).symbols =
      (List.range 7).map fun k => symbols.getD k statusNotReceived % 4 := by
    simp [vectorOf, filled, Chunk.symbols]
  have hword : (vectorOf symbols).word = 2 ^ 15 + 2 ^ 14 + pack 4 (vectorOf symbols).symbols := rfl
  rw [hword, hpack, writeVectorChunk, h]
  norm_num

lemma size_vectorOf : (vectorOf symbols).size = 7 := by
  simp [vectorOf, Chunk.size, Chunk.symbols, length_filled]

end

lemma symbols_vectorOf {symbols : List ℕ} (hlen : symbols.length ≤ 7) (hlt : ∀ s ∈ symbols, s < 4) :
    (vectorOf symbols).symbols = symbols ++ List.replicate (7 - symbols.length) 0 := by
  have hsym : (vectorOf symbols).symbols =
      (List.range 7).map fun k => symbols.getD k statusNotReceived % 4 := by
    simp [vectorOf, filled, Chunk.symbols]
  rw [hsym]
  apply ext_getElem
  · simp; omega
  intro i h1 h2
  rw [getElem_map, getElem_range]
  by_cases hi : i < symbols.length
  · rw [getElem_append_left hi, getD_eq_getElem _ _ hi, Nat.mod_eq_of_lt (hlt _ (getElem_mem hi))]
  · rw [getElem_append_right (by omega), getElem_replicate, getD_eq_default _ _ (by omega)]
    rfl

/-- The vectors the builder writes for a status list: all but the last are full. -/
lemma vectorChunks_spec (fuel : ℕ) {status : List ℕ} (hne : status ≠ [])
    (hfuel : status.length ≤ fuel) (hlt : ∀ s ∈ status, s < 4) :
    ∃ (front : List Chunk) (last : Chunk) (surplus : ℕ),
      vectorChunks fuel status = (front ++ [last]).map Chunk.word ∧
      (front ++ [last]).flatMap Chunk.symbols = status ++ List.replicate surplus 0 ∧
      (front.flatMap Chunk.symbols).length < status.length ∧ last.size = 7 ∧
      (surplus = 0 ↔ 7 ∣ status.length) := by
  induction fuel generalizing status with
  | zero => exact absurd (length_eq_zero_iff.mp (by omega)) hne
  | succ fuel ih =>
    have hpos : 0 < status.length := length_pos_iff.mpr hne
    rw [vectorChunks, if_neg hne, writeVectorChunk_eq]
    by_cases hshort : status.length ≤ 7
    · have hdrop : status.drop 7 = [] := drop_eq_nil_of_le hshort
      have htake : status.take 7 = status := take_of_length_le hshort
      have hend : vectorChunks fuel [] = [] := by cases fuel <;> rfl
      rw [hdrop, htake, hend]
      refine ⟨[], vectorOf status, 7 - status.length, rfl, ?_, ?_, size_vectorOf _, ?_⟩
      · simpa using symbols_vectorOf hshort hlt
      · simpa using hpos
      · omega
    · have hlen : (status.drop 7).length = status.length - 7 := length_drop
      have hlen7 : (status.take 7).length = 7 := by rw [length_take]; omega
      have hne' : status.drop 7 ≠ [] := by
        rw [← length_pos_iff, hlen]; omega
      obtain ⟨front, last, surplus, hwords, hsym, hfront, hsize, hdvd⟩ :=
        ih hne' (by omega) fun s hs => hlt s (mem_of_mem_drop hs)
      have hfirst : (vectorOf (status.take 7)).symbols = status.take 7 := by
        rw [symbols_vectorOf (by omega) fun s hs => hlt s (mem_of_mem_take hs), hlen7]
        simp
      refine ⟨vectorOf (status.take 7) :: front, last, surplus, ?_, ?_, ?_, hsize, ?_⟩
      · rw [hwords]; simp
      · rw [cons_append, flatMap_cons, hsym, hfirst, ← append_assoc, take_append_drop]
      · rw [flatMap_cons, length_append, hfirst, hlen7]
        omega
      · omega

/-! ### The entries of a report -/

/-- A status of the builder with its delta, as an entry of the format. -/
def entryOf (packet : ℕ × ℤ) : Entry :=
  if packet.1 = statusSmallDelta then .small (Fin.ofNat 256 packet.2.toNat)
  else if packet.1 = statusLargeDelta then .large (BitVec.ofInt 16 packet.2)
  else .lost

def RecvTracker.reportEntries (t : RecvTracker) : List Entry := t.packets.map entryOf

def Recorded (packet : ℕ × ℤ) : Prop :=
  packet.1 = statusNotReceived ∨ (packet.1 = statusSmallDelta ∧ 0 ≤ packet.2 ∧ packet.2 ≤ 255) ∨
    (packet.1 = statusLargeDelta ∧ -32768 ≤ packet.2 ∧ packet.2 ≤ 32767)

lemma recorded_packetDelta (clockUs arrivalUs : ℤ) : Recorded (packetDelta clockUs arrivalUs) := by
  unfold packetDelta
  dsimp only
  split
  · refine .inr (.inr ⟨rfl, ?_⟩)
    split <;> split <;> omega
  · refine .inr (.inl ⟨rfl, ?_⟩)
    omega

lemma recorded_deltaUnits (clockUs : ℤ) (l : List (Option ℤ)) :
    ∀ x ∈ deltaUnits clockUs l, Recorded x := by
  induction l generalizing clockUs with
  | nil => simp [deltaUnits]
  | cons a l ih =>
    cases a with
    | none =>
      intro x hx
      rcases mem_cons.mp hx with rfl | hx
      · exact .inl rfl
      · exact ih _ x hx
    | some a =>
      intro x hx
      rcases mem_cons.mp hx with rfl | hx
      · exact recorded_packetDelta _ _
      · exact ih _ x hx

lemma length_deltaUnits (clockUs : ℤ) (l : List (Option ℤ)) :
    (deltaUnits clockUs l).length = l.length := by
  induction l generalizing clockUs with
  | nil => rfl
  | cons a l ih => cases a <;> simp [deltaUnits, ih]

section

variable (t : RecvTracker)

lemma length_packets : t.packets.length = t.window := by
  rw [RecvTracker.packets, length_deltaUnits, RecvTracker.arrivals, length_map, length_range]

lemma window_pos : 0 < t.window := by
  simp [RecvTracker.window, feedbackMaxPackets]

lemma window_le : t.window ≤ 256 := by
  simp [RecvTracker.window, feedbackMaxPackets]

lemma entryOf_spec {packet : ℕ × ℤ} (h : Recorded packet) :
    (entryOf packet).symbol = packet.1 ∧ (entryOf packet).deltaBytes = deltaBytes packet := by
  obtain ⟨status, units⟩ := packet
  rcases h with rfl | ⟨rfl, h⟩ | ⟨rfl, h⟩
  · exact ⟨rfl, rfl⟩
  · refine ⟨rfl, ?_⟩
    have hmod : units.toNat % 256 = (units % 2 ^ 8).toNat := by omega
    change [UInt8.ofNat (units.toNat % 256)] = [UInt8.ofNat (units % 2 ^ 8).toNat]
    rw [hmod]
  · refine ⟨rfl, ?_⟩
    norm_cast

lemma recorded_packets : ∀ x ∈ t.packets, Recorded x := recorded_deltaUnits _ _

lemma reportEntries_symbols : t.reportEntries.map Entry.symbol = t.packets.map Prod.fst := by
  rw [RecvTracker.reportEntries, map_map]
  exact map_congr_left fun x hx => (entryOf_spec (recorded_packets t x hx)).1

lemma reportEntries_deltaBytes :
    t.reportEntries.flatMap Entry.deltaBytes = t.packets.flatMap deltaBytes := by
  rw [RecvTracker.reportEntries, flatMap_map]
  exact flatMap_congr fun x hx => (entryOf_spec (recorded_packets t x hx)).2

lemma length_reportEntries : t.reportEntries.length = t.window := by
  rw [RecvTracker.reportEntries, length_map, length_packets]

end

lemma symbol_lt (e : Entry) : e.symbol < 3 := by
  cases e <;> simp [Entry.symbol, statusNotReceived, statusSmallDelta, statusLargeDelta]

section

variable (t : RecvTracker)

/-- The chunks the builder writes encode the entries, and the last one is partly filled when the
statuses differ and do not come in sevens. -/
lemma exists_encoding :
    ∃ e : Encoding t.reportEntries,
      chunkWords (t.packets.map Prod.fst) = e.chunks.map Chunk.word ∧
      (e.Exact ∨ t.reportEntries.length < e.last.size ↔
        homogeneous (t.reportEntries.map Entry.symbol) ∨ t.window < 7 ∨ 7 ∣ t.window) := by
  have hpos := window_pos t
  have hle := window_le t
  have hcount := length_reportEntries t
  rw [← reportEntries_symbols]
  set status := t.reportEntries.map Entry.symbol with hstatus
  have hlen : status.length = t.window := by rw [hstatus, length_map, hcount]
  have hlt : ∀ s ∈ status, s < 3 := by
    intro s hs
    obtain ⟨e, -, rfl⟩ := mem_map.mp hs
    exact symbol_lt e
  have hne : status ≠ [] := by rw [← length_pos_iff]; omega
  unfold chunkWords
  by_cases hhom : homogeneous status
  · -- one run
    obtain ⟨s, l, hcons⟩ := exists_cons_of_ne_nil hne
    have hs : s < 3 := hlt s (by rw [hcons]; exact mem_cons_self)
    have hall : status = List.replicate t.window s := by
      rw [eq_replicate_iff]
      refine ⟨hlen, fun b hb => ?_⟩
      rw [homogeneous, all_eq_true] at hhom
      have hb' := hhom b hb
      rw [hcons] at hb'
      simpa using hb'
    have hhead : status.headD 0 = s := by rw [hcons]; rfl
    let c : Chunk := .run ⟨s, hs⟩ t.window hpos (by omega)
    have hsym : c.symbols = status := hall.symm
    refine ⟨⟨[], c, ?_, ?_⟩, ?_, ?_⟩
    · simp [hsym, hstatus]
    · simpa [hcount] using hpos
    · rw [if_pos hhom, hlen, writeRunChunk_eq (by omega), hhead]
      rfl
    · refine iff_of_true (.inl ?_) (.inl hhom)
      simp [Encoding.Exact, Encoding.chunks, hsym, hlen, hcount]
  · obtain ⟨front, last, surplus, hwords, hsym, hshort, hsize, hdvd⟩ :=
      vectorChunks_spec status.length hne le_rfl fun s hs => (hlt s hs).trans (by norm_num)
    refine ⟨⟨front, last, ?_, ?_⟩, ?_, ?_⟩
    · rw [hsym]; exact prefix_append _ _
    · rw [hcount, ← hlen]; exact hshort
    · rw [if_neg hhom, hwords]; rfl
    · have hexact : (((front ++ [last]).flatMap Chunk.symbols).length = t.reportEntries.length) ↔
          surplus = 0 := by
        rw [hsym, length_append, length_replicate, hcount, hlen]
        omega
      rw [Encoding.Exact, Encoding.chunks, hexact, hdvd, hsize, hcount, hlen]
      simp only [hhom, Bool.false_eq_true, false_or]
      omega

/-! ### The packet -/

lemma refQuant_lt : t.refQuant < 2 ^ 24 := by
  unfold RecvTracker.refQuant
  omega

lemma reportEntries_lt : t.reportEntries.length < 2 ^ 16 := by
  have hcount := length_reportEntries t
  have hle := window_le t
  omega

/-- The member that the builder writes, when `e` are its chunks. -/
def feedbackMember (senderSsrc mediaSsrc : ℕ) (e : Encoding t.reportEntries) : Member :=
  let total := fixedLen + (e.chunks.flatMap Chunk.bytes).length +
    (t.packets.flatMap deltaBytes).length
  let pad := (4 - total % 4) % 4
  { header := [if pad = 0 then 0x8F else 0xAF, 205] ++ writeBe16 ((total + pad) / 4 - 1) ++
      writeBe32 senderSsrc ++ writeBe32 mediaSsrc
    base := t.reportStartSeq.toNat
    ref24 := t.refQuant
    fbPktCount := t.fbPktCount
    entries := t.reportEntries
    encoding := e
    trailing := padBytes pad
    header_length := by simp
    base_lt := t.reportStartSeq.toNat_lt
    ref24_lt := refQuant_lt t
    count_lt := reportEntries_lt t }

lemma feedbackPacket_eq (senderSsrc mediaSsrc : ℕ) {e : Encoding t.reportEntries}
    (he : chunkWords (t.packets.map Prod.fst) = e.chunks.map Chunk.word) :
    feedbackPacket t senderSsrc mediaSsrc = (feedbackMember t senderSsrc mediaSsrc e).bytes := by
  have hchunks : (chunkWords (t.packets.map Prod.fst)).flatMap writeBe16 =
      e.chunks.flatMap Chunk.bytes := by
    rw [he, flatMap_map]
    rfl
  simp only [feedbackPacket, feedbackMember, Member.bytes, Member.fixedPart, hchunks,
    length_reportEntries, reportEntries_deltaBytes, append_assoc]

end

lemma feedbackBuild_packet {t t' : RecvTracker} {senderSsrc mediaSsrc cap : ℕ} {nowUs : ℤ}
    {bytes : List UInt8}
    (h : feedbackBuild t senderSsrc mediaSsrc nowUs cap = (t', .packet bytes)) :
    bytes = feedbackPacket t senderSsrc mediaSsrc := by
  unfold feedbackBuild at h
  split at h
  · split at h
    · simp at h
    · split at h
      · simp at h
      · simp only [Prod.mk.injEq, Built.packet.injEq] at h
        exact h.2.symm
  · simp at h

/-- A tracker that received the packets of a list, in order. -/
def received (packets : List (UInt16 × ℤ)) : RecvTracker :=
  packets.foldl (fun t x => recvTrackerRecord t x.1 x.2) recvTrackerInit

/-- Eight packets of which five are lost: the server's own report of them, a member of the format
with two vectors, is rejected. -/
theorem own_feedback_rejected :
    ∃ (t : RecvTracker) (m : Member), (feedbackBuild t 1 2 0 1500).2 = .packet m.bytes ∧
      parserInit m.bytes 0 = none := by
  obtain ⟨e, hwords, -⟩ := exists_encoding (received [(1, 64000), (3, 64250), (8, 64500)])
  have hpacket := feedbackPacket_eq _ 1 2 hwords
  refine ⟨received [(1, 64000), (3, 64250), (8, 64500)], feedbackMember _ 1 2 e, ?_, ?_⟩
  · rw [← hpacket]
    decide +kernel
  · rw [← hpacket, ← Option.isNone_iff_eq_none]
    decide +kernel

/-- **Which members the parser takes.** A member of the format is parsed to exactly its entries
if and only if its last chunk ends with the list or covers more statuses than the member reports.
For the feedback this server builds that means: all statuses of the report agree, or it covers
fewer than seven packets, or a multiple of seven. -/
theorem twcc_parser_accepts (unwrapAnchorUs : ℤ) :
    (∀ m : Member, m.Parses unwrapAnchorUs ↔
      m.encoding.Exact ∨ m.entries.length < m.encoding.last.size) ∧
    ∀ (t t' : RecvTracker) (senderSsrc mediaSsrc cap : ℕ) (nowUs : ℤ) (bytes : List UInt8),
      feedbackBuild t senderSsrc mediaSsrc nowUs cap = (t', .packet bytes) →
      ((∃ p, parserInit bytes unwrapAnchorUs = some p ∧ ∀ fuel, t.window < fuel →
          statuses fuel p = reported t.reportStartSeq.toNat
            (referenceUs t.refQuant unwrapAnchorUs) t.reportEntries) ↔
        homogeneous (t.reportEntries.map Entry.symbol) ∨ t.window < 7 ∨ 7 ∣ t.window) := by
  refine ⟨fun m => m.parses_iff unwrapAnchorUs, ?_⟩
  intro t t' senderSsrc mediaSsrc cap nowUs bytes h
  obtain ⟨e, hwords, hcond⟩ := exists_encoding t
  have hparses := (feedbackMember t senderSsrc mediaSsrc e).parses_iff unwrapAnchorUs
  rw [feedbackBuild_packet h, feedbackPacket_eq t senderSsrc mediaSsrc hwords, ← hcond,
    ← length_reportEntries]
  exact hparses

/-- Seven packets with losses fill their only vector. -/
theorem twcc_parser_accepts_seven :
    ∃ p, parserInit (feedbackPacket (received [(1, 64000), (3, 64250), (7, 64500)]) 1 2) 0 =
        some p ∧ ∀ fuel, 7 < fuel → statuses fuel p =
      reported 1 64000 (received [(1, 64000), (3, 64250), (7, 64500)]).reportEntries :=
  ((twcc_parser_accepts 0).2 (received [(1, 64000), (3, 64250), (7, 64500)]) _ 1 2 1500 0 _
    rfl).mpr (by decide)

end MezonSfu.Twcc
