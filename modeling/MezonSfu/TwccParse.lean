import Mathlib.Data.Nat.Bitwise
import MezonSfu.TwccFormat

/-!
What the parser does with a member of the format. The validator accepts it exactly when the last
chunk ends with the list or covers more statuses than the whole member reports, and an accepted
member is read back entry by entry.
-/

namespace MezonSfu.Twcc

open Bytes List

lemma and_two_pow_eq_zero (w k : ℕ) : w &&& 2 ^ k = 0 ↔ w / 2 ^ k % 2 = 0 := by
  rw [Nat.and_two_pow, Nat.testBit_eq_decide_div_mod_eq]
  rcases Nat.mod_two_eq_zero_or_one (w / 2 ^ k) with h | h <;> simp [h]

lemma isRunLength_iff {w : ℕ} (h : w < 2 ^ 16) : isRunLength w ↔ w < 2 ^ 15 := by
  have hbit : w &&& 0x8000 = 0 ↔ w / 2 ^ 15 % 2 = 0 := and_two_pow_eq_zero w 15
  rw [isRunLength, decide_eq_true_eq, hbit]
  omega

lemma isTwoBit_iff (w : ℕ) : isTwoBit w ↔ w / 2 ^ 14 % 2 = 1 := by
  have hbit : w &&& 0x4000 = 0 ↔ w / 2 ^ 14 % 2 = 0 := and_two_pow_eq_zero w 14
  rw [isTwoBit, decide_eq_true_eq, ne_eq, hbit]
  omega

lemma runSymbol_eq (w : ℕ) : runSymbol w = w / 2 ^ 13 % 4 := by
  rw [runSymbol, Nat.shiftRight_eq_div_pow, show 0x03 = 2 ^ 2 - 1 from rfl,
    Nat.and_two_pow_sub_one_eq_mod]

lemma runLength_eq (w : ℕ) : runLength w = w % 2 ^ 13 := by
  rw [runLength, show 0x1FFF = 2 ^ 13 - 1 from rfl, Nat.and_two_pow_sub_one_eq_mod]

lemma Chunk.word_spec (c : Chunk) :
    (isRunLength c.word ∧ runSymbol c.word < 3 ∧ runLength c.word = c.size ∧
      c.symbols = List.replicate (runLength c.word) (runSymbol c.word)) ∨
    (isRunLength c.word = false ∧ vectorCount c.word = c.size) := by
  have hlt := c.word_lt
  cases c with
  | run s n pos lt =>
    left
    have hs : s.val < 3 := s.isLt
    have hword : (run s n pos lt).word = s * 2 ^ 13 + n := rfl
    have hsym : runSymbol (run s n pos lt).word = s := by rw [runSymbol_eq, hword]; omega
    have hlen : runLength (run s n pos lt).word = n := by rw [runLength_eq, hword]; omega
    refine ⟨(isRunLength_iff hlt).mpr (by rw [hword]; omega), ?_, ?_, ?_⟩
    · rw [hsym]; exact hs
    · rw [hlen]; simp [size, symbols]
    · rw [hsym, hlen]; rfl
  | oneBit l h =>
    right
    have hl := pack_vals_lt l
    rw [h] at hl
    have hword : (oneBit l h).word = 2 ^ 15 + pack 2 (l.map Fin.val) := rfl
    have hrun : ¬ isRunLength (oneBit l h).word := by
      rw [isRunLength_iff hlt, hword]; omega
    have htwo : ¬ isTwoBit (oneBit l h).word := by
      rw [isTwoBit_iff, hword]; omega
    exact ⟨by simpa using hrun, by rw [vectorCount, if_neg htwo]; simp [size, symbols, h]⟩
  | twoBit l h =>
    right
    have hword : (twoBit l h).word = 2 ^ 15 + 2 ^ 14 + pack 4 (l.map Fin.val) := rfl
    have hrun : ¬ isRunLength (twoBit l h).word := by
      rw [isRunLength_iff hlt, hword]; omega
    have htwo : isTwoBit (twoBit l h).word := by
      rw [isTwoBit_iff, hword]; omega
    exact ⟨by simpa using hrun, by rw [vectorCount, if_pos htwo]; simp [size, symbols, h]⟩

variable {count fuel offset processed s : ℕ} {c : Chunk} {data front rest : List UInt8} {p : Parser}
  {l : List ℕ} {cs : List Chunk} {e : Entry}

lemma sub32_lt {size : ℕ} (hc : count < 2 ^ 16) (hs : size < 2 ^ 13) (hp : processed < count) :
    sub32 count size < processed ↔ size ≤ count ∧ count < processed + size := by
  unfold sub32
  omega

lemma validateFrom_chunk (hdata : data = front ++ (c.bytes ++ rest))
    (hoff : offset = front.length) (hc : count < 2 ^ 16) (hp : processed < count) :
    validateFrom data count (fuel + 1) offset processed =
      if c.size ≤ count ∧ count < processed + c.size then none
      else validateFrom data count fuel (offset + 2) (processed + c.size) := by
  have hlen : ¬ data.length < offset + 2 := by
    rw [hdata, hoff]
    have hbytes : c.bytes.length = 2 := rfl
    simp only [length_append, hbytes]
    omega
  have hread : readBe16 data offset = c.word := by
    rw [hdata, readBe16_append (k := 0) (by omega), Chunk.bytes, readBe16_write,
      Nat.mod_eq_of_lt c.word_lt]
  have htest := sub32_lt hc c.size_lt hp
  rw [validateFrom, if_pos hp, if_neg hlen]
  rw [hread]
  rcases c.word_spec with ⟨hrun, hsym, hsize, -⟩ | ⟨hrun, hsize⟩
  · have hpos := c.size_pos
    have hvalid : ¬ (runSymbol c.word = statusReserved ∨ runLength c.word = 0) := by
      unfold statusReserved
      omega
    rw [if_pos hrun, if_neg hvalid, hsize]
    simp only [htest]
  · rw [if_neg (by simp [hrun]), hsize]
    simp only [htest]

lemma validateFrom_front (hc : count < 2 ^ 16) (cs : List Chunk)
    (hdata : data = front ++ (cs.flatMap Chunk.bytes ++ rest)) (hoff : offset = front.length)
    (hfuel : count ≤ fuel + processed)
    (hshort : processed + (cs.flatMap Chunk.symbols).length < count) :
    let sum := processed + (cs.flatMap Chunk.symbols).length
    ∃ left, count ≤ left + sum ∧ validateFrom data count fuel offset processed =
        validateFrom data count left (offset + 2 * cs.length) sum := by
  induction cs generalizing front fuel offset processed with
  | nil => exact ⟨fuel, by simpa using hfuel, by simp⟩
  | cons c cs ih =>
    have hlen : (List.flatMap Chunk.symbols (c :: cs)).length =
        c.size + (cs.flatMap Chunk.symbols).length := by
      simp [Chunk.size]
    have hpos := c.size_pos
    rw [hlen] at hshort ⊢
    obtain ⟨fuel, rfl⟩ : ∃ k, fuel = k + 1 := ⟨fuel - 1, by omega⟩
    have hdata' : data = front ++ (c.bytes ++ (cs.flatMap Chunk.bytes ++ rest)) := by
      rw [hdata]; simp
    rw [validateFrom_chunk hdata' hoff hc (by omega), if_neg (by omega)]
    have hnext : data = (front ++ c.bytes) ++ (cs.flatMap Chunk.bytes ++ rest) := by
      rw [hdata']; simp
    have hoff' : offset + 2 = (front ++ c.bytes).length := by simp [hoff, Chunk.bytes]
    have hfuel' : count ≤ fuel + (processed + c.size) := by omega
    have hshort' : processed + c.size + (cs.flatMap Chunk.symbols).length < count := by omega
    obtain ⟨left, hleft, heq⟩ := ih hnext hoff' hfuel' hshort'
    refine ⟨left, by omega, ?_⟩
    rw [heq, length_cons]
    congr 1 <;> omega

lemma validateFrom_done (h : count ≤ processed) :
    validateFrom data count fuel offset processed = some offset := by
  cases fuel <;> rw [validateFrom, if_neg (by omega)]

def Member.deltaOffset (m : Member) : ℕ := fixedLen + 2 * m.encoding.chunks.length

/-- What the validator says about a member: a last chunk that is partly filled passes only when
it is larger than the whole member. -/
lemma validateChunks_member (m : Member) :
    validateChunks m.bytes m.entries.length =
      if m.encoding.Exact ∨ m.entries.length < m.encoding.last.size then some m.deltaOffset
      else none := by
  set count := m.entries.length
  have hc : count < 2 ^ 16 := m.count_lt
  have hshort := m.encoding.short
  have hdata : m.bytes = m.fixedPart ++ (m.encoding.front.flatMap Chunk.bytes ++
      (m.encoding.last.bytes ++ (m.entries.flatMap Entry.deltaBytes ++ m.trailing))) := by
    simp [Member.bytes, Encoding.chunks]
  have hshort' : 0 + (m.encoding.front.flatMap Chunk.symbols).length < count := by omega
  obtain ⟨left, hleft, heq⟩ := validateFrom_front hc m.encoding.front hdata
    m.length_fixedPart.symm (Nat.le_add_right count 0) hshort'
  rw [Nat.zero_add] at hleft heq
  obtain ⟨left, rfl⟩ : ∃ k, left = k + 1 := ⟨left - 1, by omega⟩
  -- the round at the last chunk
  have hlast : m.bytes = (m.fixedPart ++ m.encoding.front.flatMap Chunk.bytes) ++
      (m.encoding.last.bytes ++ (m.entries.flatMap Entry.deltaBytes ++ m.trailing)) := by
    rw [hdata]; simp
  have hoff : fixedLen + 2 * m.encoding.front.length =
      (m.fixedPart ++ m.encoding.front.flatMap Chunk.bytes).length := by
    rw [length_append, m.length_fixedPart, length_chunk_bytes]
  have hcover := m.encoding.covers.length_le
  have hsize : ((m.encoding.front ++ [m.encoding.last]).flatMap Chunk.symbols).length =
      (m.encoding.front.flatMap Chunk.symbols).length + m.encoding.last.size := by
    simp [Chunk.size]
  rw [length_map, hsize] at hcover
  have hexact : m.encoding.Exact ↔
      (m.encoding.front.flatMap Chunk.symbols).length + m.encoding.last.size = count := by
    rw [Encoding.Exact, Encoding.chunks, hsize]
  have hdelta : fixedLen + 2 * m.encoding.front.length + 2 = m.deltaOffset := by
    simp only [Member.deltaOffset, Encoding.chunks, length_append, length_singleton]
    omega
  rw [validateChunks, heq, validateFrom_chunk hlast hoff hc hshort,
    validateFrom_done (by omega), hdelta]
  simp only [hexact]
  split <;> split <;> first | rfl | omega

/-! ### Reading -/

def Parser.pending (p : Parser) : List ℕ :=
  (List.range p.statusesLeftInChunk).reverse.map p.symbolAt

/-- The parser stands before the entries `es`: it has their symbols in the current chunk and in
the chunks `cs`, and their deltas at its delta offset. -/
structure Reads (p : Parser) (es : List Entry) (cs : List Chunk) : Prop where
  ok : p.failed = false
  count : p.packetsProcessed + es.length = p.packetStatusCount
  seq_lt : p.currentSeq < 2 ^ 16
  symbols : es.map Entry.symbol <+: p.pending ++ cs.flatMap Chunk.symbols
  chunks : ∃ front rest, p.data = front ++ (cs.flatMap Chunk.bytes ++ rest) ∧
    front.length = p.chunkOffset
  chunks_le : p.chunkOffset + 2 * cs.length ≤ p.deltaOffset
  deltas : ∃ front rest, p.data = front ++ (es.flatMap Entry.deltaBytes ++ rest) ∧
    front.length = p.deltaOffset

lemma symbolAt_eq (w j : ℕ) :
    (w >>> (j * 2)) &&& 0x03 = w / 4 ^ j % 4 ∧ (w >>> j) &&& 0x01 = w / 2 ^ j % 2 := by
  constructor
  · rw [show 0x03 = 2 ^ 2 - 1 from rfl, Nat.and_two_pow_sub_one_eq_mod,
      Nat.shiftRight_eq_div_pow, Nat.mul_comm, pow_mul]
    rfl
  · rw [show 0x01 = 2 ^ 1 - 1 from rfl, Nat.and_two_pow_sub_one_eq_mod, Nat.shiftRight_eq_div_pow]

lemma fields_of_packed {b t : ℕ} (l : List (Fin b)) :
    (List.range l.length).reverse.map
      (fun j => (b ^ l.length * t + pack b (l.map Fin.val)) / b ^ j % b) = l.map Fin.val := by
  have hb : ∀ d ∈ l.map Fin.val, d < b := by
    intro d hd
    obtain ⟨x, -, rfl⟩ := mem_map.mp hd
    exact x.isLt
  apply ext_getElem?
  intro i
  by_cases hi : i < l.length
  · set j := l.length - 1 - i with hj
    have hpos : 0 < b := Nat.lt_of_le_of_lt (Nat.zero_le _) (l[i]).isLt
    -- the fields above do not reach the field with `j` fields to its right
    have hdrop : (b ^ l.length * t + pack b (l.map Fin.val)) / b ^ j % b =
        pack b (l.map Fin.val) / b ^ j % b := by
      have hpow : b ^ l.length * t = b ^ j * (b * (b ^ i * t)) := by
        have hlen : l.length = j + (1 + i) := by omega
        rw [hlen, pow_add, pow_add, pow_one]
        ring
      rw [hpow, Nat.mul_add_div (pow_pos hpos j), Nat.mul_add_mod]
    have hfield := pack_field hb (j := j) (by simp; omega)
    rw [length_map] at hfield
    have hidx : l.length - 1 - j = i := by omega
    rw [hidx] at hfield
    rw [← hfield, ← hdrop, List.getElem?_map, List.getElem?_reverse (by simpa using hi),
      length_range, ← hj, List.getElem?_range (by omega)]
    rfl
  · rw [List.getElem?_eq_none (by simp; omega), List.getElem?_eq_none (by simp; omega)]

lemma pending_loadChunk (h : readBe16 p.data p.chunkOffset = c.word) :
    p.loadChunk.pending = c.symbols := by
  rcases c.word_spec with ⟨hrun, -, -, hsym⟩ | ⟨hrun, hsize⟩
  · have hat : p.loadChunk.symbolAt = fun _ => runSymbol c.word := by
      funext j
      simp [Parser.symbolAt, Parser.loadChunk, h, hrun]
    have hleft : p.loadChunk.statusesLeftInChunk = runLength c.word := by
      simp [Parser.loadChunk, h, hrun]
    rw [Parser.pending, hat, hleft, hsym]
    simp [map_const']
  · have hleft : p.loadChunk.statusesLeftInChunk = c.size := by
      simp [Parser.loadChunk, h, hrun, hsize]
    cases c with
    | run s n pos lt =>
      have hlt := (Chunk.run s n pos lt).word_lt
      have hword : (Chunk.run s n pos lt).word = s * 2 ^ 13 + n := rfl
      have htrue := (isRunLength_iff hlt).mpr (by rw [hword]; omega)
      rw [hrun] at htrue
      contradiction
    | oneBit l hl =>
      have htwo : isTwoBit (Chunk.oneBit l hl).word = false := by
        have hne : vectorCount (Chunk.oneBit l hl).word ≠ 7 := by
          rw [hsize]; simp [Chunk.size, Chunk.symbols, hl]
        rw [vectorCount] at hne
        simpa using hne
      have hat : p.loadChunk.symbolAt =
          fun j => (2 ^ l.length * 2 + pack 2 (l.map Fin.val)) / 2 ^ j % 2 := by
        funext j
        have hword : (Chunk.oneBit l hl).word = 2 ^ l.length * 2 + pack 2 (l.map Fin.val) := by
          rw [hl]; rfl
        rw [← hword, ← (symbolAt_eq _ j).2]
        simp [Parser.symbolAt, Parser.loadChunk, h, hrun, htwo]
      rw [Parser.pending, hat, hleft, Chunk.size, Chunk.symbols, length_map]
      exact fields_of_packed l
    | twoBit l hl =>
      have htwo : isTwoBit (Chunk.twoBit l hl).word := by
        have hne : vectorCount (Chunk.twoBit l hl).word ≠ 14 := by
          rw [hsize]; simp [Chunk.size, Chunk.symbols, hl]
        rw [vectorCount] at hne
        simpa using hne
      have hat : p.loadChunk.symbolAt =
          fun j => (4 ^ l.length * 3 + pack 4 (l.map Fin.val)) / 4 ^ j % 4 := by
        funext j
        have hword : (Chunk.twoBit l hl).word = 4 ^ l.length * 3 + pack 4 (l.map Fin.val) := by
          rw [hl]; rfl
        rw [← hword, ← (symbolAt_eq _ j).1]
        simp [Parser.symbolAt, Parser.loadChunk, h, hrun, htwo]
      rw [Parser.pending, hat, hleft, Chunk.size, Chunk.symbols, length_map]
      exact fields_of_packed l

lemma takeSymbol_pending (h : p.pending = s :: l) :
    ∃ left, p.takeSymbol = ({ p with statusesLeftInChunk := left }, s) ∧
      Parser.pending { p with statusesLeftInChunk := left } = l := by
  cases hleft : p.statusesLeftInChunk with
  | zero => simp [Parser.pending, hleft] at h
  | succ left =>
    rw [Parser.pending, hleft, range_succ, reverse_append, reverse_singleton,
      singleton_append, map_cons, List.cons.injEq] at h
    refine ⟨left, ?_, h.2⟩
    rw [Parser.takeSymbol, hleft, if_neg (by omega), Nat.add_sub_cancel, h.1]

/-- The part of the parser that reading a symbol leaves alone. -/
structure SameOutput (p q : Parser) : Prop where
  data : q.data = p.data
  failed : q.failed = p.failed
  packetsProcessed : q.packetsProcessed = p.packetsProcessed
  packetStatusCount : q.packetStatusCount = p.packetStatusCount
  currentSeq : q.currentSeq = p.currentSeq
  currentTimeUs : q.currentTimeUs = p.currentTimeUs
  deltaOffset : q.deltaOffset = p.deltaOffset

/-- The parser stands before the symbols `l`: they are left in the current chunk and in the chunks
`cs`. -/
structure Stands (p : Parser) (l : List ℕ) (cs : List Chunk) : Prop where
  symbols : l <+: p.pending ++ cs.flatMap Chunk.symbols
  chunks : ∃ front rest, p.data = front ++ (cs.flatMap Chunk.bytes ++ rest) ∧
    front.length = p.chunkOffset
  chunks_le : p.chunkOffset + 2 * cs.length ≤ p.deltaOffset

lemma getNextStatus_stands (h : Stands p (s :: l) cs) :
    ∃ (q : Parser) (cs' : List Chunk), getNextStatus p = (q, s) ∧ SameOutput p q ∧
      Stands q l cs' := by
  obtain ⟨hsymbols, ⟨front, rest, hdata, hfront⟩, hle⟩ := h
  by_cases hleft : p.statusesLeftInChunk = 0
  · have hnone : p.pending = [] := by rw [Parser.pending, hleft]; rfl
    rw [hnone, nil_append] at hsymbols
    -- the current chunk is used up, so there is another one
    cases cs with
    | nil => simp at hsymbols
    | cons c cs =>
      have hread : readBe16 p.data p.chunkOffset = c.word := by
        rw [hdata, readBe16_append (k := 0) (by omega), flatMap_cons, append_assoc,
          Chunk.bytes, readBe16_write, Nat.mod_eq_of_lt c.word_lt]
      have hpending := pending_loadChunk hread
      cases hc : c.symbols with
      | nil =>
        have hpos := c.size_pos
        rw [Chunk.size, hc] at hpos
        simp at hpos
      | cons s' l' =>
        rw [flatMap_cons, hc, cons_append, cons_prefix_cons] at hsymbols
        obtain ⟨left, htake, hrest⟩ := takeSymbol_pending (hpending.trans hc)
        rw [length_cons] at hle
        refine ⟨{ p.loadChunk with statusesLeftInChunk := left }, cs, ?_,
          ⟨rfl, rfl, rfl, rfl, rfl, rfl, rfl⟩, ?_, ⟨front ++ c.bytes, rest, ?_, ?_⟩, ?_⟩
        · rw [getNextStatus, if_pos hleft, if_neg (by omega), htake, hsymbols.1]
        · rw [hrest]; exact hsymbols.2
        · change p.data = _
          rw [hdata]; simp
        · simp [Parser.loadChunk, hfront, Chunk.bytes]
        · simp only [Parser.loadChunk]; omega
  · obtain ⟨s', l', hpending⟩ : ∃ s l, p.pending = s :: l := by
      refine exists_cons_of_ne_nil ?_
      simp [Parser.pending, hleft]
    rw [hpending, cons_append, cons_prefix_cons] at hsymbols
    obtain ⟨left, htake, hrest⟩ := takeSymbol_pending hpending
    refine ⟨{ p with statusesLeftInChunk := left }, cs, ?_,
      ⟨rfl, rfl, rfl, rfl, rfl, rfl, rfl⟩, ?_, ⟨front, rest, hdata, hfront⟩, hle⟩
    · rw [getNextStatus, if_neg hleft, htake, hsymbols.1]
    · rw [hrest]; exact hsymbols.2

lemma int16_toNat (d : BitVec 16) : int16 d.toNat = d.toInt := by
  rw [int16, BitVec.toInt_eq_toNat_cond]
  split <;> split <;> omega

lemma readDelta_spec {q : Parser} (hdata : q.data = front ++ (e.deltaBytes ++ rest))
    (hoff : front.length = q.deltaOffset) (he : e ≠ .lost) :
    readDelta q e.symbol = some (e.units * 250, q.deltaOffset + e.deltaBytes.length) := by
  cases e with
  | lost => contradiction
  | small d =>
    have hlen : ¬ q.data.length < q.deltaOffset + 1 := by
      rw [hdata, ← hoff]; simp [Entry.deltaBytes]
    have hbyte : byteAt q.data q.deltaOffset = d := by
      rw [hdata, byteAt_append (k := 0) (by omega)]
      simp [byteAt, Entry.deltaBytes]
    have hsym : (Entry.small d).symbol = statusSmallDelta := rfl
    rw [readDelta, hsym, if_pos rfl, if_neg hlen, hbyte]
    rfl
  | large d =>
    have hlen : ¬ q.data.length < q.deltaOffset + 2 := by
      rw [hdata, ← hoff]; simp [Entry.deltaBytes]; omega
    have hword : readBe16 q.data q.deltaOffset = d.toNat := by
      rw [hdata, readBe16_append (k := 0) (by omega), Entry.deltaBytes, readBe16_write,
        Nat.mod_eq_of_lt d.isLt]
    have hsym : (Entry.large d).symbol ≠ statusSmallDelta :=
      show statusLargeDelta ≠ statusSmallDelta by decide
    rw [readDelta, if_neg hsym, if_neg hlen, hword, int16_toNat]
    rfl

/-- **One call reads one entry**, and the parser then stands before the rest. -/
lemma nextStatus_reads {es : List Entry} (h : Reads p (e :: es) cs) :
    ∃ (q : Parser) (cs' : List Chunk),
      nextStatus p = (q, some ⟨p.currentSeq, e.symbol, e.receiveTimeUs p.currentTimeUs e.units⟩) ∧
      Reads q es cs' ∧ q.currentSeq = (p.currentSeq + 1) % 2 ^ 16 ∧
      q.currentTimeUs = p.currentTimeUs + 250 * e.units := by
  obtain ⟨q, cs', hget, same, hsymbols, hchunks, hle⟩ := getNextStatus_stands { h with }
  obtain ⟨front, rest, hdata, hfront⟩ := h.deltas
  rw [flatMap_cons, append_assoc] at hdata
  have hcount := h.count
  rw [length_cons] at hcount
  have hgo : ¬ (p.failed ∨ p.packetStatusCount ≤ p.packetsProcessed) := by
    rw [h.ok]; simp; omega
  -- the parser after the symbol and before the delta
  set r := q.counted with hr
  have hnext : nextStatus p = report r p.currentSeq e.symbol := by
    rw [nextStatus, if_neg hgo, hget]
  have hseq : r.currentSeq = (p.currentSeq + 1) % 2 ^ 16 := by
    rw [hr, Parser.counted, same.currentSeq]
  have hbase : q.packetsProcessed + 1 + es.length = q.packetStatusCount := by
    rw [same.packetsProcessed, same.packetStatusCount]; omega
  have hlt : r.currentSeq < 2 ^ 16 := Nat.mod_lt _ (by norm_num)
  by_cases hlost : e = .lost
  · subst hlost
    refine ⟨{ r with packetsLost := r.packetsLost + 1 }, cs', ?_, ?_, hseq, ?_⟩
    · rw [hnext, report, if_pos (by rfl)]; rfl
    · refine ⟨same.failed.trans h.ok, hbase, hlt, hsymbols, hchunks, ?_, front, rest, ?_, ?_⟩
      · exact hle
      · exact same.data.trans hdata
      · exact hfront.trans same.deltaOffset.symm
    · exact same.currentTimeUs.trans (by simp [Entry.units])
  · have hsym : e.symbol ≠ statusNotReceived ∧ e.symbol ≠ statusReserved := by
      cases e <;> simp_all [Entry.symbol, statusNotReceived, statusReserved, statusSmallDelta,
        statusLargeDelta]
    have hrdata : r.data = front ++ (e.deltaBytes ++ (es.flatMap Entry.deltaBytes ++ rest)) :=
      same.data.trans hdata
    have hroff : front.length = r.deltaOffset := hfront.trans same.deltaOffset.symm
    have hread := readDelta_spec hrdata hroff hlost
    refine ⟨{ r with
        deltaOffset := r.deltaOffset + e.deltaBytes.length
        currentTimeUs := r.currentTimeUs + e.units * 250 }, cs', ?_, ?_, hseq, ?_⟩
    · rw [hnext, report, if_neg hsym.1, if_neg hsym.2, hread]
      have htime : e.receiveTimeUs p.currentTimeUs e.units = r.currentTimeUs + e.units * 250 := by
        have hsame : r.currentTimeUs = p.currentTimeUs := same.currentTimeUs
        rw [hsame, mul_comm]
        cases e <;> first | contradiction | rfl
      rw [htime]
    · refine ⟨same.failed.trans h.ok, hbase, hlt, hsymbols, hchunks, ?_,
        front ++ e.deltaBytes, rest, ?_, ?_⟩
      · have hd : r.deltaOffset = q.deltaOffset := rfl
        change q.chunkOffset + 2 * cs'.length ≤ r.deltaOffset + e.deltaBytes.length
        omega
      · change q.data = _
        rw [same.data, hdata]; simp
      · rw [length_append, hfront]
        exact congrArg (· + _) same.deltaOffset.symm
    · change q.currentTimeUs + e.units * 250 = _
      rw [same.currentTimeUs, mul_comm]

lemma reported_nil (base : ℕ) (t : ℤ) : reported base t [] = [] := rfl

lemma reported_cons {base : ℕ} (h : base < 2 ^ 16) (t : ℤ) (e : Entry) (es : List Entry) :
    reported base t (e :: es) = ⟨base, e.symbol, e.receiveTimeUs t e.units⟩ ::
      reported ((base + 1) % 2 ^ 16) (t + 250 * e.units) es := by
  unfold reported
  rw [mapIdx_cons]
  congr 1
  · simp only [Nat.add_zero, Nat.mod_eq_of_lt h]
    simp
  congr 1
  funext i x
  have hseq : (base + (i + 1)) % 2 ^ 16 = ((base + 1) % 2 ^ 16 + i) % 2 ^ 16 := by omega
  have htime : ∀ y : Entry, ∀ u : ℤ, y.receiveTimeUs t (e.units + u) =
      y.receiveTimeUs (t + 250 * e.units) u := by
    intro y u
    cases y <;> simp only [Entry.receiveTimeUs] <;> ring
  rw [hseq, take_succ_cons, map_cons, sum_cons, htime]

/-- **A whole run of the iterator**: it yields the entries the parser stands before, and then
nothing more. -/
lemma statuses_reads (es : List Entry) (h : Reads p es cs) (hfuel : es.length < fuel) :
    statuses fuel p = reported p.currentSeq p.currentTimeUs es := by
  induction es generalizing p cs fuel with
  | nil =>
    obtain ⟨fuel, rfl⟩ : ∃ k, fuel = k + 1 := ⟨fuel - 1, by omega⟩
    have hdone : p.packetStatusCount ≤ p.packetsProcessed := by
      have hcount := h.count
      rw [length_nil] at hcount
      omega
    rw [statuses, nextStatus, if_pos (.inr hdone), reported_nil]
  | cons e es ih =>
    obtain ⟨fuel, rfl⟩ : ∃ k, fuel = k + 1 := ⟨fuel - 1, by omega⟩
    rw [length_cons] at hfuel
    obtain ⟨q, cs', hnext, hq, hseq, htime⟩ := nextStatus_reads h
    rw [statuses, hnext, reported_cons h.seq_lt]
    dsimp only
    rw [ih hq (by omega), hseq, htime]

lemma Member.fields (m : Member) :
    fixedLen ≤ m.bytes.length ∧ readBe16 m.bytes 12 = m.base ∧
      readBe16 m.bytes 14 = m.entries.length ∧ readBe24 m.bytes 16 = m.ref24 := by
  have hlen : fixedLen ≤ m.bytes.length := by
    rw [Member.bytes, length_append, m.length_fixedPart]
    omega
  set rest := m.encoding.chunks.flatMap Chunk.bytes ++
    (m.entries.flatMap Entry.deltaBytes ++ m.trailing) with hrest
  have hbytes : m.bytes = m.header ++ (writeBe16 m.base ++ (writeBe16 m.entries.length ++
      (writeBe24 m.ref24 ++ ([m.fbPktCount] ++ rest)))) := by
    simp only [Member.bytes, Member.fixedPart, hrest, append_assoc]
  have hheader := m.header_length
  refine ⟨hlen, ?_, ?_, ?_⟩
  · rw [hbytes, readBe16_append (k := 0) (by omega), readBe16_write, Nat.mod_eq_of_lt m.base_lt]
  · rw [hbytes, readBe16_append (k := 2) (by omega),
      readBe16_append (k := 0) (by rw [length_writeBe16]), readBe16_write,
      Nat.mod_eq_of_lt m.count_lt]
  · rw [hbytes, readBe24_append (k := 4) (by omega),
      readBe24_append (k := 2) (by rw [length_writeBe16]),
      readBe24_append (k := 0) (by rw [length_writeBe16]), readBe24_write,
      Nat.mod_eq_of_lt m.ref24_lt]

/-- The reference time is the 24-bit field, moved by whole ranges to where it is nearest to the
anchor. -/
lemma referenceUs_spec (ref24 : ℕ) (unwrapAnchorUs : ℤ) :
    (unwrapAnchorUs ≤ 0 → referenceUs ref24 unwrapAnchorUs = ref24 * 64000) ∧
    (0 < unwrapAnchorUs →
      refRangeUs ∣ referenceUs ref24 unwrapAnchorUs - ref24 * 64000 ∧
      unwrapAnchorUs - refRangeUs / 2 ≤ referenceUs ref24 unwrapAnchorUs ∧
      referenceUs ref24 unwrapAnchorUs < unwrapAnchorUs + refRangeUs / 2) := by
  constructor
  · intro h
    rw [referenceUs, if_neg (by omega)]
  intro h
  have hR : refRangeUs = 1073741824000 := by norm_num [refRangeUs]
  set a := unwrapAnchorUs
  have ha : a.tmod refRangeUs = a % refRangeUs := Int.tmod_eq_emod_of_nonneg h.le
  set delta : ℤ := ref24 * 64000 - a % refRangeUs with hdelta
  have hlt : -refRangeUs < delta.tmod refRangeUs :=
    Int.lt_tmod_of_pos delta (by rw [hR]; norm_num)
  have hdiv : refRangeUs ∣ delta - delta.tmod refRangeUs := Int.dvd_self_sub_tmod
  have htdiv : refRangeUs.tdiv 2 = refRangeUs / 2 := Int.tdiv_eq_ediv_of_nonneg (by
    rw [hR]; norm_num)
  have hval : referenceUs ref24 a = a + ((delta.tmod refRangeUs + refRangeUs + refRangeUs / 2) %
      refRangeUs - refRangeUs / 2) := by
    rw [referenceUs, if_pos h]
    dsimp only
    rw [ha, ← hdelta, htdiv, Int.tmod_eq_emod_of_nonneg]
    omega
  rw [hR] at *
  omega

/-- The parser takes a member and yields exactly its entries. -/
def Member.Parses (m : Member) (unwrapAnchorUs : ℤ) : Prop :=
  ∃ p, parserInit m.bytes unwrapAnchorUs = some p ∧ ∀ fuel, m.entries.length < fuel →
    statuses fuel p = reported m.base (referenceUs m.ref24 unwrapAnchorUs) m.entries

lemma Member.parses_iff (m : Member) (unwrapAnchorUs : ℤ) :
    m.Parses unwrapAnchorUs ↔ m.encoding.Exact ∨ m.entries.length < m.encoding.last.size := by
  obtain ⟨hlen, hbase, hcount, href⟩ := m.fields
  have hvalid := validateChunks_member m
  constructor
  · rintro ⟨p, hp, -⟩
    by_contra hcond
    rw [parserInit, if_neg (by omega), hcount, hvalid, if_neg hcond] at hp
    simp at hp
  intro hcond
  rw [if_pos hcond] at hvalid
  have hinit : ∃ p, parserInit m.bytes unwrapAnchorUs = some p ∧ p.currentSeq = m.base ∧
      p.currentTimeUs = referenceUs m.ref24 unwrapAnchorUs ∧
      Reads p m.entries m.encoding.chunks := by
    rw [parserInit, if_neg (by omega), hcount, hvalid, hbase, href]
    refine ⟨_, rfl, rfl, rfl, rfl, Nat.zero_add _, m.base_lt, ?_, ?_, le_rfl, ?_⟩
    · exact m.encoding.covers
    · exact ⟨m.fixedPart, _, rfl, m.length_fixedPart⟩
    · refine ⟨m.fixedPart ++ m.encoding.chunks.flatMap Chunk.bytes, m.trailing, ?_, ?_⟩
      · simp only [Member.bytes, append_assoc]
      · rw [length_append, m.length_fixedPart, length_chunk_bytes]
        rfl
  obtain ⟨p, hp, hseq, htime, hreads⟩ := hinit
  refine ⟨p, hp, fun fuel hfuel => ?_⟩
  rw [statuses_reads m.entries hreads hfuel, hseq, htime]

end MezonSfu.Twcc
