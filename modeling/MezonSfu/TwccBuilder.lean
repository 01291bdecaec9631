import MezonSfu.TwccReports
import MezonSfu.TwccUnique

/-!
What a feedback packet of the builder says when it is read by the format.

The deltas are rounded against a running clock that takes every rounding with it, so the clock is
never further than half a unit from the last arrival and errors do not add up. The reading is the
only one the bytes allow.
-/

namespace MezonSfu.Twcc

open Bytes List

lemma abs_roundUnits (d : ℤ) : |d - 250 * roundUnits d| ≤ 125 := by
  unfold roundUnits
  rw [abs_le]
  split
  · rw [Int.tdiv_eq_ediv_of_nonneg (by omega)]
    omega
  · rw [Int.tdiv_eq_ediv_of_nonneg (by omega)]
    omega

/-- No delta of the loop has to be clamped. -/
def Unclamped : ℤ → List (Option ℤ) → Prop
  | _, [] => True
  | clockUs, none :: l => Unclamped clockUs l
  | clockUs, some arrivalUs :: l =>
    (-32768 ≤ roundUnits (arrivalUs - clockUs) ∧ roundUnits (arrivalUs - clockUs) ≤ 32767) ∧
      Unclamped (clockUs + roundUnits (arrivalUs - clockUs) * 250) l

instance Unclamped.decidable : (clockUs : ℤ) → (l : List (Option ℤ)) →
    Decidable (Unclamped clockUs l)
  | _, [] => isTrue trivial
  | clockUs, none :: l => Unclamped.decidable clockUs l
  | _, some _ :: l => @instDecidableAnd _ _ _ (Unclamped.decidable _ l)

lemma packetDelta_snd {clockUs arrivalUs : ℤ}
    (h : -32768 ≤ roundUnits (arrivalUs - clockUs) ∧ roundUnits (arrivalUs - clockUs) ≤ 32767) :
    (packetDelta clockUs arrivalUs).2 = roundUnits (arrivalUs - clockUs) := by
  unfold packetDelta
  dsimp only
  split
  · rw [if_neg (by omega), if_neg (by omega)]
  · rfl

variable {packet : ℕ × ℤ}

lemma entryOf_units (h : Recorded packet)
    (hlost : packet.1 = statusNotReceived → packet.2 = 0) : (entryOf packet).units = packet.2 := by
  obtain ⟨status, units⟩ := packet
  rcases h with rfl | ⟨rfl, h⟩ | ⟨rfl, h⟩
  · exact (hlost rfl).symm
  · change ((units.toNat % 256 : ℕ) : ℤ) = units
    omega
  · change (BitVec.ofInt 16 units).toInt = units
    rw [BitVec.toInt_ofInt]
    exact Int.bmod_eq_of_le (by omega) (by omega)

variable {i : ℕ}

/-- **The running clock stays within half a unit of the arrivals.** -/
lemma clock_near {l : List (Option ℤ)} {clockUs : ℤ} (h : Unclamped clockUs l) {a : ℤ}
    (ha : l[i]? = some (some a)) :
    |clockUs + 250 * ((((deltaUnits clockUs l).map entryOf).take (i + 1)).map Entry.units).sum - a|
      ≤ 125 := by
  induction l generalizing clockUs i with
  | nil => simp at ha
  | cons x l ih =>
    cases x with
    | none =>
      cases i with
      | zero => simp at ha
      | succ i =>
        have hrest := ih h ha
        unfold deltaUnits
        simpa [entryOf, Entry.units, statusNotReceived, statusSmallDelta, statusLargeDelta]
          using hrest
    | some b =>
      obtain ⟨hclamp, hrest⟩ := h
      have hunits : (entryOf (packetDelta clockUs b)).units = roundUnits (b - clockUs) := by
        rw [entryOf_units (recorded_packetDelta clockUs b), packetDelta_snd hclamp]
        intro hs
        unfold packetDelta at hs
        dsimp only at hs
        split at hs <;> cases hs
      unfold deltaUnits
      rw [map_cons, take_succ_cons, map_cons, sum_cons, hunits, packetDelta_snd hclamp]
      cases i with
      | zero =>
        rw [List.getElem?_cons_zero, Option.some.injEq, Option.some.injEq] at ha
        have hround := abs_roundUnits (b - clockUs)
        rw [abs_le] at hround ⊢
        simp only [take_zero, map_nil, sum_nil]
        omega
      | succ i =>
        have hnext := ih hrest ha
        rw [abs_le] at hnext ⊢
        omega

/-- A reading of a packet says what the tracker held. -/
structure Says (t : RecvTracker) (m : Member) : Prop where
  base : m.base = t.reportStartSeq.toNat
  count : m.entries.length = t.window
  received : ∀ i (hi : i < m.entries.length), m.entries[i] ≠ .lost ↔
    (t.entries ((t.number i).toNat % recvCapacity)).valid = true ∧
      (t.entries ((t.number i).toNat % recvCapacity)).seq = t.number i
  times : Unclamped (t.refUs.tdiv 64000 * 64000) t.arrivals → ∃ k : ℤ,
    ∀ i (hi : i < (reported m.base (m.ref24 * 64000) m.entries).length) (a : ℤ),
      t.arrival i = some a →
      |(reported m.base (m.ref24 * 64000) m.entries)[i].receiveTimeUs + k * refRangeUs - a| ≤ 125
  length : m.bytes.length = 4 * (readBe16 m.bytes 2 + 1)
  padding : (m.trailing = [] ∧ byteAt m.bytes 0 = 0x8F) ∨
    (0 < m.trailing.length ∧ m.trailing.length < 4 ∧ byteAt m.bytes 0 = 0xAF ∧
      m.trailing.getLast? = some (UInt8.ofNat m.trailing.length))

lemma Says.congr {t : RecvTracker} {m m' : Member} (h : Says t m') (hb : m.bytes = m'.bytes) :
    Says t m := by
  obtain ⟨-, hbase, href, hentries, htrailing⟩ := Member.agrees_of_bytes hb
  refine ⟨hbase.trans h.base, by rw [hentries, h.count], ?_, ?_, by rw [hb]; exact h.length, ?_⟩
  · simp only [hentries]
    exact h.received
  · simp only [hbase, href, hentries]
    exact h.times
  · rw [htrailing, hb]
    exact h.padding

variable {t : RecvTracker}

lemma length_le_symbols (cs : List Chunk) : cs.length ≤ (cs.flatMap Chunk.symbols).length := by
  induction cs with
  | nil => exact le_rfl
  | cons c cs ih =>
    have hpos : 0 < c.symbols.length := c.size_pos
    rw [flatMap_cons, length_append, length_cons]
    omega

lemma length_deltaBytes_le (l : List (ℕ × ℤ)) : (l.flatMap deltaBytes).length ≤ 2 * l.length := by
  induction l with
  | nil => exact le_rfl
  | cons x l ih =>
    have hone : (deltaBytes x).length ≤ 2 := by
      unfold deltaBytes
      split_ifs <;> simp
    rw [flatMap_cons, length_append, length_cons]
    omega

def unpadded (t : RecvTracker) (e : Encoding t.reportEntries) : ℕ :=
  fixedLen + (e.chunks.flatMap Chunk.bytes).length + (t.packets.flatMap deltaBytes).length

lemma unpadded_le (e : Encoding t.reportEntries) : unpadded t e ≤ 1044 := by
  have hshort := e.short
  have hfront := length_le_symbols e.front
  have hdeltas := length_deltaBytes_le t.packets
  have hwindow := window_le t
  rw [length_reportEntries] at hshort
  rw [length_packets] at hdeltas
  unfold unpadded fixedLen
  rw [length_chunk_bytes, Encoding.chunks, length_append, length_singleton]
  omega

lemma length_padBytes (pad : ℕ) : (padBytes pad).length = pad := by
  unfold padBytes
  split
  · rename_i h
    rw [h]
    rfl
  · rw [length_append, length_replicate, length_singleton]
    omega

lemma feedbackMember_trailing (senderSsrc mediaSsrc : ℕ) (e : Encoding t.reportEntries) :
    (feedbackMember t senderSsrc mediaSsrc e).trailing = padBytes ((4 - unpadded t e % 4) % 4) := by
  dsimp only [feedbackMember, unpadded]

lemma length_feedbackMember (senderSsrc mediaSsrc : ℕ) (e : Encoding t.reportEntries) :
    (feedbackMember t senderSsrc mediaSsrc e).bytes.length =
      unpadded t e + (4 - unpadded t e % 4) % 4 := by
  have hentries : (feedbackMember t senderSsrc mediaSsrc e).entries = t.reportEntries := rfl
  have hchunks : (feedbackMember t senderSsrc mediaSsrc e).encoding.chunks = e.chunks := rfl
  unfold Member.bytes
  rw [length_append, Member.length_fixedPart, length_append, length_append, hchunks, hentries,
    feedbackMember_trailing, length_padBytes, reportEntries_deltaBytes]
  unfold unpadded
  omega

/-! ### The packet of the builder -/

lemma feedbackMember_bytes (senderSsrc mediaSsrc : ℕ) (e : Encoding t.reportEntries) :
    ∃ rest, (feedbackMember t senderSsrc mediaSsrc e).bytes =
      [if (4 - unpadded t e % 4) % 4 = 0 then 0x8F else 0xAF, 205] ++
        (writeBe16 ((unpadded t e + (4 - unpadded t e % 4) % 4) / 4 - 1) ++ rest) := by
  set m := feedbackMember t senderSsrc mediaSsrc e
  obtain ⟨rest, hrest⟩ : ∃ rest, m.bytes = m.header ++ rest := ⟨_, append_assoc _ _ _⟩
  have hheader : m.header =
      [if (4 - unpadded t e % 4) % 4 = 0 then 0x8F else 0xAF, 205] ++
        (writeBe16 ((unpadded t e + (4 - unpadded t e % 4) % 4) / 4 - 1) ++
          (writeBe32 senderSsrc ++ writeBe32 mediaSsrc)) := by
    simp only [← append_assoc]
    rfl
  refine ⟨writeBe32 senderSsrc ++ writeBe32 mediaSsrc ++ rest, ?_⟩
  rw [hrest, hheader]
  simp only [append_assoc]

lemma entryOf_lost (h : Recorded packet) :
    entryOf packet ≠ .lost ↔ packet.1 ≠ statusNotReceived := by
  rw [← (entryOf_spec h).1]
  cases entryOf packet <;> simp [Entry.symbol, statusNotReceived, statusSmallDelta,
    statusLargeDelta]

lemma reportEntries_received (hi : i < t.reportEntries.length) :
    t.reportEntries[i] ≠ .lost ↔ (t.arrival i).isSome := by
  have hwindow : i < t.window := by rwa [length_reportEntries] at hi
  have hpackets : i < t.packets.length := by rwa [length_packets]
  have hentry : t.reportEntries[i] = entryOf t.packets[i] := getElem_map _
  rw [hentry, entryOf_lost (recorded_packets t _ (getElem_mem hpackets)),
    ← arrivals_getD hwindow, ← status_deltaUnits (t.refUs.tdiv 64000 * 64000)]
  change _ ↔ (t.packets.getD i _).1 ≠ _
  rw [getD_eq_getElem _ _ hpackets]

lemma refQuant_wraps (t : RecvTracker) :
    (t.refQuant : ℤ) * 64000 + t.refUs.tdiv 64000 / 2 ^ 24 * refRangeUs =
      t.refUs.tdiv 64000 * 64000 := by
  unfold RecvTracker.refQuant refRangeUs
  rw [Int.toNat_of_nonneg (Int.emod_nonneg _ (by norm_num))]
  have hdiv := Int.emod_add_mul_ediv (t.refUs.tdiv 64000) (2 ^ 24)
  linarith

lemma receiveTime_reported {base : ℕ} {referenceUs : ℤ} {entries : List Entry}
    (hi : i < (reported base referenceUs entries).length) (hr : entries.getD i .lost ≠ .lost) :
    (reported base referenceUs entries)[i].receiveTimeUs =
      referenceUs + 250 * ((entries.take (i + 1)).map Entry.units).sum := by
  unfold reported at hi ⊢
  rw [length_mapIdx] at hi
  rw [getElem_mapIdx]
  rw [getD_eq_getElem _ _ hi] at hr
  cases he : entries[i] with
  | lost => exact absurd he hr
  | small | large => rfl

lemma reportEntries_times (h : Unclamped (t.refUs.tdiv 64000 * 64000) t.arrivals)
    {base : ℕ} (hi : i < (reported base (t.refQuant * 64000) t.reportEntries).length) {a : ℤ}
    (ha : t.arrival i = some a) :
    |(reported base (t.refQuant * 64000) t.reportEntries)[i].receiveTimeUs +
      t.refUs.tdiv 64000 / 2 ^ 24 * refRangeUs - a| ≤ 125 := by
  have hlen : i < t.reportEntries.length := by
    unfold reported at hi
    rwa [length_mapIdx] at hi
  have hwindow : i < t.window := by rwa [length_reportEntries] at hlen
  have hreceived : t.reportEntries.getD i .lost ≠ .lost := by
    rw [getD_eq_getElem _ _ hlen, reportEntries_received, ha]
    rfl
  have hat : t.arrivals[i]? = some (some a) := by
    unfold RecvTracker.arrivals
    rw [List.getElem?_map, List.getElem?_range hwindow, Option.map_some, ha]
  have hnear := clock_near h hat
  have hwraps := refQuant_wraps t
  rw [receiveTime_reported hi hreceived]
  change |_ + 250 * ((t.reportEntries.take (i + 1)).map Entry.units).sum - a| ≤ 125 at hnear
  rw [abs_le] at hnear ⊢
  constructor <;> linarith [hnear.1, hnear.2]

lemma says_feedbackMember (senderSsrc mediaSsrc : ℕ) (e : Encoding t.reportEntries) :
    Says t (feedbackMember t senderSsrc mediaSsrc e) := by
  obtain ⟨rest, hbytes⟩ := feedbackMember_bytes senderSsrc mediaSsrc e
  have hlen := length_feedbackMember senderSsrc mediaSsrc e
  have hle := unpadded_le e
  refine ⟨rfl, length_reportEntries t, ?_, ?_, ?_, ?_⟩
  · intro i hi
    exact (reportEntries_received hi).trans arrival_isSome
  · intro h
    exact ⟨_, fun i hi a ha => reportEntries_times h hi ha⟩
  · have hfixed : 20 ≤ unpadded t e := by
      unfold unpadded fixedLen
      omega
    have hwords : (unpadded t e + (4 - unpadded t e % 4) % 4) / 4 - 1 < 2 ^ 16 := by omega
    have hread : readBe16 (feedbackMember t senderSsrc mediaSsrc e).bytes 2 =
        (unpadded t e + (4 - unpadded t e % 4) % 4) / 4 - 1 := by
      rw [hbytes, readBe16_append (i := 2) (k := 0) rfl, readBe16_write, Nat.mod_eq_of_lt hwords]
    omega
  · rw [hbytes, feedbackMember_trailing, length_padBytes]
    by_cases hpad : (4 - unpadded t e % 4) % 4 = 0
    · rw [if_pos hpad, hpad]
      exact .inl ⟨rfl, rfl⟩
    · rw [if_neg hpad]
      refine .inr ⟨by omega, by omega, rfl, ?_⟩
      unfold padBytes
      rw [if_neg hpad, List.getLast?_concat]

/-- **The builder is correct.** A packet it returns can be read by the format, and every reading
says which numbers of the window the tracker has, gives their arrivals to half a unit up to whole
wraps of the reference time unless a delta had to be clamped, and has a length field and padding
that fit; and over every run the windows follow each other without gap or overlap. -/
theorem twcc_builder_correct (t : RecvTracker) :
    (∀ senderSsrc mediaSsrc nowUs cap t' bytes,
      feedbackBuild t senderSsrc mediaSsrc nowUs cap = (t', .packet bytes) →
        (∃ m : Member, m.bytes = bytes) ∧ ∀ m : Member, m.bytes = bytes → Says t m) ∧
      ∀ ops, Contiguous (Runs.run Reports.step ⟨t, []⟩ ops).log := by
  refine ⟨?_, contiguous_run t⟩
  intro senderSsrc mediaSsrc nowUs cap t' bytes h
  obtain ⟨e, he, -⟩ := exists_encoding t
  have hbytes : bytes = (feedbackMember t senderSsrc mediaSsrc e).bytes :=
    (feedbackBuild_packet h).trans (feedbackPacket_eq t senderSsrc mediaSsrc he)
  refine ⟨⟨_, hbytes.symm⟩, fun m hm => ?_⟩
  exact (says_feedbackMember senderSsrc mediaSsrc e).congr (hm.trans hbytes)

/-- Two packets with a lost one between them, and the window after them. -/
theorem twcc_builder_correct_three :
    let t := received [(65535, 128000), (1, 130000)]
    (∃ bytes t', feedbackBuild t 1 2 131000 1500 = (t', .packet bytes) ∧
      t'.reportStartSeq = 2 ∧ ∀ m : Member, m.bytes = bytes → Says t m) ∧
      Unclamped (t.refUs.tdiv 64000 * 64000) t.arrivals := by
  intro t
  have hbuild : (feedbackBuild t 1 2 131000 1500).2 = .packet (feedbackPacket t 1 2) := by
    decide +kernel
  exact ⟨⟨_, _, Prod.ext rfl hbuild, by decide +kernel,
    ((twcc_builder_correct t).1 1 2 131000 1500 _ _ (Prod.ext rfl hbuild)).2⟩, by decide +kernel⟩

end MezonSfu.Twcc
