import MezonSfu.TwccParse

/-!
What the parser accepts is well formed: a member whose statuses can all be read consists of the
fixed part, chunks of the format, and the deltas of the entries that the chunks name.
-/

namespace MezonSfu.Twcc

open Bytes List

lemma exists_chunk {w : ℕ} (hw : w < 2 ^ 16)
    (hrun : isRunLength w → runSymbol w ≠ statusReserved ∧ runLength w ≠ 0) :
    ∃ c : Chunk, c.word = w := by
  by_cases hr : w < 2 ^ 15
  · obtain ⟨hs, hl⟩ := hrun ((isRunLength_iff hw).2 hr)
    rw [runSymbol_eq, statusReserved] at hs
    rw [runLength_eq] at hl
    refine ⟨.run ⟨w / 2 ^ 13 % 4, by omega⟩ (w % 2 ^ 13) (by omega) (by omega), ?_⟩
    change w / 2 ^ 13 % 4 * 2 ^ 13 + w % 2 ^ 13 = w
    omega
  · by_cases ht : w < 2 ^ 15 + 2 ^ 14
    · obtain ⟨l, hlen, hl⟩ := exists_pack 2 14 (v := w - 2 ^ 15) (by omega)
      refine ⟨.oneBit l hlen, ?_⟩
      change 2 ^ 15 + pack 2 (l.map Fin.val) = w
      omega
    · obtain ⟨l, hlen, hl⟩ := exists_pack 4 7 (v := w - 2 ^ 15 - 2 ^ 14) (by norm_num; omega)
      refine ⟨.twoBit l hlen, ?_⟩
      change 2 ^ 15 + 2 ^ 14 + pack 4 (l.map Fin.val) = w
      omega

/-- What the validator accepts are chunks, of which only the last reaches the end. -/
lemma validateFrom_sound {data : List UInt8} {count fuel offset processed deltaOffset : ℕ}
    (hc : count < 2 ^ 16) (h : validateFrom data count fuel offset processed = some deltaOffset)
    (hp : processed < count) :
    ∃ (front : List Chunk) (last : Chunk) (rest : List UInt8),
      data.drop offset = (front ++ [last]).flatMap Chunk.bytes ++ rest ∧
      deltaOffset = offset + 2 * (front ++ [last]).length ∧ deltaOffset ≤ data.length ∧
      processed + (front.flatMap Chunk.symbols).length < count ∧
      count ≤ processed + ((front ++ [last]).flatMap Chunk.symbols).length := by
  induction fuel generalizing offset processed with
  | zero =>
    rw [validateFrom, if_pos hp] at h
    simp at h
  | succ fuel ih =>
    have hlen : offset + 2 ≤ data.length := by
      by_contra hshort
      rw [validateFrom, if_pos hp, if_pos (by omega)] at h
      simp at h
    have hword := readBe16_lt data offset
    obtain ⟨c, hcw⟩ : ∃ c : Chunk, c.word = readBe16 data offset := by
      refine exists_chunk hword fun hrun => ?_
      by_contra hbad
      rw [validateFrom, if_pos hp, if_neg (by omega)] at h
      rw [if_pos hrun, if_pos (by tauto)] at h
      simp at h
    have hdrop : data.drop offset = c.bytes ++ data.drop (offset + 2) := by
      rw [drop_be16 hlen, Chunk.bytes, hcw]
    have hdata : data = data.take offset ++ (c.bytes ++ data.drop (offset + 2)) := by
      rw [← hdrop, take_append_drop]
    have hoff : offset = (data.take offset).length := by
      rw [length_take]
      omega
    rw [validateFrom_chunk hdata hoff hc hp] at h
    split_ifs at h with hfit
    by_cases hmore : processed + c.size < count
    · obtain ⟨front, last, rest, hd, hdelta, hle, hshort, hcover⟩ := ih h hmore
      refine ⟨c :: front, last, rest, ?_, ?_, hle, ?_, ?_⟩
      · rw [hdrop, hd]
        simp
      · simp only [cons_append, length_cons]
        omega
      · simp only [flatMap_cons, length_append]
        rw [Chunk.size] at hshort
        omega
      · simp only [cons_append, flatMap_cons, length_append] at hcover ⊢
        rw [Chunk.size] at hcover
        omega
    · rw [validateFrom_done (by omega), Option.some.injEq] at h
      refine ⟨[], c, data.drop (offset + 2), ?_, ?_, ?_, ?_, ?_⟩
      · simpa using hdrop
      · simpa using h.symm
      · omega
      · simpa using hp
      · rw [Chunk.size] at hmore
        simp
        omega

lemma readDelta_sound {p : Parser} {s deltaOffset : ℕ} {deltaUs : ℤ} (hs : s < 4)
    (hlost : s ≠ statusNotReceived) (hreserved : s ≠ statusReserved)
    (h : readDelta p s = some (deltaUs, deltaOffset)) :
    ∃ e : Entry, e.symbol = s ∧ p.deltaOffset ≤ deltaOffset ∧
      p.data.drop p.deltaOffset = e.deltaBytes ++ p.data.drop deltaOffset := by
  unfold readDelta at h
  unfold statusNotReceived at hlost
  unfold statusReserved at hreserved
  split_ifs at h with hsmall hshort hshort
  · obtain ⟨-, rfl⟩ := Prod.mk.inj (Option.some.inj h)
    have hlt := byteAt_lt p.data p.deltaOffset
    refine ⟨.small ⟨byteAt p.data p.deltaOffset, hlt⟩, hsmall.symm, Nat.le_succ _, ?_⟩
    exact drop_byte (by omega)
  · obtain ⟨-, rfl⟩ := Prod.mk.inj (Option.some.inj h)
    have hlt := readBe16_lt p.data p.deltaOffset
    refine ⟨.large (BitVec.ofNat 16 (readBe16 p.data p.deltaOffset)), ?_, by omega, ?_⟩
    · unfold statusSmallDelta at hsmall
      change 2 = s
      omega
    · rw [Entry.deltaBytes, BitVec.toNat_ofNat, Nat.mod_eq_of_lt hlt]
      exact drop_be16 (by omega)

lemma nextStatus_sound {p q : Parser} {status : Status} {s : ℕ} {l : List ℕ} {cs : List Chunk}
    (h : Stands p (s :: l) cs) (hs : s < 4) (hnext : nextStatus p = (q, some status)) :
    ∃ (e : Entry) (cs' : List Chunk), e.symbol = s ∧ Stands q l cs' ∧ q.data = p.data ∧
      p.data.drop p.deltaOffset = e.deltaBytes ++ p.data.drop q.deltaOffset := by
  obtain ⟨r, cs', hget, same, hstands⟩ := getNextStatus_stands h
  unfold nextStatus at hnext
  split_ifs at hnext with hstop
  · simp at hnext
  rw [hget] at hnext
  dsimp only at hnext
  unfold report at hnext
  split_ifs at hnext with hlost hreserved
  · obtain ⟨rfl, -⟩ := Prod.mk.inj hnext
    refine ⟨.lost, cs', hlost.symm, { hstands with }, same.data, ?_⟩
    change _ = _ ++ p.data.drop r.deltaOffset
    rw [same.deltaOffset]
    rfl
  · simp at hnext
  · cases hread : readDelta r.counted s with
    | none => simp [hread] at hnext
    | some x =>
      obtain ⟨deltaUs, deltaOffset⟩ := x
      rw [hread] at hnext
      obtain ⟨rfl, -⟩ := Prod.mk.inj hnext
      obtain ⟨e, he, hle, hdrop⟩ := readDelta_sound hs hlost hreserved hread
      refine ⟨e, cs', he, ⟨hstands.symbols, hstands.chunks, ?_⟩, same.data, ?_⟩
      · exact hstands.chunks_le.trans hle
      · change r.data.drop r.deltaOffset = _ ++ r.data.drop deltaOffset at hdrop
        rw [same.data, same.deltaOffset] at hdrop
        exact hdrop

/-- The bytes of a member of the format, or of an empty report. -/
def WellFormed (data : List UInt8) : Prop :=
  (∃ m : Member, m.bytes = data) ∨ (fixedLen ≤ data.length ∧ readBe16 data 14 = 0)

/-- The bytes are the fixed part, the chunks, the deltas and something behind them. -/
lemma wellFormed_of_parts {data : List UInt8} {es : List Entry} (enc : Encoding es)
    (trailing : List UInt8) (hlen : fixedLen ≤ data.length) (hcount : readBe16 data 14 = es.length)
    (hdata : data.drop fixedLen = enc.chunks.flatMap Chunk.bytes ++
      (es.flatMap Entry.deltaBytes ++ trailing)) : WellFormed data := by
  unfold fixedLen at hlen hdata
  have hlt := readBe16_lt data 14
  left
  refine ⟨{
    header := data.take 12
    base := readBe16 data 12
    ref24 := readBe24 data 16
    fbPktCount := UInt8.ofNat (byteAt data 19)
    entries := es
    encoding := enc
    trailing := trailing
    header_length := by rw [length_take]; omega
    base_lt := readBe16_lt data 12
    ref24_lt := readBe24_lt data 16
    count_lt := by omega }, ?_⟩
  have hfixed : data = data.take 12 ++ (writeBe16 (readBe16 data 12) ++
      (writeBe16 (readBe16 data 14) ++ (writeBe24 (readBe24 data 16) ++
        (UInt8.ofNat (byteAt data 19) :: data.drop 20)))) := by
    rw [← drop_byte (by omega), ← drop_be24 (by omega), ← drop_be16 (by omega),
      ← drop_be16 (by omega), take_append_drop]
  rw [Member.bytes, Member.fixedPart]
  dsimp only
  rw [← hdata, ← hcount]
  simpa using hfixed.symm

end MezonSfu.Twcc
