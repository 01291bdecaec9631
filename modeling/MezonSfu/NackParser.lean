import MezonSfu.BitMask
import MezonSfu.Bytes

/-!
The generic NACK reader (`rtx.c`): an iterator over the packet ids and loss masks of one RTCP
feedback message.
-/

namespace MezonSfu.Rtx

open Bytes BitMask

/-- `sfu_nack_parser_t`; the blocks from `nack_ptr` to `nack_end` are a list. -/
structure NackParser where
  nack : List UInt8
  mediaSsrc : ℕ
  currentPid : ℕ
  currentBlp : ℕ
  bitIndex : ℤ
  deriving DecidableEq, Repr

namespace NackParser

/-- `sfu_nack_parser_init`; a rejected message leaves the null pointer every later call refuses. -/
def init (data : List UInt8) : Option NackParser :=
  if data.length < 16 then
    none
  else if byteAt data 0 / 2 ^ 6 ≠ 2 ∨ byteAt data 0 % 2 ^ 5 ≠ 1 ∨ byteAt data 1 ≠ 205 then
    none
  else if (data.length - 12) % 4 ≠ 0 then
    none
  else
    some ⟨data.drop 12, readBe32 data 8, 0, 0, 16⟩

/-- The head of the loop body: a used-up mask loads the next block, if there is one. -/
def load (p : NackParser) : Option NackParser :=
  if 15 < p.bitIndex then
    if p.nack.length < 4 then
      none
    else
      some { p with
        nack := p.nack.drop 4, currentPid := readBe16 p.nack 0, currentBlp := readBe16 p.nack 2,
        bitIndex := -1 }
  else
    some p

/-- The inner loop, over at most `n` bits of the mask. -/
def scanMask : ℕ → NackParser → Option ℕ × NackParser
  | 0, p => (none, p)
  | n + 1, p =>
    if p.bitIndex < 16 then
      let q := { p with bitIndex := p.bitIndex + 1 }
      if p.currentBlp.testBit p.bitIndex.toNat then
        (some ((p.currentPid + q.bitIndex.toNat) % 2 ^ 16), q)
      else
        scanMask n q
    else
      (none, p)

def nextLoop : ℕ → NackParser → Option ℕ × NackParser
  | 0, p => (none, p)
  | n + 1, p =>
    match p.load with
    | none => (none, p)
    | some q =>
      if q.bitIndex = -1 then
        (some q.currentPid, { q with bitIndex := q.bitIndex + 1 })
      else
        match q.scanMask 16 with
        | (some seq, r) => (some seq, r)
        | (none, r) => nextLoop n r

/-- `sfu_nack_parser_next`. The loop goes round at most once: a mask run to its end makes the
second round load a block, whose packet id is yielded, or stop. -/
def next (p : NackParser) : Option ℕ × NackParser := nextLoop 2 p

/-- What the `k`-th further call returns. -/
def result (p : NackParser) (k : ℕ) : Option ℕ := ((fun q => (next q).2)^[k] p).next.1

/-! ### What is still to come -/

/-- The packets that `n` bits of a mask report lost, from bit `b` on. -/
def maskLost (pid blp b n : ℕ) : List ℕ :=
  ((List.range' b n).filter blp.testBit).map fun i => (pid + (i + 1)) % 2 ^ 16

def blocksLost : List UInt8 → List ℕ
  | a :: b :: c :: d :: rest =>
    let pid := readBe16 [a, b] 0
    pid :: (bits 16 (readBe16 [c, d] 0)).map (fun i => (pid + i + 1) % 2 ^ 16) ++ blocksLost rest
  | _ => []

/-- Between calls the cursor stands on a bit of the mask or past its last one. -/
structure Awaits (p : NackParser) (lost : List ℕ) : Prop where
  bit : 0 ≤ p.bitIndex
  bit_le : p.bitIndex ≤ 16
  left : lost = maskLost p.currentPid p.currentBlp p.bitIndex.toNat (16 - p.bitIndex.toNat) ++
    blocksLost p.nack

variable {p : NackParser} {lost : List ℕ} {n b : ℕ}

lemma maskLost_succ (pid blp b n : ℕ) :
    maskLost pid blp b (n + 1) =
      if blp.testBit b then (pid + (b + 1)) % 2 ^ 16 :: maskLost pid blp (b + 1) n
      else maskLost pid blp (b + 1) n := by
  unfold maskLost
  rw [List.range'_succ, List.filter_cons]
  split <;> rfl

lemma scanMask_spec (hb : p.bitIndex = b) (hle : b ≤ 16) (hn : 16 ≤ b + n) :
    (maskLost p.currentPid p.currentBlp b (16 - b) = [] ∧
      p.scanMask n = (none, { p with bitIndex := 16 })) ∨
    ∃ seq, ∃ j ≤ 16, maskLost p.currentPid p.currentBlp b (16 - b) =
        seq :: maskLost p.currentPid p.currentBlp j (16 - j) ∧
      p.scanMask n = (some seq, { p with bitIndex := (j : ℕ) }) := by
  induction n generalizing p b with
  | zero =>
    obtain rfl : b = 16 := by omega
    exact .inl ⟨rfl, congrArg (Prod.mk none) (by rw [← Nat.cast_ofNat, ← hb])⟩
  | succ n ih =>
    rcases Nat.lt_or_ge b 16 with hlt | hge
    · have hbits : 16 - b = 16 - (b + 1) + 1 := by omega
      unfold scanMask
      simp only [hbits, maskLost_succ, hb, Int.toNat_natCast, if_pos (show (b : ℤ) < 16 by omega)]
      by_cases hbit : p.currentBlp.testBit b
      · exact .inr ⟨_, b + 1, hlt, if_pos hbit, if_pos hbit⟩
      · simp only [if_neg hbit]
        exact ih (p := { p with bitIndex := _ }) (Nat.cast_succ b).symm hlt (by omega)
    · obtain rfl : b = 16 := by omega
      refine .inl ⟨rfl, ?_⟩
      unfold scanMask
      rw [if_neg (by omega), ← Nat.cast_ofNat, ← hb]

lemma blocksLost_of_short {nack : List UInt8} (h : nack.length < 4) : blocksLost nack = [] := by
  unfold blocksLost
  split
  · simp only [List.length_cons] at h
    omega
  · rfl

lemma blocksLost_drop {nack : List UInt8} (h : 4 ≤ nack.length) :
    blocksLost nack =
      readBe16 nack 0 :: maskLost (readBe16 nack 0) (readBe16 nack 2) 0 16 ++
        blocksLost (nack.drop 4) := by
  match nack, h with
  | a :: b :: c :: d :: rest, _ =>
    rw [blocksLost]
    simp only [maskLost, bits, List.range_eq_range', Nat.add_assoc]
    rfl

lemma nextLoop_spent (hp : p.bitIndex = 16) :
    (p.nextLoop (n + 1)).1 = (blocksLost p.nack).head? ∧
      Awaits (p.nextLoop (n + 1)).2 (blocksLost p.nack).tail := by
  unfold nextLoop load
  rw [hp, if_pos (by decide)]
  by_cases hlen : p.nack.length < 4
  · simp only [if_pos hlen, blocksLost_of_short hlen]
    refine ⟨rfl, by omega, by omega, ?_⟩
    rw [blocksLost_of_short hlen, hp]
    rfl
  · simp only [if_neg hlen, blocksLost_drop (Nat.le_of_not_lt hlen), if_true]
    exact ⟨rfl, le_refl 0, Int.natCast_nonneg 16, rfl⟩

/-- **One call** yields the next lost packet and leaves the ones after it. -/
lemma Awaits.next (h : Awaits p lost) : p.next.1 = lost.head? ∧ Awaits p.next.2 lost.tail := by
  obtain ⟨b, hb⟩ := Int.eq_ofNat_of_zero_le h.bit
  have hle : b ≤ 16 := by have := h.bit_le; omega
  have hleft := h.left
  rw [hb, Int.toNat_natCast] at hleft
  unfold NackParser.next
  rcases Nat.lt_or_ge b 16 with hlt | hge
  · have hload : p.load = some p := if_neg (by omega)
    unfold nextLoop
    simp only [hload, if_neg (show ¬ p.bitIndex = -1 by omega)]
    rcases scanMask_spec (n := 16) hb hle (by omega) with ⟨hnil, hscan⟩ | ⟨seq, j, hj, hcons, hscan⟩
    · rw [hnil, List.nil_append] at hleft
      rw [hscan, hleft]
      exact nextLoop_spent rfl
    · rw [hcons] at hleft
      rw [hscan, hleft]
      exact ⟨rfl, Int.natCast_nonneg j, Int.ofNat_le.2 hj, rfl⟩
  · obtain rfl : b = 16 := by omega
    rw [hleft]
    exact nextLoop_spent hb

lemma Awaits.result (h : Awaits p lost) (k : ℕ) : p.result k = lost[k]? := by
  induction k generalizing p lost with
  | zero => exact h.next.1.trans List.head?_eq_getElem?
  | succ k ih =>
    rw [← List.getElem?_tail]
    exact ih h.next.2

lemma awaits_init {data : List UInt8} (h : init data = some p) :
    Awaits p (blocksLost (data.drop 12)) := by
  unfold init at h
  split_ifs at h
  cases h
  exact ⟨Int.natCast_nonneg 16, le_refl 16, rfl⟩

/-- **NACK decoding is exact**: call after call, an accepted message yields the packets its blocks
report lost, in order, and then nothing, for ever. -/
theorem nack_decoding_exact {data : List UInt8} (h : init data = some p) (k : ℕ) :
    p.result k = (blocksLost (data.drop 12))[k]? :=
  (awaits_init h).result k

/-- Two blocks, the first with an empty mask, the last with its outer bits set and its ids past
the end of the number space. -/
theorem nack_decoding_exact_two_blocks :
    ∃ data p, init data = some p ∧ ∀ k, p.result k = [7, 65535, 0, 15][k]? := by
  have h : init [0x81, 205, 0, 4, 0, 0, 0, 1, 0, 0, 0, 2, 0, 7, 0, 0, 255, 255, 128, 1] =
      some ⟨[0, 7, 0, 0, 255, 255, 128, 1], 2, 0, 0, 16⟩ := by decide
  exact ⟨_, _, h, nack_decoding_exact h⟩

end NackParser

end MezonSfu.Rtx
