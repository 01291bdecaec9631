import MezonSfu.Bytes

/-!
The bytes of a WebSocket connection: what was prefetched during the handshake, then what `read`
returns.

The results of the reads to come are a list. A result longer than what a call asks for is split;
behind the end there is nothing to read yet. The frames that were sent are kept with it.
-/

namespace MezonSfu.WebSocket

open List

/-- What a `read` finds. -/
inductive ReadResult
  | data (first : UInt8) (rest : List UInt8)
  | wouldBlock
  | interrupted
  | eof
  | failed
deriving DecidableEq

/-- Why no byte was read. -/
inductive Stop
  | wouldBlock
  | eof
  | failed
deriving DecidableEq

/-- What a call of `read_bytes_nonblocking` returns. -/
inductive Got
  | bytes (b : List UInt8)
  | stop (s : Stop)
deriving DecidableEq

/-- A connection: both byte sources, and the frames that were sent. -/
structure Wire where
  prefetched : List UInt8
  reads : List ReadResult
  sent : List (List UInt8)
deriving DecidableEq

/-- The part of a result that was not asked for is still there. -/
def pushBack : List UInt8 → List ReadResult → List ReadResult
  | [], reads => reads
  | b :: bs, reads => .data b bs :: reads

/-- Bytes that were read are returned even if no more can be read now. -/
def gotOr (got : List UInt8) (s : Stop) : Got := if got = [] then .stop s else .bytes got

/-- The read loop: `want` bytes are still to be read and `got` were read. -/
def readLoop : List ReadResult → ℕ → List UInt8 → List ReadResult × Got
  | [], _, got => ([], gotOr got .wouldBlock)
  | .wouldBlock :: reads, _, got => (reads, gotOr got .wouldBlock)
  | .interrupted :: reads, want, got => readLoop reads want got
  | .eof :: reads, _, got => (.eof :: reads, gotOr got .eof)
  | .failed :: reads, _, _ => (reads, .stop .failed)
  | .data b bs :: reads, want, got =>
    if bs.length + 1 < want then readLoop reads (want - (bs.length + 1)) (got ++ b :: bs)
    else (pushBack ((b :: bs).drop want) reads, .bytes (got ++ (b :: bs).take want))

namespace Wire

/-- `read_bytes_nonblocking`. -/
def readBytes (w : Wire) (count : ℕ) : Wire × Got :=
  let taken := w.prefetched.take count
  if taken.length = count then
    ({ w with prefetched := w.prefetched.drop count }, .bytes taken)
  else
    let r := readLoop w.reads (count - taken.length) taken
    ({ w with prefetched := [], reads := r.1 }, r.2)

/-- Read until `need` bytes are there. Every pass reads a byte, so `need` passes are enough. -/
def fill (need : ℕ) : ℕ → Wire → List UInt8 → Wire × List UInt8 × Option Stop
  | 0, w, got => (w, got, none)
  | n + 1, w, got =>
    if need ≤ got.length then (w, got, none)
    else
      let r := w.readBytes (need - got.length)
      match r.2 with
      | .bytes b => fill need n r.1 (got ++ b)
      | .stop s => (r.1, got, some s)

end Wire

/-! ### What is left to read -/

def ReadResult.bytes : ReadResult → List UInt8
  | .data b bs => b :: bs
  | _ => []

def ReadResult.plain : ReadResult → Bool
  | .eof => false
  | .failed => false
  | _ => true

def ReadResult.blocks : ReadResult → Bool
  | .wouldBlock => true
  | _ => false

def bytesOf (reads : List ReadResult) : List UInt8 := reads.flatMap ReadResult.bytes

namespace Wire

def rest (w : Wire) : List UInt8 := w.prefetched ++ bytesOf w.reads

def blocks (w : Wire) : ℕ := w.reads.countP ReadResult.blocks

def Plain (w : Wire) : Prop := ∀ r ∈ w.reads, r.plain = true

end Wire

lemma bytesOf_pushBack (b : List UInt8) (reads : List ReadResult) :
    bytesOf (pushBack b reads) = b ++ bytesOf reads := by
  cases b with
  | nil | cons => rfl

lemma countP_pushBack (b : List UInt8) (reads : List ReadResult) :
    (pushBack b reads).countP ReadResult.blocks = reads.countP ReadResult.blocks := by
  cases b with
  | nil => rfl
  | cons c cs => exact countP_cons_of_neg Bool.false_ne_true

lemma mem_pushBack {b : List UInt8} {reads : List ReadResult} {r : ReadResult}
    (h : r ∈ pushBack b reads) (hr : ∀ r ∈ reads, r.plain) : r.plain := by
  cases b with
  | nil => exact hr r h
  | cons c cs =>
    rcases mem_cons.1 h with rfl | h
    · rfl
    · exact hr r h

/-- What a call can do on an open connection: it reads some bytes and leaves the rest, or it
blocks, having waited for one read or with nothing left to come. -/
structure ReadSpec (before after : List ReadResult) (want : ℕ) (got : List UInt8) (out : Got) :
    Prop where
  plain : ∀ r ∈ after, r.plain = true
  blocks : after.countP ReadResult.blocks ≤ before.countP ReadResult.blocks
  cases : (∃ t, out = .bytes (got ++ t) ∧ got ++ t ≠ [] ∧ t.length ≤ want ∧
      bytesOf before = t ++ bytesOf after) ∨
    (out = .stop .wouldBlock ∧ got = [] ∧ bytesOf before = bytesOf after ∧
      (after.countP ReadResult.blocks < before.countP ReadResult.blocks ∨ bytesOf after = []))

lemma readSpec_stop {before after : List ReadResult} {want : ℕ} {got : List UInt8}
    (hp : ∀ r ∈ after, r.plain)
    (hb : after.countP ReadResult.blocks ≤ before.countP ReadResult.blocks)
    (he : bytesOf before = bytesOf after)
    (hs : after.countP ReadResult.blocks < before.countP ReadResult.blocks ∨
      bytesOf after = []) : ReadSpec before after want got (gotOr got .wouldBlock) := by
  refine ⟨hp, hb, ?_⟩
  unfold gotOr
  split_ifs with h0
  · exact .inr ⟨rfl, h0, he, hs⟩
  · exact .inl ⟨[], by rw [append_nil], by rwa [append_nil], Nat.zero_le _, he⟩

lemma readLoop_spec (reads : List ReadResult) (want : ℕ) (got : List UInt8) (hw : 0 < want)
    (hp : ∀ r ∈ reads, r.plain) :
    ReadSpec reads (readLoop reads want got).1 want got (readLoop reads want got).2 := by
  induction reads generalizing want got with
  | nil => exact readSpec_stop nofun le_rfl rfl (.inr rfl)
  | cons r reads ih =>
    have hrest : ∀ r ∈ reads, r.plain := fun x hx => hp x (mem_cons_of_mem _ hx)
    cases r with
    | wouldBlock =>
      have hlt : reads.countP ReadResult.blocks <
          (ReadResult.wouldBlock :: reads).countP ReadResult.blocks := by
        rw [countP_cons_of_pos rfl]
        exact Nat.lt_succ_self _
      exact readSpec_stop hrest hlt.le rfl (.inl hlt)
    | interrupted =>
      have hspec := ih want got hw hrest
      exact ⟨hspec.plain, hspec.blocks, hspec.cases⟩
    | eof => exact absurd (hp .eof mem_cons_self) Bool.false_ne_true
    | failed => exact absurd (hp .failed mem_cons_self) Bool.false_ne_true
    | data b bs =>
      have hcount : (ReadResult.data b bs :: reads).countP ReadResult.blocks =
          reads.countP ReadResult.blocks := countP_cons_of_neg Bool.false_ne_true
      have hbytes : bytesOf (.data b bs :: reads) = (b :: bs) ++ bytesOf reads := rfl
      unfold readLoop
      split_ifs with hlt
      · have hspec := ih (want - (bs.length + 1)) (got ++ b :: bs) (by omega) hrest
        refine ⟨hspec.plain, ?_, ?_⟩
        · exact hspec.blocks
        rcases hspec.cases with ⟨t, hout, hne, hlen, heq⟩ | ⟨-, hnil, -⟩
        · refine .inl ⟨(b :: bs) ++ t, ?_, ?_, ?_, ?_⟩
          · rw [hout, append_assoc]
          · rw [← append_assoc]
            exact hne
          · rw [length_append, length_cons]
            omega
          · rw [hbytes, heq, append_assoc]
        · simp at hnil
      · refine ⟨fun x hx => mem_pushBack hx hrest, ?_, .inl ⟨(b :: bs).take want, rfl, ?_, ?_, ?_⟩⟩
        · rw [hcount, countP_pushBack]
        · intro hnil
          have hlen := congrArg List.length hnil
          rw [length_append, length_take, length_cons, length_nil] at hlen
          omega
        · exact length_take_le _ _
        · rw [hbytes, bytesOf_pushBack, ← append_assoc, take_append_drop]

namespace Wire

variable {w v : Wire}

/-- Some bytes were read from `w`, which leaves `v`. -/
structure Took (w v : Wire) (t : List UInt8) : Prop where
  rest : w.rest = t ++ v.rest
  plain : v.Plain
  blocks : v.blocks ≤ w.blocks
  sent : v.sent = w.sent

/-- A call that blocks has waited for a read, or nothing is left to come. -/
def Blocked (w v : Wire) : Prop := v.blocks < w.blocks ∨ v.rest = []

lemma Took.refl (h : w.Plain) : Took w w [] := ⟨rfl, h, le_rfl, rfl⟩

lemma Took.trans {u : Wire} {t t' : List UInt8} (h : Took w v t) (h' : Took v u t') :
    Took w u (t ++ t') where
  rest := by rw [h.rest, h'.rest, append_assoc]
  plain := h'.plain
  blocks := h'.blocks.trans h.blocks
  sent := h'.sent.trans h.sent

lemma Blocked.of_took {u : Wire} {t : List UInt8} (h : Took w v t) (hb : Blocked v u) :
    Blocked w u := by
  rcases hb with hb | hb
  · exact .inl (hb.trans_le h.blocks)
  · exact .inr hb

/-- **One read** of at least one byte. -/
lemma readBytes_spec (h : w.Plain) {count : ℕ} (hc : 0 < count) :
    let r := w.readBytes count
    (∃ t, r.2 = .bytes t ∧ t ≠ [] ∧ t.length ≤ count ∧
        Took w r.1 t) ∨
      (r.2 = .stop .wouldBlock ∧ Took w r.1 [] ∧
        Blocked w r.1) := by
  unfold readBytes
  dsimp only
  split_ifs with hfull
  · refine .inl ⟨w.prefetched.take count, rfl, ?_, hfull.le, ?_, h, le_rfl, rfl⟩
    · intro hnil
      rw [hnil] at hfull
      simp only [length_nil] at hfull
      omega
    · change w.prefetched ++ bytesOf w.reads =
        w.prefetched.take count ++ (w.prefetched.drop count ++ bytesOf w.reads)
      rw [← append_assoc, take_append_drop]
  · have hlen := length_take (i := count) (l := w.prefetched)
    have htake : w.prefetched.take count = w.prefetched := take_of_length_le (by omega)
    rw [htake] at hlen hfull ⊢
    have hspec := readLoop_spec w.reads (count - w.prefetched.length) w.prefetched (by omega) h
    rcases hspec.cases with ⟨t, hout, hne, htlen, heq⟩ | ⟨hout, hnil, heq, hblocked⟩
    · refine .inl ⟨w.prefetched ++ t, hout, hne, ?_, ?_, hspec.plain, hspec.blocks, rfl⟩
      · rw [length_append]
        omega
      · change w.prefetched ++ bytesOf w.reads =
          w.prefetched ++ t ++ ([] ++ bytesOf (readLoop _ _ _).1)
        rw [heq, nil_append, append_assoc]
    · refine .inr ⟨hout, ⟨?_, hspec.plain, hspec.blocks, rfl⟩, ?_⟩
      · change w.prefetched ++ bytesOf w.reads = [] ++ ([] ++ bytesOf (readLoop _ _ _).1)
        rw [hnil] at heq ⊢
        exact heq
      · rcases hblocked with hb | hb
        · exact .inl hb
        · exact .inr hb

/-- **Filling a field**: it becomes full, or the call blocks with a part of it. -/
lemma fill_spec (need n : ℕ) (got : List UInt8) (h : w.Plain) (hg : got.length ≤ need)
    (hn : need ≤ got.length + n) :
    let r := w.fill need n got
    (∃ t, Took w r.1 t) ∧ r.2.1 ++ r.1.rest = got ++ w.rest ∧
      ((r.2.2 = none ∧ r.2.1.length = need) ∨
        (r.2.2 = some .wouldBlock ∧ r.2.1.length < need ∧ Blocked w r.1)) := by
  induction n generalizing w got with
  | zero => exact ⟨⟨[], .refl h⟩, rfl, .inl ⟨rfl, le_antisymm hg hn⟩⟩
  | succ n ih =>
    unfold fill
    split_ifs with hfull
    · exact ⟨⟨[], .refl h⟩, rfl, .inl ⟨rfl, le_antisymm hg hfull⟩⟩
    rcases readBytes_spec h (show 0 < need - got.length by omega) with
      ⟨t, hout, hne, hlen, htook⟩ | ⟨hout, htook, hblocked⟩
    · have hpos := length_pos_of_ne_nil hne
      obtain ⟨⟨t', htook'⟩, hsame, hcases⟩ := ih (got ++ t) htook.plain
        (by rw [length_append]; omega) (by rw [length_append]; omega)
      dsimp only
      rw [hout]
      refine ⟨⟨t ++ t', htook.trans htook'⟩, ?_, ?_⟩
      · rw [hsame, htook.rest, append_assoc]
      · rcases hcases with hdone | ⟨hstop, hlt, hblocked⟩
        · exact .inl hdone
        · exact .inr ⟨hstop, hlt, hblocked.of_took htook⟩
    · dsimp only
      rw [hout]
      refine ⟨⟨[], htook⟩, ?_, .inr ⟨rfl, not_le.1 hfull, hblocked⟩⟩
      rw [htook.rest, nil_append]

end Wire

end MezonSfu.WebSocket
