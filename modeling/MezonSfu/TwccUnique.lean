import MezonSfu.TwccParse

/-!
The feedback format is unambiguous: the bytes of a member determine everything in it but how the
surplus symbols of the last chunk are filled.

The status count says where the chunks end, since every chunk but the last leaves a status over,
and the symbols say how long each delta is.
-/

namespace MezonSfu.Twcc

open Bytes List

lemma writeBe16_inj {v w : ℕ} (hv : v < 2 ^ 16) (hw : w < 2 ^ 16)
    (h : writeBe16 v = writeBe16 w) : v = w := by
  have hread := congrArg (fun l => readBe16 (l ++ []) 0) h
  rwa [readBe16_write, readBe16_write, Nat.mod_eq_of_lt hv, Nat.mod_eq_of_lt hw] at hread

lemma Chunk.symbols_of_bytes {c c' : Chunk} (h : c.bytes = c'.bytes) : c.symbols = c'.symbols := by
  have hword : c.word = c'.word := writeBe16_inj c.word_lt c'.word_lt h
  -- both are what a parser that stands before the word loads
  let p : Parser := {
    data := c.bytes ++ [], baseSeq := 0, packetStatusCount := 0, currentTimeUs := 0
    currentSeq := 0, chunkOffset := 0, deltaOffset := 0, currentChunk := 0, isRunLength := false
    runLengthSymbol := 0, statusesLeftInChunk := 0, packetsProcessed := 0, packetsLost := 0
    failed := false }
  have hread : readBe16 p.data p.chunkOffset = c.word := by
    change readBe16 (writeBe16 c.word ++ []) 0 = c.word
    rw [readBe16_write, Nat.mod_eq_of_lt c.word_lt]
  rw [← pending_loadChunk hread, pending_loadChunk (hread.trans hword)]

lemma flatMap_concat_symbols (front : List Chunk) (last : Chunk) :
    ((front ++ [last]).flatMap Chunk.symbols).length =
      (front.flatMap Chunk.symbols).length + last.size := by
  rw [flatMap_append, length_append, flatMap_singleton]
  rfl

/-- Chunks of which all but the last are needed for `n` statuses, read from the same bytes. -/
lemma chunks_unique {front front' : List Chunk} {last last' : Chunk} {rest rest' : List UInt8}
    {n : ℕ} (hshort : (front.flatMap Chunk.symbols).length < n)
    (hshort' : (front'.flatMap Chunk.symbols).length < n)
    (hcover : n ≤ ((front ++ [last]).flatMap Chunk.symbols).length)
    (hcover' : n ≤ ((front' ++ [last']).flatMap Chunk.symbols).length)
    (h : (front ++ [last]).flatMap Chunk.bytes ++ rest =
      (front' ++ [last']).flatMap Chunk.bytes ++ rest') :
    (front ++ [last]).flatMap Chunk.symbols = (front' ++ [last']).flatMap Chunk.symbols ∧
      rest = rest' := by
  rw [flatMap_concat_symbols] at hcover hcover'
  induction front generalizing front' n with
  | nil =>
    cases front' with
    | nil =>
      simp only [nil_append, flatMap_singleton] at h ⊢
      obtain ⟨hb, hr⟩ := append_inj h rfl
      exact ⟨Chunk.symbols_of_bytes hb, hr⟩
    | cons c' front' =>
      -- the one chunk covers everything, and so does the first of several
      simp only [nil_append, cons_append, flatMap_cons, append_assoc] at h
      have hsym := Chunk.symbols_of_bytes (append_inj h rfl).1
      rw [flatMap_cons, length_append, ← hsym] at hshort'
      rw [flatMap_nil, length_nil] at hcover
      unfold Chunk.size at hcover
      omega
  | cons c front ih =>
    cases front' with
    | nil =>
      simp only [nil_append, cons_append, flatMap_cons, append_assoc] at h
      have hsym := Chunk.symbols_of_bytes (append_inj h rfl).1
      rw [flatMap_cons, length_append, hsym] at hshort
      rw [flatMap_nil, length_nil] at hcover'
      unfold Chunk.size at hcover'
      omega
    | cons c' front' =>
      simp only [cons_append, flatMap_cons, append_assoc] at h ⊢
      obtain ⟨hb, hr⟩ := append_inj h rfl
      have hsym := Chunk.symbols_of_bytes hb
      rw [flatMap_cons, length_append] at hshort hshort' hcover hcover'
      rw [← hsym] at hshort' hcover'
      obtain ⟨hsyms, hrest⟩ := @ih front' (n - c.symbols.length) (by omega) (by omega)
        (by omega) (by omega) hr
      exact ⟨by rw [hsym, hsyms], hrest⟩

lemma Entry.eq_of_bytes {e e' : Entry} {rest rest' : List UInt8} (hs : e.symbol = e'.symbol)
    (h : e.deltaBytes ++ rest = e'.deltaBytes ++ rest') : e = e' ∧ rest = rest' := by
  cases e with
  | lost =>
    cases e' with
    | lost => exact ⟨rfl, h⟩
    | small | large => cases hs
  | small d =>
    cases e' with
    | lost => cases hs
    | small d' =>
      obtain ⟨hb, hr⟩ := append_inj h rfl
      have hd : UInt8.ofNat d = UInt8.ofNat d' := singleton_inj.1 hb
      have hval := congrArg UInt8.toNat hd
      rw [UInt8.toNat_ofNat', UInt8.toNat_ofNat', Nat.mod_eq_of_lt d.isLt,
        Nat.mod_eq_of_lt d'.isLt] at hval
      exact ⟨congrArg Entry.small (Fin.ext hval), hr⟩
    | large d' => cases hs
  | large d =>
    cases e' with
    | lost | small => cases hs
    | large d' =>
      obtain ⟨hb, hr⟩ := append_inj h rfl
      exact ⟨congrArg Entry.large (BitVec.eq_of_toNat_eq (writeBe16_inj d.isLt d'.isLt hb)), hr⟩

lemma entries_unique {es es' : List Entry} {rest rest' : List UInt8}
    (hs : es.map Entry.symbol = es'.map Entry.symbol)
    (h : es.flatMap Entry.deltaBytes ++ rest = es'.flatMap Entry.deltaBytes ++ rest') :
    es = es' ∧ rest = rest' := by
  induction es generalizing es' with
  | nil =>
    obtain rfl : es' = [] := map_eq_nil_iff.1 hs.symm
    exact ⟨rfl, h⟩
  | cons e es ih =>
    cases es' with
    | nil => cases hs
    | cons e' es' =>
      rw [map_cons, map_cons, List.cons.injEq] at hs
      rw [flatMap_cons, flatMap_cons, append_assoc, append_assoc] at h
      obtain ⟨rfl, hr⟩ := Entry.eq_of_bytes hs.1 h
      obtain ⟨rfl, hrest⟩ := ih hs.2 hr
      exact ⟨rfl, hrest⟩

/-- What two readings of the same bytes agree on. -/
structure Member.Agrees (m m' : Member) : Prop where
  header : m.header = m'.header
  base : m.base = m'.base
  ref24 : m.ref24 = m'.ref24
  entries : m.entries = m'.entries
  trailing : m.trailing = m'.trailing

/-- **A member can be read in one way only.** -/
lemma Member.agrees_of_bytes {m m' : Member} (h : m.bytes = m'.bytes) : m.Agrees m' := by
  obtain ⟨-, hbase, hcount, href⟩ := m.fields
  obtain ⟨-, hbase', hcount', href'⟩ := m'.fields
  have hlen : m.entries.length = m'.entries.length := by rw [← hcount, ← hcount', h]
  obtain ⟨hfixed, hrest⟩ := append_inj h (m.length_fixedPart.trans m'.length_fixedPart.symm)
  have hheader := (append_inj hfixed (m.header_length.trans m'.header_length.symm)).1
  -- the chunks, up to the last one
  have hcover := m.encoding.covers.length_le
  have hcover' := m'.encoding.covers.length_le
  rw [length_map] at hcover hcover'
  obtain ⟨hsyms, hdeltas⟩ := chunks_unique m.encoding.short (hlen ▸ m'.encoding.short) hcover
    (hlen ▸ hcover') hrest
  have hsymbols : m.entries.map Entry.symbol = m'.entries.map Entry.symbol := by
    have h1 := prefix_iff_eq_take.1 m.encoding.covers
    have h2 := prefix_iff_eq_take.1 m'.encoding.covers
    rw [length_map] at h1 h2
    rw [h1, h2, hsyms, hlen]
  obtain ⟨hentries, htrailing⟩ := entries_unique hsymbols hdeltas
  exact ⟨hheader, by rw [← hbase, ← hbase', h], by rw [← href, ← href', h], hentries, htrailing⟩

end MezonSfu.Twcc
