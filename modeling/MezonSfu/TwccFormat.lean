import MezonSfu.TwccParser

/-!
The feedback format: a member is a fixed part, the chunks that name the statuses, the deltas of
the received packets, and whatever padding follows. Only the last chunk may cover more statuses
than remain. The parser is compared with this meaning.
-/

namespace MezonSfu.Twcc

open Bytes

/-- One reported packet, with its delta in units of 250 microseconds. -/
inductive Entry
  | lost
  | small (delta : Fin 256)
  | large (delta : BitVec 16)
  deriving DecidableEq

namespace Entry

def symbol : Entry → ℕ
  | lost => statusNotReceived
  | small _ => statusSmallDelta
  | large _ => statusLargeDelta

def units : Entry → ℤ
  | lost => 0
  | small d => d
  | large d => d.toInt

def deltaBytes : Entry → List UInt8
  | lost => []
  | small d => [UInt8.ofNat d]
  | large d => writeBe16 d.toNat

end Entry

/-- A chunk. A run names a status, so its symbol is not the reserved one; the symbols of a
vector that lie behind the last status may be anything. -/
inductive Chunk
  | run (symbol : Fin 3) (length : ℕ) (pos : 0 < length) (lt : length < 2 ^ 13)
  | oneBit (bits : List (Fin 2)) (length_eq : bits.length = 14)
  | twoBit (symbols : List (Fin 4)) (length_eq : symbols.length = 7)

namespace Chunk

def symbols : Chunk → List ℕ
  | run s n _ _ => List.replicate n s
  | oneBit l _ => l.map Fin.val
  | twoBit l _ => l.map Fin.val

def size (c : Chunk) : ℕ := c.symbols.length

def word (c : Chunk) : ℕ := match c with
  | run s n _ _ => s * 2 ^ 13 + n
  | oneBit _ _ => 2 ^ 15 + pack 2 c.symbols
  | twoBit _ _ => 2 ^ 15 + 2 ^ 14 + pack 4 c.symbols

def bytes (c : Chunk) : List UInt8 := writeBe16 c.word

end Chunk

/-- Chunks for a list of entries: they name its symbols, and without the last one they name
fewer. -/
structure Encoding (entries : List Entry) where
  front : List Chunk
  last : Chunk
  covers : entries.map Entry.symbol <+: (front ++ [last]).flatMap Chunk.symbols
  short : (front.flatMap Chunk.symbols).length < entries.length

namespace Encoding

variable {entries : List Entry}

def chunks (e : Encoding entries) : List Chunk := e.front ++ [e.last]

/-- The last chunk ends with the list. -/
def Exact (e : Encoding entries) : Prop := (e.chunks.flatMap Chunk.symbols).length = entries.length

instance (e : Encoding entries) : Decidable e.Exact := inferInstanceAs (Decidable (_ = _))

end Encoding

/-- A feedback member. The parser does not look at the first twelve bytes, at the feedback
counter, or behind the deltas. -/
structure Member where
  header : List UInt8
  base : ℕ
  ref24 : ℕ
  fbPktCount : UInt8
  entries : List Entry
  encoding : Encoding entries
  trailing : List UInt8
  header_length : header.length = 12
  base_lt : base < 2 ^ 16
  ref24_lt : ref24 < 2 ^ 24
  count_lt : entries.length < 2 ^ 16

namespace Member

def fixedPart (m : Member) : List UInt8 :=
  m.header ++ (writeBe16 m.base ++ (writeBe16 m.entries.length ++
    (writeBe24 m.ref24 ++ [m.fbPktCount])))

def bytes (m : Member) : List UInt8 :=
  m.fixedPart ++ (m.encoding.chunks.flatMap Chunk.bytes ++
    (m.entries.flatMap Entry.deltaBytes ++ m.trailing))

end Member

/-- When an entry arrived, if the deltas up to its own sum to `units`. -/
def Entry.receiveTimeUs (referenceUs units : ℤ) : Entry → ℤ
  | lost => 0
  | _ => referenceUs + 250 * units

def reported (base : ℕ) (referenceUs : ℤ) (entries : List Entry) : List Status :=
  entries.mapIdx fun i e => {
    sequenceNumber := (base + i) % 2 ^ 16
    status := e.symbol
    receiveTimeUs := e.receiveTimeUs referenceUs ((entries.take (i + 1)).map Entry.units).sum }

lemma Chunk.size_pos (c : Chunk) : 0 < c.size := by
  cases c with
  | run s n pos lt => simpa [size, symbols] using pos
  | oneBit _ h | twoBit _ h => simp [size, symbols, h]

lemma Chunk.size_lt (c : Chunk) : c.size < 2 ^ 13 := by
  cases c with
  | run s n pos lt => simpa [size, symbols] using lt
  | oneBit _ h | twoBit _ h => simp [size, symbols, h]

lemma length_chunk_bytes (cs : List Chunk) : (cs.flatMap Chunk.bytes).length = 2 * cs.length := by
  induction cs with
  | nil => rfl
  | cons c cs ih => simp [Chunk.bytes, ih]; omega

lemma Member.length_fixedPart (m : Member) : m.fixedPart.length = fixedLen := by
  simp [Member.fixedPart, m.header_length, fixedLen]

lemma pack_vals_lt {b : ℕ} (l : List (Fin b)) : pack b (l.map Fin.val) < b ^ l.length := by
  have h : ∀ d ∈ l.map Fin.val, d < b := by
    intro d hd
    obtain ⟨x, -, rfl⟩ := List.mem_map.mp hd
    exact x.isLt
  simpa using pack_lt h

lemma Chunk.word_lt (c : Chunk) : c.word < 2 ^ 16 := by
  cases c with
  | run s n pos lt =>
    simp only [word]
    omega
  | oneBit l h | twoBit l h =>
    have hl := pack_vals_lt l
    rw [h] at hl
    simp only [word, symbols]
    omega

end MezonSfu.Twcc
