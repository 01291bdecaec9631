import Mathlib.Tactic

/-!
Byte strings: big-endian reads and writes, and fields packed into a word from the left.
-/

namespace MezonSfu.Bytes

open List

section

variable (data : List UInt8)

/-- The byte at an offset; zero past the end. -/
def byteAt (i : ℕ) : ℕ := (data.getD i 0).toNat

def readBe16 (i : ℕ) : ℕ := byteAt data i * 2 ^ 8 + byteAt data (i + 1)

def readBe24 (i : ℕ) : ℕ :=
  byteAt data i * 2 ^ 16 + byteAt data (i + 1) * 2 ^ 8 + byteAt data (i + 2)

def readBe32 (i : ℕ) : ℕ := readBe16 data i * 2 ^ 16 + readBe16 data (i + 2)

/-- The `n` bytes from an offset on. -/
def slice (i n : ℕ) : List UInt8 := (data.drop i).take n

end

def writeBe16 (v : ℕ) : List UInt8 := [UInt8.ofNat (v / 2 ^ 8), UInt8.ofNat v]

def writeBe24 (v : ℕ) : List UInt8 :=
  [UInt8.ofNat (v / 2 ^ 16), UInt8.ofNat (v / 2 ^ 8), UInt8.ofNat v]

def writeBe32 (v : ℕ) : List UInt8 :=
  [UInt8.ofNat (v / 2 ^ 24), UInt8.ofNat (v / 2 ^ 16), UInt8.ofNat (v / 2 ^ 8), UInt8.ofNat v]

/-- The bytes of a number, most significant first. -/
def writeBe : ℕ → ℕ → List UInt8
  | 0, _ => []
  | n + 1, v => writeBe n (v / 2 ^ 8) ++ [UInt8.ofNat v]

lemma byteAt_lt (data : List UInt8) (i : ℕ) : byteAt data i < 256 := UInt8.toNat_lt _

lemma readBe16_lt (data : List UInt8) (i : ℕ) : readBe16 data i < 2 ^ 16 := by
  have h1 := byteAt_lt data i
  have h2 := byteAt_lt data (i + 1)
  unfold readBe16
  omega

lemma readBe24_lt (data : List UInt8) (i : ℕ) : readBe24 data i < 2 ^ 24 := by
  have h1 := byteAt_lt data i
  have h2 := byteAt_lt data (i + 1)
  have h3 := byteAt_lt data (i + 2)
  unfold readBe24
  omega

@[simp] lemma length_writeBe16 (v : ℕ) : (writeBe16 v).length = 2 := rfl
@[simp] lemma length_writeBe24 (v : ℕ) : (writeBe24 v).length = 3 := rfl
@[simp] lemma length_writeBe32 (v : ℕ) : (writeBe32 v).length = 4 := rfl

@[simp] lemma length_writeBe (n v : ℕ) : (writeBe n v).length = n := by
  induction n generalizing v with
  | zero => rfl
  | succ n ih => rw [writeBe, length_append, ih, length_singleton]

lemma foldl_writeBe (n v : ℕ) :
    (writeBe n v).foldl (fun len b => len * 2 ^ 8 + b.toNat) 0 = v % 2 ^ (8 * n) := by
  induction n generalizing v with
  | zero => simp [writeBe, Nat.mod_one]
  | succ n ih =>
    have hbyte : (UInt8.ofNat v).toNat = v % 2 ^ 8 := UInt8.toNat_ofNat'
    rw [writeBe, foldl_append, ih, foldl_cons, foldl_nil, hbyte, Nat.mul_succ,
      pow_add, Nat.mul_comm (2 ^ (8 * n)), Nat.mod_mul]
    omega

variable {b i k m n : ℕ} {data front rest : List UInt8} {l : List ℕ}

lemma byteAt_append (h : i = front.length + k) : byteAt (front ++ rest) i = byteAt rest k := by
  subst h
  unfold byteAt
  rw [getD_eq_getElem?_getD, getD_eq_getElem?_getD,
    List.getElem?_append_right (Nat.le_add_right _ _), Nat.add_sub_cancel_left]

lemma readBe16_append (h : i = front.length + k) :
    readBe16 (front ++ rest) i = readBe16 rest k := by
  unfold readBe16
  rw [byteAt_append h, byteAt_append (k := k + 1) (by omega)]

lemma readBe24_append (h : i = front.length + k) :
    readBe24 (front ++ rest) i = readBe24 rest k := by
  unfold readBe24
  rw [byteAt_append h, byteAt_append (k := k + 1) (by omega), byteAt_append (k := k + 2) (by omega)]

lemma readBe16_write (v : ℕ) (rest : List UInt8) :
    readBe16 (writeBe16 v ++ rest) 0 = v % 2 ^ 16 := by
  simp only [readBe16, byteAt, writeBe16, cons_append, nil_append, getD_cons_zero,
    getD_cons_succ, UInt8.toNat_ofNat']
  omega

lemma readBe24_write (v : ℕ) (rest : List UInt8) :
    readBe24 (writeBe24 v ++ rest) 0 = v % 2 ^ 24 := by
  simp only [readBe24, byteAt, writeBe24, cons_append, nil_append, getD_cons_zero,
    getD_cons_succ, UInt8.toNat_ofNat']
  omega

lemma readBe16_writeBe16 {v : ℕ} (h : v < 2 ^ 16) : readBe16 (writeBe16 v) 0 = v :=
  (readBe16_write v []).trans (Nat.mod_eq_of_lt h)

lemma readBe24_writeBe24 {v : ℕ} (h : v < 2 ^ 24) : readBe24 (writeBe24 v) 0 = v :=
  (readBe24_write v []).trans (Nat.mod_eq_of_lt h)

lemma readBe32_writeBe32 {v : ℕ} (h : v < 2 ^ 32) : readBe32 (writeBe32 v) 0 = v := by
  simp only [readBe32, readBe16, byteAt, writeBe32, getD_cons_zero, getD_cons_succ,
    UInt8.toNat_ofNat']
  omega

lemma byteAt_take (data : List UInt8) (h : i < m) : byteAt (data.take m) i = byteAt data i := by
  unfold byteAt
  rw [getD_eq_getElem?_getD, getD_eq_getElem?_getD, List.getElem?_take, if_pos h]

lemma byteAt_drop (data : List UInt8) (i m : ℕ) : byteAt (data.drop m) i = byteAt data (m + i) := by
  unfold byteAt
  rw [getD_eq_getElem?_getD, getD_eq_getElem?_getD, List.getElem?_drop]

lemma slice_append (h : i = front.length + k) : slice (front ++ rest) i n = slice rest k n := by
  subst h
  unfold slice
  rw [drop_append, drop_eq_nil_of_le (Nat.le_add_right _ _), nil_append, Nat.add_sub_cancel_left]

lemma slice_window {a : ℕ} (ha : a ≤ i) (hm : i + n ≤ m) :
    slice ((data.take m).drop a) (i - a) n = slice data i n := by
  unfold slice
  rw [drop_drop, Nat.add_sub_cancel' ha, drop_take, take_take, Nat.min_eq_left (by omega)]

lemma drop_byte (h : i < data.length) :
    data.drop i = UInt8.ofNat (byteAt data i) :: data.drop (i + 1) := by
  rw [drop_eq_getElem_cons h, byteAt, getD_eq_getElem?_getD,
    List.getElem?_eq_getElem h, Option.getD_some, UInt8.ofNat_toNat]

lemma drop_be16 (h : i + 2 ≤ data.length) :
    data.drop i = writeBe16 (readBe16 data i) ++ data.drop (i + 2) := by
  have h2 := byteAt_lt data (i + 1)
  have hhigh : readBe16 data i / 2 ^ 8 = byteAt data i := by unfold readBe16; omega
  have hlow : UInt8.ofNat (readBe16 data i) = UInt8.ofNat (byteAt data (i + 1)) := by
    apply UInt8.toNat.inj
    rw [UInt8.toNat_ofNat', UInt8.toNat_ofNat']
    unfold readBe16
    omega
  rw [writeBe16, hhigh, hlow, drop_byte (by omega), drop_byte (by omega)]
  rfl

lemma drop_be24 (h : i + 3 ≤ data.length) :
    data.drop i = writeBe24 (readBe24 data i) ++ data.drop (i + 3) := by
  have h2 := byteAt_lt data (i + 1)
  have h3 := byteAt_lt data (i + 2)
  have hhigh : readBe24 data i / 2 ^ 16 = byteAt data i := by unfold readBe24; omega
  have hmid : UInt8.ofNat (readBe24 data i / 2 ^ 8) = UInt8.ofNat (byteAt data (i + 1)) := by
    apply UInt8.toNat.inj
    rw [UInt8.toNat_ofNat', UInt8.toNat_ofNat']
    unfold readBe24
    omega
  have hlow : UInt8.ofNat (readBe24 data i) = UInt8.ofNat (byteAt data (i + 2)) := by
    apply UInt8.toNat.inj
    rw [UInt8.toNat_ofNat', UInt8.toNat_ofNat']
    unfold readBe24
    omega
  rw [writeBe24, hhigh, hmid, hlow, drop_byte (by omega), drop_byte (by omega),
    drop_byte (by omega)]
  rfl

/-- The fields, each below `b`, written one after the other from the left. -/
def pack (b : ℕ) (fields : List ℕ) : ℕ := fields.foldl (fun v d => v * b + d) 0

@[simp] lemma pack_nil (b : ℕ) : pack b [] = 0 := rfl

lemma pack_concat (b : ℕ) (l : List ℕ) (d : ℕ) : pack b (l ++ [d]) = pack b l * b + d := by
  simp [pack, foldl_append]

lemma pack_lt (h : ∀ d ∈ l, d < b) : pack b l < b ^ l.length := by
  induction l using List.reverseRecOn with
  | nil => simp
  | append_singleton l d ih =>
    have hl : pack b l < b ^ l.length := ih fun x hx => h x (mem_append_left _ hx)
    have hd : d < b := h d (by simp)
    rw [pack_concat, length_append, length_singleton, pow_succ]
    nlinarith

lemma pack_field (h : ∀ d ∈ l, d < b) {j : ℕ} (hj : j < l.length) :
    some (pack b l / b ^ j % b) = l[l.length - 1 - j]? := by
  induction l using List.reverseRecOn generalizing j with
  | nil => simp at hj
  | append_singleton l d ih =>
    have hd : d < b := h d (by simp)
    have hb : 0 < b := by omega
    have hlen : (l ++ [d]).length = l.length + 1 := by simp
    rw [pack_concat, hlen]
    cases j with
    | zero =>
      have hidx : l.length + 1 - 1 - 0 = l.length := by omega
      rw [hidx, List.getElem?_append_right le_rfl, Nat.sub_self, pow_zero, Nat.div_one,
        Nat.mul_comm, Nat.mul_add_mod, Nat.mod_eq_of_lt hd]
      rfl
    | succ j =>
      have hidx : l.length + 1 - 1 - (j + 1) = l.length - 1 - j := by omega
      have hdiv : (pack b l * b + d) / b ^ (j + 1) = pack b l / b ^ j := by
        rw [pow_succ', ← Nat.div_div_eq_div_mul, Nat.mul_comm, Nat.mul_add_div hb,
          Nat.div_eq_of_lt hd, Nat.add_zero]
      rw [hidx, hdiv, List.getElem?_append_left (by omega),
        ih (fun x hx => h x (mem_append_left _ hx)) (by omega)]

lemma exists_pack (b n : ℕ) {v : ℕ} (hv : v < b ^ n) :
    ∃ l : List (Fin b), l.length = n ∧ pack b (l.map Fin.val) = v := by
  induction n generalizing v with
  | zero =>
    have hzero : v = 0 := by simpa using hv
    exact ⟨[], rfl, hzero.symm⟩
  | succ n ih =>
    have hb : 0 < b := by
      rcases Nat.eq_zero_or_pos b with rfl | hb
      · simp at hv
      · exact hb
    have hdiv : v / b < b ^ n := by
      rw [Nat.div_lt_iff_lt_mul hb, ← pow_succ]
      exact hv
    obtain ⟨l, hlen, hl⟩ := ih hdiv
    refine ⟨l ++ [⟨v % b, Nat.mod_lt v hb⟩], by simp [hlen], ?_⟩
    rw [map_append, map_singleton, pack_concat, hl, Nat.mul_comm]
    exact Nat.div_add_mod v b

end MezonSfu.Bytes
