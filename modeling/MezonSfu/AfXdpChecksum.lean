import MezonSfu.Bytes

/-!
The checksum of the AF_XDP path: the words of a byte string are summed in pieces, the carries are
folded in at the end, and the complement is taken.
-/

namespace MezonSfu.AfXdp

open Bytes List

/-- The sum, and a byte that has no partner yet. -/
structure ChecksumState where
  sum : ℕ
  high : Option UInt8

def word (high low : UInt8) : ℕ := high.toNat * 2 ^ 8 + low.toNat

namespace ChecksumState

def addPairs (sum : ℕ) : List UInt8 → ChecksumState
  | a :: b :: rest => addPairs ((sum + word a b) % 2 ^ 32) rest
  | [a] => ⟨sum, some a⟩
  | [] => ⟨sum, none⟩

/-- `checksum_add` -/
def add (s : ChecksumState) (data : List UInt8) : ChecksumState :=
  match s.high, data with
  | some a, b :: rest => addPairs ((s.sum + word a b) % 2 ^ 32) rest
  | some _, [] => s
  | none, data => addPairs s.sum data

/-- The loop of `checksum_finish`. -/
def fold (sum : ℕ) : ℕ :=
  if sum / 2 ^ 16 = 0 then sum else fold (sum % 2 ^ 16 + sum / 2 ^ 16)

def total (s : ChecksumState) : ℕ :=
  match s.high with
  | some a => (s.sum + word a 0) % 2 ^ 32
  | none => s.sum

/-- `checksum_finish` -/
def finish (s : ChecksumState) : ℕ := 0xFFFF - fold s.total

end ChecksumState

open ChecksumState

/-- `sfu_af_xdp_checksum` -/
def checksum (data : List UInt8) : ℕ := (add ⟨0, none⟩ data).finish

/-- `udp_checksum` -/
def udpChecksum (saddr daddr udp : List UInt8) : ℕ :=
  (((((add ⟨0, none⟩ saddr).add daddr).add [0, 17]).add (writeBe16 udp.length)).add udp).finish

/-- A carry out of the top comes in at the bottom. -/
def onesAdd (a b : ℕ) : ℕ := if a + b < 2 ^ 16 then a + b else a + b - 0xFFFF

/-- The words of a byte string, with a zero byte behind an odd one. -/
def words : List UInt8 → List ℕ
  | a :: b :: rest => word a b :: words rest
  | [a] => [word a 0]
  | [] => []

variable {l : List UInt8}

lemma word_lt (a b : UInt8) : word a b < 2 ^ 16 := by
  have ha := a.toNat_lt
  have hb := b.toNat_lt
  unfold word
  omega

lemma sum_words_le (l : List UInt8) : (words l).sum ≤ 2 ^ 15 * (l.length + 1) := by
  fun_induction words l with
  | case1 a b rest ih =>
    have hlt := word_lt a b
    rw [length_cons, length_cons, sum_cons]
    omega
  | case2 a =>
    have hlt := word_lt a 0
    rw [length_singleton, sum_singleton]
    omega
  | case3 => decide

/-- What a folded sum and a one's-complement sum of the same words have in common determines
both. -/
def Folds (n x : ℕ) : Prop := x < 2 ^ 16 ∧ x % 65535 = n % 65535 ∧ (x = 0 ↔ n = 0)

lemma folds_fold (n : ℕ) : Folds n (fold n) := by
  unfold Folds
  fun_induction fold n with
  | case1 n h => omega
  | case2 n h ih => omega

lemma folds_onesAdd (l : List UInt8) {n x : ℕ} (h : Folds n x) :
    Folds (n + (words l).sum) ((words l).foldl onesAdd x) := by
  fun_induction words l generalizing n x with
  | case1 a b rest ih =>
    rw [sum_cons, ← Nat.add_assoc]
    refine ih ?_
    have hlt := word_lt a b
    unfold Folds onesAdd at *
    split <;> omega
  | case2 a =>
    have hlt := word_lt a 0
    unfold Folds at *
    rw [sum_singleton, foldl_cons, foldl_nil, onesAdd]
    split <;> omega
  | case3 => exact h

/-- Where no carry is lost, the state holds the sum of the words so far. -/
lemma total_addPairs {sum : ℕ} (h : sum + (words l).sum < 2 ^ 32) :
    (addPairs sum l).total = sum + (words l).sum := by
  fun_induction addPairs sum l with
  | case1 sum a b rest ih =>
    rw [words, sum_cons] at h ⊢
    rw [Nat.mod_eq_of_lt (by omega)] at ih
    rw [Nat.mod_eq_of_lt (by omega), ih (by omega), Nat.add_assoc]
  | case2 sum a =>
    rw [words, sum_singleton] at h ⊢
    exact Nat.mod_eq_of_lt h
  | case3 sum => rfl

lemma addPairs_add (sum : ℕ) (l l' : List UInt8) :
    (addPairs sum l).add l' = addPairs sum (l ++ l') := by
  fun_induction addPairs sum l with
  | case1 sum a b rest ih => exact ih
  | case2 sum a => cases l' <;> rfl
  | case3 sum => rfl

/-- **Adding is an action** of byte strings under concatenation, whatever byte is pending. -/
lemma add_add (s : ChecksumState) (l l' : List UInt8) : (s.add l).add l' = s.add (l ++ l') := by
  obtain ⟨sum, _ | a⟩ := s
  · exact addPairs_add sum l l'
  · cases l with
    | nil => rfl
    | cons b l => exact addPairs_add _ l l'

lemma foldl_add (s : ChecksumState) (pieces : List (List UInt8)) :
    pieces.foldl add s = s.add pieces.flatten := by
  induction pieces generalizing s with
  | nil =>
    obtain ⟨sum, _ | a⟩ := s <;> rfl
  | cons piece pieces ih => rw [foldl_cons, ih, add_add, flatten_cons]

lemma checksum_eq (h : l.length < 2 ^ 16 + 16) : checksum l = 0xFFFF - fold (words l).sum := by
  have hle := sum_words_le l
  have htotal := @total_addPairs l 0 (by omega)
  rw [Nat.zero_add] at htotal
  exact congrArg (fun n => 0xFFFF - fold n) htotal

/-- A folded sum is the one's-complement sum. -/
lemma fold_eq_onesAdd (l : List UInt8) : fold (words l).sum = (words l).foldl onesAdd 0 := by
  have hfold := folds_fold (words l).sum
  have hones := folds_onesAdd l (n := 0) (x := 0) ⟨by decide, rfl, .rfl⟩
  unfold Folds at hfold hones
  omega

/-- A string with checksum zero is one that verifies. -/
lemma onesAdd_of_checksum (h : l.length < 2 ^ 16 + 16) (h0 : checksum l = 0) :
    (words l).foldl onesAdd 0 = 0xFFFF := by
  have hlt := (folds_fold (words l).sum).1
  rw [checksum_eq h] at h0
  rw [← fold_eq_onesAdd]
  omega

lemma udpChecksum_eq (saddr daddr udp : List UInt8) : udpChecksum saddr daddr udp =
    checksum (saddr ++ daddr ++ [0, 17] ++ writeBe16 udp.length ++ udp) := by
  unfold udpChecksum checksum
  rw [← add_add, ← add_add, ← add_add, ← add_add]

/-- **Pieces of any lengths add up** to the checksum of the whole string, and that is the
complement of the one's-complement sum of its words. -/
theorem checksum_pieces (pieces : List (List UInt8)) :
    (pieces.foldl add ⟨0, none⟩).finish = checksum pieces.flatten ∧
      (pieces.flatten.length < 2 ^ 16 →
        checksum pieces.flatten = 0xFFFF - (words pieces.flatten).foldl onesAdd 0) := by
  refine ⟨congrArg finish (foldl_add _ _), fun h => ?_⟩
  rw [checksum_eq (by omega), fold_eq_onesAdd]

theorem checksum_pieces_odd :
    ([[1], [], [2, 3, 4]].foldl add ⟨0, none⟩).finish = checksum [1, 2, 3, 4] ∧
      checksum [1, 2, 3, 4] = 0xFFFF - [0x102, 0x304].foldl onesAdd 0 := by
  obtain ⟨hsame, hsum⟩ := checksum_pieces [[1], [], [2, 3, 4]]
  exact ⟨hsame, hsum (by decide)⟩

end MezonSfu.AfXdp
