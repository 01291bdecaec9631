import MezonSfu.BitMask
import MezonSfu.LayerScheduler

/-!
The fanout bundle of a publisher, and the iterator over its routes of one kind of media.

A bundle is a row of chunks, some of them absent; a chunk has one mask of eligible routes for each
kind. Reference counters, and what no reader looks at, are left out.
-/

namespace MezonSfu.Fanout

open Svc List

def chunkSize : ℕ := 32
def chunkCount : ℕ := (299 + (chunkSize - 1)) / chunkSize

/-- `sfu_fanout_route_t`; a subscriber is a session's number, none for a null pointer. -/
structure Route where
  subscriber : Option ℕ
  videoSsrc : UInt32
  videoRtxSsrc : UInt32
  screenSsrc : UInt32
  screenRtxSsrc : UInt32
  remoteSlot : ℕ
  assignmentGeneration : ℕ
  videoPt : ℕ
  videoRtxPt : ℕ
  screenPt : ℕ
  screenRtxPt : ℕ
deriving DecidableEq

structure Chunk where
  audioEligible : UInt32
  videoEligible : UInt32
  screenEligible : UInt32
  routes : ℕ → Route

structure Bundle where
  chunks : ℕ → Option Chunk

def Chunk.eligible (c : Chunk) : MediaKind → UInt32
  | .audio => c.audioEligible
  | .screen => c.screenEligible
  | _ => c.videoEligible

def Bundle.mask (b : Bundle) (kind : MediaKind) (i : ℕ) : ℕ :=
  match b.chunks i with
  | none => 0
  | some c => (c.eligible kind).toNat

def Bundle.route? (b : Bundle) (i offset : ℕ) : Option Route :=
  (b.chunks i).map fun c => c.routes offset

structure Iter where
  bundle : Option Bundle
  chunkIndex : ℕ
  eligible : ℕ
  kind : MediaKind

def Iter.init (bundle : Option Bundle) (kind : MediaKind) : Iter := ⟨bundle, 0, 0, kind⟩

/-- The loop that looks for a chunk with an eligible route; every pass goes on by one chunk. -/
def Iter.seek (b : Bundle) : ℕ → Iter → Option Iter
  | 0, it => if it.eligible ≠ 0 then some it else none
  | n + 1, it =>
    if it.eligible ≠ 0 then some it
    else if chunkCount ≤ it.chunkIndex then none
    else
      let eligible := b.mask it.kind it.chunkIndex
      if eligible = 0 then seek b n { it with chunkIndex := it.chunkIndex + 1 }
      else some { it with eligible := eligible }

/-- `sfu_fanout_iter_next`: the next route and its slot. -/
def Iter.next (it : Iter) : Option ((Route × ℕ) × Iter) :=
  match it.bundle with
  | none => none
  | some b =>
    match it.seek b chunkCount with
    | none => none
    | some it =>
      let offset := BitMask.ctz chunkSize it.eligible
      let absolute := it.chunkIndex * chunkSize + offset
      let eligible := BitMask.clearLowest it.eligible
      let chunkIndex := if eligible = 0 then it.chunkIndex + 1 else it.chunkIndex
      (b.route? it.chunkIndex offset).map fun route =>
        ((route, absolute), { it with eligible := eligible, chunkIndex := chunkIndex })

/-- The routes a loop over the iterator meets, at most `n`. -/
def Iter.collect : ℕ → Iter → List (Route × ℕ)
  | 0, _ => []
  | n + 1, it =>
    match it.next with
    | none => []
    | some (r, it) => r :: collect n it

def maxRoutes : ℕ := chunkCount * chunkSize

/-- All routes of a kind, as a loop over the iterator meets them. -/
def Bundle.iterate (b : Option Bundle) (kind : MediaKind) : List (Route × ℕ) :=
  (Iter.init b kind).collect maxRoutes

/-! ### What the iterator meets -/

def Bundle.chunkRoutes (b : Bundle) (i mask : ℕ) : List (Route × ℕ) :=
  (BitMask.bits chunkSize mask).filterMap fun offset =>
    (b.route? i offset).map fun route => (route, i * chunkSize + offset)

/-- The eligible routes of the chunks from `i` on. -/
def Bundle.routesFrom (b : Bundle) (kind : MediaKind) (i : ℕ) : List (Route × ℕ) :=
  ((List.range chunkCount).drop i).flatMap fun j => b.chunkRoutes j (b.mask kind j)

def Bundle.routes (b : Option Bundle) (kind : MediaKind) : List (Route × ℕ) :=
  match b with
  | none => []
  | some b => b.routesFrom kind 0

section

variable (b : Bundle)

lemma Bundle.mask_lt (kind : MediaKind) (i : ℕ) : b.mask kind i < 2 ^ chunkSize := by
  unfold mask
  split
  · exact Nat.two_pow_pos _
  · exact UInt32.toNat_lt _

@[simp] lemma Bundle.chunkRoutes_zero (i : ℕ) : b.chunkRoutes i 0 = [] := by
  simp [chunkRoutes]

lemma Bundle.routesFrom_of_lt (kind : MediaKind) {i : ℕ} (hi : i < chunkCount) :
    b.routesFrom kind i = b.chunkRoutes i (b.mask kind i) ++ b.routesFrom kind (i + 1) := by
  unfold routesFrom
  rw [drop_eq_getElem_cons (by simpa using hi), flatMap_cons, getElem_range]

lemma Bundle.routesFrom_of_le (kind : MediaKind) {i : ℕ} (hi : chunkCount ≤ i) :
    b.routesFrom kind i = [] := by
  unfold routesFrom
  rw [drop_of_length_le (by simpa using hi), flatMap_nil]

def Iter.rest (it : Iter) : List (Route × ℕ) :=
  if it.eligible = 0 then b.routesFrom it.kind it.chunkIndex
  else b.chunkRoutes it.chunkIndex it.eligible ++ b.routesFrom it.kind (it.chunkIndex + 1)

end

/-- A mask that is not used up belongs to a chunk that is there. -/
structure Iter.Good (b : Bundle) (it : Iter) : Prop where
  mask : it.eligible < 2 ^ chunkSize
  chunk : it.eligible ≠ 0 → (b.chunks it.chunkIndex).isSome

variable {b : Bundle} {it : Iter}

lemma Iter.seek_spec (n : ℕ) (h : it.Good b) (hn : chunkCount ≤ it.chunkIndex + n) :
    (it.seek b n = none ∧ it.rest b = []) ∨
      ∃ it', it.seek b n = some it' ∧ it'.eligible ≠ 0 ∧ it'.Good b ∧
        it'.rest b = it.rest b ∧ it'.bundle = it.bundle ∧ it'.kind = it.kind := by
  induction n generalizing it with
  | zero =>
    unfold seek
    split_ifs with he
    · exact .inr ⟨it, rfl, he, h, rfl, rfl, rfl⟩
    · left
      refine ⟨rfl, ?_⟩
      unfold rest
      rw [if_pos (not_not.1 he), b.routesFrom_of_le it.kind (by simpa using hn)]
  | succ n ih =>
    unfold seek
    dsimp only
    split_ifs with he hc hm
    · exact .inr ⟨it, rfl, he, h, rfl, rfl, rfl⟩
    · left
      refine ⟨rfl, ?_⟩
      unfold rest
      rw [if_pos (not_not.1 he), b.routesFrom_of_le it.kind hc]
    · have hz : it.eligible = 0 := not_not.1 he
      have hrest : rest b { it with chunkIndex := it.chunkIndex + 1 } = it.rest b := by
        unfold rest
        rw [if_pos hz, if_pos hz, b.routesFrom_of_lt it.kind (not_le.1 hc), hm,
          Bundle.chunkRoutes_zero, nil_append]
      have hgood : Good b { it with chunkIndex := it.chunkIndex + 1 } :=
        ⟨h.mask, fun hne => absurd hz hne⟩
      rcases ih hgood (by dsimp only; omega) with ⟨hnone, hnil⟩ | hsome
      · exact .inl ⟨hnone, hrest ▸ hnil⟩
      · rw [hrest] at hsome
        exact .inr hsome
    · refine .inr ⟨_, rfl, hm, ⟨b.mask_lt _ _, fun _ => ?_⟩, ?_, rfl, rfl⟩
      · dsimp only
        by_contra hnone
        unfold Bundle.mask at hm
        rw [Option.not_isSome_iff_eq_none.1 hnone] at hm
        exact hm rfl
      · unfold rest
        rw [if_neg hm, if_pos (not_not.1 he), b.routesFrom_of_lt it.kind (not_le.1 hc)]

lemma Iter.next_spec (hb : it.bundle = some b) (h : it.Good b) :
    (it.next = none ∧ it.rest b = []) ∨
      ∃ r it', it.next = some (r, it') ∧ it.rest b = r :: it'.rest b ∧ it'.Good b ∧
        it'.bundle = some b := by
  unfold next
  rw [hb]
  dsimp only
  rcases seek_spec chunkCount h (Nat.le_add_left _ _) with
    ⟨hnone, hnil⟩ | ⟨s, hsome, hne, hgood, hrest, hbundle, -⟩
  · rw [hnone]
    exact .inl ⟨rfl, hnil⟩
  rw [hsome, ← hrest]
  obtain ⟨c, hc⟩ := Option.isSome_iff_exists.1 (hgood.chunk hne)
  have hroute : ∀ offset, b.route? s.chunkIndex offset = some (c.routes offset) := by
    intro offset
    unfold Bundle.route?
    rw [hc]
    rfl
  dsimp only
  rw [hroute, Option.map_some]
  refine .inr ⟨_, _, rfl, ?_, ⟨?_, ?_⟩, hbundle.trans hb⟩
  · have hcons : b.chunkRoutes s.chunkIndex s.eligible =
        (c.routes (BitMask.ctz chunkSize s.eligible),
          s.chunkIndex * chunkSize + BitMask.ctz chunkSize s.eligible) ::
            b.chunkRoutes s.chunkIndex (BitMask.clearLowest s.eligible) := by
      unfold Bundle.chunkRoutes
      rw [BitMask.bits_eq_cons hne hgood.mask, filterMap_cons, hroute]
      rfl
    unfold rest
    dsimp only
    rw [if_neg hne, hcons]
    split_ifs with hz
    · rw [hz, Bundle.chunkRoutes_zero, cons_append, nil_append]
    · rfl
  · exact BitMask.clearLowest_le.trans_lt hgood.mask
  · intro hnz
    dsimp only at hnz ⊢
    rw [if_neg hnz, hc]
    rfl

lemma Iter.collect_eq (n : ℕ) (hb : it.bundle = some b)
    (h : it.Good b) (hn : (it.rest b).length ≤ n) : it.collect n = it.rest b := by
  induction n generalizing it with
  | zero =>
    rw [eq_nil_of_length_eq_zero (Nat.le_zero.1 hn)]
    rfl
  | succ n ih =>
    unfold collect
    rcases next_spec hb h with ⟨hnone, hnil⟩ | ⟨r, it', hsome, hrest, hgood, hbundle⟩
    · rw [hnone, hnil]
    · rw [hsome, hrest]
      rw [hrest, length_cons] at hn
      dsimp only
      rw [ih hbundle hgood (by omega)]

lemma Bundle.length_routesFrom_le (b : Bundle) (kind : MediaKind) :
    (b.routesFrom kind 0).length ≤ maxRoutes := by
  unfold routesFrom maxRoutes
  rw [drop_zero, length_flatMap]
  have hle : ∀ n ∈ (List.range chunkCount).map
      (fun j => (b.chunkRoutes j (b.mask kind j)).length), n ≤ chunkSize := by
    intro n hn
    obtain ⟨j, -, rfl⟩ := mem_map.1 hn
    exact (length_filterMap_le _ _).trans BitMask.length_bits_le
  have hsum := sum_le_card_nsmul _ chunkSize hle
  rwa [length_map, length_range, smul_eq_mul] at hsum

/-- **The iterator** meets exactly the eligible routes of its kind, each once, in order. -/
theorem Bundle.iterate_eq (b : Option Bundle) (kind : MediaKind) :
    Bundle.iterate b kind = Bundle.routes b kind := by
  unfold iterate routes
  cases b with
  | none => rfl
  | some b =>
    have hgood : (Iter.init (some b) kind).Good b := ⟨Nat.two_pow_pos _, fun h => absurd rfl h⟩
    have hrest : (Iter.init (some b) kind).rest b = b.routesFrom kind 0 := if_pos rfl
    rw [Iter.collect_eq maxRoutes rfl hgood (hrest ▸ b.length_routesFrom_le kind), hrest]

end MezonSfu.Fanout
