import MezonSfu.Runs
import MezonSfu.SessionOps

/-!
The session table refines two partial maps: from addresses and from ufrags to live sessions.
-/

namespace MezonSfu.SessionTable

open HashIndex Option

namespace Table

variable {A U : Type*} {p : Hashes A U} {t : Table A U} {s : ℕ} {a : A} {u : U}

section Ops

variable [DecidableEq A] [DecidableEq U]

/-! ### Whole operations -/

structure Keeps (p : Hashes A U) (t t' : Table A U) : Prop where
  inv : Inv p t'
  capacity : t'.capacity = t.capacity

section

omit [DecidableEq U]

lemma Inv.getOrCreate_spec (h : Inv p t) (hslots : t.capacity ≤ p.addrSlots) (a : A)
    (allocates : Bool) :
    let r := t.getOrCreate p a allocates
    Keeps p t r.1 ∧ r.1.ufragObj = t.ufragObj ∧ (∀ s, r.2 = some s → r.1.find p a = some s ∧
      (t.find p a = none → r.1.ufragOf s = none)) ∧ (allocates → r.2 = none → t.Full) := by
  rcases h.getOrCreate_cases (a := a) hslots allocates with ⟨s, hfind, heq⟩ | ⟨heq, hfull⟩ |
    ⟨count, free, index, slot, hr, hinv, heq⟩
  · rw [heq]
    refine ⟨⟨h, rfl⟩, rfl, ?_, nofun⟩
    rintro _ ⟨⟩
    refine ⟨hfind, fun hnone => ?_⟩
    rw [hfind] at hnone
    cases hnone
  · rw [heq]
    exact ⟨⟨h, rfl⟩, rfl, nofun, fun halloc _ => hfull halloc⟩
  · rw [heq]
    refine ⟨⟨hinv, rfl⟩, h.ufragObj_created hr, ?_, nofun⟩
    rintro _ ⟨⟩
    refine ⟨hinv.find_iff.2 ⟨⟨_, created_heap_next, rfl⟩, ?_⟩, fun _ => ?_⟩
    · unfold addrOf
      rw [created_heap_next]
      rfl
    · unfold ufragOf
      rw [created_heap_next]
      rfl

lemma Inv.keeps_rebindAddr (h : Inv p t) (s : ℕ) (a : A) : Keeps p t (t.rebindAddr p s a).1 := by
  refine ⟨h.rebindAddr s a, ?_⟩
  rcases h.rebindAddr_cases (s := s) (a := a) with heq | ⟨idx, x, slot, -, -, -, -, heq⟩
  · rw [heq]
  · rw [heq]
    rfl

end

omit [DecidableEq A] in
lemma Inv.keeps_indexUfrag (h : Inv p t) (s : ℕ) : Keeps p t (t.indexUfrag p s).1 := by
  refine ⟨h.indexUfrag s, ?_⟩
  rcases h.indexUfrag_cases (s := s) with heq | ⟨idx, u, slot, -, -, -, -, heq⟩
  · rw [heq]
  · rw [heq]
    rfl

lemma Inv.keeps_beginClose (h : Inv p t) (s : ℕ) : Keeps p t (t.beginClose p s).1 := by
  refine ⟨h.beginClose s, ?_⟩
  rcases h.beginClose_cases (s := s) with heq | ⟨idx, x, -, -, heq⟩
  · rw [heq]
  · rw [heq]
    rfl

omit [DecidableEq A] in
/-- The end of a creation by ufrag: the ufrag is that of no indexed session, so the session is
indexed. -/
lemma Inv.indexOrYield_spec (h : Inv p t) (hslots : t.capacity ≤ p.ufragSlots)
    (hlive : t.Live s) (hu : t.ufragOf s = some u) (hnew : ∀ i, t.ufragObj i ≠ some u) :
    Keeps p t (t.indexOrYield p s u).1 ∧ (t.indexOrYield p s u).2 = some s := by
  obtain ⟨idx, hidx⟩ := h.live s hlive
  refine ⟨h.keeps_indexUfrag s, ?_⟩
  unfold indexOrYield
  dsimp only
  rw [h.indexUfrag_ok hslots hidx hu hnew, if_pos rfl]

section

omit [DecidableEq U]

lemma Inv.rebindAddr_full (h : Inv p t) (hslots : t.capacity ≤ p.addrSlots) (hlive : t.Live s)
    (hfind : t.find p a = none) (hfail : (t.rebindAddr p s a).2 = false) : t.Full := by
  set all := Finset.range t.count
  obtain ⟨idx, hidx⟩ := h.live s hlive
  have hnew := h.addrObj_ne hfind
  have hocc : ¬ occupiedByOther t.addrIndex p.addrSlots (p.addr a) (t.addrMatches a) idx := by
    intro hocc
    obtain ⟨l, hl, -⟩ := (occupiedByOther_iff h.addr (h.addr_agrees a)).1 hocc
    exact hnew l hl
  by_contra hfull
  -- otherwise some index below the number of slots has no session
  have hobjects : (all.filter fun i => i ∉ t.freeIndices).card <
      p.addrSlots := by
    have hle : (all.filter fun i => i ∉ t.freeIndices).card ≤ t.count := by
      calc _ ≤ all.card := Finset.card_filter_le ..
        _ = t.count := Finset.card_range _
    rcases h.le.lt_or_eq with hlt | heq
    · omega
    obtain ⟨i, rest, hfree⟩ := List.exists_cons_of_ne_nil fun hnil => hfull (h.full hnil heq)
    have hmem : i ∈ t.freeIndices := hfree ▸ List.mem_cons_self ..
    have hsub : all.filter (fun i => i ∉ t.freeIndices) ⊂
        Finset.range t.count := by
      refine Finset.filter_ssubset.2 ⟨i, ?_, not_not.2 hmem⟩
      exact Finset.mem_range.2 ((h.free_iff i).1 hmem).1
    have hcard := Finset.card_lt_card hsub
    rw [Finset.card_range] at hcard
    omega
  obtain ⟨slot, hp⟩ := exists_addrProbe h.addr (h.addr_agrees a) hnew _ hobjects (by
    intro i k hi
    obtain ⟨s', hs', -⟩ := addrObj_eq_some.1 hi
    refine Finset.mem_filter.2 ⟨Finset.mem_range.2 (h.stored i s' hs').1, fun hmem => ?_⟩
    rw [((h.free_iff i).1 hmem).2] at hs'
    cases hs')
  unfold Table.rebindAddr at hfail
  rw [h.memberIndex_iff.2 hidx] at hfail
  dsimp only at hfail
  rw [h.accepts hidx, Bool.not_true, if_neg Bool.false_ne_true, if_neg hocc, hp] at hfail
  cases hfail

end

omit [DecidableEq A] in
lemma Inv.setUfrag_indexOrYield (h : Inv p t) (hslots : t.capacity ≤ p.ufragSlots)
    (hlive : t.Live s) (hnone : t.ufragOf s = none) (hnew : ∀ i, t.ufragObj i ≠ some u) :
    let r := (t.modifySession s fun x => { x with ufrag := some u }).indexOrYield p s u
    Keeps p t r.1 ∧ r.2 = some s := by
  obtain ⟨x, hx, hopen⟩ := hlive
  have hufrag : x.ufrag = none := by
    unfold ufragOf at hnone
    rwa [hx, bind_some] at hnone
  rw [modifySession_eq hx]
  set t₁ := t.withSession s { x with ufrag := some u }
  have hheap : t₁.heap s = some { x with ufrag := some u } := Function.update_self ..
  obtain ⟨hkeeps, hsome⟩ := (h.setUfrag hx hufrag u).indexOrYield_spec hslots
    ⟨_, hheap, hopen⟩ (by unfold ufragOf; rw [hheap]; rfl) hnew
  exact ⟨⟨hkeeps.inv, hkeeps.capacity⟩, hsome⟩

/-- **Creation by ufrag** keeps the table in order, and for an address that no live session has
it fails only in a full table. -/
lemma Inv.getOrCreateByUfrag_spec (h : Inv p t) (haddr : t.capacity ≤ p.addrSlots)
    (hufrag : t.capacity ≤ p.ufragSlots) (a : A) (u : U) (allowRebind allocates : Bool) :
    let r := t.getOrCreateByUfrag p a u allowRebind allocates
    Keeps p t r.1 ∧ (allocates → t.find p a = none → r.2.1 = none → t.Full) := by
  unfold getOrCreateByUfrag
  cases hfind : t.findByUfrag p u with
  | some s =>
    have hlive := (h.findByUfrag_iff.1 hfind).1
    dsimp only
    split
    · have hkeeps := h.keeps_rebindAddr s a
      split
      · exact ⟨hkeeps, fun _ _ hnone => by cases hnone⟩
      · rename_i hfail
        exact ⟨hkeeps, fun _ hfresh _ =>
          h.rebindAddr_full haddr hlive hfresh (Bool.eq_false_iff.2 hfail)⟩
    · exact ⟨⟨h, rfl⟩, fun _ _ hnone => by cases hnone⟩
  | none =>
    obtain ⟨hkeeps, hobj, hfound, hfull⟩ := h.getOrCreate_spec haddr a allocates
    generalize t.getOrCreate p a allocates = r at hkeeps hobj hfound hfull
    obtain ⟨t₁, found⟩ := r
    have hnew : ∀ i, t₁.ufragObj i ≠ some u := by
      rw [hobj]
      exact h.ufragObj_ne hfind
    have hcapacity : t₁.capacity ≤ p.ufragSlots := hkeeps.capacity.trans_le hufrag
    cases found with
    | none => exact ⟨hkeeps, fun halloc _ _ => hfull halloc rfl⟩
    | some s =>
      have hlive : t₁.Live s := (hkeeps.inv.find_iff.1 (hfound s rfl).1).1
      dsimp only
      cases hu : t₁.ufragOf s with
      | some other =>
        dsimp only
        split
        · refine ⟨hkeeps, fun _ hnone _ => ?_⟩
          rw [show t₁.ufragOf s = none from (hfound s rfl).2 hnone] at hu
          cases hu
        rename_i heq
        rw [not_not.1 heq] at hu
        obtain ⟨hkeeps', hsome⟩ := hkeeps.inv.indexOrYield_spec hcapacity hlive hu hnew
        refine ⟨⟨hkeeps'.inv, hkeeps'.capacity.trans hkeeps.capacity⟩, fun _ _ hnone => ?_⟩
        dsimp only at hnone
        rw [hsome] at hnone
        cases hnone
      | none =>
        obtain ⟨hkeeps', hsome⟩ := hkeeps.inv.setUfrag_indexOrYield hcapacity hlive hu hnew
        refine ⟨⟨hkeeps'.inv, hkeeps'.capacity.trans hkeeps.capacity⟩, fun _ _ hnone => ?_⟩
        dsimp only at hnone
        rw [hsome] at hnone
        cases hnone

end Ops

end Table

/-! ### Runs -/

variable {A U : Type*}

/-- The calls. Sessions that were never created are no arguments: a call with one does nothing. -/
inductive Op (A U : Type*) where
  | getOrCreate (addr : A) (allocates : Bool)
  | getOrCreateByUfrag (addr : A) (ufrag : U) (allowRebind allocates : Bool)
  | rebindAddr (s : ℕ) (addr : A)
  | indexUfrag (s : ℕ)
  | beginClose (s : ℕ)
  deriving DecidableEq

section Runs

variable [DecidableEq A] [DecidableEq U]

def step (p : Hashes A U) (t : Table A U) : Op A U → Table A U
  | .getOrCreate addr allocates => (t.getOrCreate p addr allocates).1
  | .getOrCreateByUfrag addr ufrag allowRebind allocates =>
    (t.getOrCreateByUfrag p addr ufrag allowRebind allocates).1
  | .rebindAddr s addr => (t.rebindAddr p s addr).1
  | .indexUfrag s => (t.indexUfrag p s).1
  | .beginClose s => (t.beginClose p s).1

/-- What the table is for: two partial maps onto the live sessions, and an array without leaks. -/
structure Refines (p : Hashes A U) (t : Table A U) : Prop where
  find : ∀ a s, t.find p a = some s ↔ t.Live s ∧ t.addrOf s = some a
  findByUfrag : ∀ u s, t.findByUfrag p u = some s ↔ t.Live s ∧ t.indexedAs s = some u
  addr_inj : ∀ s s', t.Live s → t.Live s' → t.addrOf s = t.addrOf s' → s = s'
  ufrag_inj : ∀ s s' u, t.Live s → t.Live s' → t.indexedAs s = some u →
    t.indexedAs s' = some u → s = s'
  free_nodup : t.freeIndices.Nodup
  entries : ∀ i, i < t.count ↔ i ∈ t.freeIndices ∨ ∃ s, t.sessions i = some s ∧ t.Live s
  free_vacant : ∀ i ∈ t.freeIndices, t.sessions i = none
  entry : ∀ s, t.Live s → ∃! i, t.sessions i = some s
  /-- A session is created, or there are `capacity` of them. -/
  creates : ∀ a, (∀ s, t.Live s → t.addrOf s ≠ some a) → (t.getOrCreate p a true).2 = none → t.Full
  createsByUfrag : ∀ a u allowRebind, (∀ s, t.Live s → t.addrOf s ≠ some a) →
    (t.getOrCreateByUfrag p a u allowRebind true).2.1 = none → t.Full

lemma Table.Inv.refines {p : Hashes A U} {t : Table A U} (h : t.Inv p)
    (haddr : t.capacity ≤ p.addrSlots) (hufrag : t.capacity ≤ p.ufragSlots) : Refines p t where
  find _ _ := h.find_iff
  findByUfrag _ _ := h.findByUfrag_iff
  addr_inj s s' hs hs' heq := by
    obtain ⟨i, hi⟩ := h.live s hs
    obtain ⟨a, ha⟩ := h.addrOf_isSome hi
    have hfind := h.find_iff.2 ⟨hs, ha⟩
    rw [h.find_iff.2 ⟨hs', heq ▸ ha⟩, some.injEq] at hfind
    exact hfind.symm
  ufrag_inj s s' u hs hs' hu hu' := by
    have hfind := h.findByUfrag_iff.2 ⟨hs, hu⟩
    rw [h.findByUfrag_iff.2 ⟨hs', hu'⟩, some.injEq] at hfind
    exact hfind.symm
  free_nodup := h.free_nodup
  entries i := by
    rw [h.free_iff]
    constructor
    · intro hi
      cases hs : t.sessions i with
      | none => exact .inl ⟨hi, rfl⟩
      | some s => exact .inr ⟨s, rfl, h.live_iff.2 ⟨i, hs⟩⟩
    · rintro (⟨hi, -⟩ | ⟨s, hs, -⟩)
      · exact hi
      · exact (h.stored i s hs).1
  free_vacant i hi := ((h.free_iff i).1 hi).2
  entry s hs := by
    obtain ⟨i, hi⟩ := h.live s hs
    exact ⟨i, hi, fun j hj => h.index_inj hj hi⟩
  creates a _ hnone := (h.getOrCreate_spec haddr a true).2.2.2 rfl hnone
  createsByUfrag a u allowRebind hfresh hnone := by
    have hfind : t.find p a = none := by
      rw [eq_none_iff_forall_not_mem]
      intro s hs
      obtain ⟨hlive, ha⟩ := h.find_iff.1 hs
      exact hfresh s hlive ha
    exact (h.getOrCreateByUfrag_spec haddr hufrag a u allowRebind true).2 rfl hfind hnone

omit [DecidableEq A] [DecidableEq U] in
lemma inv_init (p : Hashes A U) (capacity : ℕ) : (Table.init capacity : Table A U).Inv p := by
  refine ⟨⟨nofun, ?_, nofun, List.nodup_nil, ?_, Nat.zero_le _, rfl⟩, covers_clear fun _ => rfl,
    covers_clear fun _ => rfl, nofun⟩
  · rintro s ⟨x, hx, -⟩
    cases hx
  · intro i
    exact ⟨nofun, fun h => absurd h.1 (Nat.not_lt_zero i)⟩

lemma Table.Inv.step {p : Hashes A U} {t : Table A U} (h : t.Inv p)
    (haddr : t.capacity ≤ p.addrSlots) (hufrag : t.capacity ≤ p.ufragSlots) (op : Op A U) :
    Table.Keeps p t (step p t op) := by
  cases op with
  | getOrCreate a allocates => exact (h.getOrCreate_spec haddr a allocates).1
  | getOrCreateByUfrag a u allowRebind allocates =>
    exact (h.getOrCreateByUfrag_spec haddr hufrag a u allowRebind allocates).1
  | rebindAddr s a => exact h.keeps_rebindAddr s a
  | indexUfrag s => exact h.keeps_indexUfrag s
  | beginClose s => exact h.keeps_beginClose s

/-- **The session table refines two partial maps**, whatever calls were made and however many
tombstones there are: lookups by address and by ufrag find the live sessions, which share neither;
every index below the count is free or that of a live session; and an address that no live session
has gets a session unless `capacity` sessions are live. -/
theorem session_table_refines (p : Hashes A U) (capacity : ℕ)
    (haddr : capacity ≤ p.addrSlots) (hufrag : capacity ≤ p.ufragSlots) (ops : List (Op A U)) :
    Refines p (Runs.run (step p) (Table.init capacity) ops) := by
  have hrun : (Runs.run (step p) (Table.init capacity) ops).Inv p ∧
      (Runs.run (step p) (Table.init capacity) ops).capacity = capacity := by
    refine Runs.run_inv (I := fun t => t.Inv p ∧ t.capacity = capacity) (step p) ?_
      ⟨inv_init p capacity, rfl⟩ ops
    rintro t op ⟨h, hcapacity⟩
    have hkeeps := h.step (hcapacity.trans_le haddr) (hcapacity.trans_le hufrag) op
    exact ⟨hkeeps.inv, hkeeps.capacity.trans hcapacity⟩
  exact hrun.1.refines (hrun.2.trans_le haddr) (hrun.2.trans_le hufrag)

/-- Two sessions whose keys have one hash; the first is rebound and closed, and its ufrag is used
again. -/
def reusedUfrag : List (Op ℕ ℕ) :=
  [.getOrCreateByUfrag 10 1 false true, .getOrCreateByUfrag 20 2 false true, .rebindAddr 0 30,
    .beginClose 0, .getOrCreateByUfrag 40 1 false true]

theorem session_table_refines_reused :
    let p : Hashes ℕ ℕ := ⟨fun _ => 3, fun _ => 3, 2, 2⟩
    let t := Runs.run (step p) (Table.init 2) reusedUfrag
    (t.find p 10, t.find p 30, t.find p 20, t.find p 40) = (none, none, some 1, some 2) ∧
      (t.findByUfrag p 1, t.findByUfrag p 2) = (some 2, some 1) ∧ Refines p t :=
  ⟨by decide +kernel, by decide +kernel,
    session_table_refines _ 2 (by decide) (by decide) reusedUfrag⟩

end Runs

end MezonSfu.SessionTable
