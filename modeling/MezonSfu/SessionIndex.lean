import MezonSfu.SessionTable

/-!
The indexes of the session table agree with its array.

An index covers the keys of some objects; the test that a probe makes is right for those that have
a slot. Then a lookup finds the key, a removal makes a tombstone of its slot only, and an
insertion finds a place while there are fewer objects than slots. A session that changes its key
gets the new slot while it has the old one.
-/

namespace MezonSfu.SessionTable

open HashIndex Function Option

section Index

variable {K : Type*} {hash : K → ℕ} {obj : ℕ → Option K} {cap : ℕ} {index : HashIndex HashSlot}
  {isMatch isMatch' : ℕ → Bool} {k k' : K} {i j : ℕ}

/-- The test is right for the objects that have a slot. -/
def Agrees (obj : ℕ → Option K) (cap : ℕ) (index : HashIndex HashSlot) (isMatch : ℕ → Bool)
    (k : K) : Prop :=
  ∀ j e, j < cap → index.cells j = .full e → (isMatch e.index = true ↔ obj e.index = some k)

lemma Agrees.tests (h : Agrees obj cap index isMatch k) :
    Tests (slotKey hash obj) cap index (hits (hash k) isMatch) k := by
  apply tests_of
  intro j e hj hc
  unfold hits
  rw [Bool.and_eq_true, beq_iff_eq, h j e hj hc]

lemma Agrees.of_sub (h : Covers hash obj cap index) {seen : ℕ → Option K}
    (hmatch : ∀ i, isMatch i ↔ seen i = some k)
    (hsub : ∀ i k, obj i = some k → seen i = some k) : Agrees obj cap index isMatch k := by
  intro j e hj hc
  obtain ⟨k', hk', -⟩ := h.slot hj hc
  rw [hmatch, hsub _ k' hk', hk']

lemma addrProbe_insert_eq : addrProbe index cap (hash k) isMatch true =
    vacancy (index.probe cap (hits (hash k) isMatch) cap (hash k % cap) none) := by
  unfold addrProbe
  generalize index.probe cap (hits (hash k) isMatch) cap (hash k % cap) none = r
  cases r
  rfl

variable (h : Covers hash obj cap index) (ha : Agrees obj cap index isMatch k)

include h ha

lemma addrProbe_of_obj (hi : obj i = some k) :
    ∃ j < cap, index.cells j = .full ⟨hash k, i⟩ ∧
      ∀ forInsert, addrProbe index cap (hash k) isMatch forInsert = some j := by
  obtain ⟨j, hj, hc, hprobe⟩ := h.hit_of_obj ha.tests hi
  refine ⟨j, hj, hc, fun forInsert => ?_⟩
  have hprobe := hprobe none
  unfold addrProbe
  generalize index.probe cap (hits (hash k) isMatch) cap (hash k % cap) none = r at hprobe
  obtain ⟨free, r⟩ := r
  dsimp only at hprobe
  rw [hprobe]

/-- **A lookup** ends at the slot of the key or finds nothing. -/
lemma addrProbe_find (hp : addrProbe index cap (hash k) isMatch false = some j) :
    ∃ i, index.cells j = .full ⟨hash k, i⟩ ∧ obj i = some k := by
  have hhit := @Covers.obj_of_hit _ cap j k hash obj index _ h ha.tests none
  unfold addrProbe at hp
  generalize index.probe cap (hits (hash k) isMatch) cap (hash k % cap) none = r at hp hhit
  obtain ⟨free, r⟩ := r
  cases r with
  | hit slot =>
    cases hp
    exact (hhit rfl).2
  | gap | all => cases hp

/-- **A place for a new key.** -/
lemma addrProbe_insert (hnew : ∀ i, obj i ≠ some k)
    (hp : addrProbe index cap (hash k) isMatch true = some j) :
    j < cap ∧ (∀ e, index.cells j ≠ .full e) ∧ index.Reaches cap (hash k) j := by
  refine vacancy_spec ?_ hp
  intro l hl
  obtain ⟨-, i, -, hi⟩ := h.obj_of_hit ha.tests hl
  exact hnew i hi

lemma exists_addrProbe (hnew : ∀ i, obj i ≠ some k) (objects : Finset ℕ)
    (hcard : objects.card < cap) (hobj : ∀ i k, obj i = some k → i ∈ objects) :
    ∃ j, addrProbe index cap (hash k) isMatch true = some j := by
  obtain ⟨j, -, hv, -⟩ := h.place ha.tests hnew objects hcard hobj
  exact ⟨j, addrProbe_insert_eq.trans hv⟩

/-- **A new key gets a slot.** -/
lemma covers_put (hi : obj i = none) (hnew : ∀ i, obj i ≠ some k)
    (hp : addrProbe index cap (hash k) isMatch true = some j) :
    Covers hash (update obj i (some k)) cap (index.set j (.full ⟨hash k, i⟩)) := by
  obtain ⟨hj, hfree, hreach⟩ := addrProbe_insert h ha hnew hp
  exact h.insert hi hnew hj hfree hreach

lemma set_of_obj (hi : obj i = some k) (hp : addrProbe index cap (hash k) isMatch true = some j) :
    index.set j (.full ⟨hash k, i⟩) = index := by
  obtain ⟨l, -, hc, hprobe⟩ := addrProbe_of_obj h ha hi
  rw [hprobe, Option.some.injEq] at hp
  rw [← hp, ← hc]
  unfold HashIndex.set
  rw [update_eq_self]

lemma occupiedByOther_iff :
    occupiedByOther index cap (hash k) isMatch i ↔ ∃ l, obj l = some k ∧ l ≠ i := by
  unfold occupiedByOther
  constructor
  · intro hocc
    split at hocc
    · cases hocc
    · rename_i slot hp
      obtain ⟨l, hc, hl⟩ := addrProbe_find h ha hp
      rw [hc] at hocc
      exact ⟨l, hl, of_decide_eq_true hocc⟩
  · rintro ⟨l, hl, hli⟩
    obtain ⟨j, -, hc, hprobe⟩ := addrProbe_of_obj h ha hl
    rw [hprobe]
    dsimp only
    rw [hc]
    exact decide_eq_true hli

/-! ### Removal -/

lemma removeHash_of_obj (hi : obj i = some k) :
    ∃ j < cap, index.cells j = .full ⟨hash k, i⟩ ∧
      removeHash index cap (hash k) isMatch i = index.set j .deleted := by
  obtain ⟨j, hj, hc, hprobe⟩ := addrProbe_of_obj h ha hi
  refine ⟨j, hj, hc, ?_⟩
  unfold removeHash
  rw [hprobe]
  dsimp only
  rw [hc]
  exact if_pos rfl

lemma removeHash_of_none (hi : obj i = none) : removeHash index cap (hash k) isMatch i = index := by
  unfold removeHash
  split
  · rfl
  rename_i slot hp
  obtain ⟨l, hc, hl⟩ := addrProbe_find h ha hp
  rw [hc]
  refine if_neg ?_
  rintro rfl
  rw [hi] at hl
  cases hl

/-- **The object goes**, whether it was indexed or not. -/
lemma covers_removeHash (hi : obj i = some k ∨ obj i = none) :
    Covers hash (update obj i none) cap (removeHash index cap (hash k) isMatch i) := by
  rcases hi with hi | hi
  · obtain ⟨j, hj, hc, heq⟩ := removeHash_of_obj h ha hi
    rw [heq]
    exact h.delete hj hc
  · rw [removeHash_of_none h ha hi]
    rwa [update_eq_self_iff.2 hi.symm]

/-- **The object gets another key**, with a slot that was chosen before the old one went. -/
lemma covers_rebind (hi : obj i = some k) (ha' : Agrees obj cap index isMatch' k')
    (hother : ∀ l, obj l = some k' → l = i)
    (hp : addrProbe index cap (hash k') isMatch' true = some j) :
    Covers hash (update obj i (some k')) cap
      ((removeHash index cap (hash k) isMatch i).set j (.full ⟨hash k', i⟩)) := by
  obtain ⟨old, hold, hc, heq⟩ := removeHash_of_obj h ha hi
  have hdel := h.delete hold hc
  have hnew : ∀ l, update obj i none l ≠ some k' := by
    intro l hl
    obtain ⟨-, ⟨⟩⟩ | ⟨hli, hl⟩ := update_cases hl
    exact hli (hother l hl)
  -- the chosen slot is the old one if the key is the same, and vacant otherwise
  obtain ⟨hj, hfree, hreach⟩ : j < cap ∧ (∀ e, (index.set old .deleted).cells j ≠ .full e) ∧
      index.Reaches cap (hash k') j := by
    by_cases hk : k' = k
    · obtain ⟨l, hl, hcl, hprobe⟩ := addrProbe_of_obj h ha' (hk ▸ hi)
      rw [hprobe, Option.some.injEq] at hp
      have hlo : l = old := h.cell_inj hl hold hcl hc rfl
      obtain ⟨key, hkey, hreach⟩ := h.wf.keyed l _ hl hcl
      rw [slotKey_self (hk ▸ hi), Option.some.injEq] at hkey
      subst hp
      refine ⟨hl, ?_, hkey ▸ hreach⟩
      intro e he
      rw [hlo, cells_set_self] at he
      cases he
    · have hnone : ∀ l, obj l ≠ some k' := by
        intro l hl
        have hli := hother l hl
        rw [hli, hi, Option.some.injEq] at hl
        exact hk hl.symm
      obtain ⟨hj, hfree, hreach⟩ := addrProbe_insert h ha' hnone hp
      refine ⟨hj, ?_, hreach⟩
      intro e he
      have hjo : j ≠ old := by
        rintro rfl
        exact hfree _ hc
      rw [cells_set_of_ne hjo] at he
      exact hfree e he
  have hput := hdel.insert (update_self ..) hnew hj hfree
    (Reaches.set (c := .deleted) hreach nofun old)
  rw [update_idem] at hput
  rwa [heq]

end Index

namespace Table

variable {A U : Type*} {p : Hashes A U} {t t' : Table A U} {s s' i idx : ℕ} {a : A} {u : U}
  {x : Session A U}

section

variable (t : Table A U)

def addrObj (i : ℕ) : Option A := (t.sessions i).bind t.addrOf

def ufragObj (i : ℕ) : Option U := (t.sessions i).bind t.indexedAs

def ufragSeen (i : ℕ) : Option U := (t.sessions i).bind t.ufragOf

/-- Created and not closed. -/
def Live (s : ℕ) : Prop := ∃ x, t.heap s = some x ∧ x.lifecycle = .opened

end

/-- The array holds the live sessions; the stack holds the other indices. -/
structure Placed (t : Table A U) : Prop where
  stored : ∀ i s, t.sessions i = some s →
    i < t.count ∧ ∃ x, t.heap s = some x ∧ x.tableIndex = some i ∧ x.lifecycle = .opened ∧
      x.acceptsWork = true
  live : ∀ s, t.Live s → ∃ i, t.sessions i = some s
  lt_next : ∀ s x, t.heap s = some x → s < t.next
  free_nodup : t.freeIndices.Nodup
  free_iff : ∀ i, i ∈ t.freeIndices ↔ i < t.count ∧ t.sessions i = none
  le : t.count ≤ t.capacity
  active : t.activeCount + t.freeIndices.length = t.count

structure Inv (p : Hashes A U) (t : Table A U) : Prop extends Placed t where
  addr : Covers p.addr t.addrObj p.addrSlots t.addrIndex
  ufrag : Covers p.ufrag t.ufragObj p.ufragSlots t.ufragIndex
  named : ∀ s u, t.indexedAs s = some u → t.ufragOf s = some u

/-! ### Sessions in the table -/

section

variable (h : Placed t)

include h

lemma Placed.live_iff : t.Live s ↔ ∃ i, t.sessions i = some s := by
  refine ⟨h.live s, ?_⟩
  rintro ⟨i, hi⟩
  obtain ⟨-, x, hx, -, hopen, -⟩ := h.stored i s hi
  exact ⟨x, hx, hopen⟩

lemma Placed.index_inj {j : ℕ} (hi : t.sessions i = some s)
    (hj : t.sessions j = some s) : i = j := by
  obtain ⟨-, x, hx, hxi, -⟩ := h.stored i s hi
  obtain ⟨-, y, hy, hyj, -⟩ := h.stored j s hj
  rw [hx, Option.some.injEq] at hy
  rw [← hy, hxi, Option.some.injEq] at hyj
  exact hyj

lemma Placed.at?_eq (i : ℕ) : t.at? i = t.sessions i := by
  unfold at?
  split
  · rfl
  · rename_i hlt
    cases hs : t.sessions i with
    | none => rfl
    | some s => exact absurd (h.stored i s hs).1 hlt

lemma Placed.memberIndex_iff : t.memberIndex s = some i ↔ t.sessions i = some s := by
  unfold memberIndex
  rw [filter_eq_some_iff, decide_eq_true_eq]
  constructor
  · rintro ⟨-, -, hi⟩
    exact hi
  · intro hi
    obtain ⟨hlt, x, hx, hxi, -⟩ := h.stored i s hi
    exact ⟨by rw [hx]; exact hxi, hlt, hi⟩

lemma Placed.accepts (hi : t.sessions i = some s) : t.accepts s = true := by
  obtain ⟨-, x, hx, -, hopen, hwork⟩ := h.stored i s hi
  unfold Table.accepts
  rw [hx, any_some, hopen, hwork]
  rfl

end

lemma addrObj_eq_some : t.addrObj i = some a ↔ ∃ s, t.sessions i = some s ∧ t.addrOf s = some a :=
  bind_eq_some_iff

lemma ufragObj_eq_some :
    t.ufragObj i = some u ↔ ∃ s, t.sessions i = some s ∧ t.indexedAs s = some u :=
  bind_eq_some_iff

lemma Inv.ufragSeen (h : Inv p t) (hi : t.ufragObj i = some u) : t.ufragSeen i = some u := by
  obtain ⟨s, hs, hu⟩ := ufragObj_eq_some.1 hi
  exact bind_eq_some_iff.2 ⟨s, hs, h.named s u hu⟩

lemma Placed.addrOf_isSome (h : Placed t) (hi : t.sessions i = some s) :
    ∃ a, t.addrOf s = some a := by
  obtain ⟨-, x, hx, -⟩ := h.stored i s hi
  exact ⟨x.addr, by unfold addrOf; rw [hx]; rfl⟩

section Lookup

variable [DecidableEq A] [DecidableEq U]

omit [DecidableEq U] in
lemma Placed.addrMatches_iff (h : Placed t) : t.addrMatches a i ↔ t.addrObj i = some a := by
  unfold addrMatches
  rw [h.at?_eq, any_eq_true, addrObj_eq_some]
  simp only [decide_eq_true_eq]

omit [DecidableEq A] in
lemma Placed.ufragMatches_iff (h : Placed t) : t.ufragMatches u i ↔ t.ufragSeen i = some u := by
  unfold ufragMatches Table.ufragSeen
  rw [h.at?_eq, any_eq_true, bind_eq_some_iff]
  simp only [decide_eq_true_eq]

omit [DecidableEq U] in
lemma Inv.addr_agrees (h : Inv p t) (a : A) :
    Agrees t.addrObj p.addrSlots t.addrIndex (t.addrMatches a) a :=
  .of_sub h.addr (fun _ => h.addrMatches_iff) fun _ _ hi => hi

omit [DecidableEq A] in
lemma Inv.ufrag_agrees (h : Inv p t) (u : U) :
    Agrees t.ufragObj p.ufragSlots t.ufragIndex (t.ufragMatches u) u :=
  .of_sub h.ufrag (fun _ => h.ufragMatches_iff) fun _ _ hi => h.ufragSeen hi

omit [DecidableEq A] [DecidableEq U] in
lemma Placed.lookup_iff {K : Type*} {hash : K → ℕ} {key : ℕ → Option K} {cap : ℕ}
    {index : HashIndex HashSlot} {isMatch : ℕ → Bool} {k : K} (h : Placed t)
    (hc : Covers hash (fun i => (t.sessions i).bind key) cap index)
    (ha : Agrees (fun i => (t.sessions i).bind key) cap index isMatch k) :
    (addrProbe index cap (hash k) isMatch false).bind (t.sessionIn index) = some s ↔
      t.Live s ∧ key s = some k := by
  rw [bind_eq_some_iff]
  constructor
  · rintro ⟨slot, hslot, hs⟩
    obtain ⟨i, hcell, hi⟩ := addrProbe_find hc ha hslot
    unfold sessionIn at hs
    rw [hcell] at hs
    dsimp only at hs
    rw [h.at?_eq] at hs
    rw [hs, bind_some] at hi
    exact ⟨h.live_iff.2 ⟨i, hs⟩, hi⟩
  · rintro ⟨hlive, hk⟩
    obtain ⟨i, hs⟩ := h.live s hlive
    obtain ⟨j, -, hcell, hprobe⟩ := addrProbe_of_obj (i := i) hc ha (by rw [hs]; exact hk)
    refine ⟨j, hprobe false, ?_⟩
    unfold sessionIn
    rw [hcell]
    dsimp only
    rw [h.at?_eq, hs]

omit [DecidableEq U] in
/-- **Lookups by address.** -/
lemma Inv.find_iff (h : Inv p t) : t.find p a = some s ↔ t.Live s ∧ t.addrOf s = some a :=
  h.lookup_iff h.addr (h.addr_agrees a)

omit [DecidableEq A] in
/-- **Lookups by ufrag.** -/
lemma Inv.findByUfrag_iff (h : Inv p t) :
    t.findByUfrag p u = some s ↔ t.Live s ∧ t.indexedAs s = some u :=
  h.lookup_iff h.ufrag (h.ufrag_agrees u)

omit [DecidableEq U] in
lemma Inv.addrObj_ne (h : Inv p t) (hfind : t.find p a = none) (i : ℕ) : t.addrObj i ≠ some a := by
  intro hi
  obtain ⟨s, hs, ha⟩ := addrObj_eq_some.1 hi
  have hfound := h.find_iff.2 ⟨h.live_iff.2 ⟨i, hs⟩, ha⟩
  rw [hfind] at hfound
  cases hfound

omit [DecidableEq A] in
lemma Inv.ufragObj_ne (h : Inv p t) (hfind : t.findByUfrag p u = none) (i : ℕ) :
    t.ufragObj i ≠ some u := by
  intro hi
  obtain ⟨s, hs, hu⟩ := ufragObj_eq_some.1 hi
  have hfound := h.findByUfrag_iff.2 ⟨h.live_iff.2 ⟨i, hs⟩, hu⟩
  rw [hfind] at hfound
  cases hfound

end Lookup

end Table

end MezonSfu.SessionTable
