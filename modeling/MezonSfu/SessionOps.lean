import MezonSfu.SessionIndex

/-!
The operations of the session table keep its array and its indexes in order: creation, a change of
address, the indexing of a ufrag and closing, each as the change it makes to the table.
-/

namespace MezonSfu.SessionTable

open HashIndex Function List

namespace Table

variable {A U : Type*} {p : Hashes A U} {t t' : Table A U} {s s' i idx : ℕ} {a : A} {u : U}
  {x : Session A U}

/-! ### Creation -/

/-- What a reserved index is: one that no session has, below the new count. -/
structure Reserved (t : Table A U) (count : ℕ) (free : List ℕ) (index : ℕ) : Prop where
  vacant : t.sessions index = none
  lt : index < count
  ge : t.count ≤ count
  le : count ≤ t.capacity
  nodup : free.Nodup
  free_iff : ∀ i, i ∈ free ↔ i < count ∧ t.sessions i = none ∧ i ≠ index
  active : t.activeCount + 1 + free.length = count

lemma Placed.reserveIndex_cases (h : Placed t) :
    (t.reserveIndex = none ∧ t.freeIndices = [] ∧ t.count = t.capacity) ∨
    ∃ count free index reused,
      t.reserveIndex = some ({ t with count := count, freeIndices := free }, index, reused) ∧
      { t with count := count, freeIndices := free }.rollbackReservedSlot index reused = t ∧
      Reserved t count free index := by
  have hactive := h.active
  have hiff := h.free_iff
  have hnodup := h.free_nodup
  unfold reserveIndex
  cases hf : t.freeIndices with
  | nil =>
    rw [hf] at hactive hiff
    rw [length_nil] at hactive
    by_cases hfull : t.capacity ≤ t.count
    · exact .inl ⟨if_pos hfull, rfl, le_antisymm h.le hfull⟩
    have hvacant : t.sessions t.count = none := by
      cases hs : t.sessions t.count with
      | none => rfl
      | some s => exact absurd (h.stored _ s hs).1 (Nat.lt_irrefl _)
    refine .inr ⟨t.count + 1, [], t.count, false, ?_, ?_, hvacant, Nat.lt_succ_self _,
      Nat.le_succ _, not_le.1 hfull, nodup_nil, ?_, ?_⟩
    · dsimp only
      rw [if_neg hfull, ← hf]
    · unfold rollbackReservedSlot
      rw [if_neg Bool.false_ne_true]
      rw [Nat.add_sub_cancel, ← hf]
    · intro i
      refine ⟨nofun, ?_⟩
      rintro ⟨hi, hs, hne⟩
      exact (hiff i).2 ⟨by omega, hs⟩
    · rw [length_nil]
      omega
  | cons index rest =>
    rw [hf] at hactive hiff hnodup
    rw [length_cons] at hactive
    obtain ⟨hindex, hrest⟩ := nodup_cons.1 hnodup
    obtain ⟨hlt, hvacant⟩ := (hiff index).1 (mem_cons_self ..)
    refine .inr ⟨t.count, rest, index, true, rfl, ?_, hvacant, hlt, le_rfl, h.le, hrest, ?_, ?_⟩
    · unfold rollbackReservedSlot
      rw [if_pos rfl, ← hf]
    · intro i
      constructor
      · intro hi
        obtain ⟨hi', hs⟩ := (hiff i).1 (mem_cons_of_mem _ hi)
        refine ⟨hi', hs, ?_⟩
        rintro rfl
        exact hindex hi
      · rintro ⟨hi, hs, hne⟩
        exact mem_of_ne_of_mem hne ((hiff i).2 ⟨hi, hs⟩)
    · omega

def created (p : Hashes A U) (t : Table A U) (count : ℕ) (free : List ℕ) (addr : A)
    (index slot : ℕ) : Table A U :=
  { { t with count := count, freeIndices := free }.publish addr index with
    addrIndex := t.addrIndex.set slot (.full ⟨p.addr addr, index⟩)
    activeCount := t.activeCount + 1 }

section Created

variable {count : ℕ} {free : List ℕ} {slot : ℕ}

lemma Placed.ne_next (h : Placed t) (hs : t.sessions i = some s) : s ≠ t.next := by
  obtain ⟨-, x, hx, -⟩ := h.stored i s hs
  exact (h.lt_next s x hx).ne

lemma Placed.heap_next (h : Placed t) : t.heap t.next = none := by
  cases hx : t.heap t.next with
  | none => rfl
  | some x => exact absurd (h.lt_next _ x hx) (Nat.lt_irrefl _)

lemma created_sessions {j : ℕ} (hs : (t.created p count free a i slot).sessions j = some s) :
    (j = i ∧ s = t.next) ∨ (j ≠ i ∧ t.sessions j = some s) := by
  exact (update_cases hs).imp_left fun h => ⟨h.1, (Option.some.inj h.2).symm⟩

lemma created_heap_next : (t.created p count free a i slot).heap t.next = some (.new a i) :=
  update_self ..

lemma created_heap (hs : s ≠ t.next) : (t.created p count free a i slot).heap s = t.heap s :=
  update_of_ne hs ..

lemma Placed.created (h : Placed t) (hr : Reserved t count free i) :
    Placed (t.created p count free a i slot) := by
  refine ⟨?_, ?_, ?_, hr.nodup, ?_, hr.le, hr.active⟩
  · intro j s hs
    rcases created_sessions hs with ⟨rfl, rfl⟩ | ⟨hj, hs⟩
    · exact ⟨hr.lt, _, created_heap_next, rfl, rfl, rfl⟩
    · rw [created_heap (h.ne_next hs)]
      obtain ⟨hlt, hx⟩ := h.stored j s hs
      exact ⟨hlt.trans_le hr.ge, hx⟩
  · rintro s ⟨x, hx, hopen⟩
    by_cases hs : s = t.next
    · exact ⟨i, by rw [hs]; exact update_self ..⟩
    rw [created_heap hs] at hx
    obtain ⟨j, hj⟩ := h.live s ⟨x, hx, hopen⟩
    have hji : j ≠ i := by
      rintro rfl
      rw [hr.vacant] at hj
      cases hj
    exact ⟨j, (update_of_ne hji ..).trans hj⟩
  · intro s x hx
    by_cases hs : s = t.next
    · exact hs ▸ Nat.lt_succ_self _
    · rw [created_heap hs] at hx
      exact Nat.lt_succ_of_lt (h.lt_next s x hx)
  · intro j
    refine (hr.free_iff j).trans (and_congr_right fun _ => ?_)
    change _ ↔ update t.sessions i (some t.next) j = none
    by_cases hj : j = i
    · rw [hj, update_self]
      exact ⟨fun h => absurd rfl h.2, nofun⟩
    · rw [update_of_ne hj]
      exact ⟨fun h => h.1, fun h => ⟨h, hj⟩⟩

lemma Placed.addrObj_created (h : Placed t) :
    (t.created p count free a i slot).addrObj = update t.addrObj i (some a) := by
  funext j
  change (update t.sessions i (some t.next) j).bind _ = _
  by_cases hj : j = i
  · rw [hj, update_self, update_self, Option.bind_some]
    unfold addrOf
    rw [created_heap_next]
    rfl
  · rw [update_of_ne hj, update_of_ne hj]
    refine Option.bind_congr fun s hs => ?_
    unfold addrOf
    rw [created_heap (h.ne_next hs)]

lemma Inv.indexedAs_next (h : Inv p t) : t.indexedAs t.next = none := by
  cases hu : t.indexedAs t.next with
  | none => rfl
  | some u =>
    have hnamed := h.named _ u hu
    unfold ufragOf at hnamed
    rw [h.heap_next] at hnamed
    cases hnamed

lemma Inv.ufragObj_created (h : Inv p t) (hr : Reserved t count free i) :
    (t.created p count free a i slot).ufragObj = t.ufragObj := by
  funext j
  unfold ufragObj
  change (update t.sessions i (some t.next) j).bind t.indexedAs = _
  by_cases hj : j = i
  · rw [hj, update_self, Option.bind_some, hr.vacant, h.indexedAs_next]
    rfl
  · rw [update_of_ne hj]

lemma Inv.created (h : Inv p t) (hr : Reserved t count free i) (hnew : ∀ i, t.addrObj i ≠ some a)
    {isMatch : ℕ → Bool} (ha : Agrees t.addrObj p.addrSlots t.addrIndex isMatch a)
    (hp : addrProbe t.addrIndex p.addrSlots (p.addr a) isMatch true = some slot) :
    Inv p (t.created p count free a i slot) := by
  have hvacant : t.addrObj i = none := by
    unfold addrObj
    rw [hr.vacant]
    rfl
  refine ⟨h.toPlaced.created hr, ?_, ?_, ?_⟩
  · rw [h.addrObj_created]
    exact covers_put h.addr ha hvacant hnew hp
  · rw [h.ufragObj_created hr]
    exact h.ufrag
  · intro s u hu
    change t.indexedAs s = some u at hu
    have hs : s ≠ t.next := by
      rintro rfl
      rw [h.indexedAs_next] at hu
      cases hu
    unfold ufragOf
    rw [created_heap hs]
    exact h.named s u hu

end Created

def Full (t : Table A U) : Prop := ∃ S : Finset ℕ, S.card = t.capacity ∧ ∀ s ∈ S, t.Live s

lemma Placed.full (h : Placed t) (hfree : t.freeIndices = []) (hcount : t.count = t.capacity) :
    t.Full := by
  have hall : ∀ i < t.count, ∃ s, t.sessions i = some s := by
    intro i hi
    cases hs : t.sessions i with
    | some s => exact ⟨s, rfl⟩
    | none =>
      have hmem := (h.free_iff i).2 ⟨hi, hs⟩
      rw [hfree] at hmem
      cases hmem
  choose! f hf using hall
  refine ⟨(Finset.range t.count).image f, ?_, ?_⟩
  · rw [Finset.card_image_of_injOn, Finset.card_range, hcount]
    intro i hi j hj heq
    have hi := hf i (Finset.mem_range.1 hi)
    have hj := hf j (Finset.mem_range.1 hj)
    rw [show f i = f j from heq] at hi
    exact h.index_inj hi hj
  · intro s hs
    obtain ⟨i, hi, rfl⟩ := Finset.mem_image.1 hs
    exact h.live_iff.2 ⟨i, hf i (Finset.mem_range.1 hi)⟩

section Ops

variable [DecidableEq A] [DecidableEq U]

omit [DecidableEq U] in
/-- **Creation**: the address is known, or there is no room or memory, or there is a new session
for it. -/
lemma Inv.getOrCreate_cases (h : Inv p t) (hslots : t.capacity ≤ p.addrSlots) (allocates : Bool) :
    (∃ s, t.find p a = some s ∧ t.getOrCreate p a allocates = (t, some s)) ∨
    (t.getOrCreate p a allocates = (t, none) ∧ (allocates → t.Full)) ∨
    ∃ count free index slot, Reserved t count free index ∧
      Inv p (t.created p count free a index slot) ∧
      t.getOrCreate p a allocates = (t.created p count free a index slot, some t.next) := by
  unfold getOrCreate
  cases hfind : t.find p a with
  | some s => exact .inl ⟨s, rfl, rfl⟩
  | none =>
    refine .inr ?_
    rcases h.reserveIndex_cases with ⟨hnone, hfree, hcount⟩ |
      ⟨count, free, index, reused, hsome, hroll, hr⟩
    · rw [hnone]
      exact .inl ⟨rfl, fun _ => h.full hfree hcount⟩
    rw [hsome]
    dsimp only
    cases allocates with
    | false =>
      rw [Bool.not_false, if_pos rfl, hroll]
      exact .inl ⟨rfl, nofun⟩
    | true =>
      set t₁ := { t with count := count, freeIndices := free }.publish a index with ht₁
      have hnew := h.addrObj_ne hfind
      -- the new session is seen at its index, but has no slot yet
      have hr₁ : Placed (t.created p count free a index 0) := h.toPlaced.created hr
      have hagrees : Agrees t.addrObj p.addrSlots t.addrIndex (t₁.addrMatches a) a := by
        have hseen : ∀ i, t₁.addrMatches a i ↔
            update t.addrObj index (some a) i = some a := by
          intro i
          rw [← h.addrObj_created]
          exact hr₁.addrMatches_iff
        refine .of_sub h.addr hseen fun i k hi => ?_
        have hne : i ≠ index := by
          rintro rfl
          unfold addrObj at hi
          rw [hr.vacant] at hi
          cases hi
        rw [update_of_ne hne, hi]
      obtain ⟨slot, hslot⟩ := exists_addrProbe h.addr hagrees hnew
        ((Finset.range count).erase index)
        (by
          rw [Finset.card_erase_of_mem (Finset.mem_range.2 hr.lt), Finset.card_range]
          have := hr.lt
          have := hr.le
          omega)
        (by
          intro i k hi
          obtain ⟨s, hs, -⟩ := addrObj_eq_some.1 hi
          refine Finset.mem_erase.2 ⟨?_, Finset.mem_range.2 ((h.stored i s hs).1.trans_le hr.ge)⟩
          rintro rfl
          rw [hr.vacant] at hs
          cases hs)
      refine .inr ⟨count, free, index, slot, hr, h.created hr hnew hagrees hslot, ?_⟩
      have hindex : t₁.indexAddr p a index =
          some { t₁ with addrIndex := t₁.addrIndex.set slot (.full ⟨p.addr a, index⟩) } := by
        have hslot : addrProbe t₁.addrIndex p.addrSlots (p.addr a) (t₁.addrMatches a) true =
            some slot := hslot
        unfold indexAddr
        rw [hslot]
        rfl
      rw [hindex]
      rfl

/-! ### Changing a session -/

def withSession (t : Table A U) (s : ℕ) (x : Session A U) : Table A U :=
  { t with heap := update t.heap s (some x) }

section

omit [DecidableEq A] [DecidableEq U]

lemma modifySession_eq (hx : t.heap s = some x) (f : Session A U → Session A U) :
    t.modifySession s f = t.withSession s (f x) := by
  unfold modifySession withSession
  rw [hx, Option.map_some]

lemma Placed.bind_update {K : Type*} {key key' : ℕ → Option K} (h : Placed t)
    (hidx : t.sessions idx = some s) (hkey : ∀ s' ≠ s, key' s' = key s') :
    (fun j => (t.sessions j).bind key') =
      update (fun j => (t.sessions j).bind key) idx (key' s) := by
  funext j
  by_cases hj : j = idx
  · rw [hj, update_self, hidx, Option.bind_some]
  · rw [update_of_ne hj]
    refine Option.bind_congr fun s' hs' => hkey s' ?_
    rintro rfl
    exact hj (h.index_inj hs' hidx)

lemma Placed.bind_remove {K : Type*} {key key' : ℕ → Option K} (h : Placed t)
    (hidx : t.sessions idx = some s) (hkey : ∀ s' ≠ s, key' s' = key s') :
    (fun j => (update t.sessions idx none j).bind key') =
      update (fun j => (t.sessions j).bind key) idx none := by
  have hupdate := h.bind_update hidx hkey
  funext j
  have hj := congrFun hupdate j
  by_cases hji : j = idx
  · rw [hji, update_self, update_self, Option.bind_none]
  · rw [update_of_ne hji] at hj ⊢
    rw [update_of_ne hji, hj]

lemma Placed.withSession (h : Placed t) (hx : t.heap s = some x) {y : Session A U}
    (hi : y.tableIndex = x.tableIndex) (hl : y.lifecycle = x.lifecycle)
    (hw : y.acceptsWork = x.acceptsWork) : Placed (t.withSession s y) := by
  have hheap : ∀ s' z, (t.withSession s y).heap s' = some z → ∃ z', t.heap s' = some z' ∧
      z.tableIndex = z'.tableIndex ∧ z.lifecycle = z'.lifecycle := by
    intro s' z hz
    obtain ⟨rfl, ⟨⟩⟩ | ⟨-, hz⟩ := update_cases hz
    · exact ⟨x, hx, hi, hl⟩
    · exact ⟨z, hz, rfl, rfl⟩
  refine { h with stored := ?_, live := ?_, lt_next := ?_ }
  · intro i s' hs'
    obtain ⟨hlt, z, hz, hzi, hzl, hzw⟩ := h.stored i s' hs'
    refine ⟨hlt, ?_⟩
    change ∃ z, update t.heap s (some y) s' = some z ∧ _
    by_cases hs : s' = s
    · rw [hs, hx, Option.some.injEq] at hz
      rw [hs, update_self]
      exact ⟨y, rfl, hi.trans (hz ▸ hzi), hl.trans (hz ▸ hzl), hw.trans (hz ▸ hzw)⟩
    · rw [update_of_ne hs]
      exact ⟨z, hz, hzi, hzl, hzw⟩
  · rintro s' ⟨z, hz, hopen⟩
    obtain ⟨z', hz', -, hzl⟩ := hheap s' z hz
    exact h.live s' ⟨z', hz', hzl ▸ hopen⟩
  · intro s' z hz
    obtain ⟨z', hz', -⟩ := hheap s' z hz
    exact h.lt_next s' z' hz'

lemma withSession_addrOf (hx : t.heap s = some x) (y : Session A U) (ha : y.addr = x.addr) :
    (t.withSession s y).addrOf = t.addrOf := by
  funext s'
  unfold addrOf withSession
  dsimp only
  by_cases hs : s' = s
  · rw [hs, update_self, hx, Option.map_some, Option.map_some, ha]
  · rw [update_of_ne hs]

lemma withSession_ufragOf (hx : t.heap s = some x) (y : Session A U) (hu : y.ufrag = x.ufrag) :
    (t.withSession s y).ufragOf = t.ufragOf := by
  funext s'
  unfold ufragOf withSession
  dsimp only
  by_cases hs : s' = s
  · rw [hs, update_self, hx, Option.bind_some, Option.bind_some, hu]
  · rw [update_of_ne hs]

lemma Inv.setUfrag (h : Inv p t) (hx : t.heap s = some x) (hnone : x.ufrag = none) (u : U) :
    Inv p (t.withSession s { x with ufrag := some u }) := by
  refine ⟨h.toPlaced.withSession hx rfl rfl rfl, ?_, h.ufrag, ?_⟩
  · unfold addrObj
    rw [withSession_addrOf hx { x with ufrag := some u } rfl]
    exact h.addr
  intro s' u' hu'
  have hnamed := h.named s' u' hu'
  have hs : s' ≠ s := by
    rintro rfl
    unfold ufragOf at hnamed
    rw [hx, Option.bind_some, hnone] at hnamed
    cases hnamed
  unfold ufragOf withSession
  dsimp only
  rw [update_of_ne hs]
  exact hnamed

end

/-- The table after the address of the session at `idx` was changed. -/
def rebound (p : Hashes A U) (t : Table A U) (s idx : ℕ) (x : Session A U) (a : A)
    (slot : ℕ) : Table A U :=
  { t.withSession s { x with addr := a, addressGeneration := x.addressGeneration + 1 } with
    addrIndex := (removeHash t.addrIndex p.addrSlots (p.addr x.addr) (t.addrMatches x.addr)
      idx).set slot (.full ⟨p.addr a, idx⟩) }

section

omit [DecidableEq U]

lemma removeAddrHash_eq (hx : t.heap s = some x) :
    t.removeAddrHash p s idx = { t with
      addrIndex := removeHash t.addrIndex p.addrSlots (p.addr x.addr) (t.addrMatches x.addr)
        idx } := by
  unfold removeAddrHash addrOf
  rw [hx]
  rfl

lemma Inv.rebindAddr_cases (h : Inv p t) :
    t.rebindAddr p s a = (t, false) ∨
    ∃ idx x slot, t.sessions idx = some s ∧ t.heap s = some x ∧
      (∀ l, t.addrObj l = some a → l = idx) ∧
      addrProbe t.addrIndex p.addrSlots (p.addr a) (t.addrMatches a) true = some slot ∧
      t.rebindAddr p s a = (t.rebound p s idx x a slot, true) := by
  unfold rebindAddr
  cases hm : t.memberIndex s with
  | none => exact .inl rfl
  | some idx =>
    have hidx := h.memberIndex_iff.1 hm
    obtain ⟨-, x, hx, -⟩ := h.stored idx s hidx
    dsimp only
    rw [h.accepts hidx, Bool.not_true, if_neg Bool.false_ne_true]
    by_cases hocc : occupiedByOther t.addrIndex p.addrSlots (p.addr a) (t.addrMatches a) idx
    · rw [if_pos hocc]
      exact .inl rfl
    rw [if_neg hocc]
    cases hp : addrProbe t.addrIndex p.addrSlots (p.addr a) (t.addrMatches a) true with
    | none => exact .inl rfl
    | some slot =>
      refine .inr ⟨idx, x, slot, hidx, hx, ?_, rfl, ?_⟩
      · intro l hl
        by_contra hne
        exact hocc ((occupiedByOther_iff h.addr (h.addr_agrees a)).2 ⟨l, hl, hne⟩)
      rw [removeAddrHash_eq hx]
      unfold modifySession
      dsimp only
      rw [hx]
      rfl

/-- **Rebinding** gives the session its new address. -/
lemma Inv.rebindAddr (h : Inv p t) (s : ℕ) (a : A) : Inv p (t.rebindAddr p s a).1 := by
  rcases h.rebindAddr_cases (s := s) (a := a) with heq | ⟨idx, x, slot, hidx, hx, hother, hp, heq⟩
  · rw [heq]
    exact h
  rw [heq]
  set y : Session A U := { x with addr := a, addressGeneration := x.addressGeneration + 1 }
    with hy
  have hkey : (t.withSession s y).addrOf s = some a := by
    unfold addrOf withSession
    dsimp only
    rw [update_self, hy]
    rfl
  have hobj : (t.rebound p s idx x a slot).addrObj = update t.addrObj idx (some a) := by
    rw [← hkey]
    refine h.bind_update hidx fun s' hs => ?_
    unfold addrOf rebound withSession
    dsimp only
    rw [update_of_ne hs]
  have hold : t.addrObj idx = some x.addr :=
    addrObj_eq_some.2 ⟨s, hidx, by unfold addrOf; rw [hx]; rfl⟩
  have hplaced : Placed (t.withSession s y) := h.toPlaced.withSession hx rfl rfl rfl
  refine ⟨{ hplaced with }, ?_, h.ufrag, ?_⟩
  · rw [hobj]
    exact covers_rebind h.addr (h.addr_agrees x.addr) hold (h.addr_agrees a) hother hp
  · change ∀ s' u, t.indexedAs s' = some u → (t.withSession s y).ufragOf s' = some u
    rw [withSession_ufragOf hx y rfl]
    exact h.named

end

/-- The table after the session at `idx` was indexed. -/
def named (p : Hashes A U) (t : Table A U) (s idx : ℕ) (u : U) (slot : ℕ) : Table A U :=
  { t with
    ufragIndex := t.ufragIndex.set slot (.full ⟨p.ufrag u, idx⟩)
    indexedAs := update t.indexedAs s (some u) }

omit [DecidableEq A] in
lemma Inv.indexUfrag_cases (h : Inv p t) :
    (t.indexUfrag p s = (t, false)) ∨
    ∃ idx u slot, t.sessions idx = some s ∧ t.ufragOf s = some u ∧
      (∀ l, t.ufragObj l = some u → l = idx) ∧
      addrProbe t.ufragIndex p.ufragSlots (p.ufrag u) (t.ufragMatches u) true = some slot ∧
      t.indexUfrag p s = (t.named p s idx u slot, true) := by
  unfold indexUfrag
  cases hu : t.ufragOf s with
  | none => exact .inl rfl
  | some u =>
  cases hm : t.memberIndex s with
  | none => exact .inl rfl
  | some idx =>
    have hidx := h.memberIndex_iff.1 hm
    dsimp only
    rw [h.accepts hidx, Bool.not_true, if_neg Bool.false_ne_true]
    by_cases hocc :
        occupiedByOther t.ufragIndex p.ufragSlots (p.ufrag u) (t.ufragMatches u) idx
    · rw [if_pos hocc]
      exact .inl rfl
    rw [if_neg hocc]
    cases hp : addrProbe t.ufragIndex p.ufragSlots (p.ufrag u) (t.ufragMatches u) true with
    | none => exact .inl rfl
    | some slot =>
      refine .inr ⟨idx, u, slot, hidx, rfl, ?_, hp, rfl⟩
      intro l hl
      by_contra hne
      exact hocc ((occupiedByOther_iff h.ufrag (h.ufrag_agrees u)).2 ⟨l, hl, hne⟩)

omit [DecidableEq A] [DecidableEq U] in
lemma Inv.ufragObj_or (h : Inv p t) (hidx : t.sessions idx = some s) :
    t.ufragObj idx = none ∨ t.ufragObj idx = t.ufragOf s := by
  cases hobj : t.ufragObj idx with
  | none => exact .inl rfl
  | some u =>
    obtain ⟨s', hs', hu⟩ := ufragObj_eq_some.1 hobj
    rw [hidx, Option.some.injEq] at hs'
    rw [hs', h.named s' u hu]
    exact .inr rfl

omit [DecidableEq A] in
/-- **Indexing** makes the session known under its ufrag. -/
lemma Inv.indexUfrag (h : Inv p t) (s : ℕ) : Inv p (t.indexUfrag p s).1 := by
  rcases h.indexUfrag_cases (s := s) with heq | ⟨idx, u, slot, hidx, hu, hother, hp, heq⟩
  · rw [heq]
    exact h
  rw [heq]
  have hobj : (t.named p s idx u slot).ufragObj = update t.ufragObj idx (some u) := by
    have hkey : update t.indexedAs s (some u) s = some u := update_self ..
    rw [← hkey]
    exact h.bind_update hidx fun s' hs => update_of_ne hs ..
  refine ⟨{ h with }, h.addr, ?_, ?_⟩
  · rw [hobj]
    change Covers p.ufrag _ p.ufragSlots (t.ufragIndex.set slot (.full ⟨p.ufrag u, idx⟩))
    rcases hu ▸ h.ufragObj_or hidx with hnone | hsome
    · refine covers_put h.ufrag (h.ufrag_agrees u) hnone ?_ hp
      intro l hl
      rw [hother l hl, hnone] at hl
      cases hl
    · rw [set_of_obj h.ufrag (h.ufrag_agrees u) hsome hp, ← hsome, update_eq_self]
      exact h.ufrag
  · intro s' u' hu'
    obtain ⟨rfl, ⟨⟩⟩ | ⟨-, hu'⟩ := update_cases hu'
    · exact hu
    · exact h.named s' u' hu'

omit [DecidableEq A] in
lemma Inv.indexUfrag_ok (h : Inv p t) (hslots : t.capacity ≤ p.ufragSlots)
    (hidx : t.sessions idx = some s) (hu : t.ufragOf s = some u)
    (hnew : ∀ i, t.ufragObj i ≠ some u) : (t.indexUfrag p s).2 := by
  have hnone : t.ufragObj idx = none := (h.ufragObj_or hidx).resolve_right (hu ▸ hnew idx)
  have hlt := (h.stored idx s hidx).1
  obtain ⟨slot, hp⟩ := exists_addrProbe h.ufrag (h.ufrag_agrees u) hnew
    ((Finset.range t.count).erase idx)
    (by
      rw [Finset.card_erase_of_mem (Finset.mem_range.2 hlt), Finset.card_range]
      have := h.le
      omega)
    (by
      intro i k hi
      obtain ⟨s', hs', -⟩ := ufragObj_eq_some.1 hi
      refine Finset.mem_erase.2 ⟨?_, Finset.mem_range.2 (h.stored i s' hs').1⟩
      rintro rfl
      rw [hnone] at hi
      cases hi)
  have hocc : ¬ occupiedByOther t.ufragIndex p.ufragSlots (p.ufrag u) (t.ufragMatches u) idx := by
    intro hocc
    obtain ⟨l, hl, -⟩ := (occupiedByOther_iff h.ufrag (h.ufrag_agrees u)).1 hocc
    exact hnew l hl
  unfold Table.indexUfrag
  rw [hu, h.memberIndex_iff.2 hidx]
  dsimp only
  rw [h.accepts hidx, Bool.not_true, if_neg Bool.false_ne_true, if_neg hocc, hp]

/-- The index of ufrags without the session at `idx`. -/
def unnamed (p : Hashes A U) (t : Table A U) (x : Session A U) (idx : ℕ) : HashIndex HashSlot :=
  match x.ufrag with
  | none => t.ufragIndex
  | some u => removeHash t.ufragIndex p.ufragSlots (p.ufrag u) (t.ufragMatches u) idx

omit [DecidableEq A] in
lemma removeUfragHash_eq (hx : t.heap s = some x) :
    t.removeUfragHash p s idx = { t with ufragIndex := t.unnamed p x idx } := by
  unfold removeUfragHash ufragOf unnamed
  rw [hx, Option.bind_some]
  cases x.ufrag <;> rfl

/-- The table without the session at `idx`. -/
def closed (p : Hashes A U) (t : Table A U) (s idx : ℕ) (x : Session A U) : Table A U :=
  { t.withSession s { x with tableIndex := none, lifecycle := .closing, acceptsWork := false } with
    addrIndex := removeHash t.addrIndex p.addrSlots (p.addr x.addr) (t.addrMatches x.addr) idx
    ufragIndex := t.unnamed p x idx
    sessions := update t.sessions idx none
    freeIndices := idx :: t.freeIndices
    activeCount := t.activeCount - 1 }

lemma Inv.beginClose_cases (h : Inv p t) :
    t.beginClose p s = (t, false) ∨
    ∃ idx x, t.sessions idx = some s ∧ t.heap s = some x ∧
      t.beginClose p s = (t.closed p s idx x, true) := by
  unfold beginClose
  cases hx : t.heap s with
  | none => exact .inl rfl
  | some x =>
  by_cases hopen : x.lifecycle = .opened
  · obtain ⟨idx, hidx⟩ := h.live s ⟨x, hx, hopen⟩
    obtain ⟨hlt, x', hx', hti, -⟩ := h.stored idx s hidx
    rw [hx, Option.some.injEq] at hx'
    subst hx'
    refine .inr ⟨idx, x, hidx, rfl, ?_⟩
    rw [Option.all_some, if_neg (by simp [hopen]), modifySession_eq hx]
    set y : Session A U := { x with lifecycle := .closing, acceptsWork := false } with hy
    set t1 := t.withSession s y
    have hyx : t1.heap s = some y := update_self ..
    have hmember : t1.memberIndex s = some idx := by
      unfold memberIndex
      rw [hyx, Option.bind_some, Option.filter_eq_some_iff]
      exact ⟨hti, decide_eq_true ⟨hlt, hidx⟩⟩
    -- the probes of the removals see the addresses and ufrags as before
    have haddr : t1.addrMatches x.addr = t.addrMatches x.addr := by
      funext i
      unfold addrMatches
      rw [withSession_addrOf hx y rfl]
      rfl
    have hufrag : ∀ u, t1.ufragMatches u = t.ufragMatches u := by
      intro u
      funext i
      unfold ufragMatches
      rw [withSession_ufragOf hx y rfl]
      rfl
    set t₂ : Table A U := { t.withSession s y with
      addrIndex := removeHash t.addrIndex p.addrSlots (p.addr x.addr) (t.addrMatches x.addr)
        idx }
    have h₂ : t1.removeAddrHash p s idx = t₂ := by
      rw [removeAddrHash_eq hyx, haddr]
      rfl
    have hyx₂ : t₂.heap s = some y := hyx
    have h₃ : t₂.removeUfragHash p s idx = { t₂ with ufragIndex := t.unnamed p x idx } := by
      rw [removeUfragHash_eq hyx₂]
      unfold unnamed
      rw [hy]
      cases x.ufrag with
      | none => rfl
      | some u =>
        dsimp only
        rw [← hufrag u]
        rfl
    dsimp only
    rw [hmember]
    dsimp only
    rw [h₂, h₃]
    unfold modifySession closed withSession
    dsimp only
    rw [hyx₂, Option.map_some]
    rw [show t₂.heap = update t.heap s (some y) from rfl, update_idem]
    rfl
  · rw [Option.all_some, if_pos (decide_eq_true hopen)]
    exact .inl rfl

lemma closed_sessions {j : ℕ} (hs : (t.closed p s idx x).sessions j = some s') :
    j ≠ idx ∧ t.sessions j = some s' := by
  exact (update_cases hs).resolve_left nofun

lemma closed_heap (hs : s' ≠ s) : (t.closed p s idx x).heap s' = t.heap s' := update_of_ne hs ..

lemma Placed.closed (h : Placed t) (hidx : t.sessions idx = some s) (hx : t.heap s = some x) :
    Placed (t.closed p s idx x) := by
  have hlt := (h.stored idx s hidx).1
  have hnot : idx ∉ t.freeIndices := by
    intro hmem
    rw [((h.free_iff idx).1 hmem).2] at hidx
    cases hidx
  have hclosing : ∀ y, (t.closed p s idx x).heap s = some y → y.lifecycle = .closing := by
    intro y hy
    change update t.heap s _ s = some y at hy
    rw [update_self, Option.some.injEq] at hy
    rw [← hy]
  refine ⟨?_, ?_, ?_, nodup_cons.2 ⟨hnot, h.free_nodup⟩, ?_, h.le, ?_⟩
  · intro j s' hclosed
    obtain ⟨hj, hs⟩ := closed_sessions hclosed
    have hne : s' ≠ s := fun heq => hj (h.index_inj (heq ▸ hs) hidx)
    rw [closed_heap hne]
    exact h.stored j s' hs
  · rintro s' ⟨y, hy, hopen⟩
    have hne : s' ≠ s := by
      rintro rfl
      rw [hclosing y hy] at hopen
      cases hopen
    rw [closed_heap hne] at hy
    obtain ⟨j, hj⟩ := h.live s' ⟨y, hy, hopen⟩
    have hji : j ≠ idx := by
      rintro rfl
      rw [hidx, Option.some.injEq] at hj
      exact hne hj.symm
    exact ⟨j, (update_of_ne hji ..).trans hj⟩
  · intro s' y hy
    by_cases hs : s' = s
    · exact hs ▸ h.lt_next s x hx
    · rw [closed_heap hs] at hy
      exact h.lt_next s' y hy
  · intro j
    change j ∈ idx :: t.freeIndices ↔ j < t.count ∧ update t.sessions idx none j = none
    rw [mem_cons, h.free_iff]
    by_cases hj : j = idx
    · rw [hj, update_self]
      exact ⟨fun _ => ⟨hlt, rfl⟩, fun _ => .inl rfl⟩
    · rw [update_of_ne hj]
      exact ⟨fun h => h.resolve_left hj, .inr⟩
  · change t.activeCount - 1 + (t.freeIndices.length + 1) = t.count
    have hactive := h.active
    -- the stack does not hold all indices
    have hcard : t.freeIndices.length < t.count := by
      have hsub : t.freeIndices.toFinset ⊆ (Finset.range t.count).erase idx := by
        intro j hj
        rw [mem_toFinset] at hj
        refine Finset.mem_erase.2 ⟨?_, Finset.mem_range.2 ((h.free_iff j).1 hj).1⟩
        rintro rfl
        exact hnot hj
      have hle := Finset.card_le_card hsub
      rw [toFinset_card_of_nodup h.free_nodup,
        Finset.card_erase_of_mem (Finset.mem_range.2 hlt), Finset.card_range] at hle
      omega
    omega

/-- **Closing** takes the session out of the table and of both indexes. -/
lemma Inv.beginClose (h : Inv p t) (s : ℕ) : Inv p (t.beginClose p s).1 := by
  rcases h.beginClose_cases (s := s) with heq | ⟨idx, x, hidx, hx, heq⟩
  · rw [heq]
    exact h
  rw [heq]
  have haddr : (t.closed p s idx x).addrObj = update t.addrObj idx none :=
    h.bind_remove hidx fun s' hs => by
      unfold addrOf
      rw [closed_heap hs]
  have hufrag : (t.closed p s idx x).ufragObj = update t.ufragObj idx none :=
    h.bind_remove hidx fun _ _ => rfl
  refine ⟨h.toPlaced.closed hidx hx, ?_, ?_, ?_⟩
  · rw [haddr]
    refine covers_removeHash h.addr (h.addr_agrees x.addr) (.inl ?_)
    exact addrObj_eq_some.2 ⟨s, hidx, by unfold addrOf; rw [hx]; rfl⟩
  · rw [hufrag]
    change Covers p.ufrag _ p.ufragSlots (t.unnamed p x idx)
    unfold unnamed
    have hseen : t.ufragOf s = x.ufrag := by
      unfold ufragOf
      rw [hx, Option.bind_some]
    cases hu : x.ufrag with
    | none =>
      have hnone : t.ufragObj idx = none :=
        (h.ufragObj_or hidx).elim id fun heq => heq.trans (hseen.trans hu)
      rw [update_eq_self_iff.2 hnone.symm]
      exact h.ufrag
    | some u =>
      exact covers_removeHash h.ufrag (h.ufrag_agrees u)
        ((h.ufragObj_or hidx).imp_right (·.trans (hseen.trans hu))).symm
  · change ∀ s' u, t.indexedAs s' = some u → (t.withSession s _).ufragOf s' = some u
    rw [withSession_ufragOf hx]
    · exact h.named
    · rfl

end Ops

end Table

end MezonSfu.SessionTable
