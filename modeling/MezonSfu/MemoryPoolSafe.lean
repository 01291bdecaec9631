import MezonSfu.MemoryPool

/-!
The pool is safe in every interleaving.

A thread exchanges the head only if it still has the tag the thread has loaded. The tag is the
number of exchanges modulo 2^32, and fewer fall into one call, so an equal tag means that there
was none since the load. The free list, and the successor read, are then the ones the thread has
seen.
-/

namespace MezonSfu.MemoryPool

open LinkedCells Function List Runs

variable {Thread : Type*} {s s' : Pool Thread} {l : List ℕ}
  {place : ℕ → Place Thread} {t t' : Thread} {i : ℕ} {old : Head}

/-- Where the slots are, with the list of the free ones given. -/
def In (l : List ℕ) (s : Pool Thread) (i : ℕ) : Place Thread → Prop
  | .free => i ∈ l
  | .hand t => i ∈ s.hands t
  | .transit t => (s.pc t).transit = some i

/-- Every slot is in the place given for it, and in no other. -/
def Placed (l : List ℕ) (s : Pool Thread) (place : ℕ → Place Thread) : Prop :=
  ∀ i p, In l s i p ↔ i < s.capacity ∧ place i = p

structure Loaded (s : Pool Thread) (t : Thread) (old : Head) : Prop where
  tag : old.tag = s.readAt t % 2 ^ 32
  started : s.startedAt t ≤ s.readAt t
  read : s.readAt t ≤ s.updates
  current : s.readAt t = s.updates → s.head = old

def Knows (s : Pool Thread) (t : Thread) : Pc → Prop
  | .allocLoaded old => Loaded s t old ∧ (old.index = emptyIndex → s.sawEmpty t = true)
  | .allocNext old next => Loaded s t old ∧ old.index ≠ emptyIndex ∧
      (s.readAt t = s.updates → s.next old.index = next)
  | .freeLoaded _ old => Loaded s t old
  | .freeStored index old => Loaded s t old ∧ s.next index = old.index
  | _ => True

structure Safe (l : List ℕ) (place : ℕ → Place Thread) (s : Pool Thread) : Prop where
  small : s.capacity ≤ emptyIndex
  links : Links s.next emptyIndex s.head.index l
  placed : Placed l s place
  tag : s.head.tag = s.updates % 2 ^ 32
  knows : ∀ t, Knows s t (s.pc t)

lemma Safe.freeList_eq (h : Safe l place s) : s.freeList = l := by
  refine h.links.walk_eq ?_
  have hlt : ∀ i ∈ l, i < s.capacity := fun i hi => ((h.placed i .free).1 hi).1
  have hsub : l.toFinset ⊆ Finset.range s.capacity := by
    intro i hi
    exact Finset.mem_range.2 (hlt i (mem_toFinset.1 hi))
  calc l.length = l.toFinset.card := (toFinset_card_of_nodup h.links.nodup).symm
    _ ≤ (Finset.range s.capacity).card := Finset.card_le_card hsub
    _ = s.capacity := Finset.card_range _

/-- The loads of the thread are as they were, and no exchange was lost. -/
structure Beside (t : Thread) (s s' : Pool Thread) : Prop where
  readAt : s'.readAt t = s.readAt t
  startedAt : s'.startedAt t = s.startedAt t
  sawEmpty : s.sawEmpty t = true → s'.sawEmpty t = true
  updates : s.updates ≤ s'.updates
  head : s'.updates = s.updates → s'.head = s.head

lemma Loaded.beside (h : Loaded s t old) (hb : Beside t s s') : Loaded s' t old where
  tag := by rw [hb.readAt]; exact h.tag
  started := by rw [hb.readAt, hb.startedAt]; exact h.started
  read := by rw [hb.readAt]; exact h.read.trans hb.updates
  current := by
    rw [hb.readAt]
    intro heq
    have hsame : s'.updates = s.updates := by
      have h1 := h.read
      have h2 := hb.updates
      omega
    rw [hb.head hsame]
    exact h.current (heq.trans hsame)

variable {pc : Pc}

/-- The knowledge of a thread stays if nobody has written the successors it relies on. -/
lemma Knows.beside (h : Knows s t pc) (hb : Beside t s s')
    (hnext : ∀ old next, pc = .allocNext old next → s.head = old → s'.updates = s.updates →
      s'.next old.index = s.next old.index)
    (hown : ∀ index old, pc = .freeStored index old → s'.next index = s.next index) :
    Knows s' t pc := by
  cases pc with
  | allocLoaded old => exact ⟨h.1.beside hb, fun he => hb.sawEmpty (h.2 he)⟩
  | allocNext old next =>
    refine ⟨h.1.beside hb, h.2.1, ?_⟩
    rw [hb.readAt]
    intro heq
    have hsame : s'.updates = s.updates := by
      have h1 := h.1.read
      have h2 := hb.updates
      omega
    rw [hnext old next rfl (h.1.current (heq.trans hsame)) hsame]
    exact h.2.2 (heq.trans hsame)
  | freeLoaded index old => exact Loaded.beside h hb
  | freeStored index old =>
    refine ⟨h.1.beside hb, ?_⟩
    rw [hown index old rfl]
    exact h.2
  | idle | allocTaken | allocCounted | allocHigh | freePushed => trivial

lemma Knows.frame (h : Knows s t pc) (hb : Beside t s s') (hnext : s'.next = s.next) :
    Knows s' t pc :=
  h.beside hb (fun _ _ _ _ _ => by rw [hnext]) (fun _ _ _ => by rw [hnext])

lemma loaded_now (ht : s.head.tag = s.updates % 2 ^ 32) (hread : s.readAt t = s.updates)
    (hstart : s.startedAt t ≤ s.updates) : Loaded s t s.head where
  tag := by rw [ht, hread]
  started := by rw [hread]; exact hstart
  read := hread.le
  current _ := rfl

/-- **The tag argument**: an equal tag means that the head was not exchanged. -/
lemma Loaded.unchanged (h : Loaded s t old) (ht : s.head.tag = s.updates % 2 ^ 32)
    (hbrief : s.updates < s.startedAt t + 2 ^ 32) (heq : s.head = old) :
    s.readAt t = s.updates := by
  have h1 := h.tag
  have h2 := h.started
  have h3 := h.read
  rw [← heq, ht] at h1
  omega

/-! ### Moves of slots -/

lemma Placed.stay (h : Placed l s place) (hcap : s'.capacity = s.capacity)
    (hhands : s'.hands = s.hands) (htransit : ∀ t, (s'.pc t).transit = (s.pc t).transit) :
    Placed l s' place := by
  intro j p
  rw [hcap, ← h j p]
  cases p with
  | free => exact Iff.rfl
  | hand t => exact (by rw [In, In, hhands])
  | transit t => exact (by rw [In, In, htransit])

lemma Placed.eq_of_in (h : Placed l s place) {p : Place Thread} (p' : Place Thread)
    (hp : In l s i p) (hp' : In l s i p') : p = p' :=
  ((h i p).1 hp).2.symm.trans ((h i p').1 hp').2

/-- Only the slot `i` has moved, from `p` to `p'`. -/
lemma Placed.move {l' : List ℕ} {p p' : Place Thread} (h : Placed l s place)
    (hcap : s'.capacity = s.capacity) (hp : In l s i p)
    (hmove : ∀ j r, In l' s' j r ↔ (j = i ∧ r = p') ∨ (In l s j r ∧ ¬ (j = i ∧ r = p))) :
    Placed l' s' (update place i p') := by
  intro j r
  rw [hcap, hmove]
  by_cases hj : j = i
  · subst hj
    rw [update_self]
    have hone : In l s j r → r = p := fun hr => h.eq_of_in p hr hp
    have hlt := ((h j p).1 hp).1
    tauto
  · rw [update_of_ne hj, ← h j r]
    tauto

lemma Safe.transit_notMem (h : Safe l place s) (hi : (s.pc t).transit = some i) : i ∉ l := by
  intro hl
  have hp : In l s i (.transit t) := hi
  exact nomatch h.placed.eq_of_in .free hp hl

lemma freeList_eq_nil (h : s.head.index = emptyIndex) : s.freeList = [] := by
  unfold Pool.freeList
  rw [h]
  cases s.capacity with
  | zero => rfl
  | succ n => exact if_pos rfl

lemma knows_allocLoaded (ht : s.head.tag = s.updates % 2 ^ 32) (hread : s.readAt t = s.updates)
    (hstart : s.startedAt t ≤ s.updates) : Knows s.observe t (.allocLoaded s.head) := by
  have hl : Loaded s t s.head := loaded_now ht hread hstart
  refine ⟨{ hl with }, fun he => ?_⟩
  change (s.sawEmpty t || decide (s.freeList = []))
  rw [freeList_eq_nil he, decide_eq_true rfl, Bool.or_true]

lemma Loaded.started_le (h : Loaded s t old) : s.startedAt t ≤ s.updates := h.started.trans h.read

variable {capacity : ℕ}

lemma safe_init (h0 : 0 < capacity) (hcap : capacity ≤ emptyIndex) :
    Safe (List.range' 0 capacity) (fun _ => .free) (Pool.init Thread capacity) where
  small := hcap
  links := by
    obtain ⟨m, rfl⟩ : ∃ m, capacity = m + 1 := ⟨capacity - 1, by omega⟩
    exact links_range' hcap (fun _ _ => rfl) 0 m (by omega)
  placed i p := by
    change _ ↔ i < capacity ∧ Place.free = p
    cases p with
    | free =>
      change i ∈ List.range' 0 capacity ↔ _
      rw [mem_range'_1]
      simp
    | hand t => exact ⟨fun hi => absurd hi (Finset.notMem_empty i), nofun⟩
    | transit t => exact ⟨nofun, nofun⟩
  tag := rfl
  knows _ := trivial

lemma observe_sawEmpty (h : s.sawEmpty t) : s.observe.sawEmpty t := by
  simp [Pool.observe, h]

lemma Safe.observe (h : Safe l place s) : Safe l place s.observe := by
  refine { h with knows := fun u => ?_ }
  exact (h.knows u).frame ⟨rfl, rfl, observe_sawEmpty, le_rfl, fun _ => rfl⟩ rfl

/-! ### Steps of one thread -/

variable [DecidableEq Thread]

variable {new : Pc}

lemma transit_update (pc : Thread → Pc) (t : Thread) (h : new.transit = (pc t).transit)
    (t' : Thread) : (update pc t new t').transit = (pc t').transit := by
  by_cases ht : t' = t
  · subst ht
    rw [update_self, h]
  · rw [update_of_ne ht]

/-- `s'` differs from `s` in what thread `t` alone has and in the counters. -/
structure Turn (t : Thread) (new : Pc) (s s' : Pool Thread) : Prop where
  capacity : s'.capacity = s.capacity
  next : s'.next = s.next
  head : s'.head = s.head
  updates : s'.updates = s.updates
  pc : s'.pc = update s.pc t new
  readAt : ∀ t' ≠ t, s'.readAt t' = s.readAt t'
  startedAt : ∀ t' ≠ t, s'.startedAt t' = s.startedAt t'
  sawEmpty : ∀ t' ≠ t, s'.sawEmpty t' = s.sawEmpty t'

lemma Turn.beside (h : Turn t new s s') (ht : t' ≠ t) : Beside t' s s'.observe where
  readAt := h.readAt t' ht
  startedAt := h.startedAt t' ht
  sawEmpty hs := observe_sawEmpty ((h.sawEmpty t' ht).trans hs)
  updates := h.updates.ge
  head _ := h.head

lemma Safe.turn {place' : ℕ → Place Thread} (h : Safe l place s) (hturn : Turn t new s s')
    (hplaced : Placed l s' place') (hnew : Knows s'.observe t new) :
    Safe l place' s'.observe where
  small := by
    change s'.capacity ≤ _
    rw [hturn.capacity]
    exact h.small
  links := by
    change Links s'.next _ s'.head.index l
    rw [hturn.next, hturn.head]
    exact h.links
  placed := hplaced
  tag := by
    change s'.head.tag = s'.updates % _
    rw [hturn.head, hturn.updates]
    exact h.tag
  knows t' := by
    change Knows s'.observe t' (s'.pc t')
    rw [hturn.pc]
    by_cases ht : t' = t
    · subst ht
      rw [update_self]
      exact hnew
    · rw [update_of_ne ht]
      exact (h.knows t').frame (hturn.beside ht) hturn.next

lemma Safe.turn_same (h : Safe l place s) (hpc : s.pc t = pc)
    (hturn : Turn t new s s') (hhands : s'.hands = s.hands) (htransit : new.transit = pc.transit)
    (hnew : Knows s'.observe t new) : Safe l place s'.observe := by
  refine h.turn hturn (h.placed.stay hturn.capacity hhands fun t' => ?_) hnew
  rw [hturn.pc]
  exact transit_update s.pc t (hpc ▸ htransit) t'

lemma Safe.local_step (h : Safe l place s) (hpc : s.pc t = pc) (new : Pc)
    {inUse highWater : UInt32} {fails : UInt64} (htransit : new.transit = pc.transit)
    (hnew : Knows s t new) : Safe l place (Pool.observe { s with
      pc := update s.pc t new
      inUse := inUse
      highWater := highWater
      allocFailures := fails }) := by
  refine h.turn_same hpc ⟨rfl, rfl, rfl, rfl, rfl, fun _ _ => rfl, fun _ _ => rfl,
    fun _ _ => rfl⟩ rfl htransit ?_
  exact hnew.frame ⟨rfl, rfl, observe_sawEmpty, le_rfl, fun _ => rfl⟩ rfl

lemma transit_arrives {pc : Thread → Pc} (hpc : (pc t).transit = none) (hnew : new.transit = some i)
    (j : ℕ) (u : Thread) :
    (update pc t new u).transit = some j ↔ (j = i ∧ u = t) ∨ (pc u).transit = some j := by
  by_cases hu : u = t
  · subst hu
    simp [hpc, hnew, eq_comm]
  · simp [hu]

lemma transit_leaves {pc : Thread → Pc} (hpc : (pc t).transit = some i) (hnew : new.transit = none)
    (j : ℕ) (u : Thread) :
    (update pc t new u).transit = some j ↔ (pc u).transit = some j ∧ ¬ (j = i ∧ u = t) := by
  by_cases hu : u = t
  · subst hu
    simp [hpc, hnew, eq_comm]
  · simp [hu]

lemma mem_update_insert (hands : Thread → Finset ℕ) (j : ℕ) (u : Thread) :
    j ∈ update hands t (insert i (hands t)) u ↔ (j = i ∧ u = t) ∨ j ∈ hands u := by
  by_cases hu : u = t
  · subst hu
    simp
  · simp [hu]

lemma mem_update_erase (hands : Thread → Finset ℕ) (j : ℕ) (u : Thread) :
    j ∈ update hands t ((hands t).erase i) u ↔ j ∈ hands u ∧ ¬ (j = i ∧ u = t) := by
  by_cases hu : u = t
  · subst hu
    simp [and_comm]
  · simp [hu]

section

variable (h : Safe l place s)

include h

lemma Safe.returnSlot (hi : (s.pc t).transit = some i) (hturn : Turn t .idle s s')
    (hhands : s'.hands = update s.hands t (insert i (s.hands t))) :
    Safe l (update place i (.hand t)) s'.observe := by
  refine h.turn hturn (h.placed.move (p := .transit t) hturn.capacity hi fun j p => ?_) trivial
  cases p with
  | free => simp [In]
  | hand u => simp [In, hhands, mem_update_insert]
  | transit u => simp [In, hturn.pc, transit_leaves hi (show Pc.idle.transit = none from rfl)]

lemma Safe.giveUp (new : Pc) (hi : i ∈ s.hands t) (hidle : (s.pc t).transit = none)
    (hturn : Turn t new s s') (hnew : new.transit = some i)
    (hhands : s'.hands = update s.hands t ((s.hands t).erase i)) (hknows : Knows s'.observe t new) :
    Safe l (update place i (.transit t)) s'.observe := by
  refine h.turn hturn (h.placed.move (p := .hand t) hturn.capacity hi fun j p => ?_) hknows
  cases p with
  | free => simp [In]
  | hand u => simp [In, hhands, mem_update_erase]
  | transit u => simp [In, hturn.pc, transit_arrives hidle hnew]

lemma Safe.pass (hi : i ∈ s.hands t) :
    Safe l (update place i (.hand t')) (s.pass t t' i).observe := by
  have hpass : s.pass t t' i = { s with
      hands := update (update s.hands t ((s.hands t).erase i)) t'
        (insert i (update s.hands t ((s.hands t).erase i) t')) } := if_pos hi
  rw [hpass]
  refine ⟨h.small, h.links, ?_, h.tag, fun u => ?_⟩
  · refine h.placed.move (p := .hand t) rfl hi fun j p => ?_
    cases p with
    | free => simp [In]
    | hand u => simp [In, Pool.observe, mem_update_insert, mem_update_erase]
    | transit u => simp [In, Pool.observe]
  · exact (h.knows u).frame ⟨rfl, rfl, observe_sawEmpty, le_rfl, fun _ => rfl⟩ rfl

lemma Safe.store (hpc : s.pc t = .freeLoaded i old) :
    Safe l place ({ s.setPc t (.freeStored i old) with
      next := update s.next i old.index } : Pool Thread).observe := by
  have hi : (s.pc t).transit = some i := by rw [hpc]; rfl
  have hold : Loaded s t old := by
    have hk := h.knows t
    rw [hpc] at hk
    exact hk
  refine ⟨h.small, h.links.update (h.transit_notMem hi) _, ?_, h.tag, fun u => ?_⟩
  · refine h.placed.stay rfl rfl fun u => transit_update s.pc t ?_ u
    rw [hi]
    rfl
  have hb : Beside u s (Pool.observe { s.setPc t (.freeStored i old) with
      next := update s.next i old.index }) :=
    ⟨rfl, rfl, fun hs => observe_sawEmpty (by exact hs), le_rfl, fun _ => rfl⟩
  change Knows _ u (update s.pc t (.freeStored i old) u)
  by_cases hu : u = t
  · subst hu
    rw [update_self]
    exact ⟨hold.beside hb, update_self ..⟩
  rw [update_of_ne hu]
  refine (h.knows u).beside hb ?_ ?_
  · intro old' next' hpc' hhead _
    -- the head of the list is free, the slot that is stored into is not
    refine update_of_ne ?_ _ _
    rintro rfl
    have hne : old'.index ≠ emptyIndex := by
      have hk := h.knows u
      rw [hpc'] at hk
      exact hk.2.1
    have hlinks := h.links
    rw [hhead] at hlinks
    cases l with
    | nil => exact hne hlinks
    | cons a l =>
      rw [hlinks.1] at hi
      exact h.transit_notMem hi mem_cons_self
  · intro index old' hpc'
    refine update_of_ne ?_ _ _
    rintro rfl
    have hu' : (s.pc u).transit = some index := by rw [hpc']; rfl
    have hp : In l s index (.transit t) := hi
    exact hu (Place.transit.inj (h.placed.eq_of_in (.transit u) hp hu')).symm

end

lemma Safe.knows_exchange (h : Safe l place s) {head : Head} (hnew : Knows (Pool.observe { s with
      head := head, updates := s.updates + 1, pc := update s.pc t new }) t new)
    (u : Thread) : Knows (Pool.observe { s with
      head := head, updates := s.updates + 1, pc := update s.pc t new }) u
        (update s.pc t new u) := by
  by_cases hu : u = t
  · subst hu
    rw [update_self]
    exact hnew
  · rw [update_of_ne hu]
    exact (h.knows u).frame ⟨rfl, rfl, fun hs => observe_sawEmpty (by exact hs), Nat.le_succ _,
      fun heq => absurd heq (Nat.succ_ne_self _)⟩ rfl

lemma tag_advance {n index : ℕ} (h : old.tag = n % 2 ^ 32) :
    (old.advance index).tag = (n + 1) % 2 ^ 32 := by
  change (old.tag + 1) % 2 ^ 32 = _
  omega

lemma Safe.pop {next : ℕ} (h : Safe l place s) (hpc : s.pc t = .allocNext old next)
    (hbrief : s.updates < s.startedAt t + 2 ^ 32) (heq : s.head = old) :
    ∃ l' place', Safe l' place' (Pool.observe { s with
      head := old.advance next
      updates := s.updates + 1
      pc := update s.pc t (.allocTaken old.index) }) := by
  have hk := h.knows t
  rw [hpc] at hk
  obtain ⟨hloaded, hne, hread⟩ := hk
  have hnow := hloaded.unchanged h.tag hbrief heq
  have hlinks := h.links
  rw [heq] at hlinks
  cases l with
  | nil => exact absurd hlinks hne
  | cons a l =>
    obtain ⟨rfl, -, hrest⟩ := hlinks
    rw [hread hnow] at hrest
    have hnot : old.index ∉ l := (nodup_cons.1 h.links.nodup).1
    have hidle : (s.pc t).transit = none := by rw [hpc]; rfl
    refine ⟨l, update place old.index (.transit t), h.small, hrest, ?_, ?_,
      h.knows_exchange trivial⟩
    · refine h.placed.move (p := .free) rfl mem_cons_self fun j p => ?_
      cases p with
      | free =>
        have hne : j ∈ l → j ≠ old.index := fun hj heq => hnot (heq ▸ hj)
        simp only [In, mem_cons]
        tauto
      | hand u => simp [In, Pool.observe]
      | transit u =>
        have hnew : (Pc.allocTaken old.index).transit = some old.index := rfl
        simp [In, Pool.observe, transit_arrives hidle hnew]
    · exact tag_advance (heq ▸ h.tag)

section

variable (h : Safe l place s)

include h

lemma Safe.push (hpc : s.pc t = .freeStored i old) (heq : s.head = old) :
    Safe (i :: l) (update place i .free) (Pool.observe { s with
      head := old.advance i
      updates := s.updates + 1
      pc := update s.pc t (.freePushed i) }) := by
  have hi : (s.pc t).transit = some i := by rw [hpc]; rfl
  have hlt := ((h.placed i (.transit t)).1 hi).1
  have hnext : s.next i = old.index := by
    have hk := h.knows t
    rw [hpc] at hk
    exact hk.2
  refine ⟨h.small, ⟨rfl, (hlt.trans_le h.small).ne, ?_⟩, ?_, tag_advance (heq ▸ h.tag),
    h.knows_exchange trivial⟩
  · change Links s.next _ (s.next i) l
    rw [hnext, ← heq]
    exact h.links
  refine h.placed.move (p := .transit t) rfl hi fun j p => ?_
  cases p with
  | free => simp [In]
  | hand u => simp [In, Pool.observe]
  | transit u =>
    have hnew : (Pc.freePushed i).transit = none := rfl
    simp [In, Pool.observe, transit_leaves hi hnew]

lemma Safe.reload {old : Pc} {pc : Head → Pc} (hold : s.pc t = old)
    (htransit : (pc s.head).transit = old.transit) (hstart : s.startedAt t ≤ s.updates)
    (hpc : Loaded (s.load t pc).observe t s.head → Knows (s.load t pc).observe t (pc s.head)) :
    Safe l place (s.load t pc).observe := by
  have hread : (s.load t pc).readAt t = s.updates := update_self ..
  have hl : Loaded (s.load t pc) t s.head := loaded_now h.tag hread hstart
  refine h.turn_same hold ⟨rfl, rfl, rfl, rfl, rfl, fun t' ht => ?_, fun _ _ => rfl,
    fun _ _ => rfl⟩ rfl htransit (hpc { hl with })
  exact update_of_ne ht ..

/-- **One access** of a thread inside a call. -/
lemma Safe.resume (t : Thread) (weak : Bool) (hbrief : Brief s) :
    ∃ l' place', Safe l' place' (s.resume t weak).observe := by
  have hk := h.knows t
  unfold Pool.resume
  cases hpc : s.pc t with
  | idle => exact ⟨l, place, h.observe⟩
  | allocLoaded old =>
    rw [hpc] at hk
    dsimp only
    split
    · exact ⟨l, place, h.local_step hpc .idle rfl trivial⟩
    · rename_i hne
      exact ⟨l, place, h.local_step hpc (.allocNext old (s.next old.index)) rfl
        ⟨hk.1, hne, fun _ => rfl⟩⟩
  | allocNext old next =>
    rw [hpc] at hk
    dsimp only
    unfold Pool.exchange
    split
    · rename_i hwon
      refine h.pop hpc (hbrief t ?_) hwon.2
      rw [hpc]
      exact nofun
    · refine ⟨l, place, h.reload hpc rfl hk.1.started_le fun hl => ?_⟩
      exact knows_allocLoaded h.tag (update_self ..) hk.1.started_le
  | allocTaken index =>
    exact ⟨l, place, h.local_step hpc (.allocCounted index (s.inUse + 1)) rfl trivial⟩
  | allocCounted index inUse =>
    exact ⟨l, place, h.local_step hpc (.allocHigh index inUse s.highWater) rfl trivial⟩
  | allocHigh index inUse high =>
    have hi : (s.pc t).transit = some index := by rw [hpc]; rfl
    dsimp only
    split
    · exact ⟨l, _, h.returnSlot hi ⟨rfl, rfl, rfl, rfl, rfl, fun _ _ => rfl, fun _ _ => rfl,
        fun _ _ => rfl⟩ rfl⟩
    · split
      · exact ⟨l, _, h.returnSlot hi ⟨rfl, rfl, rfl, rfl, rfl, fun _ _ => rfl, fun _ _ => rfl,
          fun _ _ => rfl⟩ rfl⟩
      · exact ⟨l, place, h.local_step hpc (.allocHigh index inUse s.highWater) rfl trivial⟩
  | freeLoaded index old => exact ⟨l, place, h.store hpc⟩
  | freeStored index old =>
    rw [hpc] at hk
    dsimp only
    unfold Pool.exchange
    split
    · rename_i hwon
      exact ⟨_, _, h.push hpc hwon.2⟩
    · exact ⟨l, place, h.reload hpc rfl hk.1.started_le id⟩
  | freePushed index => exact ⟨l, place, h.local_step hpc .idle rfl trivial⟩

lemma Safe.alloc (t : Thread) : Safe l place (s.alloc t).observe := by
  unfold Pool.alloc
  split
  · rename_i hidle
    refine h.turn_same hidle ⟨rfl, rfl, rfl, rfl, rfl, fun t' ht => update_of_ne ht ..,
      fun t' ht => update_of_ne ht .., fun t' ht => update_of_ne ht ..⟩ rfl rfl ?_
    refine knows_allocLoaded h.tag (update_self ..) (le_of_eq ?_)
    exact update_self ..
  · exact h.observe

lemma Safe.free (t : Thread) (i : ℕ) : ∃ place', Safe l place' (s.free t i).observe := by
  unfold Pool.free
  split
  · rename_i hfree
    refine ⟨_, h.giveUp (.freeLoaded i s.head) hfree.2 ?_ ⟨rfl, rfl, rfl, rfl, rfl,
      fun t' ht => update_of_ne ht .., fun t' ht => update_of_ne ht ..,
      fun t' ht => update_of_ne ht ..⟩ rfl rfl ?_⟩
    · rw [hfree.1]
      rfl
    · have hl := loaded_now (t := t) (s := ({ s with
          hands := update s.hands t ((s.hands t).erase i) }.enter t).load t
            (.freeLoaded i)) h.tag (update_self ..) (le_of_eq (update_self ..))
      exact { hl with }
  · exact ⟨place, h.observe⟩

lemma Safe.step (op : Op Thread) (hbrief : Brief s) : ∃ l' place', Safe l' place' (step s op) := by
  cases op with
  | alloc t => exact ⟨l, place, h.alloc t⟩
  | free t i =>
    obtain ⟨place', h'⟩ := h.free t i
    exact ⟨l, place', h'⟩
  | resume t weak => exact h.resume t weak hbrief
  | pass t t' i =>
    by_cases hi : i ∈ s.hands t
    · exact ⟨l, _, h.pass hi⟩
    have hsame : s.pass t t' i = s := if_neg hi
    refine ⟨l, place, ?_⟩
    change Safe l place (s.pass t t' i).observe
    rw [hsame]
    exact h.observe

end

/-! ### Runs -/

lemma exchange_frame (weak : Bool) (index : ℕ) (won : Pc) (lost : Head → Pc) :
    let r := s.exchange t weak old index won lost
    r.capacity = s.capacity ∧ r.sawEmpty = s.sawEmpty ∧ ∀ u ≠ t, r.pc u = s.pc u := by
  unfold Pool.exchange
  split
  · exact ⟨rfl, rfl, fun u hu => update_of_ne hu ..⟩
  · exact ⟨rfl, rfl, fun u hu => update_of_ne hu ..⟩

lemma resume_frame (s : Pool Thread) (t : Thread) (weak : Bool) :
    let r := s.resume t weak
    r.capacity = s.capacity ∧ r.sawEmpty = s.sawEmpty ∧ ∀ u ≠ t, r.pc u = s.pc u := by
  have hlocal : ∀ (pc : Pc) (u : Thread), u ≠ t → update s.pc t pc u = s.pc u :=
    fun pc u hu => update_of_ne hu pc s.pc
  unfold Pool.resume
  cases hpc : s.pc t with
  | idle => exact ⟨rfl, rfl, fun _ _ => rfl⟩
  | allocLoaded old =>
    dsimp only
    split <;> exact ⟨rfl, rfl, hlocal _⟩
  | allocNext | freeStored => exact exchange_frame ..
  | allocTaken | allocCounted | freeLoaded | freePushed => exact ⟨rfl, rfl, hlocal _⟩
  | allocHigh index inUse high =>
    dsimp only
    split_ifs <;> exact ⟨rfl, rfl, hlocal _⟩

lemma step_capacity (s : Pool Thread) (op : Op Thread) : (step s op).capacity = s.capacity := by
  cases op with
  | alloc t =>
    change (s.alloc t).capacity = _
    unfold Pool.alloc
    split <;> rfl
  | free t i =>
    change (s.free t i).capacity = _
    unfold Pool.free
    split <;> rfl
  | pass t t' i =>
    change (s.pass t t' i).capacity = _
    unfold Pool.pass
    split <;> rfl
  | resume t weak =>
    exact (resume_frame s t weak).1

lemma safe_run (h0 : 0 < capacity) (hcap : capacity < 2 ^ 32) {ops : List (Op Thread)}
    (hb : Along step (fun s _ => Brief s) (Pool.init Thread capacity) ops) :
    let r := run step (Pool.init Thread capacity) ops
    r.capacity = capacity ∧ ∃ l place, Safe l place r := by
  refine run_inv_along step
    (I := fun s => s.capacity = capacity ∧ ∃ l place, Safe l place s) ?_ ?_ hb
  · rintro s op ⟨hc, l, place, h⟩ hbrief
    exact ⟨(step_capacity s op).trans hc, h.step op hbrief⟩
  · exact ⟨rfl, _, _, safe_init h0 (by unfold emptyIndex; omega)⟩

omit [DecidableEq Thread] in
lemma sawEmpty_observe (h : s.observe.sawEmpty t) (hne : s.observe.freeList ≠ []) :
    s.sawEmpty t := by
  have hor : (s.sawEmpty t || decide (s.freeList = [])) := h
  have hlist : ¬ s.freeList = [] := hne
  rwa [decide_eq_false hlist, Bool.or_false] at hor

lemma sawEmpty_load {u : Thread} {pc : Head → Pc} (hpc : ((s.enter u).load u pc).pc t ≠ .idle)
    (h : ((s.enter u).load u pc).sawEmpty t) : s.pc t ≠ .idle ∧ s.sawEmpty t := by
  by_cases ht : t = u
  · subst ht
    simp [Pool.load, Pool.enter] at h
  · simp only [Pool.load, Pool.enter, update_of_ne ht] at h hpc
    exact ⟨hpc, h⟩

/-- A call that has seen the empty list, and does not see it in this step, was under way before
and had seen it. -/
lemma sawEmpty_step (op : Op Thread) (hpc : (step s op).pc t ≠ .idle)
    (hsaw : (step s op).sawEmpty t) (hne : (step s op).freeList ≠ []) :
    s.pc t ≠ .idle ∧ s.sawEmpty t := by
  cases op with
  | alloc u =>
    have h := sawEmpty_observe hsaw hne
    change (s.alloc u).pc t ≠ .idle at hpc
    unfold Pool.alloc at h hpc
    split_ifs at h hpc
    · exact sawEmpty_load hpc h
    · exact ⟨hpc, h⟩
  | free u i =>
    have h := sawEmpty_observe hsaw hne
    change (s.free u i).pc t ≠ .idle at hpc
    unfold Pool.free at h hpc
    split_ifs at h hpc
    · exact sawEmpty_load hpc h
    · exact ⟨hpc, h⟩
  | pass u u' i =>
    have h := sawEmpty_observe hsaw hne
    change (s.pass u u' i).pc t ≠ .idle at hpc
    unfold Pool.pass at h hpc
    split_ifs at h hpc <;> exact ⟨hpc, h⟩
  | resume u weak =>
    have h := sawEmpty_observe hsaw hne
    change (s.resume u weak).pc t ≠ .idle at hpc
    obtain ⟨-, hsame, hother⟩ := resume_frame s u weak
    rw [hsame] at h
    refine ⟨?_, h⟩
    by_cases ht : t = u
    · subst ht
      intro hidle
      have hstay : s.resume t weak = s := by
        unfold Pool.resume
        rw [hidle]
      rw [hstay] at hpc
      exact hpc hidle
    · rwa [hother t ht] at hpc

/-- The list was empty at some moment of the call that is under way: after the first operations
`front` of the run, and thread `t` is inside a call ever since. -/
def WasEmpty (s : Pool Thread) (ops : List (Op Thread)) (t : Thread) : Prop :=
  ∃ front back, ops = front ++ back ∧ (run step s front).freeList = [] ∧
    ∀ x y, back = x ++ y → (run step s (front ++ x)).pc t ≠ .idle

/-- The history variable says what it is meant to say. -/
lemma wasEmpty_of_sawEmpty (ops : List (Op Thread)) (t : Thread)
    (hpc : (run step (Pool.init Thread capacity) ops).pc t ≠ .idle)
    (hsaw : (run step (Pool.init Thread capacity) ops).sawEmpty t) :
    WasEmpty (Pool.init Thread capacity) ops t := by
  induction ops using List.reverseRecOn with
  | nil => exact absurd rfl hpc
  | append_singleton ops op ih =>
    rw [run_concat] at hpc hsaw
    by_cases hnow : (step (run step (Pool.init Thread capacity) ops) op).freeList = []
    · refine ⟨ops ++ [op], [], (append_nil _).symm, ?_, ?_⟩
      · rw [run_concat]
        exact hnow
      · intro x y hxy
        obtain ⟨rfl, -⟩ := append_eq_nil_iff.1 hxy.symm
        rw [append_nil, run_concat]
        exact hpc
    · obtain ⟨hpc', hsaw'⟩ := sawEmpty_step op hpc hsaw hnow
      obtain ⟨front, back, rfl, hempty, hcall⟩ := ih hpc' hsaw'
      refine ⟨front, back ++ [op], append_assoc .., hempty, ?_⟩
      intro x y hxy
      rcases eq_nil_or_concat y with rfl | ⟨y, z, rfl⟩
      · rw [append_nil] at hxy
        rw [← hxy, ← append_assoc, run_concat]
        exact hpc
      · have hxy' : back ++ [op] = (x ++ y) ++ [z] := by simpa using hxy
        exact hcall x y (append_inj' hxy' rfl).1

/-- **Lock-free pool safety.** In every interleaving of the atomic steps of any number of
threads, as long as fewer than 2^32 exchanges of the head fall into any one call: every slot is in
exactly one place (the free list, the hands of one thread, or one unfinished call), and nothing
else is; the free list ends and meets no slot twice; a slot that is returned is in nobody's hands;
and none is returned only if the free list was empty at some moment of the call. -/
theorem pool_safe {capacity : ℕ} (h0 : 0 < capacity) (hcap : capacity < 2 ^ 32)
    (ops : List (Op Thread))
    (hb : Along step (fun s _ => Brief s) (Pool.init Thread capacity) ops) :
    let s := run step (Pool.init Thread capacity) ops
    (∀ i, i < capacity → ∃! p, At s i p) ∧ (∀ i p, At s i p → i < capacity) ∧
      Links s.next emptyIndex s.head.index s.freeList ∧ s.freeList.Nodup ∧
      (∀ t weak i, returned s (.resume t weak) = some (some i) →
        i < capacity ∧ ∀ u, i ∉ s.hands u) ∧
      ∀ t weak, returned s (.resume t weak) = some none →
        WasEmpty (Pool.init Thread capacity) ops t := by
  intro s
  obtain ⟨hc, l, place, h⟩ := safe_run h0 hcap hb
  have hlist : s.freeList = l := h.freeList_eq
  have hat : ∀ i p, At s i p ↔ i < capacity ∧ place i = p := by
    intro i p
    rw [← hc, ← h.placed i p]
    cases p with
    | free => exact (by rw [At, In, hlist])
    | hand | transit => exact Iff.rfl
  refine ⟨fun i hi => ⟨place i, (hat i _).2 ⟨hi, rfl⟩, fun p hp => ((hat i p).1 hp).2.symm⟩,
    fun i p hp => ((hat i p).1 hp).1, hlist ▸ h.links, hlist ▸ h.links.nodup, ?_, ?_⟩
  · intro t weak i hret
    have htransit : (s.pc t).transit = some i := by
      unfold returned at hret
      cases hpc : s.pc t with
      | allocHigh index inUse high =>
        simp only [hpc] at hret
        split at hret
        · rw [← Option.some.inj (Option.some.inj hret)]
          rfl
        · cases hret
      | allocLoaded old =>
        simp only [hpc] at hret
        split at hret <;> cases hret
      | _ => simp [hpc] at hret
    have hin : At s i (.transit t) := htransit
    refine ⟨((hat i _).1 hin).1, fun u hu => ?_⟩
    cases ((hat i _).1 hin).2.symm.trans ((hat i (.hand u)).1 hu).2
  · intro t weak hret
    unfold returned at hret
    cases hpc : s.pc t with
    | allocLoaded old =>
      have hk : Knows s t (s.pc t) := h.knows t
      simp only [hpc] at hret
      rw [hpc] at hk
      split at hret
      · rename_i hempty
        have hcall : s.pc t ≠ .idle := by
          rw [hpc]
          exact Pc.noConfusion
        exact wasEmpty_of_sawEmpty ops t hcall (hk.2 hempty)
      · cases hret
    | allocHigh index inUse high =>
      simp only [hpc] at hret
      split at hret <;> cases hret
    | _ => simp [hpc] at hret

instance [Fintype Thread] (s : Pool Thread) : Decidable (Brief s) :=
  inferInstanceAs (Decidable (∀ t, s.pc t ≠ .idle → s.updates < s.startedAt t + 2 ^ 32))

/-- Thread 0 has read the head and its successor when thread 1 takes both slots and gives the
first one back: the head has the index thread 0 expects, and its successor is taken. -/
def reusedHead : List (Op (Fin 2)) :=
  let call := List.replicate 5 (.resume 1 false)
  [.alloc 0, .resume 0 false, .alloc 1] ++ call ++ [.alloc 1] ++ call ++ [.free 1 0] ++
    List.replicate 3 (.resume 1 false) ++ [.resume 0 false]

theorem pool_safe_reusedHead :
    let s := run step (Pool.init (Fin 2) 2) reusedHead
    s.pc 0 = .allocLoaded ⟨3, 0⟩ ∧ s.head = ⟨3, 0⟩ ∧ s.hands 1 = {1} ∧
      ∀ i, i < 2 → ∃! p, At s i p := by
  intro s
  have hb : Along step (fun s _ => Brief s) (Pool.init (Fin 2) 2) reusedHead := by
    decide +kernel
  have hs := pool_safe (by omega) (by omega) reusedHead hb
  exact ⟨by decide +kernel, by decide +kernel, by decide +kernel, hs.1⟩

end MezonSfu.MemoryPool
