import MezonSfu.RoutingIndex

/-!
The routing table is a map from ufrags to rooms and connections, over whole runs.
-/

namespace MezonSfu.Routing

open Function Option

variable {U A : Type*} [DecidableEq U] (hash : U → ℕ) (slots maxMappings : ℕ)

/-! ### Runs -/

/-- A call of one of the functions; reservations are in the caller's hands, under a name. -/
inductive Op (U A : Type*) where
  | prepareAnswer (id : ℕ) (client : Option U) (room fd : ℕ) (answer : PendingAnswer A)
  | commitAnswer (id : ℕ)
  | cancelAnswer (id : ℕ)
  | invalidatePending (u : U) (room fd : ℕ)
  | lookupRoute (u : U) (workerIndex : ℕ)
  | peekRoute (u : U)
  | unregisterFd (fd : ℕ)

/-- The table, the reservations, and which ufrags were inserted and not removed since, with the
room and the connection of the insertion. -/
structure World (U A : Type*) where
  table : Table U A
  reservations : ℕ → Option (Reservation U A)
  mapping : U → Option (ℕ × ℕ)

def World.init : World U A := ⟨.init, fun _ => none, fun _ => none⟩

section

variable (w : World U A)

def World.prepareAnswer (id : ℕ) (client : Option U) (room fd : ℕ)
    (answer : PendingAnswer A) : World U A :=
  match w.table.prepareAnswer hash slots maxMappings client room fd answer with
  | (t, .invalidArgument, _) => { w with table := t }
  | (t, _, none) => { w with table := t, reservations := update w.reservations id none }
  | (t, _, some r) =>
    { table := t
      reservations := update w.reservations id (some r)
      mapping := if r.newEntry then update w.mapping r.ufrag (some (room, fd))
        else w.mapping }

def World.close (id : ℕ) (r : Reservation U A) : ℕ → Option (Reservation U A) :=
  update w.reservations id (some { r with active := false })

def World.commitAnswer (id : ℕ) : World U A :=
  match (w.reservations id).filter Reservation.active with
  | none => w
  | some r =>
    { w with table := (w.table.commitAnswer hash slots r).1, reservations := w.close id r }

def World.cancelAnswer (id : ℕ) : World U A :=
  match (w.reservations id).filter Reservation.active with
  | none => w
  | some r =>
    { table := (w.table.cancelAnswer hash slots r).1
      reservations := w.close id r
      mapping := if (w.table.cancelAnswer hash slots r).2 then
          update w.mapping r.ufrag none
        else w.mapping }

def World.unregisterFd (fd : ℕ) : World U A :=
  { w with
    table := w.table.unregisterFd hash slots fd
    mapping := fun u => (w.mapping u).filter fun p => p.2 ≠ fd }

/-- Nothing happens after an abort. -/
def step (op : Op U A) : World U A :=
  if w.table.aborted then w
  else match op with
    | .prepareAnswer id client room fd answer =>
      w.prepareAnswer hash slots maxMappings id client room fd answer
    | .commitAnswer id => w.commitAnswer hash slots id
    | .cancelAnswer id => w.cancelAnswer hash slots id
    | .invalidatePending u room fd =>
      { w with table := (w.table.invalidatePending hash slots u room fd).1 }
    | .lookupRoute u workerIndex =>
      { w with table := (w.table.lookupRoute hash slots u workerIndex).1 }
    | .peekRoute _ => w
    | .unregisterFd fd => w.unregisterFd hash slots fd

end

variable {hash slots maxMappings} {w : World U A} {t : Table U A}

def Maps (t : Table U A) (mapping : U → Option (ℕ × ℕ)) : Prop :=
  ∀ u p, mapping u = some p ↔ ∃ e, t.Stored e ∧ e.ufrag = u ∧ (e.room, e.fd) = p

structure Sound (hash : U → ℕ) (slots maxMappings : ℕ) (t : Table U A) : Prop where
  indexed : t.Indexed hash slots
  le : t.count ≤ maxMappings
  aborted : t.aborted = false
  rebuildFailed : t.rebuildFailed = false

structure Inv (hash : U → ℕ) (slots maxMappings : ℕ) (w : World U A) : Prop where
  sound : Sound hash slots maxMappings w.table
  maps : Maps w.table w.mapping

omit [DecidableEq U] in
lemma inv_init : Inv hash slots maxMappings (World.init : World U A) := by
  have hnone : ∀ {i : ℕ}, ¬ i < 0 := fun h => Nat.not_lt_zero _ h
  refine ⟨⟨⟨fun i hi => absurd hi hnone, HashIndex.covers_clear fun i => if_neg hnone,
    (HashIndex.deletedCount_clear slots).symm⟩, Nat.zero_le _, rfl, rfl⟩, ?_⟩
  intro u p
  constructor
  · intro h
    cases h
  · rintro ⟨e, ⟨i, hi, -⟩, -⟩
    exact absurd hi hnone

omit [DecidableEq U] in
lemma Inv.update (h : Inv hash slots maxMappings w) {i : ℕ} {e : Entry U A}
    (he : w.table.entries i = some e) (hi : i < w.table.count) (e' : Entry U A)
    (hu : e'.ufrag = e.ufrag) (hown : (e'.room, e'.fd) = (e.room, e.fd)) :
    Inv hash slots maxMappings { w with
      table := { w.table with entries := update w.table.entries i (some e') } } := by
  refine ⟨⟨h.sound.indexed.update he hu, h.sound.le, h.sound.aborted, h.sound.rebuildFailed⟩, ?_⟩
  intro u p
  refine (h.maps u p).trans ?_
  constructor
  · rintro ⟨f, ⟨x, hx, hf⟩, hfu, hp⟩
    by_cases hxi : x = i
    · rw [hxi, he, Option.some.injEq] at hf
      refine ⟨e', ⟨i, hi, update_self ..⟩, ?_, ?_⟩
      · rw [hu, hf, hfu]
      · rw [hown, hf, hp]
    · exact ⟨f, ⟨x, hx, (update_of_ne hxi ..).trans hf⟩, hfu, hp⟩
  · rintro ⟨f, ⟨x, hx, hf⟩, hfu, hp⟩
    obtain ⟨-, ⟨⟩⟩ | ⟨-, hf⟩ := update_cases hf
    · exact ⟨e, ⟨i, hi, he⟩, hu ▸ hfu, hown ▸ hp⟩
    · exact ⟨f, ⟨x, hx, hf⟩, hfu, hp⟩

omit [DecidableEq U] in
lemma Inv.reservations (h : Inv hash slots maxMappings w) (r : ℕ → Option (Reservation U A)) :
    Inv hash slots maxMappings { w with reservations := r } := ⟨h.sound, h.maps⟩

section

variable (h : Inv hash slots maxMappings w)

include h

lemma Inv.modifyEntry {u : U} {i : ℕ}
    (hfind : w.table.findEntry hash slots u = some i) (f : Entry U A → Entry U A)
    (hf : ∀ e, (f e).ufrag = e.ufrag ∧ (f e).room = e.room ∧ (f e).fd = e.fd) :
    Inv hash slots maxMappings { w with table := w.table.modifyEntry i f } := by
  obtain ⟨hi, e, he, -⟩ := h.sound.indexed.findEntry_iff.1 hfind
  have hinv := h.update he hi (f e) (hf e).1 (by rw [(hf e).2.1, (hf e).2.2])
  unfold Table.modifyEntry
  rw [he]
  exact hinv

lemma Inv.lookupRoute (u : U) (workerIndex : ℕ) :
    Inv hash slots maxMappings
      { w with table := (w.table.lookupRoute hash slots u workerIndex).1 } := by
  unfold Table.lookupRoute
  cases hfind : w.table.findEntry hash slots u with
  | none => exact h
  | some i => exact h.modifyEntry hfind _ fun _ => ⟨rfl, rfl, rfl⟩

lemma Inv.invalidatePending (u : U) (room fd : ℕ) :
    Inv hash slots maxMappings
      { w with table := (w.table.invalidatePending hash slots u room fd).1 } := by
  unfold Table.invalidatePending
  cases hfind : w.table.findEntry hash slots u with
  | none => exact h
  | some i =>
    dsimp only
    split
    · exact h.modifyEntry hfind _ fun _ => ⟨rfl, rfl, rfl⟩
    · exact h

end

lemma reserved_spec (h : Sound hash slots maxMappings t) {r : Reservation U A} {e : Entry U A}
    (hr : t.reserved hash slots r = some e) :
    r.entryIndex < t.count ∧ t.entries r.entryIndex = some e ∧ e.ufrag = r.ufrag ∧
      e.room = r.room ∧ e.fd = r.fd := by
  obtain ⟨i, hfind, hr⟩ := bind_eq_some_iff.1 hr
  obtain ⟨e', he', hr⟩ := bind_eq_some_iff.1 hr
  split at hr
  · rename_i hown
    cases hr
    obtain ⟨hi, f, hf, hfu⟩ := h.indexed.findEntry_iff.1 hfind
    rw [he', Option.some.injEq] at hf
    rw [← hown.2.2, hf]
    exact ⟨hi, hf ▸ he', hfu, hf ▸ hown.1, hf ▸ hown.2.1⟩
  · cases hr

lemma Inv.commitAnswer (h : Inv hash slots maxMappings w) (id : ℕ) :
    Inv hash slots maxMappings (w.commitAnswer hash slots id) := by
  unfold World.commitAnswer
  split
  · exact h
  rename_i r _
  refine Inv.reservations (w := { w with table := (w.table.commitAnswer hash slots r).1 }) ?_ _
  unfold Table.commitAnswer
  split
  · exact h
  · rename_i e hr
    obtain ⟨hi, he, -, hroom, hfd⟩ := reserved_spec h.sound hr
    exact h.update he hi _ rfl (by rw [hroom, hfd])

lemma Sound.tidy (h : Sound hash slots maxMappings t) (hmax : maxMappings ≤ slots) :
    ∃ t', t.tidy hash slots = (t', true) ∧ Sound hash slots maxMappings t' ∧
      ∀ f, t'.Stored f ↔ t.Stored f := by
  obtain ⟨t', heq, h', hsame⟩ := Table.tidy_spec h.indexed (h.le.trans hmax)
  refine ⟨t', heq, ⟨h', by rw [hsame.count]; exact h.le, hsame.aborted.trans h.aborted,
    hsame.rebuildFailed.trans h.rebuildFailed⟩, fun f => ?_⟩
  unfold Table.Stored
  rw [hsame.entries, hsame.count]

lemma Inv.cancelAnswer (h : Inv hash slots maxMappings w) (hmax : maxMappings ≤ slots) (id : ℕ) :
    Inv hash slots maxMappings (w.cancelAnswer hash slots id) := by
  unfold World.cancelAnswer
  split
  · exact h
  rename_i r _
  unfold Table.cancelAnswer
  split
  · rename_i hremove
    obtain ⟨e, hr, -⟩ := (any_eq_true _ _).1 hremove.2
    obtain ⟨hi, he, hu, -, -⟩ := reserved_spec h.sound hr
    have hrem := Table.removeEntryAt_spec h.sound.indexed hi he
    have hle := h.sound.le
    have hcount := hrem.count
    have hsound : Sound hash slots maxMappings
        (w.table.removeEntryAt hash slots r.entryIndex) :=
      ⟨hrem.indexed, by omega, hrem.aborted.trans h.sound.aborted,
        hrem.rebuildFailed.trans h.sound.rebuildFailed⟩
    obtain ⟨t', heq, hsound', hstored⟩ := hsound.tidy hmax
    rw [heq]
    refine ⟨hsound', fun u p => ?_⟩
    rw [if_pos rfl]
    simp only [hstored, hrem.stored]
    by_cases hur : u = r.ufrag
    · rw [hur, update_self]
      constructor
      · intro hp
        cases hp
      · rintro ⟨f, ⟨-, hne⟩, hfu, -⟩
        exact absurd (hfu.trans hu.symm) hne
    · rw [update_of_ne hur, h.maps u p]
      constructor
      · rintro ⟨f, hf, hfu, hp⟩
        exact ⟨f, ⟨hf, by rw [hfu, hu]; exact hur⟩, hfu, hp⟩
      · rintro ⟨f, ⟨hf, -⟩, hfu, hp⟩
        exact ⟨f, hf, hfu, hp⟩
  · exact ⟨h.sound, h.maps⟩

lemma Sound.unregisterFd (h : Sound hash slots maxMappings t) (hmax : maxMappings ≤ slots)
    (fd : ℕ) : Sound hash slots maxMappings (t.unregisterFd hash slots fd) ∧
      ∀ f, (t.unregisterFd hash slots fd).Stored f ↔ t.Stored f ∧ f.fd ≠ fd := by
  obtain ⟨hindexed, hle, haborted, hfailed, hstored⟩ :=
    Table.unregisterFrom_spec fd t.count 0 h.indexed (Nat.sub_le _ _)
      fun x hx => absurd hx (Nat.not_lt_zero x)
  have hsound : Sound hash slots maxMappings (t.unregisterFrom hash slots fd t.count 0) :=
    ⟨hindexed, hle.trans h.le, haborted.trans h.aborted, hfailed.trans h.rebuildFailed⟩
  obtain ⟨t', heq, hsound', hstored'⟩ := hsound.tidy hmax
  have hresult : t.unregisterFd hash slots fd = t' := by
    unfold Table.unregisterFd
    rw [heq]
    exact if_pos rfl
  rw [hresult]
  exact ⟨hsound', fun f => (hstored' f).trans (hstored f)⟩

lemma Inv.unregisterFd (h : Inv hash slots maxMappings w) (hmax : maxMappings ≤ slots) (fd : ℕ) :
    Inv hash slots maxMappings (w.unregisterFd hash slots fd) := by
  obtain ⟨hsound, hstored⟩ := h.sound.unregisterFd hmax fd
  refine ⟨hsound, fun u p => ?_⟩
  unfold World.unregisterFd
  rw [filter_eq_some_iff, h.maps u p]
  simp only [hstored, decide_eq_true_eq]
  constructor
  · rintro ⟨⟨e, he, hu, rfl⟩, hfd⟩
    exact ⟨e, ⟨he, hfd⟩, hu, rfl⟩
  · rintro ⟨e, ⟨he, hfd⟩, hu, rfl⟩
    exact ⟨⟨e, he, hu, rfl⟩, hfd⟩

lemma appendEntry_of_full (h : maxMappings ≤ t.count) (u : U) (room fd : ℕ) :
    t.appendEntry hash slots maxMappings u room fd = (t, .tableFull) := by
  exact if_pos h

lemma prepareAnswer_spec (h : Sound hash slots maxMappings t) (hmax : maxMappings ≤ slots)
    (client : Option U) (room fd : ℕ) (answer : PendingAnswer A) :
    let r := t.prepareAnswer hash slots maxMappings client room fd answer
    (r.1 = t ∧ (∀ x ∈ r.2.2, x.newEntry = false) ∧ (r.2.1 = .tableFull → t.count = maxMappings)) ∨
      (∃ u x, client = some u ∧ (∀ e, t.Stored e → e.ufrag ≠ u) ∧ t.count < maxMappings ∧
        t.Appended hash slots r.1 (.new u room fd) ∧ r.2.1 = .ok ∧ r.2.2 = some x ∧
        x.ufrag = u ∧ x.newEntry) := by
  unfold Table.prepareAnswer
  cases client with
  | none => exact .inl ⟨rfl, nofun, nofun⟩
  | some u =>
    dsimp only
    cases hfind : t.findEntry hash slots u with
    | some i =>
      dsimp only
      split
      · refine .inl ⟨rfl, ?_, nofun⟩
        intro x hx
        rw [← Option.some.inj hx]
        rfl
      · exact .inl ⟨rfl, nofun, nofun⟩
    | none =>
      have hnew := h.indexed.findEntry_none.1 hfind
      by_cases hfull : maxMappings ≤ t.count
      · rw [appendEntry_of_full hfull]
        exact .inl ⟨rfl, nofun, fun _ => le_antisymm h.le hfull⟩
      · obtain ⟨t', heq, happ⟩ :=
          Table.appendEntry_spec h.indexed hmax (by omega) hnew room fd
        rw [heq]
        exact .inr ⟨u, _, rfl, hnew, by omega, happ, rfl, rfl, rfl, rfl⟩

lemma Inv.prepareAnswer (h : Inv hash slots maxMappings w) (hmax : maxMappings ≤ slots)
    (id : ℕ) (client : Option U) (room fd : ℕ) (answer : PendingAnswer A) :
    Inv hash slots maxMappings
      (w.prepareAnswer hash slots maxMappings id client room fd answer) := by
  have hspec := prepareAnswer_spec h.sound hmax client room fd answer
  unfold World.prepareAnswer
  generalize w.table.prepareAnswer hash slots maxMappings client room fd answer = r at hspec
  obtain ⟨t, result, reservation⟩ := r
  rcases hspec with ⟨ht, hold, -⟩ | ⟨u, x, -, hnew, hlt, happ, hok, hx, hxu, hxnew⟩
  · -- the table is as it was
    dsimp only at ht hold
    rw [ht]
    split
    · rename_i heq
      cases heq
      exact h
    · rename_i heq
      cases heq
      exact h.reservations _
    · rename_i heq
      cases heq
      rw [hold _ rfl, if_neg Bool.false_ne_true]
      exact h.reservations _
  · dsimp only at happ hok hx
    rw [hok, hx]
    dsimp only
    rw [hxnew, if_pos rfl, hxu]
    have hcount := happ.count
    refine ⟨⟨happ.indexed, by dsimp only; omega, happ.aborted.trans h.sound.aborted,
      happ.rebuildFailed.trans h.sound.rebuildFailed⟩, fun u' p => ?_⟩
    simp only [happ.stored]
    by_cases hu : u' = u
    · rw [hu, update_self, Option.some.injEq]
      constructor
      · rintro rfl
        exact ⟨_, .inr rfl, rfl, rfl⟩
      · rintro ⟨e, he | rfl, heu, hp⟩
        · exact absurd heu (hnew e he)
        · exact hp
    · rw [update_of_ne hu, h.maps u' p]
      constructor
      · rintro ⟨e, he, heu, hp⟩
        exact ⟨e, .inl he, heu, hp⟩
      · rintro ⟨e, he | rfl, heu, hp⟩
        · exact ⟨e, he, heu, hp⟩
        · exact absurd heu.symm hu

lemma Inv.step (hmax : maxMappings ≤ slots) (h : Inv hash slots maxMappings w) (op : Op U A) :
    Inv hash slots maxMappings (step hash slots maxMappings w op) := by
  unfold Routing.step
  rw [h.sound.aborted, if_neg Bool.false_ne_true]
  cases op with
  | prepareAnswer id client room fd answer => exact h.prepareAnswer hmax id client room fd answer
  | commitAnswer id => exact h.commitAnswer id
  | cancelAnswer id => exact h.cancelAnswer hmax id
  | invalidatePending u room fd => exact h.invalidatePending u room fd
  | lookupRoute u workerIndex => exact h.lookupRoute u workerIndex
  | peekRoute u => exact h
  | unregisterFd fd => exact h.unregisterFd hmax fd

def Snapshot.owner (s : Snapshot) : ℕ × ℕ := (s.room, s.fd)

lemma peekRoute_owner {mapping : U → Option (ℕ × ℕ)} (h : Sound hash slots maxMappings t)
    (hm : Maps t mapping) (u : U) : (t.peekRoute hash slots u).map Snapshot.owner = mapping u := by
  ext p
  rw [hm u p]
  unfold Table.peekRoute
  constructor
  · intro hp
    obtain ⟨s, hs, rfl⟩ := map_eq_some_iff.1 hp
    obtain ⟨i, hfind, hs⟩ := bind_eq_some_iff.1 hs
    obtain ⟨e, he, rfl⟩ := map_eq_some_iff.1 hs
    obtain ⟨hi, f, hf, hfu⟩ := h.indexed.findEntry_iff.1 hfind
    rw [he, Option.some.injEq] at hf
    exact ⟨e, ⟨i, hi, he⟩, by rw [hf, hfu], rfl⟩
  · rintro ⟨e, ⟨i, hi, he⟩, hu, rfl⟩
    rw [h.indexed.findEntry_iff.2 ⟨hi, e, he, hu⟩, bind_some, he]
    rfl

lemma lookupRoute_owner (u : U) (workerIndex : ℕ) :
    (t.lookupRoute hash slots u workerIndex).2.map Snapshot.owner =
      (t.peekRoute hash slots u).map Snapshot.owner := by
  unfold Table.lookupRoute Table.peekRoute
  cases hfind : t.findEntry hash slots u with
  | none => rfl
  | some i =>
    dsimp only [bind_some, Table.modifyEntry]
    rw [update_self]
    cases t.entries i <;> rfl

structure Refines (hash : U → ℕ) (slots maxMappings : ℕ) (w : World U A) : Prop where
  /-- Neither abort is reached. -/
  running : w.table.aborted = false
  /-- No rebuild has failed. -/
  rebuilt : w.table.rebuildFailed = false
  peek : ∀ u, (w.table.peekRoute hash slots u).map Snapshot.owner = w.mapping u
  lookup : ∀ u workerIndex,
    (w.table.lookupRoute hash slots u workerIndex).2.map Snapshot.owner = w.mapping u
  distinct : ∀ i j e e', i < w.table.count → j < w.table.count → w.table.entries i = some e →
    w.table.entries j = some e' → e.ufrag = e'.ufrag → i = j
  deleted : w.table.deletedSlots = w.table.index.deletedCount slots
  unregister : ∀ fd u, ((w.table.unregisterFd hash slots fd).peekRoute hash slots u).map
    Snapshot.owner = (w.mapping u).filter fun p => p.2 ≠ fd
  full : ∀ client room fd answer,
    (w.table.prepareAnswer hash slots maxMappings client room fd answer).2.1 = .tableFull →
    w.table.count = maxMappings

/-- **The routing table refines a map from ufrags to owners**, whatever calls were made: lookups
find what was inserted and not removed, the array has no ufrag twice, the tombstones are counted,
the code does not give up, and the table is full only when it is. -/
theorem routing_table_refines (hash : U → ℕ) (slots maxMappings : ℕ)
    (hmax : maxMappings ≤ slots) (ops : List (Op U A)) :
    Refines hash slots maxMappings (Runs.run (step hash slots maxMappings) World.init ops) := by
  have hinv : Inv hash slots maxMappings
      (Runs.run (step hash slots maxMappings) (World.init : World U A) ops) :=
    Runs.run_inv _ (fun _ op h => h.step hmax op) inv_init ops
  have hs := hinv.sound
  refine ⟨hs.aborted, hs.rebuildFailed, peekRoute_owner hs hinv.maps, ?_,
    fun _ _ _ _ hi hj he he' => hs.indexed.distinct hi hj he he', hs.indexed.deleted, ?_, ?_⟩
  · intro u workerIndex
    rw [lookupRoute_owner, peekRoute_owner hs hinv.maps]
  · intro fd u
    have hinv' := hinv.unregisterFd hmax fd
    exact peekRoute_owner hinv'.sound hinv'.maps u
  · intro client room fd answer hfull
    rcases prepareAnswer_spec hs hmax client room fd answer with
      ⟨-, -, hcount⟩ | ⟨u, x, -, -, -, -, hok, -⟩
    · exact hcount hfull
    · rw [hok] at hfull
      cases hfull

/-- Three mappings whose ufrags have one hash; the connection of the first two goes. -/
def threeMappings : List (Op ℕ Unit) :=
  [.prepareAnswer 0 (some 5) 1 10 ⟨none, 0, 0, false⟩, .commitAnswer 0,
    .prepareAnswer 1 (some 6) 1 10 ⟨none, 0, 0, false⟩, .prepareAnswer 2 (some 7) 2 11
      ⟨none, 0, 0, false⟩, .unregisterFd 10]

theorem routing_table_refines_three :
    let w := Runs.run (step (fun _ => 3) 4 3) World.init threeMappings
    (w.table.peekRoute (fun _ => 3) 4 7).map Snapshot.owner = some (2, 11) ∧
      w.table.peekRoute (fun _ => 3) 4 5 = none ∧ Refines (fun _ => 3) 4 3 w :=
  ⟨by decide +kernel, by decide +kernel,
    routing_table_refines (fun _ => 3) 4 3 (by decide) threeMappings⟩

end MezonSfu.Routing
