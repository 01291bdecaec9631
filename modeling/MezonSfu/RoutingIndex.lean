import MezonSfu.RoutingTable

/-!
The index of the routing table agrees with its entries.

Every entry has its slot in the index, at a place where a probe for its ufrag finds it; so ufrags
do not repeat; and the tombstones are counted. Each internal operation keeps this, does not run
into the cases in which the code gives up, and changes the stored entries as it should.
-/

namespace MezonSfu.Routing

open HashIndex Function Option

variable {U A : Type*} [DecidableEq U] {hash : U → ℕ} {slots maxMappings : ℕ}
  {t t' : Table U A} {u : U} {i j : ℕ} {e e' : Entry U A} {s : HashSlot}

namespace Table

section

omit [DecidableEq U]

def obj (t : Table U A) (i : ℕ) : Option U :=
  if i < t.count then (t.entries i).map Entry.ufrag else none

lemma obj_eq_some : t.obj i = some u ↔ i < t.count ∧ ∃ e, t.entries i = some e ∧ e.ufrag = u := by
  unfold obj
  split
  · rename_i hlt
    rw [map_eq_some_iff]
    exact ⟨fun h => ⟨hlt, h⟩, fun h => h.2⟩
  · rename_i hlt
    exact ⟨nofun, fun h => absurd h.1 hlt⟩

lemma obj_of_entry (hi : i < t.count) (he : t.entries i = some e) : t.obj i = some e.ufrag :=
  obj_eq_some.2 ⟨hi, e, he, rfl⟩

end

lemma hits_iff : t.hits hash u s ↔ s.hash = hash u ∧ t.obj s.index = some u := by
  unfold hits
  rw [decide_eq_true_eq, obj_eq_some]
  simp only [any_eq_true, decide_eq_true_eq]

lemma tests {obj : ℕ → Option U} (h : Covers hash obj slots t.index)
    (hsub : ∀ i u, obj i = some u → t.obj i = some u) (u : U) :
    Tests (slotKey hash obj) slots t.index (t.hits hash u) u := by
  apply tests_of
  intro j s hj hc
  rw [hits_iff]
  refine and_congr_right fun _ => ?_
  obtain ⟨k, hk, -⟩ := h.slot hj hc
  rw [hsub _ k hk, hk]

/-- All entries are there and indexed, and the tombstones counted. -/
structure Indexed (hash : U → ℕ) (slots : ℕ) (t : Table U A) : Prop where
  entry : ∀ i < t.count, ∃ e, t.entries i = some e
  covers : Covers hash t.obj slots t.index
  deleted : t.deletedSlots = t.index.deletedCount slots

/-- The entry `e` is in the table. -/
def Stored (t : Table U A) (e : Entry U A) : Prop := ∃ i < t.count, t.entries i = some e

omit [DecidableEq U] in
lemma Indexed.distinct (h : Indexed hash slots t) (hi : i < t.count) (hj : j < t.count)
    (he : t.entries i = some e) (he' : t.entries j = some e') (hu : e.ufrag = e'.ufrag) : i = j :=
  h.covers.obj_inj (obj_of_entry hi he) (hu ▸ obj_of_entry hj he')

omit [DecidableEq U] in
lemma Indexed.eq_of_ufrag (h : Indexed hash slots t) (he : t.Stored e) (he' : t.Stored e')
    (hu : e.ufrag = e'.ufrag) : e = e' := by
  obtain ⟨i, hi, hei⟩ := he
  obtain ⟨j, hj, hej⟩ := he'
  rw [h.distinct hi hj hei hej hu, hej, Option.some.injEq] at hei
  exact hei.symm

lemma routingProbe_of_obj {obj : ℕ → Option U} (h : Covers hash obj slots t.index)
    (hsub : ∀ i u, obj i = some u → t.obj i = some u) (hi : obj i = some u) :
    ∃ j < slots, t.index.cells j = .full ⟨hash u, i⟩ ∧
      ∀ forInsert, t.routingProbe hash slots u forInsert = some j := by
  obtain ⟨j, hj, hc, hprobe⟩ := h.hit_of_obj (tests h hsub u) hi
  refine ⟨j, hj, hc, fun forInsert => ?_⟩
  have hprobe := hprobe none
  unfold routingProbe
  generalize t.index.probe slots (t.hits hash u) slots (hash u % slots) none = r at hprobe
  obtain ⟨free, r⟩ := r
  dsimp only at hprobe
  rw [hprobe]

/-- **Lookups find the entries.** -/
lemma Indexed.findEntry_iff (h : Indexed hash slots t) :
    t.findEntry hash slots u = some i ↔ i < t.count ∧ ∃ e, t.entries i = some e ∧ e.ufrag = u := by
  rw [← obj_eq_some]
  constructor
  · intro hfind
    obtain ⟨slot, hslot, hentry⟩ := bind_eq_some_iff.1 hfind
    unfold routingProbe at hslot
    have hhit := fun j => @Covers.obj_of_hit _ slots j u hash t.obj t.index (t.hits hash u)
      h.covers (tests h.covers (fun _ _ hx => hx) u) none
    have hgap := @probe_gap HashSlot t.index slots (t.hits hash u) (hash u) slots none
    generalize t.index.probe slots (t.hits hash u) slots (hash u % slots) none = r at *
    obtain ⟨free, r⟩ := r
    cases r with
    | hit j =>
      cases hslot
      obtain ⟨-, x, hc, hx⟩ := hhit slot rfl
      rw [hc] at hentry
      dsimp only at hentry
      rw [if_pos (obj_eq_some.1 hx).1, Option.some.injEq] at hentry
      rw [← hentry]
      exact hx
    | gap j =>
      cases hslot
      rw [if_neg Bool.false_ne_true, hgap rfl] at hentry
      cases hentry
    | all => cases hslot
  · intro hi
    obtain ⟨j, -, hc, hprobe⟩ := routingProbe_of_obj h.covers (fun _ _ hx => hx) hi
    unfold findEntry
    rw [hprobe, bind_some, hc]
    exact if_pos (obj_eq_some.1 hi).1

lemma Indexed.findEntry_none (h : Indexed hash slots t) :
    t.findEntry hash slots u = none ↔ ∀ e, t.Stored e → e.ufrag ≠ u := by
  rw [eq_none_iff_forall_not_mem]
  constructor
  · rintro hnone e ⟨i, hi, he⟩ hu
    exact hnone i (h.findEntry_iff.2 ⟨hi, e, he, hu⟩)
  · intro hall i hfind
    obtain ⟨hi, e, he, hu⟩ := h.findEntry_iff.1 hfind
    exact hall e ⟨i, hi, he⟩ hu

omit [DecidableEq U] in
lemma Indexed.update (h : Indexed hash slots t) (he : t.entries i = some e)
    (hu : e'.ufrag = e.ufrag) :
    Indexed hash slots { t with entries := Function.update t.entries i (some e') } := by
  have hobj : { t with entries := Function.update t.entries i (some e') }.obj = t.obj := by
    funext x
    unfold obj
    dsimp only
    by_cases hx : x = i
    · rw [hx, Function.update_self, he, map_some, map_some, hu]
    · rw [Function.update_of_ne hx]
  refine ⟨?_, by rw [hobj]; exact h.covers, h.deleted⟩
  intro x hx
  by_cases hxi : x = i
  · exact ⟨e', by rw [hxi]; exact Function.update_self ..⟩
  · dsimp only
    rw [Function.update_of_ne hxi]
    exact h.entry x hx

/-! ### Indexing -/

/-- The table with a slot for the entry `i` in the cell `j`. -/
def pointed (hash : U → ℕ) (slots : ℕ) (t : Table U A) (j : ℕ) (u : U) (i : ℕ) : Table U A :=
  { t with
    index := t.index.set j (.full ⟨hash u, i⟩)
    deletedSlots := (t.index.set j (.full ⟨hash u, i⟩)).deletedCount slots }

lemma indexEntry_spec {obj : ℕ → Option U} (h : Covers hash obj slots t.index)
    (hsub : ∀ i u, obj i = some u → t.obj i = some u)
    (hdel : t.deletedSlots = t.index.deletedCount slots) (he : t.entries i = some e)
    (hi : obj i = none) (hnew : ∀ x, obj x ≠ some e.ufrag) {n : ℕ} (hn : n < slots)
    (hbelow : ∀ x u, obj x = some u → x < n) :
    ∃ j < slots, t.indexEntry hash slots i = some (t.pointed hash slots j e.ufrag i) ∧
      Covers hash (update obj i (some e.ufrag)) slots
        (t.index.set j (.full ⟨hash e.ufrag, i⟩)) := by
  obtain ⟨j, hj, hv, hfree, hreach⟩ := h.place (tests h hsub e.ufrag) hnew (Finset.range n)
    (by rwa [Finset.card_range]) fun x u hx => Finset.mem_range.2 (hbelow x u hx)
  have hprobe : t.routingProbe hash slots e.ufrag true = some j := by
    rw [← hv]
    unfold routingProbe
    generalize t.index.probe slots (t.hits hash e.ufrag) slots (hash e.ufrag % slots) none = r
    obtain ⟨free, r⟩ := r
    cases r <;> rfl
  refine ⟨j, hj, ?_, h.insert hi hnew hj hfree hreach⟩
  unfold indexEntry pointed
  rw [he, bind_some, hprobe, map_some, Option.some.injEq]
  have hcount := deletedCount_set hj t.index (.full ⟨hash e.ufrag, i⟩)
  have hnot : (IndexCell.full (⟨hash e.ufrag, i⟩ : HashSlot)).isDeleted = false := rfl
  rw [hnot, if_neg Bool.false_ne_true, Nat.add_zero, ← hdel] at hcount
  -- a tombstone that is used again is no longer counted
  have hslots : (if (t.index.cells j).isDeleted && decide (0 < t.deletedSlots) then
      t.deletedSlots - 1 else t.deletedSlots) =
        (t.index.set j (.full ⟨hash e.ufrag, i⟩)).deletedCount slots := by
    by_cases hd : (t.index.cells j).isDeleted
    · rw [if_pos hd] at hcount
      rw [hd, Bool.true_and, if_pos (decide_eq_true (by omega))]
      omega
    · rw [if_neg hd] at hcount
      rw [if_neg (by simp [hd])]
      omega
  rw [hslots]

/-- The ufrags of the entries before `i`. -/
def objBefore (t : Table U A) (i x : ℕ) : Option U := if x < i then t.obj x else none

section

omit [DecidableEq U]

lemma objBefore_eq_some {x : ℕ} : t.objBefore i x = some u ↔ x < i ∧ t.obj x = some u := by
  unfold objBefore
  split
  · rename_i hx
    exact ⟨fun h => ⟨hx, h⟩, fun h => h.2⟩
  · rename_i hx
    exact ⟨nofun, fun h => absurd h.1 hx⟩

lemma objBefore_succ (hi : i < t.count) (he : t.entries i = some e) :
    update (t.objBefore i) i (some e.ufrag) = t.objBefore (i + 1) := by
  funext x
  unfold objBefore
  by_cases hx : x = i
  · rw [hx, update_self, if_pos (Nat.lt_succ_self i), obj_of_entry hi he]
  · rw [update_of_ne hx]
    by_cases hlt : x < i
    · rw [if_pos hlt, if_pos (Nat.lt_succ_of_lt hlt)]
    · rw [if_neg hlt, if_neg (by omega)]

lemma objBefore_count : t.objBefore t.count = t.obj := by
  funext x
  unfold objBefore obj
  split
  · rfl
  · rfl

end

/-- What an operation on the index leaves as it was. -/
structure SameEntries (t t' : Table U A) : Prop where
  entries : t'.entries = t.entries
  count : t'.count = t.count
  aborted : t'.aborted = t.aborted
  rebuildFailed : t'.rebuildFailed = t.rebuildFailed

omit [DecidableEq U] in
lemma SameEntries.obj (h : SameEntries t t') : t'.obj = t.obj := by
  funext x
  unfold Table.obj
  rw [h.entries, h.count]

omit [DecidableEq U] in
lemma SameEntries.stored (h : SameEntries t t') : t'.Stored e ↔ t.Stored e := by
  unfold Stored
  rw [h.entries, h.count]

/-- The state of a rebuild before the entry `i`. -/
structure Rebuilding (hash : U → ℕ) (slots : ℕ) (t₀ t : Table U A) (i : ℕ) : Prop where
  covers : Covers hash (t₀.objBefore i) slots t.index
  deleted : t.deletedSlots = t.index.deletedCount slots
  same : SameEntries t₀ t

lemma Rebuilding.step {t₀ : Table U A} (h₀ : Indexed hash slots t₀) (hcount : t₀.count ≤ slots)
    (h : Rebuilding hash slots t₀ t i) (hi : i < t₀.count) :
    ∃ t', t.indexEntry hash slots i = some t' ∧ Rebuilding hash slots t₀ t' (i + 1) := by
  obtain ⟨e, he⟩ := h₀.entry i hi
  have hsub : ∀ x u, t₀.objBefore i x = some u → t.obj x = some u := by
    intro x u hx
    rw [h.same.obj]
    exact (objBefore_eq_some.1 hx).2
  obtain ⟨j, hj, heq, hcovers⟩ := indexEntry_spec h.covers hsub h.deleted
    (by rw [h.same.entries, he]) (if_neg (Nat.lt_irrefl i)) (by
      intro x hx
      obtain ⟨hlt, hobj⟩ := objBefore_eq_some.1 hx
      exact hlt.ne (h₀.covers.obj_inj hobj (obj_of_entry hi he)))
    (by omega : i < slots) fun x u hx => (objBefore_eq_some.1 hx).1
  rw [objBefore_succ hi he] at hcovers
  exact ⟨_, heq, hcovers, rfl, h.same.entries, h.same.count, h.same.aborted, h.same.rebuildFailed⟩

lemma Rebuilding.indexFrom {t₀ : Table U A} (h₀ : Indexed hash slots t₀) (hcount : t₀.count ≤ slots)
    {n : ℕ} (h : Rebuilding hash slots t₀ t i) (hi : i + n = t₀.count) :
    ∃ t', indexFrom hash slots t n i = some t' ∧ Rebuilding hash slots t₀ t' t₀.count := by
  induction n generalizing t i with
  | zero =>
    rw [Nat.add_zero] at hi
    exact ⟨t, rfl, hi ▸ h⟩
  | succ n ih =>
    obtain ⟨t', hstep, h'⟩ := h.step h₀ hcount (by omega)
    obtain ⟨t'', hrest, h''⟩ := ih h' (by omega)
    refine ⟨t'', ?_, h''⟩
    unfold Table.indexFrom
    rw [hstep, bind_some, hrest]

omit [DecidableEq U] in
lemma Indexed.of_same (h : Indexed hash slots t) (hsame : SameEntries t t')
    (hcovers : Covers hash t.obj slots t'.index)
    (hdel : t'.deletedSlots = t'.index.deletedCount slots) : Indexed hash slots t' := by
  refine ⟨?_, by rwa [hsame.obj], hdel⟩
  rw [hsame.count, hsame.entries]
  exact h.entry

/-- **A rebuild does not fail** while there are no more entries than slots. -/
lemma rebuildIndex_spec (h : Indexed hash slots t) (hcount : t.count ≤ slots) :
    ∃ t', t.rebuildIndex hash slots = (t', true) ∧ Indexed hash slots t' ∧ SameEntries t t' := by
  have hstart : Rebuilding hash slots t { t with index := .clear, deletedSlots := 0 } 0 :=
    ⟨covers_clear fun _ => rfl, (deletedCount_clear slots).symm, rfl, rfl, rfl, rfl⟩
  obtain ⟨t', heq, h'⟩ := hstart.indexFrom h hcount (Nat.zero_add _)
  have hcovers := h'.covers
  rw [objBefore_count] at hcovers
  refine ⟨t', ?_, h.of_same h'.same hcovers h'.deleted, h'.same⟩
  unfold rebuildIndex
  rw [heq]

lemma tidy_spec (h : Indexed hash slots t) (hcount : t.count ≤ slots) :
    ∃ t', t.tidy hash slots = (t', true) ∧ Indexed hash slots t' ∧ SameEntries t t' := by
  unfold tidy
  split
  · exact rebuildIndex_spec h hcount
  · exact ⟨t, rfl, h, rfl, rfl, rfl, rfl⟩

/-! ### Removal -/

/-- The array without its entry `i`; the last entry has taken its place. -/
def dropAt (t : Table U A) (i : ℕ) : Table U A :=
  { t with
    entries := update (update t.entries i (t.entries (t.count - 1)))
      (t.count - 1) none
    count := t.count - 1 }

section

omit [DecidableEq U]

lemma dropAt_entries {x : ℕ} (hx : x < t.count - 1) :
    (t.dropAt i).entries x = if x = i then t.entries (t.count - 1) else t.entries x := by
  unfold dropAt
  dsimp only
  rw [update_of_ne hx.ne]
  split
  · rename_i hxi
    rw [hxi, update_self]
  · rename_i hxi
    rw [update_of_ne hxi]

lemma Indexed.stored_dropAt (h : Indexed hash slots t) (hi : i < t.count)
    (he : t.entries i = some e) (f : Entry U A) :
    (t.dropAt i).Stored f ↔ t.Stored f ∧ f.ufrag ≠ e.ufrag := by
  constructor
  · rintro ⟨x, hx, hf⟩
    change x < t.count - 1 at hx
    rw [dropAt_entries hx] at hf
    obtain ⟨y, hy, hyi, hfy⟩ : ∃ y < t.count, y ≠ i ∧ t.entries y = some f := by
      split at hf
      · exact ⟨t.count - 1, by omega, by omega, hf⟩
      · rename_i hxi
        exact ⟨x, by omega, hxi, hf⟩
    exact ⟨⟨y, hy, hfy⟩, fun hu => hyi (h.distinct hy hi hfy he hu)⟩
  · rintro ⟨⟨y, hy, hf⟩, hu⟩
    have hyi : y ≠ i := by
      rintro rfl
      rw [he, Option.some.injEq] at hf
      exact hu (by rw [hf])
    -- the last entry is now in the hole
    by_cases hlast : y = t.count - 1
    · refine ⟨i, by change i < t.count - 1; omega, ?_⟩
      rw [dropAt_entries (by omega), if_pos rfl, ← hlast, hf]
    · refine ⟨y, by change y < t.count - 1; omega, ?_⟩
      rw [dropAt_entries (by omega), if_neg hyi, hf]

lemma dropAt_obj (x : ℕ) : (t.dropAt i).obj x =
    if x < t.count - 1 then if x = i then t.obj (t.count - 1) else t.obj x else none := by
  unfold obj
  by_cases hx : x < t.count - 1
  · rw [if_pos hx, if_pos (by exact hx), dropAt_entries hx]
    split
    · exact (if_pos (by omega)).symm
    · exact (if_pos (by omega)).symm
  · rw [if_neg hx, if_neg (by exact hx)]

end

/-- A removed entry: the table has the others, and nothing went wrong. -/
structure Removed (hash : U → ℕ) (slots : ℕ) (t t' : Table U A) (i : ℕ) (e : Entry U A) : Prop where
  indexed : Indexed hash slots t'
  count : t'.count + 1 = t.count
  aborted : t'.aborted = t.aborted
  rebuildFailed : t'.rebuildFailed = t.rebuildFailed
  before : ∀ x < i, x < t'.count → t'.entries x = t.entries x
  stored : ∀ f, t'.Stored f ↔ t.Stored f ∧ f.ufrag ≠ e.ufrag

/-- The table without the entry `i`, with the index `x` of one more tombstone. -/
def dropped (t : Table U A) (i : ℕ) (x : HashIndex HashSlot) : Table U A :=
  { t.dropAt i with index := x, deletedSlots := t.deletedSlots + 1 }

omit [DecidableEq U] in
lemma removed_of_index (h : Indexed hash slots t) (hi : i < t.count) (he : t.entries i = some e)
    {x : HashIndex HashSlot} (hcovers : Covers hash (t.dropAt i).obj slots x)
    (hdeleted : x.deletedCount slots = t.deletedSlots + 1) :
    Removed hash slots t (t.dropped i x) i e := by
  refine ⟨⟨?_, hcovers, hdeleted.symm⟩, ?_, rfl, rfl, ?_, h.stored_dropAt hi he⟩
  · intro y hy
    refine (dropAt_entries hy).symm ▸ ?_
    change y < t.count - 1 at hy
    split
    · exact h.entry _ (by omega)
    · exact h.entry y (by omega)
  · change t.count - 1 + 1 = t.count
    omega
  · intro y hy hlt
    exact (dropAt_entries hlt).trans (if_neg hy.ne)

/-- The index of a table after the slot of the entry `i` is deleted. -/
def unindexed (t : Table U A) (j : ℕ) : Table U A :=
  { t with index := t.index.set j .deleted, deletedSlots := t.deletedSlots + 1 }

lemma removeIndex_spec (h : Indexed hash slots t) (hi : i < t.count) (he : t.entries i = some e) :
    ∃ j < slots, t.removeIndex hash slots e.ufrag i = t.unindexed j ∧
      Covers hash (update t.obj i none) slots (t.index.set j .deleted) ∧
      (t.index.set j .deleted).deletedCount slots = t.deletedSlots + 1 := by
  obtain ⟨j, hj, hc, hprobe⟩ := routingProbe_of_obj h.covers (fun _ _ hx => hx) (obj_of_entry hi he)
  refine ⟨j, hj, ?_, h.covers.delete hj hc, ?_⟩
  · unfold removeIndex
    rw [hprobe]
    dsimp only
    rw [hc]
    exact if_pos rfl
  · have hdeleted := deletedCount_set hj t.index .deleted
    rw [hc, ← h.deleted] at hdeleted
    exact hdeleted

lemma moveLast_spec {m : Entry U A} (hi : i < t.count) (hlast : i ≠ t.count - 1)
    (hm : t.entries (t.count - 1) = some m)
    (hcovers : Covers hash (update t.obj i none) slots (t.index.set j .deleted)) :
    ∃ j₂ < slots, moveLast hash slots (t.unindexed j) i (t.count - 1) =
        { t.unindexed j with
          entries := update t.entries i (some m)
          index := (t.index.set j .deleted).set j₂ (.full ⟨hash m.ufrag, i⟩) } ∧
      (t.index.set j .deleted).cells j₂ = .full ⟨hash m.ufrag, t.count - 1⟩ := by
  set t₂ : Table U A := { t.unindexed j with
    entries := update (t.unindexed j).entries i (some m) }
  -- the hole has no slot any more
  have hsub : ∀ x u, update t.obj i none x = some u → t₂.obj x = some u := by
    intro x u hx
    obtain ⟨hxi, hx⟩ := (update_cases hx).resolve_left nofun
    rw [obj_eq_some] at hx
    obtain ⟨hlt, f, hf, hfu⟩ := hx
    exact obj_eq_some.2 ⟨hlt, f, (update_of_ne hxi ..).trans hf, hfu⟩
  have hobj : update t.obj i none (t.count - 1) = some m.ufrag := by
    rw [update_of_ne hlast.symm]
    exact obj_of_entry (by omega) hm
  obtain ⟨j₂, hj₂, hc₂, hprobe⟩ := routingProbe_of_obj (t := t₂) hcovers hsub hobj
  refine ⟨j₂, hj₂, ?_, hc₂⟩
  have hupdate : t₂.updateIndex hash slots m.ufrag (t.count - 1) i =
      some { t₂ with index := t₂.index.set j₂ (.full ⟨hash m.ufrag, i⟩) } := by
    unfold updateIndex
    rw [hprobe, bind_some, hc₂]
    exact if_pos rfl
  have hentries : (t.unindexed j).entries (t.count - 1) = some m := hm
  unfold moveLast
  dsimp only
  rw [hentries, update_self, bind_some]
  rw [hupdate]
  rfl

/-- **Removal**, with the slot of the moved entry repaired. -/
lemma removeEntryAt_spec (h : Indexed hash slots t) (hi : i < t.count) (he : t.entries i = some e) :
    Removed hash slots t (t.removeEntryAt hash slots i) i e := by
  obtain ⟨j, hj, hremove, hcovers, hdeleted⟩ := removeIndex_spec h hi he
  by_cases hlast : i = t.count - 1
  · have heq : t.removeEntryAt hash slots i = t.dropped i (t.index.set j .deleted) := by
      unfold removeEntryAt dropped dropAt
      rw [he]
      dsimp only
      rw [hremove, if_neg (not_not.2 hlast), ← hlast, update_idem]
      unfold unindexed
      rw [← hlast]
    have hobj : (t.dropAt i).obj = update t.obj i none := by
      funext x
      rw [dropAt_obj]
      by_cases hxi : x = i
      · rw [hxi, update_self, if_neg (by omega)]
      rw [update_of_ne hxi]
      by_cases hx : x < t.count - 1
      · rw [if_pos hx, if_neg hxi]
      · rw [if_neg hx]
        unfold obj
        rw [if_neg (by omega)]
    rw [heq]
    exact removed_of_index h hi he (by rwa [hobj]) hdeleted
  · obtain ⟨m, hm⟩ := h.entry (t.count - 1) (by omega)
    obtain ⟨j₂, hj₂, hmove, hc₂⟩ := moveLast_spec hi hlast hm hcovers
    have heq : t.removeEntryAt hash slots i =
        t.dropped i ((t.index.set j .deleted).set j₂ (.full ⟨hash m.ufrag, i⟩)) := by
      unfold removeEntryAt dropped dropAt
      rw [he]
      dsimp only
      rw [hremove, if_pos hlast, hmove, hm]
      rfl
    have hlastobj : t.obj (t.count - 1) = some m.ufrag := obj_of_entry (by omega) hm
    have hmoved := hcovers.move (update_self ..)
      (by rw [update_of_ne (Ne.symm hlast)]; exact hlastobj) hj₂ hc₂
    have hobj : (t.dropAt i).obj = update (update
        (update t.obj i none) i (some m.ufrag)) (t.count - 1) none := by
      funext x
      rw [dropAt_obj, update_idem]
      by_cases hxl : x = t.count - 1
      · rw [hxl, update_self, if_neg (Nat.lt_irrefl _)]
      rw [update_of_ne hxl]
      by_cases hxi : x = i
      · rw [hxi, update_self, if_pos (by omega), if_pos rfl, hlastobj]
      rw [update_of_ne hxi, if_neg hxi]
      by_cases hx : x < t.count - 1
      · rw [if_pos hx]
      · rw [if_neg hx]
        unfold obj
        rw [if_neg (by omega)]
    have hdeleted₂ := deletedCount_set hj₂ (t.index.set j .deleted) (.full ⟨hash m.ufrag, i⟩)
    rw [hc₂] at hdeleted₂
    rw [heq]
    exact removed_of_index h hi he (by rwa [hobj]) (hdeleted₂.trans hdeleted)

omit [DecidableEq U] in
lemma stored_of_before {fd : ℕ} (hle : t.count ≤ i)
    (hbefore : ∀ x < i, x < t.count → ∀ f, t.entries x = some f → f.fd ≠ fd) (f : Entry U A) :
    t.Stored f ↔ t.Stored f ∧ f.fd ≠ fd := by
  refine ⟨fun hf => ⟨hf, ?_⟩, fun hf => hf.1⟩
  obtain ⟨x, hx, hxf⟩ := hf
  exact hbefore x (by omega) hx f hxf

lemma unregisterFrom_spec (fd n i : ℕ) (h : Indexed hash slots t) (hn : t.count - i ≤ n)
    (hbefore : ∀ x < i, x < t.count → ∀ f, t.entries x = some f → f.fd ≠ fd) :
    let r := t.unregisterFrom hash slots fd n i
    Indexed hash slots r ∧ r.count ≤ t.count ∧ r.aborted = t.aborted ∧
      r.rebuildFailed = t.rebuildFailed ∧ ∀ f, r.Stored f ↔ t.Stored f ∧ f.fd ≠ fd := by
  induction n generalizing t i with
  | zero =>
    have hle : t.count ≤ i := by omega
    exact ⟨h, le_rfl, rfl, rfl, stored_of_before hle hbefore⟩
  | succ n ih =>
    unfold unregisterFrom
    by_cases hle : t.count ≤ i
    · rw [if_pos hle]
      exact ⟨h, le_rfl, rfl, rfl, stored_of_before hle hbefore⟩
    rw [if_neg hle]
    obtain ⟨e, he⟩ := h.entry i (by omega)
    rw [he, any_some]
    by_cases hfd : e.fd = fd
    · -- the entry goes, and the last one is looked at in its place
      rw [if_pos (decide_eq_true hfd)]
      have hr := removeEntryAt_spec h (by omega) he
      have hcount := hr.count
      obtain ⟨hi', hc', ha', hb', hs'⟩ := ih i hr.indexed (by omega) (by
        intro x hx hlt f hf
        rw [hr.before x hx hlt] at hf
        exact hbefore x hx (by omega) f hf)
      refine ⟨hi', by omega, ha'.trans hr.aborted, hb'.trans hr.rebuildFailed, fun f => ?_⟩
      rw [hs', hr.stored, and_assoc]
      refine and_congr_right fun hf => and_iff_right_of_imp ?_
      intro hne hu
      rw [h.eq_of_ufrag hf ⟨i, by omega, he⟩ hu] at hne
      exact hne hfd
    · rw [if_neg (by simpa using hfd)]
      refine ih (i + 1) h (by omega) ?_
      intro x hx hlt f hf
      rcases Nat.lt_succ_iff_lt_or_eq.1 hx with hxi | rfl
      · exact hbefore x hxi hlt f hf
      · rw [he, Option.some.injEq] at hf
        rw [← hf]
        exact hfd

structure Appended (hash : U → ℕ) (slots : ℕ) (t t' : Table U A) (e : Entry U A) : Prop where
  indexed : Indexed hash slots t'
  count : t'.count = t.count + 1
  last : t'.entries t.count = some e
  aborted : t'.aborted = t.aborted
  rebuildFailed : t'.rebuildFailed = t.rebuildFailed
  stored : ∀ f, t'.Stored f ↔ t.Stored f ∨ f = e

/-- **A ufrag that is new gets an entry** while there are fewer than the maximum. -/
lemma appendEntry_spec (h : Indexed hash slots t) (hmax : maxMappings ≤ slots)
    (hlt : t.count < maxMappings) (hnew : ∀ f, t.Stored f → f.ufrag ≠ u) (room fd : ℕ) :
    ∃ t', t.appendEntry hash slots maxMappings u room fd = (t', .ok) ∧
      Appended hash slots t t' (.new u room fd) := by
  obtain ⟨t₁, htidy, h₁, hsame⟩ := tidy_spec h (by omega)
  have hcount := hsame.count
  set e : Entry U A := .new u room fd
  set entries' := update t₁.entries t₁.count (some e) with hentries
  have hold : ∀ x ≠ t₁.count, entries' x = t₁.entries x := fun x hx => update_of_ne hx _ _
  have hobj : { t₁ with entries := entries' }.obj = t₁.obj := by
    funext x
    unfold obj
    dsimp only
    by_cases hx : x < t₁.count
    · rw [if_pos hx, if_pos hx, hold x hx.ne]
    · rw [if_neg hx, if_neg hx]
  obtain ⟨j, hj, heq, hcovers⟩ := indexEntry_spec (t := { t₁ with entries := entries' })
    (i := t₁.count) (e := e) h₁.covers (by rw [hobj]; exact fun _ _ hx => hx) h₁.deleted
    (update_self ..) (if_neg (Nat.lt_irrefl _)) (by
      intro x hx
      obtain ⟨hlt, f, hf, hfu⟩ := obj_eq_some.1 hx
      exact hnew f (hsame.stored.1 ⟨x, hlt, hf⟩) hfu)
    (by omega : t₁.count < slots) fun x u hx => (obj_eq_some.1 hx).1
  set t₂ : Table U A := { t₁ with
    entries := entries'
    index := t₁.index.set j (.full ⟨hash e.ufrag, t₁.count⟩)
    deletedSlots := (t₁.index.set j (.full ⟨hash e.ufrag, t₁.count⟩)).deletedCount slots
    count := t₁.count + 1 } with ht₂
  have hobj₂ : t₂.obj = update t₁.obj t₁.count (some e.ufrag) := by
    funext x
    unfold obj
    rw [ht₂]
    dsimp only
    by_cases hx : x = t₁.count
    · rw [hx, update_self, if_pos (Nat.lt_succ_self _), hentries, update_self]
      rfl
    · rw [update_of_ne hx, hold x hx]
      by_cases hlt : x < t₁.count
      · rw [if_pos hlt, if_pos (Nat.lt_succ_of_lt hlt)]
      · rw [if_neg hlt, if_neg (by omega)]
  refine ⟨t₂, ?_, ⟨?_, by rw [hobj₂]; exact hcovers, rfl⟩, ?_, ?_, hsame.aborted,
    hsame.rebuildFailed, ?_⟩
  · unfold appendEntry
    rw [if_neg (not_le.2 hlt), htidy]
    dsimp only
    rw [Bool.not_true, if_neg Bool.false_ne_true, heq]
    rfl
  · intro x hx
    rcases Nat.lt_succ_iff_lt_or_eq.1 hx with hlt | rfl
    · obtain ⟨f, hf⟩ := h₁.entry x hlt
      exact ⟨f, (hold x hlt.ne).trans hf⟩
    · exact ⟨e, update_self ..⟩
  · rw [ht₂, ← hcount]
  · rw [← hcount]
    exact update_self ..
  · intro f
    rw [← hsame.stored]
    constructor
    · rintro ⟨x, hx, hf⟩
      rcases Nat.lt_succ_iff_lt_or_eq.1 hx with hlt | rfl
      · exact .inl ⟨x, hlt, (hold x hlt.ne).symm.trans hf⟩
      · have hself : t₂.entries t₁.count = some e := update_self ..
        exact .inr (Option.some.inj (hself.symm.trans hf)).symm
    · rintro (⟨x, hx, hf⟩ | rfl)
      · exact ⟨x, Nat.lt_succ_of_lt hx, (hold x hx.ne).trans hf⟩
      · exact ⟨t₁.count, Nat.lt_succ_self _, update_self ..⟩

end Table

end MezonSfu.Routing
