import MezonSfu.RoutingRefines

/-!
Publishing an answer in two phases: a reservation takes the next generation of its entry, and the
answer is committed or the reservation cancelled later, with any calls in between.

History variables number the entries, and note which reservation created each, the commits, and
for every attempt whether the entry was there and whether it succeeded. A reservation remembers
the place of its entry in the array and a generation; both are right as long as no entry before it
is removed and no other answer is committed in between.
-/

namespace MezonSfu.Routing

open Function Option

variable {U A : Type*} [DecidableEq U] (hash : U → ℕ) (slots maxMappings : ℕ)

namespace Table

variable (t : Table U A)

def entryOf (u : U) : Option (Entry U A) := (t.findEntry hash slots u).bind t.entries

/-- The entry of a reservation's ufrag, if it belongs to the same connection. -/
def owned (r : Reservation U A) : Option (Entry U A) :=
  (t.entryOf hash slots r.ufrag).filter fun e => e.room = r.room ∧ e.fd = r.fd

def inPlace (r : Reservation U A) : Bool :=
  (t.findEntry hash slots r.ufrag).all fun i =>
    !((t.entries i).any fun e => e.room = r.room ∧ e.fd = r.fd) || i = r.entryIndex

/-- The second half of `sfu_routing_table_reconcile_answer`, when the session has applied the
answer. The first half only reads. -/
def reconcileAnswer (u : U) (room fd generation : ℕ) : Table U A :=
  match t.findEntry hash slots u with
  | none => t
  | some i =>
    if (t.entries i).any fun e => e.room = room ∧ e.fd = fd ∧ e.pendingAnswer.valid ∧
        e.pendingAnswer.generation = generation then
      t.modifyEntry i fun e => { e with pendingAnswer := { e.pendingAnswer with valid := false } }
    else t

end Table

/-! ### Runs -/

structure Answers (U A : Type*) where
  world : World U A
  /-- The number of a ufrag's entry, and the reservation that created it. -/
  births : U → Option (ℕ × ℕ)
  created : ℕ
  /-- The entries and generations of the answers, as they were committed. -/
  commits : List (ℕ × ℕ)
  /-- For every attempt to commit: the entry was there, and it succeeded. -/
  attempts : List (Bool × Bool)
  /-- How many answers were committed when a reservation was prepared. -/
  commitsAt : ℕ → ℕ

inductive AnswerOp (U A : Type*) where
  | call (op : Op U A)
  | reconcileAnswer (u : U) (room fd generation : ℕ)

namespace Answers

def init : Answers U A := ⟨.init, fun _ => none, 0, [], [], fun _ => 0⟩

section

variable (s : Answers U A)

def prepareAnswer (id : ℕ) (client : Option U) (room fd : ℕ)
    (answer : PendingAnswer A) : Answers U A :=
  if (s.world.reservations id).any Reservation.active then s
  else
    let world := Routing.step hash slots maxMappings s.world
      (.prepareAnswer id client room fd answer)
    match (s.world.table.prepareAnswer hash slots maxMappings client room fd answer).2.2 with
    | none => { s with world }
    | some r =>
      { s with
        world
        births := if r.newEntry then update s.births r.ufrag (some (s.created, id))
          else s.births
        created := if r.newEntry then s.created + 1 else s.created
        commitsAt := update s.commitsAt id s.commits.length }

def commitAnswer (id : ℕ) : Answers U A :=
  match (s.world.reservations id).filter Reservation.active with
  | none => s
  | some r =>
    let ok := (s.world.table.commitAnswer hash slots r).2
    { s with
      world := Routing.step hash slots maxMappings s.world (.commitAnswer id)
      commits := if ok then s.commits ++ (s.births r.ufrag).toList.map fun b => (b.1, r.generation)
        else s.commits
      attempts := s.attempts ++ [((s.world.table.owned hash slots r).isSome, ok)] }

/-- Entries that are gone have no number. -/
def remaining (world : World U A) (u : U) : Option (ℕ × ℕ) :=
  if (world.mapping u).isSome then s.births u else none

def step : AnswerOp U A → Answers U A
  | .call (.prepareAnswer id client room fd answer) =>
    s.prepareAnswer hash slots maxMappings id client room fd answer
  | .call (.commitAnswer id) => s.commitAnswer hash slots maxMappings id
  | .call op =>
    let world := Routing.step hash slots maxMappings s.world op
    { s with world, births := s.remaining world }
  | .reconcileAnswer u room fd generation =>
    { s with world := { s.world with
        table := s.world.table.reconcileAnswer hash slots u room fd generation } }

end

/-- What two-phase publication is meant to give. -/
structure Published (s : Answers U A) : Prop where
  /-- Later answers of an entry have larger generations. -/
  increasing : s.commits.Pairwise fun c c' => c.1 = c'.1 → c.2 < c'.2
  /-- A commit succeeds if and only if the entry is there. -/
  commit_iff : ∀ a ∈ s.attempts, a.1 = a.2
  /-- An entry has a committed answer, or the reservation that created it is open. -/
  entry : ∀ u e, s.world.table.entryOf hash slots u = some e → ∃ b, s.births u = some b ∧
    ((∃ c ∈ s.commits, c.1 = b.1) ∨
      ∃ r, s.world.reservations b.2 = some r ∧ r.active = true ∧ r.newEntry = true ∧ r.ufrag = u)

/-- No generation wraps, answers are committed without another one in between, and entries are in
place when their reservations are closed. -/
def Orderly (s : Answers U A) : AnswerOp U A → Prop
  | .call (.prepareAnswer _ client _ _ _) => ∀ u ∈ client,
    ∀ e ∈ s.world.table.entryOf hash slots u, e.pendingAnswer.generation + 1 < 2 ^ 32
  | .call (.invalidatePending u _ _) =>
    ∀ e ∈ s.world.table.entryOf hash slots u, e.pendingAnswer.generation + 1 < 2 ^ 32
  | .call (.commitAnswer id) => ∀ r ∈ (s.world.reservations id).filter Reservation.active,
    s.world.table.inPlace hash slots r = true ∧
      ∀ b ∈ s.births r.ufrag, ∀ c ∈ s.commits.drop (s.commitsAt id), c.1 ≠ b.1
  | .call (.cancelAnswer id) => ∀ r ∈ (s.world.reservations id).filter Reservation.active,
    s.world.table.inPlace hash slots r = true
  | _ => True

end Answers

variable {hash slots maxMappings} {t t' : Table U A} {u : U} {e e' : Entry U A} {i : ℕ}

namespace Table

section

variable (h : Indexed hash slots t)

include h

lemma Indexed.entryOf_iff : t.entryOf hash slots u = some e ↔ t.Stored e ∧ e.ufrag = u := by
  unfold entryOf
  rw [bind_eq_some_iff]
  constructor
  · rintro ⟨i, hfind, he⟩
    obtain ⟨hi, f, hf, hu⟩ := h.findEntry_iff.1 hfind
    rw [he, Option.some.injEq] at hf
    exact ⟨⟨i, hi, he⟩, hf ▸ hu⟩
  · rintro ⟨⟨i, hi, he⟩, hu⟩
    exact ⟨i, h.findEntry_iff.2 ⟨hi, e, he, hu⟩, he⟩

lemma Indexed.entryOf_update (hi : i < t.count)
    (he : t.entries i = some e) (hu : e'.ufrag = e.ufrag) (u : U) :
    entryOf hash slots { t with entries := Function.update t.entries i (some e') } u =
      if u = e.ufrag then some e' else t.entryOf hash slots u := by
  have h' := h.update he hu
  ext f
  rw [h'.entryOf_iff]
  constructor
  · rintro ⟨⟨x, hx, hf⟩, hfu⟩
    dsimp only at hx hf
    obtain ⟨-, ⟨⟩⟩ | ⟨hxi, hf⟩ := update_cases hf
    · rw [if_pos (hfu.symm.trans hu)]
    · rw [if_neg fun hue => hxi (h.distinct hx hi hf he (hfu.trans hue))]
      exact h.entryOf_iff.2 ⟨⟨x, hx, hf⟩, hfu⟩
  · split
    · rename_i hue
      intro hf
      cases hf
      exact ⟨⟨i, hi, update_self ..⟩, hu.trans hue.symm⟩
    · rename_i hue
      intro hf
      obtain ⟨⟨x, hx, hf⟩, hfu⟩ := h.entryOf_iff.1 hf
      have hxi : x ≠ i := by
        rintro rfl
        rw [he, Option.some.injEq] at hf
        exact hue (by rw [hf, hfu])
      exact ⟨⟨x, hx, (update_of_ne hxi ..).trans hf⟩, hfu⟩

lemma Indexed.entryOf_modify {f : Entry U A → Entry U A}
    (hfind : t.findEntry hash slots u = some i) (hf : ∀ e, (f e).ufrag = e.ufrag) (u' : U) :
    (t.modifyEntry i f).entryOf hash slots u' =
      if u' = u then (t.entryOf hash slots u).map f else t.entryOf hash slots u' := by
  obtain ⟨hi, e, he, hu⟩ := h.findEntry_iff.1 hfind
  have hentry : t.entryOf hash slots u = some e := h.entryOf_iff.2 ⟨⟨i, hi, he⟩, hu⟩
  unfold modifyEntry
  rw [he, map_some, h.entryOf_update hi he (hf e), hentry, hu, map_some]

lemma Indexed.entryOf_filter (h' : Indexed hash slots t')
    {p : Entry U A → Bool} (hstored : ∀ f, t'.Stored f ↔ t.Stored f ∧ p f) (u : U) :
    t'.entryOf hash slots u = (t.entryOf hash slots u).filter p := by
  ext f
  rw [h'.entryOf_iff, hstored, filter_eq_some_iff, h.entryOf_iff]
  tauto

lemma Appended.entryOf (happ : Appended hash slots t t' e)
    (hnew : ∀ f, t.Stored f → f.ufrag ≠ e.ufrag) (u : U) :
    t'.entryOf hash slots u = if u = e.ufrag then some e else t.entryOf hash slots u := by
  ext f
  rw [happ.indexed.entryOf_iff, happ.stored]
  constructor
  · rintro ⟨hf | rfl, hfu⟩
    · rw [if_neg fun hue => hnew f hf (hfu.trans hue)]
      exact h.entryOf_iff.2 ⟨hf, hfu⟩
    · exact if_pos hfu.symm
  · split
    · rename_i hue
      intro hf
      cases hf
      exact ⟨.inr rfl, hue.symm⟩
    · intro hf
      obtain ⟨hs, hfu⟩ := h.entryOf_iff.1 hf
      exact ⟨.inl hs, hfu⟩

end

lemma reserved_eq {r : Reservation U A} (h : t.inPlace hash slots r) :
    t.reserved hash slots r = t.owned hash slots r := by
  unfold inPlace at h
  unfold reserved owned entryOf
  cases hfind : t.findEntry hash slots r.ufrag with
  | none => rfl
  | some i =>
    rw [hfind, all_some] at h
    rw [bind_some, bind_some]
    cases he : t.entries i with
    | none => rfl
    | some e =>
      rw [he, any_some] at h
      rw [bind_some, filter_some]
      by_cases hown : e.room = r.room ∧ e.fd = r.fd
      · rw [decide_eq_true hown, Bool.not_true, Bool.false_or, decide_eq_true_eq] at h
        rw [if_pos ⟨hown.1, hown.2, h⟩, if_pos (decide_eq_true hown)]
      · rw [if_neg fun hall => hown ⟨hall.1, hall.2.1⟩, if_neg (by simpa using hown)]

lemma commitAnswer_snd (r : Reservation U A) :
    (t.commitAnswer hash slots r).2 = (t.reserved hash slots r).isSome := by
  unfold commitAnswer
  cases t.reserved hash slots r <;> rfl

end Table

end MezonSfu.Routing
