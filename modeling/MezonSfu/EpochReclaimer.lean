import MezonSfu.Runs
import Mathlib.Data.Multiset.Basic
import Mathlib.Tactic

/-!
Epoch reclamation: a retired object waits until every worker has been seen in another generation,
and is then destroyed by the sweep that saw it.

Retiring, the scan of a sweep and the return of a node are atomic under the lock. Each step is
given the generations that it reads.
-/

namespace MezonSfu.EpochReclaimer

open List Function

/-- `SFU_EPOCH_RECLAIMER_CAPACITY` -/
def capacity : ℕ := 4096

/-- What a node holds. The number of the retirement stands for the pointer and its destructor. -/
structure Retired where
  object : ℕ
  workerGenerations : ℕ → ℕ

/-- A sweep after its scan: the nodes that it has unlinked, and the one whose destructor has run.
What the scan read for each node is history. -/
structure Sweep where
  ready : List ℕ
  destroyed : Option ℕ
  reclaimed : ℕ
  read : ℕ → ℕ → ℕ

def Sweep.held (w : Sweep) : List ℕ := w.destroyed.toList ++ w.ready

/-- The lists of nodes by number, and the sweeps before and after their scan. The retirements that
were accepted and the objects destroyed, with what the sweep had read, are history. -/
structure Reclaimer where
  pending : List ℕ
  pendingCount : ℕ
  freeNodes : List ℕ
  nodes : ℕ → Retired
  begun : ℕ
  sweeps : List Sweep
  retired : List Retired
  destroyed : List (Retired × (ℕ → ℕ))

inductive Op
  | retire (generation : ℕ → ℕ)
  | sweep
  | scan (generation : ℕ → ℕ → ℕ)
  | advance (k : ℕ)

/-- The scan of the pending list: what stays, and what is ready. -/
def scan (safe : ℕ → Bool) : List ℕ → List ℕ → List ℕ × List ℕ
  | [], ready => ([], ready)
  | node :: rest, ready =>
    if safe node then scan safe rest (node :: ready)
    else (node :: (scan safe rest ready).1, (scan safe rest ready).2)

namespace Reclaimer

def init : Reclaimer := ⟨[], 0, (range capacity).reverse, fun _ => ⟨0, fun _ => 0⟩, 0, [], [], []⟩

variable (workerCount : ℕ) (s : Reclaimer)

/-- Every worker is in another generation. -/
def safe (node : Retired) (generation : ℕ → ℕ) : Bool :=
  (range workerCount).all fun i => generation i ≠ node.workerGenerations i

/-- `sfu_epoch_reclaimer_retire` -/
def retire (generation : ℕ → ℕ) : Reclaimer :=
  match s.freeNodes with
  | [] => s
  | node :: rest =>
    { s with
      freeNodes := rest
      nodes := update s.nodes node ⟨s.retired.length, generation⟩
      pending := node :: s.pending
      pendingCount := (s.pendingCount + 1) % 2 ^ 32
      retired := s.retired ++ [⟨s.retired.length, generation⟩] }

/-- The first locked block of a sweep. -/
def scanPending (generation : ℕ → ℕ → ℕ) : Reclaimer :=
  let found := scan (fun n => safe workerCount (s.nodes n) (generation n)) s.pending []
  { s with
    pending := found.1
    begun := s.begun - 1
    sweeps := ⟨found.2, none, found.2.length, generation⟩ :: s.sweeps }

/-- The next step of the sweep `w`, among the others: to return a node, to destroy an object, or
to leave. -/
def advance (before : List Sweep) (w : Sweep) (after : List Sweep) : Reclaimer :=
  match w.destroyed, w.ready with
  | some node, _ =>
    { s with
      freeNodes := node :: s.freeNodes
      sweeps := before ++ { w with destroyed := none } :: after }
  | none, node :: ready =>
    { s with
      sweeps := before ++ { w with ready := ready, destroyed := some node } :: after
      destroyed := s.destroyed ++ [(s.nodes node, w.read node)] }
  | none, [] =>
    { s with
      sweeps := before ++ after
      pendingCount := (s.pendingCount + (2 ^ 32 - w.reclaimed % 2 ^ 32)) % 2 ^ 32 }

def step : Op → Reclaimer
  | .retire generation => s.retire generation
  | .sweep => if s.pendingCount = 0 then s else { s with begun := s.begun + 1 }
  | .scan generation => if s.begun = 0 then s else s.scanPending workerCount generation
  | .advance k =>
    match s.sweeps.splitAt k with
    | (before, w :: after) => s.advance before w after
    | (_, []) => s

/-- The nodes and the objects are each in one place, and what is ready was seen to be safe. -/
structure Good : Prop where
  nodes : s.freeNodes ++ s.pending ++ s.sweeps.flatMap Sweep.held ~ range capacity
  objects : s.pending.map s.nodes ++ (s.sweeps.flatMap Sweep.ready).map s.nodes ++
    s.destroyed.map Prod.fst ~ s.retired
  numbered : s.retired.map Retired.object = range s.retired.length
  ready : ∀ w ∈ s.sweeps, ∀ n ∈ w.ready, safe workerCount (s.nodes n) (w.read n) = true
  destroyed : ∀ d ∈ s.destroyed, safe workerCount d.1 d.2 = true
  count : s.pendingCount = (s.pending.length + (s.sweeps.map Sweep.reclaimed).sum) % 2 ^ 32

variable {workerCount s}

lemma scan_perm (p : ℕ → Bool) (l r : List ℕ) : (scan p l r).1 ++ (scan p l r).2 ~ l ++ r := by
  induction l generalizing r with
  | nil => exact .refl _
  | cons n l ih =>
    unfold scan
    split_ifs
    · exact (ih (n :: r)).trans perm_middle
    · exact (ih r).cons n

lemma scan_ready {p : ℕ → Bool} {l r : List ℕ} (hr : ∀ n ∈ r, p n) : ∀ n ∈ (scan p l r).2, p n := by
  induction l generalizing r with
  | nil => exact hr
  | cons n l ih =>
    unfold scan
    split_ifs with hn
    · exact ih (forall_mem_cons.2 ⟨hn, hr⟩)
    · exact ih hr

lemma Good.retire (h : s.Good workerCount) (generation : ℕ → ℕ) :
    (s.retire generation).Good workerCount := by
  unfold Reclaimer.retire
  split
  · exact h
  next node rest hfree =>
  have hnodes := h.nodes
  rw [hfree] at hnodes
  have hnot := (nodup_cons.1 (hnodes.nodup_iff.2 nodup_range)).1
  simp only [append_eq, mem_append, not_or] at hnot
  have hsame : ∀ l : List ℕ, node ∉ l → l.map (update s.nodes node
      ⟨s.retired.length, generation⟩) = l.map s.nodes := by
    intro l hl
    refine map_congr_left fun n hn => update_of_ne ?_ ..
    rintro rfl
    exact hl hn
  have hready : ∀ w ∈ s.sweeps, node ∉ w.ready := fun w hw hn =>
    hnot.2 (mem_flatMap.2 ⟨w, hw, mem_append_right _ hn⟩)
  refine ⟨?_, ?_, ?_, ?_, h.destroyed, ?_⟩
  · exact (perm_middle.append_right _).trans hnodes
  · dsimp only
    rw [map_cons, update_self, hsame _ hnot.1.2, hsame _ fun hn => ?_]
    · exact (h.objects.cons _).trans (perm_append_singleton ..).symm
    · obtain ⟨w, hw, hn⟩ := mem_flatMap.1 hn
      exact hready w hw hn
  · dsimp only
    rw [map_append, h.numbered, length_append]
    exact range_succ.symm
  · intro w hw n hn
    have hne : n ≠ node := fun heq => hready w hw (heq ▸ hn)
    dsimp only
    rw [update_of_ne hne]
    exact h.ready w hw n hn
  · dsimp only
    rw [h.count, length_cons]
    omega

lemma Good.scanPending (h : s.Good workerCount) (generation : ℕ → ℕ → ℕ) :
    (s.scanPending workerCount generation).Good workerCount := by
  have hperm := scan_perm (fun n => safe workerCount (s.nodes n) (generation n)) s.pending []
  have hsafe := scan_ready (p := fun n => safe workerCount (s.nodes n) (generation n))
    (l := s.pending) (r := []) nofun
  unfold Reclaimer.scanPending
  generalize scan _ s.pending [] = found at hperm hsafe ⊢
  rw [append_nil] at hperm
  refine ⟨?_, ?_, h.numbered, forall_mem_cons.2 ⟨hsafe, h.ready⟩, h.destroyed, ?_⟩
  · refine .trans ?_ ((hperm.append_left _).append_right _ |>.trans h.nodes)
    simp [Sweep.held]
  · refine .trans ?_ (((hperm.map _).append_right _).append_right _ |>.trans h.objects)
    simp
  · have hlen := hperm.length_eq
    rw [length_append] at hlen
    have hcount := h.count
    rw [← hlen] at hcount
    simpa [add_assoc] using hcount

lemma Good.advance {before after : List Sweep} {w : Sweep} (h : s.Good workerCount)
    (hs : s.sweeps = before ++ w :: after) : (s.advance before w after).Good workerCount := by
  obtain ⟨hnodes, hobjects, hnumbered, hready, hdestroyed, hcount⟩ := h
  rw [hs, forall_mem_append, forall_mem_cons] at hready
  obtain ⟨hbefore, hw, hafter⟩ := hready
  rw [hs] at hnodes hobjects hcount
  simp only [flatMap_append, flatMap_cons, map_append, map_cons, sum_append, sum_cons,
    Sweep.held] at hnodes hobjects hcount
  fun_cases Reclaimer.advance s before w after with
  | case1 node hdone =>
    refine ⟨?_, ?_, hnumbered, forall_mem_append.2 ⟨hbefore, forall_mem_cons.2 ⟨hw, hafter⟩⟩,
      hdestroyed, ?_⟩
    · refine .trans ?_ hnodes
      rw [hdone, ← Multiset.coe_eq_coe]
      simp [Sweep.held, ← Multiset.coe_add, ← Multiset.cons_coe, ← Multiset.singleton_add]
      abel
    · simpa using hobjects
    · simpa using hcount
  | case2 node ready hr hdone =>
    rw [hr, forall_mem_cons] at hw
    refine ⟨?_, ?_, hnumbered, forall_mem_append.2 ⟨hbefore, forall_mem_cons.2 ⟨hw.2, hafter⟩⟩,
      forall_mem_append.2 ⟨hdestroyed, forall_mem_singleton.2 hw.1⟩, ?_⟩
    · refine .trans ?_ hnodes
      rw [hdone, hr]
      simp [Sweep.held]
    · refine .trans ?_ hobjects
      rw [hr, ← Multiset.coe_eq_coe]
      simp [← Multiset.coe_add, ← Multiset.cons_coe, ← Multiset.singleton_add]
      abel
    · simpa using hcount
  | case3 hr hdone =>
    refine ⟨?_, ?_, hnumbered, forall_mem_append.2 ⟨hbefore, hafter⟩, hdestroyed, ?_⟩
    · simpa [hdone, hr] using hnodes
    · simpa [hr] using hobjects
    · simp only [map_append, sum_append]
      omega

lemma Good.step (h : s.Good workerCount) (op : Op) : (s.step workerCount op).Good workerCount := by
  fun_cases Reclaimer.step workerCount s op with
  | case1 generation => exact h.retire generation
  | case2 | case4 | case7 => exact h
  | case3 => exact { h with }
  | case5 generation => exact h.scanPending generation
  | case6 k before w after hk =>
    rw [splitAt_eq, Prod.mk.injEq] at hk
    exact h.advance (by rw [← hk.1, ← hk.2, take_append_drop])

lemma good_init : init.Good workerCount := ⟨by simp [init], .refl _, rfl, nofun, nofun, rfl⟩

/-- **Epoch reclamation is safe.** Every retirement is pending, in the hands of a sweep or
destroyed, every node is in one list, and what is destroyed was seen to be safe. -/
theorem epoch_reclamation_safe (workerCount : ℕ) (ops : List Op) :
    let s := Runs.run (step workerCount) init ops
    (s.destroyed.map fun d => d.1.object).Nodup ∧
      (∀ d ∈ s.destroyed, ∀ i < workerCount, d.2 i ≠ d.1.workerGenerations i) ∧
      s.pending.map s.nodes ++ (s.sweeps.flatMap Sweep.ready).map s.nodes ++
        s.destroyed.map Prod.fst ~ s.retired ∧
      (s.retired.map Retired.object).Nodup ∧
      s.freeNodes ++ s.pending ++ s.sweeps.flatMap Sweep.held ~ range capacity ∧
      (s.sweeps = [] → s.pendingCount = s.pending.length) := by
  intro s
  have h : s.Good workerCount :=
    Runs.run_inv (step workerCount) (I := Good workerCount) (fun _ op h => h.step op) good_init ops
  have hnd : (s.retired.map Retired.object).Nodup := by
    rw [h.numbered]
    exact nodup_range
  refine ⟨?_, ?_, h.objects, hnd, h.nodes, ?_⟩
  · have hall := (h.objects.map Retired.object).nodup_iff.2 hnd
    rw [map_append, map_map] at hall
    exact hall.of_append_right
  · intro d hd i hi
    have hsafe := h.destroyed d hd
    rw [safe, all_eq_true] at hsafe
    exact of_decide_eq_true (hsafe i (mem_range.2 hi))
  · intro hs
    have hlen := h.nodes.length_eq
    have hcount := h.count
    rw [hs, length_append, length_append, length_range, capacity] at hlen
    rw [hs, map_nil, sum_nil] at hcount
    omega

end Reclaimer

end MezonSfu.EpochReclaimer
