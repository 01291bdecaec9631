import MezonSfu.Runs
import Mathlib.Logic.Function.Basic
import Mathlib.Tactic

/-!
The rates that a subscriber contributes to the REMB of a publisher: one writer and any number of
readers, one atomic access at a time.

The writer makes the sequence odd, stores the fields and makes it even again. A reader copies the
fields between two loads of the sequence and tries again if it was odd or has changed.
-/

namespace MezonSfu.RembSeqlock

open Function

/-- The fields of `sfu_remb_contribution_t` beside the sequence. -/
inductive Field
  | assignmentGeneration
  | cameraBitrateBps
  | screenBitrateBps
  | updatedAtUs
deriving DecidableEq

abbrev Contribution := Field → ℕ

/-- The order in which the writer and the readers go through the fields. -/
def fields : List Field :=
  [.assignmentGeneration, .cameraBitrateBps, .screenBitrateBps, .updatedAtUs]

/-- The arguments of `sfu_session_read_remb_contribution`. -/
structure Request where
  assignmentGeneration : ℕ
  nowUs : ℕ
  maxAgeUs : ℕ
deriving DecidableEq

/-- An attempt that has loaded the sequence, with the fields still to be loaded. -/
structure Attempt where
  sequence0 : ℕ
  copy : Contribution
  todo : List Field

/-- A call of a reader. The number of writes when it began is history. -/
structure Reader where
  request : Request
  begun : ℕ
  attempt : ℕ
  loaded : Option Attempt

/-- The slot, the write that is under way with the fields still to be stored, and the calls of the
readers. The writes that were begun and what calls have returned are history. -/
structure Slot where
  sequence : ℕ
  stored : Contribution
  writing : Option (Contribution × List Field)
  readers : ℕ → Option Reader
  writes : List Contribution
  returned : List (Request × ℕ × ℕ)

inductive Op
  | write (contribution : Contribution)
  | call (reader : ℕ) (request : Request)
  | read (reader : ℕ)

def Answers (c : Contribution) (r : Request) : Prop :=
  c .assignmentGeneration = r.assignmentGeneration ∧ c .updatedAtUs ≠ 0 ∧
    c .updatedAtUs ≤ r.nowUs ∧ r.nowUs - c .updatedAtUs ≤ r.maxAgeUs

instance (c : Contribution) (r : Request) : Decidable (Answers c r) :=
  inferInstanceAs (Decidable (_ ∧ _))

def Reader.retry (r : Reader) : Option Reader :=
  if r.attempt < 3 then some { r with attempt := r.attempt + 1, loaded := none } else none

namespace Slot

def init : Slot := ⟨0, 0, none, fun _ => none, [], []⟩

variable (s : Slot)

/-- An access of `sfu_session_write_remb_contribution`. -/
def write (c : Contribution) : Slot :=
  match s.writing with
  | none =>
    if c .assignmentGeneration = 0 then s
    else
      { s with
        sequence := (s.sequence + 1) % 2 ^ 32
        writing := some (c, fields)
        writes := s.writes ++ [c] }
  | some (c, f :: todo) =>
    { s with stored := update s.stored f (c f), writing := some (c, todo) }
  | some (_, []) => { s with sequence := (s.sequence + 1) % 2 ^ 32, writing := none }

def call (i : ℕ) (request : Request) : Slot :=
  if (s.readers i).isSome ∨ request.assignmentGeneration = 0 then s
  else { s with readers := update s.readers i (some ⟨request, s.writes.length, 0, none⟩) }

/-- An access of `sfu_session_read_remb_contribution`, with what the call returns. -/
def load (r : Reader) : Option Reader × List (Request × ℕ × ℕ) :=
  match r.loaded with
  | none =>
    if s.sequence % 2 = 1 then (r.retry, [])
    else (some { r with loaded := some ⟨s.sequence, 0, fields⟩ }, [])
  | some ⟨n, copy, f :: todo⟩ =>
    (some { r with loaded := some ⟨n, update copy f (s.stored f), todo⟩ }, [])
  | some ⟨n, copy, []⟩ =>
    if n ≠ s.sequence then (r.retry, [])
    else if Answers copy r.request then
      (none, [(r.request, copy .cameraBitrateBps, copy .screenBitrateBps)])
    else (none, [])

def step : Op → Slot
  | .write c => s.write c
  | .call i request => s.call i request
  | .read i =>
    match s.readers i with
    | none => s
    | some r =>
      { s with
        readers := update s.readers i (s.load r).1
        returned := (s.load r).2 ++ s.returned }

/-- Fewer than `2 ^ 31` writes are begun during a read. -/
def Bounded : Op → Prop
  | .read i => ∀ r ∈ s.readers i, s.writes.length < r.begun + 2 ^ 31
  | _ => True

instance : ∀ op, Decidable (s.Bounded op)
  | .read _ => inferInstanceAs (Decidable (∀ r ∈ _, _))
  | .write _ | .call _ _ => isTrue trivial

/-- The sequence counts the writes twice, and the fields are those of the last one as far as they
are stored. -/
structure WriterOk : Prop where
  lt : s.sequence < 2 ^ 32
  idle : s.writing = none → s.sequence = 2 * s.writes.length % 2 ^ 32 ∧
    (s.stored = 0 ∨ s.stored ∈ s.writes)
  writing : ∀ c todo, s.writing = some (c, todo) →
    (s.sequence + 1) % 2 ^ 32 = 2 * s.writes.length % 2 ^ 32 ∧ c ∈ s.writes ∧
      ∀ f ∉ todo, s.stored f = c f

/-- What a reader has copied stems from the last write, unless one has begun since it loaded the
sequence. -/
structure ReaderOk (r : Reader) : Prop where
  begun : r.begun ≤ s.writes.length
  copied : ∀ a ∈ r.loaded, ∃ m, r.begun ≤ m ∧ a.sequence0 = 2 * m % 2 ^ 32 ∧
    (m < s.writes.length ∨
      m = s.writes.length ∧ s.writing = none ∧ ∀ f ∉ a.todo, a.copy f = s.stored f)

/-- The answer comes from one write. -/
def Untorn (x : Request × ℕ × ℕ) : Prop :=
  ∃ w ∈ s.writes, Answers w x.1 ∧ w .cameraBitrateBps = x.2.1 ∧ w .screenBitrateBps = x.2.2

structure Good : Prop where
  writer : s.WriterOk
  reader : ∀ i, ∀ r ∈ s.readers i, s.ReaderOk r
  returned : ∀ x ∈ s.returned, s.Untorn x

variable {s} {r : Reader} {f : Field} {todo : List Field} {c d : Contribution}

lemma mem_fields (f : Field) : f ∈ fields := by cases f <;> decide

lemma agree_update (h : ∀ f' ∉ f :: todo, c f' = d f') :
    ∀ f' ∉ todo, update c f (d f) f' = d f' := by
  intro f' hf'
  obtain rfl | hne := eq_or_ne f' f
  · rw [update_self]
  · rw [update_of_ne hne]
    exact h f' (by simp [hne, hf'])

lemma WriterOk.write (h : s.WriterOk) (c : Contribution) : (s.write c).WriterOk := by
  fun_cases Slot.write s c with
  | case1 => exact h
  | case2 hw =>
    have hseq := (h.idle hw).1
    refine ⟨Nat.mod_lt _ (by decide), nofun, ?_⟩
    rintro _ _ ⟨⟩
    refine ⟨?_, by simp, fun f hf => absurd (mem_fields f) hf⟩
    rw [List.length_append, List.length_singleton]
    dsimp only
    omega
  | case3 c' f todo hw =>
    obtain ⟨hseq, hmem, hagree⟩ := h.writing _ _ hw
    refine ⟨h.lt, nofun, ?_⟩
    rintro _ _ ⟨⟩
    exact ⟨hseq, hmem, agree_update hagree⟩
  | case4 c' hw =>
    obtain ⟨hseq, hmem, hagree⟩ := h.writing _ _ hw
    refine ⟨Nat.mod_lt _ (by decide), fun _ => ⟨hseq, .inr ?_⟩, nofun⟩
    rwa [show s.stored = c' from funext fun f => hagree f List.not_mem_nil]

lemma ReaderOk.write (h : s.ReaderOk r) (c : Contribution) : (s.write c).ReaderOk r := by
  fun_cases Slot.write s c with
  | case1 => exact h
  | case2 =>
    refine ⟨h.begun.trans (by simp), fun a ha => ?_⟩
    obtain ⟨m, hm, hseq, hcase⟩ := h.copied a ha
    refine ⟨m, hm, hseq, .inl ?_⟩
    rw [List.length_append, List.length_singleton]
    omega
  | case3 _ _ _ hw | case4 _ hw =>
    refine { h with copied := fun a ha => ?_ }
    obtain ⟨m, hm, hseq, hlt | ⟨-, hnone, -⟩⟩ := h.copied a ha
    · exact ⟨m, hm, hseq, .inl hlt⟩
    · rw [hw] at hnone
      cases hnone

lemma ReaderOk.retry (h : s.ReaderOk r) : ∀ r' ∈ r.retry, s.ReaderOk r' := by
  unfold Reader.retry
  split_ifs
  · rintro _ ⟨⟩
    exact ⟨h.begun, nofun⟩
  · exact nofun

lemma ReaderOk.load (h : s.ReaderOk r) (hw : s.WriterOk) : ∀ r' ∈ (s.load r).1, s.ReaderOk r' := by
  fun_cases Slot.load s r with
  | case1 | case4 => exact h.retry
  | case2 hr heven =>
    rintro _ ⟨⟩
    refine ⟨h.begun, ?_⟩
    rintro _ ⟨⟩
    have hnone : s.writing = none := by
      rw [Option.eq_none_iff_forall_ne_some]
      rintro ⟨c, todo⟩ hsome
      have := (hw.writing c todo hsome).1
      omega
    exact ⟨_, h.begun, (hw.idle hnone).1, .inr ⟨rfl, hnone, fun f hf => absurd (mem_fields f) hf⟩⟩
  | case3 n copy f todo hr =>
    rintro _ ⟨⟩
    refine ⟨h.begun, ?_⟩
    rintro _ ⟨⟩
    obtain ⟨m, hm, hseq, hlt | ⟨hlast, hnone, hagree⟩⟩ := h.copied _ hr
    · exact ⟨m, hm, hseq, .inl hlt⟩
    · exact ⟨m, hm, hseq, .inr ⟨hlast, hnone, agree_update hagree⟩⟩
  | case5 | case6 => exact nofun

/-- **An unchanged sequence.** No write was begun since, so the copy is the last write. -/
lemma ReaderOk.untorn (h : s.ReaderOk r) (hw : s.WriterOk)
    (hb : s.writes.length < r.begun + 2 ^ 31) : ∀ x ∈ (s.load r).2, s.Untorn x := by
  fun_cases Slot.load s r with
  | case5 n copy hr hseq hanswers =>
    obtain ⟨m, hm, hm0, hcase⟩ := h.copied _ hr
    have hseq := hm0.symm.trans (not_not.1 hseq)
    refine List.forall_mem_singleton.2 ⟨copy, ?_, hanswers, rfl, rfl⟩
    obtain hbehind | ⟨-, hnone, hagree⟩ := hcase
    · exfalso
      cases hwriting : s.writing with
      | none =>
        have := (hw.idle hwriting).1
        omega
      | some w =>
        have := (hw.writing _ _ hwriting).1
        omega
    · rw [show copy = s.stored from funext fun f => hagree f List.not_mem_nil] at hanswers ⊢
      refine (hw.idle hnone).2.resolve_left fun hzero => hanswers.2.1 ?_
      rw [hzero]
      rfl
  | _ => exact nofun

lemma Good.step (h : s.Good) (op : Op) (hb : s.Bounded op) : (s.step op).Good := by
  have hreaders : ∀ i o, (∀ r ∈ o, s.ReaderOk r) → ∀ j, ∀ r ∈ update s.readers i o j,
      s.ReaderOk r := by
    intro i o ho j
    obtain rfl | hj := eq_or_ne j i
    · rwa [update_self]
    · rw [update_of_ne hj]
      exact h.reader j
  cases op with
  | write c =>
    obtain ⟨hsame, hreturned, hwrites⟩ : (s.write c).readers = s.readers ∧
        (s.write c).returned = s.returned ∧ s.writes ⊆ (s.write c).writes := by
      fun_cases Slot.write s c <;> simp
    refine ⟨h.writer.write c, fun i r hr => ?_, fun x hx => ?_⟩
    · exact (h.reader i r (hsame ▸ hr)).write c
    · obtain ⟨w, hw, hanswers⟩ := h.returned x (hreturned ▸ hx)
      exact ⟨w, hwrites hw, hanswers⟩
  | call i request =>
    change (s.call i request).Good
    unfold Slot.call
    split_ifs
    · exact h
    · refine ⟨{ h.writer with }, fun j r hr => { hreaders i _ ?_ j r hr with }, h.returned⟩
      rintro _ ⟨⟩
      exact ⟨le_rfl, nofun⟩
  | read i =>
    unfold Slot.step
    dsimp only
    split
    · exact h
    next r hr =>
    have hok := h.reader i r hr
    refine ⟨{ h.writer with }, fun j r' hr' => { hreaders i _ (hok.load h.writer) j r' hr' with },
      fun x hx => ?_⟩
    obtain hx | hx := List.mem_append.1 hx
    · exact hok.untorn h.writer (hb r hr) x hx
    · exact h.returned x hx

/-- **Reads are not torn.** -/
theorem remb_reads_not_torn {ops : List Op} (hb : Runs.Along step Bounded init ops) :
    ∀ x ∈ (Runs.run step init ops).returned, (Runs.run step init ops).Untorn x := by
  refine Good.returned (Runs.run_inv_along step (C := Bounded) (fun _ op h => h.step op) ?_ hb)
  exact ⟨⟨by decide, fun _ => ⟨rfl, .inl rfl⟩, nofun⟩, nofun, nofun⟩

/-- A read whose first attempt meets the end of a write. -/
theorem remb_reads_not_torn_retried :
    let w : Contribution := fun
      | .assignmentGeneration => 3
      | .cameraBitrateBps => 500
      | .screenBitrateBps => 900
      | .updatedAtUs => 40
    let t := Runs.run step init (List.replicate 5 (.write w) ++
      [.call 0 ⟨3, 60, 30⟩, .read 0, .write 0] ++ List.replicate 6 (.read 0))
    t.returned = [(⟨3, 60, 30⟩, 500, 900)] ∧ ∀ x ∈ t.returned, t.Untorn x :=
  ⟨by decide, remb_reads_not_torn (by decide)⟩

end Slot

end MezonSfu.RembSeqlock
