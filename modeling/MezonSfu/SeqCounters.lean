import MezonSfu.SeqTranslator

/-!
The sequence translator as independent counters.

`Counters` is what the table stands for: for each SSRC seen, the number its next packet gets. A
call on the table and the same call on the counters give the same answer.
-/

namespace MezonSfu.Rtp

open Function

inductive SeqCall
  | translate (ssrc : UInt32) (sourceSeq : UInt16)
  | rollback (ssrc : UInt32) (count : UInt16)

/-- The answer of a call; a rollback gives no number. -/
abbrev SeqAnswer := Option (Option UInt16)

/-- One call, and its answer: `none` is a failure. -/
def Translator.call (t : Translator) : SeqCall → Translator × SeqAnswer
  | .translate ssrc sourceSeq =>
    match Rtp.translate t ssrc sourceSeq with
    | none => (t, none)
    | some (t', seq) => (t', some (some seq))
  | .rollback ssrc count =>
    let r := Rtp.rollback t ssrc count
    (r.1, if r.2 then some none else none)

abbrev Counters := UInt32 → Option UInt16

namespace Counters

def init : Counters := fun _ => none

def seen (c : Counters) : Set UInt32 := {ssrc | c ssrc ≠ none}

/-- A new SSRC starts at the number of its packet, unless as many others were seen as the table
has room for. A rollback moves one counter back. -/
noncomputable def call (c : Counters) : SeqCall → Counters × SeqAnswer
  | .translate ssrc sourceSeq =>
    open Classical in
    if c ssrc = none ∧ c.seen.ncard = translatorCap then
      (c, none)
    else
      let seq := (c ssrc).getD sourceSeq
      (update c ssrc (some (seq + 1)), some (some seq))
  | .rollback ssrc count =>
    if count = 0 ∨ c ssrc = none then
      (c, none)
    else
      (update c ssrc ((c ssrc).map (· - count)), some none)

end Counters

def answers {σ : Type} (call : σ → SeqCall → σ × SeqAnswer) (s : σ) :
    List SeqCall → List SeqAnswer
  | [] => []
  | c :: l => (call s c).2 :: answers call (call s c).1 l

variable {t : Translator}

section

variable (ht : t.WF) (c : SeqCall)

include ht

lemma call_wf : (t.call c).1.WF := by
  cases c with
  | translate ssrc sourceSeq =>
    simp only [Translator.call]
    split
    · exact ht
    · rename_i h
      exact translate_wf ht h
  | rollback ssrc count => exact rollback_wf ht ssrc count

/-- **One call on the table is the call on its counters.** -/
lemma call_refines : ((t.call c).1.next, (t.call c).2) = Counters.call t.next c := by
  cases c with
  | translate ssrc sourceSeq =>
    have hnone : translate t ssrc sourceSeq = none ↔
        t.next ssrc = none ∧ (Counters.seen t.next).ncard = translatorCap :=
      translate_eq_none.trans (ht.locate_eq_none (by decide))
    simp only [Translator.call, Counters.call]
    cases h : translate t ssrc sourceSeq with
    | none => rw [if_pos (hnone.1 h)]
    | some p =>
      obtain ⟨t', seq⟩ := p
      have hnext : t'.next = update t.next ssrc (some (seq + 1)) :=
        eq_update_iff.2 ⟨next_translate_self ht h, fun _ => next_translate_of_ne ht h⟩
      rw [if_neg (by rw [← hnone, h]; simp), ← translate_seq h, hnext]
  | rollback ssrc count =>
    simp only [Translator.call, Counters.call]
    rcases rollback_cases t ssrc count with ⟨h, h0⟩ | ⟨i, v, hi, hv, h0, h⟩
    · rw [h, if_pos h0]
      rfl
    have hnext : Translator.next (t.write i ssrc (v - count)) =
        update t.next ssrc (some (v - count)) :=
      eq_update_iff.2 ⟨ht.value_write_self hi _, fun _ => ht.value_write_of_ne hi _⟩
    have hmoves : ¬ (count = 0 ∨ t.next ssrc = none) := by simp [h0, hv]
    rw [h, if_neg hmoves, hv, hnext]
    rfl

lemma answers_refine (l : List SeqCall) :
    answers Translator.call t l = answers Counters.call t.next l := by
  induction l generalizing t with
  | nil => rfl
  | cons c l ih =>
    have h := call_refines ht c
    rw [answers, answers, ih (call_wf ht c), ← h]

end

lemma call_failed {c : SeqCall} (hc : (t.call c).2 = none) : (t.call c).1 = t := by
  cases c with
  | translate ssrc sourceSeq =>
    simp only [Translator.call] at hc ⊢
    split at hc
    · rfl
    · cases hc
  | rollback ssrc count =>
    simp only [Translator.call] at hc ⊢
    rcases rollback_cases t ssrc count with ⟨h, -⟩ | ⟨i, v, -, -, -, h⟩
    · rw [h]
    · rw [h] at hc
      cases hc

/-- **The translator refines independent counters**: on a fresh translator every run of calls is
answered as the counters answer it, and a call that fails leaves the table as it is. -/
theorem translator_refines_counters :
    (∀ l, answers Translator.call .init l = answers Counters.call .init l) ∧
      ∀ (t : Translator) c, (t.call c).2 = none → (t.call c).1 = t :=
  ⟨answers_refine Translator.wf_init, fun _ _ => call_failed⟩

end MezonSfu.Rtp
