import MezonSfu.Negotiation
import MezonSfu.RemoteSlots

/-!
The offer/answer protocol of one session.

The signaling loop flushes pending offers and handles answers, one at a time; any thread may
trigger a renegotiation, reconcile the slots or change them in between. A step is one block under
the negotiation lock or the graph lock, or one call that may fail (the allocation of a manifest,
building the SDP, the send).
-/

namespace MezonSfu.OfferRevisions

open Negotiation RemoteSlots List

/-- Where the loop stands. An attempt remembers the revision it offers and the time it began. -/
inductive Loop where
  | idle
  | attempt (revision now : ℕ)
  | captured (revision now : ℕ) (m : OfferManifest)
  | installed (revision now : ℕ) (m : OfferManifest)
  | sent (revision now : ℕ) (m : OfferManifest)
  | failed (revision : ℕ)
  | answerRead (received : ℕ) (m : Option OfferManifest)
  | answering (received : ℕ) (m : OfferManifest)
  | applied (received : ℕ)

/-- `accepted` lists the generations of the accepted answers, each with that of the manifest
installed when it was applied, and `revisions` counts the increments of the desired revision; the
program stores neither. -/
structure Session where
  neg : SessionNegotiation
  table : SlotTable
  loop : Loop
  captures : ℕ
  accepted : List (ℕ × Option ℕ)
  revisions : ℕ

def Session.init : Session := ⟨.init, .init, .idle, 0, [], 0⟩

inductive Op where
  | schedule (established bumpRevision : Bool) (now : ℕ)
  | reconcile
  | reserve (userId : ℤ) (peerId : ℕ)
  | retire (slot generation : ℕ)
  | teardown
  | expire (now : ℕ)
  | flush (r : Readiness) (now : ℕ)
  | capture (allocated : Bool)
  | install (built : Bool)
  | send (ok : Bool)
  | record (now : ℕ)
  | answer (received : ℕ)
  | answerCheck
  | answerReject
  | answerApply
  | answerFinish

def expiryCount (n : SessionNegotiation) (now : ℕ) : ℕ :=
  if n.timedOut now ∧ n.desiredOfferRevision ≤ n.offeredRevision then 1 else 0

def answeredManifest (t : SlotTable) (received : ℕ) : Option OfferManifest :=
  match t.offeredManifest with
  | some m => if received = m.offerGeneration then some m else none
  | none => none

/-- The blocks of the loop. A block that the loop is not at does nothing. -/
def loopStep (s : Session) : Loop → Op → Session
  | .idle, .expire now =>
    { s with
      neg := (expireUnansweredOffer s.neg now).1
      revisions := s.revisions + expiryCount s.neg now }
  | .idle, .flush r now =>
    { s with
      neg := (flushPendingOffer s.neg r now).1
      loop := match (flushPendingOffer s.neg r now).2 with
        | .send revision => .attempt revision now
        | _ => .idle
      revisions := s.revisions + expiryCount s.neg now }
  | .attempt revision now, .capture allocated =>
    if allocated then
      { s with
        table := (remoteOfferCapture s.table s.captures).1
        loop := .captured revision now (remoteOfferCapture s.table s.captures).2
        captures := s.captures + 1 }
    else { s with loop := .failed revision }
  | .captured revision now m, .install built =>
    if built then
      { s with
        table := (remoteOfferInstall s.table m).1
        loop := if (remoteOfferInstall s.table m).2 then .installed revision now m
          else .failed revision }
    else { s with loop := .failed revision }
  | .installed revision now m, .send ok =>
    { s with loop := if ok then .sent revision now m else .failed revision }
  | .sent revision now m, .record _ =>
    { s with neg := recordSent s.neg revision m.offerGeneration now, loop := .idle }
  | .failed _, .record now => { s with neg := (recordFailed s.neg now).1, loop := .idle }
  | .idle, .answer received =>
    { s with loop := .answerRead received (answeredManifest s.table received) }
  | .answerRead received m, .answerCheck =>
    { s with
      loop := match m with
        | some m => if generationValid s.neg (some m.offerGeneration) received then
            .answering received m else .idle
        | none => .idle }
  | .answering _ _, .answerReject => { s with loop := .idle }
  | .answering received m, .answerApply =>
    if (remoteOfferApplyAnswer s.table m).2 then
      { s with
        table := (remoteOfferApplyAnswer s.table m).1
        loop := .applied received
        accepted := s.accepted ++ [(received, s.table.offeredManifest.map (·.offerGeneration))] }
    else { s with loop := .idle }
  | .applied received, .answerFinish =>
    { s with neg := answerLocked s.neg received, loop := .idle }
  | _, _ => s

def step (s : Session) : Op → Session
  | .schedule established bumpRevision now =>
    { s with
      neg := schedulePeerRenegotiation s.neg established bumpRevision now
      revisions := if bumpRevision then s.revisions + 1 else s.revisions }
  | .reconcile =>
    { s with
      neg := reconcileRemoteSlots s.neg
      revisions := if s.neg.desiredOfferRevision ≤ s.neg.answeredRevision then s.revisions + 1
        else s.revisions }
  | .reserve userId peerId => { s with table := (remoteSlotReserve s.table userId peerId).1 }
  | .retire slot generation => { s with table := (remoteSlotRetire s.table slot generation).1 }
  | .teardown => { s with table := remoteSlotsTeardown s.table }
  | op => loopStep s s.loop op

def run (ops : List Op) : Session := Runs.run step .init ops

def Loop.attempting : Loop → Option ℕ
  | .attempt revision _ => some revision
  | .captured revision _ _ => some revision
  | .installed revision _ _ => some revision
  | .sent revision _ _ => some revision
  | .failed revision => some revision
  | _ => none

/-! ### The revisions -/

/-- The order of the revisions, and what the outstanding flag says about them. The revision an
attempt offers is newer than the last one offered. -/
structure Ordered (n : SessionNegotiation) (attempting : Option ℕ) : Prop where
  answered_le : n.answeredRevision ≤ n.offeredRevision
  offered_le : n.offeredRevision ≤ n.desiredOfferRevision
  attempt : ∀ r, attempting = some r →
    n.offerOutstanding = true ∧ n.offeredRevision < r ∧ r ≤ n.desiredOfferRevision
  sent : attempting = none → n.offerOutstanding = true → n.answeredRevision < n.offeredRevision
  idle : n.offerOutstanding = false →
    n.offeredRevision < n.desiredOfferRevision ∨ n.answeredRevision = n.offeredRevision

variable {n n' : SessionNegotiation} {now r' received revision : ℕ} {t t' : SlotTable}
  {m : OfferManifest} {s : Session} {l' : Loop}

lemma Ordered.demand {a : Option ℕ} (h : Ordered n a)
    (hd : n.desiredOfferRevision ≤ n'.desiredOfferRevision)
    (ho : n'.offeredRevision = n.offeredRevision) (ha : n'.answeredRevision = n.answeredRevision)
    (hout : n'.offerOutstanding = n.offerOutstanding) : Ordered n' a := by
  constructor
  · rw [ha, ho]; exact h.answered_le
  · rw [ho]; exact h.offered_le.trans hd
  · intro r hr
    obtain ⟨h1, h2, h3⟩ := h.attempt r hr
    rw [hout, ho]
    exact ⟨h1, h2, h3.trans hd⟩
  · intro hn hb
    rw [ha, ho]
    exact h.sent hn (hout ▸ hb)
  · intro hb
    rw [ha, ho]
    rcases h.idle (hout ▸ hb) with h1 | h1
    · exact .inl (h1.trans_le hd)
    · exact .inr h1

lemma ordered_init : Ordered .init none := by
  constructor <;> simp [SessionNegotiation.init]

lemma ordered_expire (h : Ordered n none)
    (hb : n.desiredOfferRevision + expiryCount n now < 2 ^ 64) :
    Ordered (expireUnansweredOffer n now).1 none ∧
      (expireUnansweredOffer n now).1.desiredOfferRevision =
        n.desiredOfferRevision + expiryCount n now := by
  unfold expireUnansweredOffer expiryCount at *
  cases ht : n.timedOut now with
  | false => simpa [ht] using h
  | true =>
    by_cases hd : n.desiredOfferRevision ≤ n.offeredRevision
    · -- the expired offer was the newest, so the next one gets a new revision
      have heq : n.desiredOfferRevision = n.offeredRevision := le_antisymm hd h.offered_le
      simp only [ht, hd, and_self, if_true] at hb ⊢
      have hnext : nextRevision n.offeredRevision = n.offeredRevision + 1 :=
        nextRevision_eq (by omega)
      refine ⟨⟨h.answered_le, ?_, by simp, by simp, ?_⟩, by simp [hnext, heq]⟩
      · simp [hnext]
      · simp [hnext]
    · simp only [ht, hd, and_false, if_true, if_false, Nat.add_zero] at hb ⊢
      refine ⟨⟨h.answered_le, h.offered_le, by simp, by simp, ?_⟩, trivial⟩
      exact fun _ => .inl (not_le.1 hd)

lemma ordered_offerOrWait (h : Ordered n none) (r : Readiness) (now : ℕ) :
    let out := offerOrWait n r now
    Ordered out.1 out.2.revision ∧ out.1.desiredOfferRevision = n.desiredOfferRevision := by
  rcases offerOrWait_cases n r now with ⟨heq, -⟩ | heq | ⟨heq, -, -, hlt⟩ <;> rw [heq]
  · exact ⟨h, rfl⟩
  · exact ⟨h.demand le_rfl rfl rfl rfl, rfl⟩
  · refine ⟨⟨h.answered_le, h.offered_le, ?_, by simp [Decision.revision], by simp⟩, rfl⟩
    rintro r' ⟨rfl⟩
    exact ⟨rfl, hlt, le_rfl⟩

lemma ordered_flush (h : Ordered n none) (r : Readiness)
    (hb : n.desiredOfferRevision + expiryCount n now < 2 ^ 64) :
    let out := flushPendingOffer n r now
    Ordered out.1 out.2.revision ∧ out.1.desiredOfferRevision =
        n.desiredOfferRevision + expiryCount n now := by
  obtain ⟨hexp, hdes⟩ := ordered_expire h hb
  unfold flushPendingOffer
  by_cases hw : (n.offerOutstanding && n.offerSentMs ≠ 0)
  · rw [if_pos hw]
    cases hx : expireUnansweredOffer n now with
    | mk n' expired =>
      rw [hx] at hexp hdes
      cases expired with
      | true =>
        obtain ⟨h1, h2⟩ := ordered_offerOrWait hexp r now
        exact ⟨h1, h2.trans hdes⟩
      | false =>
        have hsame : n' = n := by
          unfold expireUnansweredOffer at hx
          split at hx <;> simp_all
        subst hsame
        exact ⟨h.demand le_rfl rfl rfl rfl, hdes⟩
  · -- without a sent offer nothing expires
    have hnot : n.timedOut now = false := by
      simp only [Bool.and_eq_true, not_and] at hw
      unfold SessionNegotiation.timedOut
      cases hout : n.offerOutstanding with
      | false => simp
      | true => simp [hw hout]
    have hcount : expiryCount n now = 0 := by simp [expiryCount, hnot]
    rw [if_neg hw, hcount]
    exact ordered_offerOrWait h r now

lemma ordered_recordSent (h : Ordered n (some revision)) (generation now : ℕ) :
    Ordered (recordSent n revision generation now) none := by
  obtain ⟨hout, hlt, hle⟩ := h.attempt revision rfl
  have ha := h.answered_le
  refine ⟨?_, hle, by simp, ?_, ?_⟩
  · change n.answeredRevision ≤ revision
    omega
  · intro _ _
    change n.answeredRevision < revision
    omega
  · intro hf
    exact absurd (hout.symm.trans hf) (by simp)

lemma ordered_recordFailed (h : Ordered n (some revision)) (now : ℕ) :
    Ordered (recordFailed n now).1 none ∧
      (recordFailed n now).1.desiredOfferRevision = n.desiredOfferRevision := by
  obtain ⟨hout, hlt, hle⟩ := h.attempt revision rfl
  unfold recordFailed
  rw [if_pos hout]
  refine ⟨⟨h.answered_le, h.offered_le, by simp, by simp, ?_⟩, rfl⟩
  intro _
  exact .inl (lt_of_lt_of_le hlt hle)

lemma ordered_answer (h : Ordered n none) (hout : n.offerOutstanding) (received : ℕ) :
    Ordered (answerLocked n received) none := by
  unfold answerLocked
  simp only [hout, if_true]
  exact ⟨le_rfl, h.offered_le, by simp, by simp, fun _ => .inr rfl⟩

/-! ### The answers -/

/-- The manifest is the installed one, unless the slots were torn down meanwhile. -/
def Current (t : SlotTable) (m : OfferManifest) : Prop :=
  t.offeredManifest = some m ∨ t.offeredManifest = none

def Handling (n : SessionNegotiation) (t : SlotTable) : Loop → Prop
  | .answerRead received (some m) => m.offerGeneration = received ∧ Current t m
  | .answering received m => n.offerOutstanding = true ∧
      n.lastAnsweredOfferGeneration < received ∧ m.offerGeneration = received ∧ Current t m
  | .applied received => n.offerOutstanding = true ∧ n.lastAnsweredOfferGeneration < received
  | _ => True

def newest (n : SessionNegotiation) : Loop → ℕ
  | .applied received => received
  | _ => n.lastAnsweredOfferGeneration

structure Good (s : Session) : Prop where
  ordered : Ordered s.neg s.loop.attempting
  counted : s.neg.desiredOfferRevision = s.revisions
  handling : Handling s.neg s.table s.loop
  increasing : (s.accepted.map Prod.fst).Pairwise (· < ·)
  accepted_le : ∀ x ∈ s.accepted, x.1 ≤ newest s.neg s.loop
  accepted_installed : ∀ x ∈ s.accepted, x.2 = some x.1

lemma good_init : Good .init :=
  ⟨ordered_init, rfl, trivial, by simp [Session.init], by simp [Session.init],
    by simp [Session.init]⟩

lemma Current.of_eq (h : Current t m)
    (heq : t'.offeredManifest = t.offeredManifest ∨ t'.offeredManifest = none) : Current t' m := by
  rcases heq with heq | heq
  · unfold Current
    rw [heq]
    exact h
  · exact .inr heq

/-- The negotiation moves on without touching an answer, the table without a new manifest. -/
lemma Handling.frame {l : Loop} (h : Handling n t l)
    (hout : n'.offerOutstanding = n.offerOutstanding)
    (hlast : n'.lastAnsweredOfferGeneration = n.lastAnsweredOfferGeneration)
    (ht : t'.offeredManifest = t.offeredManifest ∨ t'.offeredManifest = none) :
    Handling n' t' l := by
  match l, h with
  | .answerRead _ (some _), h => exact ⟨h.1, h.2.of_eq ht⟩
  | .answerRead _ none, _ => trivial
  | .answering _ _, h =>
    exact ⟨hout.trans h.1, hlast ▸ h.2.1, h.2.2.1, h.2.2.2.of_eq ht⟩
  | .applied _, h => exact ⟨hout.trans h.1, hlast ▸ h.2⟩
  | .idle, _ => trivial
  | .attempt _ _, _ => trivial
  | .captured _ _ _, _ => trivial
  | .installed _ _ _, _ => trivial
  | .sent _ _ _, _ => trivial
  | .failed _, _ => trivial

lemma newest_frame (hlast : n'.lastAnsweredOfferGeneration = n.lastAnsweredOfferGeneration)
    (l : Loop) : newest n' l = newest n l := by
  cases l <;> first | rfl | exact hlast

/-! ### Each step keeps the invariant -/

/-- A step that leaves the answers alone: the negotiation keeps its order and its count, and no
manifest is installed under an answer that is being handled. -/
lemma Good.of_negotiation (h : Good s) (hord : Ordered n' s.loop.attempting)
    (hcount : n'.desiredOfferRevision = r') (hout : n'.offerOutstanding = s.neg.offerOutstanding)
    (hlast : n'.lastAnsweredOfferGeneration = s.neg.lastAnsweredOfferGeneration) :
    Good { s with neg := n', revisions := r' } :=
  ⟨hord, hcount, h.handling.frame hout hlast (.inl rfl), h.increasing,
    fun x hx => newest_frame hlast s.loop ▸ h.accepted_le x hx, h.accepted_installed⟩

lemma Good.of_table (h : Good s)
    (ht : t'.offeredManifest = s.table.offeredManifest ∨ t'.offeredManifest = none) :
    Good { s with table := t' } :=
  { h with handling := h.handling.frame rfl rfl ht }

lemma Good.of_loop (h : Good s) {c' : ℕ} (hord : Ordered n' l'.attempting)
    (hcount : n'.desiredOfferRevision = r')
    (hlast : n'.lastAnsweredOfferGeneration = s.neg.lastAnsweredOfferGeneration)
    (hold : newest s.neg s.loop = s.neg.lastAnsweredOfferGeneration) (hhand : Handling n' t' l')
    (hnew : newest n' l' = n'.lastAnsweredOfferGeneration) :
    Good ⟨n', t', l', c', s.accepted, r'⟩ := by
  refine ⟨hord, hcount, hhand, h.increasing, ?_, h.accepted_installed⟩
  intro x hx
  rw [hnew, hlast, ← hold]
  exact h.accepted_le x hx

section

variable (n : SessionNegotiation)

lemma expire_last (now : ℕ) :
    (expireUnansweredOffer n now).1.lastAnsweredOfferGeneration =
      n.lastAnsweredOfferGeneration := by
  unfold expireUnansweredOffer
  split <;> rfl

lemma flush_last (r : Readiness) (now : ℕ) :
    (flushPendingOffer n r now).1.lastAnsweredOfferGeneration = n.lastAnsweredOfferGeneration := by
  have hwait : ∀ m : SessionNegotiation, (offerOrWait m r now).1.lastAnsweredOfferGeneration =
      m.lastAnsweredOfferGeneration := by
    intro m
    rcases offerOrWait_cases m r now with ⟨heq, -⟩ | heq | ⟨heq, -⟩ <;> rw [heq]
  unfold flushPendingOffer
  split
  · have hx := expire_last n now
    cases he : expireUnansweredOffer n now with
    | mk n' expired =>
      rw [he] at hx
      cases expired with
      | true => exact (hwait n').trans hx
      | false => rfl
  · exact hwait n

lemma recordFailed_last (now : ℕ) :
    (recordFailed n now).1.lastAnsweredOfferGeneration = n.lastAnsweredOfferGeneration := by
  unfold recordFailed
  split <;> rfl

end

lemma answeredManifest_spec (h : answeredManifest t received = some m) :
    m.offerGeneration = received ∧ Current t m := by
  unfold answeredManifest at h
  split at h
  · rename_i m' hm
    split at h
    · cases h
      exact ⟨Eq.symm ‹_›, .inl hm⟩
    · cases h
  · cases h

/-- An answer that applies takes the installed manifest, which is the one it was checked
against. -/
lemma applyAnswer_installed (hc : Current t m) (h : (remoteOfferApplyAnswer t m).2) :
    t.offeredManifest = some m ∧ (remoteOfferApplyAnswer t m).1.offeredManifest = none := by
  unfold remoteOfferApplyAnswer at h ⊢
  rcases hc with hc | hc
  · refine ⟨hc, ?_⟩
    split at h
    · simp at h
    split at h
    · simp at h
    · split at h
      · simp_all
      · simp at h
  · simp [hc] at h

lemma Good.ordered_at (h : Good s) (hl : s.loop = l') : Ordered s.neg l'.attempting :=
  hl ▸ h.ordered

section

variable (h : Good s)

include h

lemma good_expire (hl : s.loop = .idle) (hb : s.revisions + expiryCount s.neg now < 2 ^ 64) :
    Good (loopStep s .idle (.expire now)) := by
  have hcount := h.counted
  have hord : Ordered s.neg none := h.ordered_at hl
  rw [← hcount] at hb
  obtain ⟨h1, h2⟩ := ordered_expire hord hb
  refine h.of_loop (by rw [hl]; exact h1) (by rw [h2, hcount]) (expire_last _ _)
    (by rw [hl]; rfl) (by rw [hl]; trivial) (by rw [hl]; rfl)

lemma good_flush (hl : s.loop = .idle) (r : Readiness)
    (hb : s.revisions + expiryCount s.neg now < 2 ^ 64) :
    Good (loopStep s .idle (.flush r now)) := by
  have hcount := h.counted
  have hord : Ordered s.neg none := h.ordered_at hl
  rw [← hcount] at hb
  obtain ⟨h1, h2⟩ := ordered_flush hord r hb
  have hold : newest s.neg s.loop = s.neg.lastAnsweredOfferGeneration := by rw [hl]; rfl
  have hlast := flush_last s.neg r now
  dsimp only [loopStep]
  cases hd : (flushPendingOffer s.neg r now).2
  all_goals
    rw [hd] at h1
    exact h.of_loop h1 (by rw [h2, hcount]) hlast hold trivial rfl

lemma Good.of_attempt (hl : s.loop.attempting = some revision) (t' : SlotTable)
    (hl' : l'.attempting = some revision) (c' : ℕ) :
    Good { s with table := t', loop := l', captures := c' } := by
  have hno : ∀ l : Loop, ∀ r : ℕ, l.attempting = some r → ∀ n t,
      Handling n t l ∧ newest n l = n.lastAnsweredOfferGeneration := by
    intro l r hr n t
    cases l <;> simp_all [Loop.attempting, Handling, newest]
  exact h.of_loop (hl'.trans hl.symm ▸ h.ordered) h.counted rfl
    (hno s.loop revision hl s.neg s.table).2 (hno l' revision hl' s.neg t').1
    (hno l' revision hl' s.neg t').2

lemma good_answerApply (hl : s.loop = .answering received m)
    (hok : (remoteOfferApplyAnswer s.table m).2) :
    Good { s with
      table := (remoteOfferApplyAnswer s.table m).1
      loop := .applied received
      accepted :=
        s.accepted ++ [(received, s.table.offeredManifest.map (·.offerGeneration))] } := by
  have hhand := h.handling
  rw [hl] at hhand
  obtain ⟨hout, hlt, hgen, hcur⟩ := hhand
  have hinst := (applyAnswer_installed hcur hok).1
  have hle : ∀ x ∈ s.accepted, x.1 ≤ s.neg.lastAnsweredOfferGeneration := by
    intro x hx
    simpa [hl, newest] using h.accepted_le x hx
  refine ⟨(h.ordered_at hl :), h.counted, ⟨hout, hlt⟩, ?_, ?_, ?_⟩
  · rw [map_append, pairwise_append]
    refine ⟨h.increasing, by simp, ?_⟩
    intro a ha b hb
    obtain ⟨x, hx, rfl⟩ := mem_map.1 ha
    have hb' : b = received := by simpa using hb
    rw [hb']
    exact lt_of_le_of_lt (hle x hx) hlt
  · exact forall_mem_append.2 ⟨fun x hx => (hle x hx).trans hlt.le, forall_mem_singleton.2 le_rfl⟩
  · refine forall_mem_append.2 ⟨h.accepted_installed, forall_mem_singleton.2 ?_⟩
    rw [hinst, Option.map_some, hgen]

lemma good_answerFinish (hl : s.loop = .applied received) :
    Good { s with neg := answerLocked s.neg received, loop := .idle } := by
  have hhand := h.handling
  rw [hl] at hhand
  obtain ⟨hout, -⟩ := hhand
  have hord : Ordered s.neg none := h.ordered_at hl
  refine ⟨ordered_answer hord hout received, ?_, trivial, h.increasing, ?_, h.accepted_installed⟩
  · simp [answerLocked, hout, h.counted]
  · intro x hx
    have := h.accepted_le x hx
    rw [hl] at this
    simpa [newest, answerLocked, hout] using this

lemma good_loopStep (op : Op) (hb : (loopStep s s.loop op).revisions < 2 ^ 64) :
    Good (loopStep s s.loop op) := by
  unfold loopStep at hb ⊢
  split
  · rename_i now hl
    exact good_expire h hl (by simpa [hl] using hb)
  · rename_i r now hl
    exact good_flush h hl r (by simpa [hl] using hb)
  · rename_i revision now allocated hl
    have hatt : s.loop.attempting = some revision := by rw [hl]; rfl
    split
    · exact h.of_attempt hatt _ rfl _
    · exact h.of_attempt hatt s.table rfl s.captures
  · rename_i revision now m built hl
    have hatt : s.loop.attempting = some revision := by rw [hl]; rfl
    split
    · refine h.of_attempt hatt _ ?_ s.captures
      split <;> rfl
    · exact h.of_attempt hatt s.table rfl s.captures
  · rename_i revision now m ok hl
    have hatt : s.loop.attempting = some revision := by rw [hl]; rfl
    refine h.of_attempt hatt s.table ?_ s.captures
    split <;> rfl
  · rename_i revision now m _ hl
    have hord : Ordered s.neg (some revision) := h.ordered_at hl
    exact h.of_loop (ordered_recordSent hord _ _) h.counted rfl (by rw [hl]; rfl) trivial rfl
  · rename_i revision now hl
    have hord : Ordered s.neg (some revision) := h.ordered_at hl
    obtain ⟨h1, h2⟩ := ordered_recordFailed hord now
    exact h.of_loop h1 (h2.trans h.counted) (recordFailed_last _ _) (by rw [hl]; rfl) trivial rfl
  · rename_i received hl
    refine h.of_loop (h.ordered_at hl :) h.counted rfl (by rw [hl]; rfl) ?_ rfl
    cases hm : answeredManifest s.table received with
    | none => trivial
    | some m => exact answeredManifest_spec hm
  · rename_i received m hl
    have hord : Ordered s.neg none := h.ordered_at hl
    have hold : newest s.neg s.loop = s.neg.lastAnsweredOfferGeneration := by rw [hl]; rfl
    have hhand := h.handling
    rw [hl] at hhand
    cases m with
    | none => exact h.of_loop hord h.counted rfl hold trivial rfl
    | some m =>
      dsimp only
      split
      · rename_i hv
        simp only [generationValid, ne_eq, decide_not, Bool.and_eq_true, decide_eq_true_eq] at hv
        exact h.of_loop hord h.counted rfl hold ⟨hv.1.2, hv.2, hhand⟩ rfl
      · exact h.of_loop hord h.counted rfl hold trivial rfl
  · rename_i received m hl
    exact h.of_loop (h.ordered_at hl :) h.counted rfl (by rw [hl]; rfl) trivial rfl
  · rename_i received m hl
    split
    · rename_i hok
      exact good_answerApply h hl hok
    · exact h.of_loop (h.ordered_at hl :) h.counted rfl (by rw [hl]; rfl) trivial rfl
  · rename_i received hl
    exact good_answerFinish h hl
  · exact h

lemma good_schedule (established bumpRevision : Bool) (now : ℕ)
    (hb : (step s (.schedule established bumpRevision now)).revisions < 2 ^ 64) :
    Good (step s (.schedule established bumpRevision now)) := by
  obtain ⟨hd, ho, ha, hout, hlast⟩ := schedule_revisions s.neg established bumpRevision now
  have hcount := h.counted
  cases bumpRevision with
  | false =>
    have hd' := hd
    exact h.of_negotiation (h.ordered.demand hd'.ge ho ha hout) (hd'.trans hcount) hout hlast
  | true =>
    have hlt : s.neg.desiredOfferRevision + 1 < 2 ^ 64 := by
      simpa [step, hcount] using hb
    have hd' := hd
    simp only [if_true, nextRevision_eq hlt] at hd'
    exact h.of_negotiation (h.ordered.demand (by omega) ho ha hout) (by rw [hd', hcount]; rfl)
      hout hlast

lemma good_reconcile (hb : (step s .reconcile).revisions < 2 ^ 64) : Good (step s .reconcile) := by
  have hcount := h.counted
  have ha := h.ordered.answered_le
  have ho := h.ordered.offered_le
  rcases Nat.lt_or_ge s.neg.answeredRevision s.neg.desiredOfferRevision with hlt | hge
  · have hd : (reconcileRemoteSlots s.neg).desiredOfferRevision = s.neg.desiredOfferRevision := by
      simp only [reconcileRemoteSlots, if_neg (not_le.2 hlt)]
    have hord : Ordered (reconcileRemoteSlots s.neg) s.loop.attempting :=
      h.ordered.demand hd.ge rfl rfl rfl
    simpa only [step, if_neg (not_le.2 hlt)] using h.of_negotiation hord (hd.trans hcount) rfl rfl
  -- nothing is desired beyond the answered revision, so the three revisions are equal
  have heq : s.neg.answeredRevision = s.neg.desiredOfferRevision := by omega
  have hlt : s.neg.answeredRevision + 1 < 2 ^ 64 := by
    simp only [step, if_pos hge] at hb
    omega
  have hd : (reconcileRemoteSlots s.neg).desiredOfferRevision = s.revisions + 1 := by
    simp only [reconcileRemoteSlots, if_pos hge, nextRevision_eq hlt]
    omega
  have hord : Ordered (reconcileRemoteSlots s.neg) s.loop.attempting :=
    h.ordered.demand (by omega) rfl rfl rfl
  simpa only [step, if_pos hge] using h.of_negotiation hord hd rfl rfl

lemma good_step (op : Op) (hb : (step s op).revisions < 2 ^ 64) : Good (step s op) := by
  cases op with
  | schedule established bumpRevision now => exact good_schedule h _ _ _ hb
  | reconcile => exact good_reconcile h hb
  | reserve userId peerId => exact h.of_table (.inl (reserve_offeredManifest _ _ _))
  | retire slot generation => exact h.of_table (.inl (retire_offeredManifest _ _ _))
  | teardown => exact h.of_table (.inr rfl)
  | expire | flush | capture | install | send | record | answer | answerCheck | answerReject
  | answerApply | answerFinish => exact good_loopStep h _ hb

end

lemma revisions_le_loopStep (s : Session) (l : Loop) (op : Op) :
    s.revisions ≤ (loopStep s l op).revisions := by
  unfold loopStep
  split <;> first | exact Nat.le_add_right _ _ | exact le_rfl | (split <;> exact le_rfl)

lemma revisions_le_step (s : Session) (op : Op) : s.revisions ≤ (step s op).revisions := by
  cases op with
  | schedule | reconcile => simp only [step]; split <;> omega
  | reserve | retire | teardown => exact le_rfl
  | _ => exact revisions_le_loopStep _ _ _

theorem good_run {ops : List Op} (hb : (run ops).revisions < 2 ^ 64) : Good (run ops) :=
  Runs.run_inv_budget step (f := Session.revisions) revisions_le_step
    (fun _ op h hlt => good_step h op hlt) good_init hb

/-- **Negotiation revisions**: after any run with fewer than `2 ^ 64` revisions the answered,
offered and desired revisions are in order; an offer that was sent and is outstanding is newer
than the answered one; without an outstanding offer, a revision that is not answered yet can
still be offered; and the accepted answers carry strictly increasing generations, each that of
the manifest installed when it was applied. -/
theorem offer_revisions (ops : List Op) (hb : (run ops).revisions < 2 ^ 64) :
    let s := run ops
    (s.neg.answeredRevision ≤ s.neg.offeredRevision ∧
      s.neg.offeredRevision ≤ s.neg.desiredOfferRevision) ∧
    (s.neg.offerOutstanding = true → s.loop.attempting = none →
      s.neg.answeredRevision < s.neg.offeredRevision) ∧
    (s.neg.offerOutstanding = false → s.neg.answeredRevision < s.neg.desiredOfferRevision →
      s.neg.offeredRevision < s.neg.desiredOfferRevision) ∧
    (s.accepted.map Prod.fst).Pairwise (· < ·) ∧
    (∀ x ∈ s.accepted, x.2 = some x.1) := by
  intro s
  have h : Good s := good_run hb
  refine ⟨⟨h.ordered.answered_le, h.ordered.offered_le⟩, fun hout hno => h.ordered.sent hno hout,
    ?_, h.increasing, h.accepted_installed⟩
  intro hout hlt
  rcases h.ordered.idle hout with h1 | h1
  · exact h1
  · omega

/-- A first offer is sent and answered; a second one expires and is made again. -/
theorem offer_revisions_reissued :
    let r : Readiness := ⟨true, true, true, true⟩
    let ops := [Op.schedule true true 0, .flush r 20, .capture true, .install true, .send true,
      .record 21, .answer 1, .answerCheck, .answerApply, .answerFinish, .schedule true true 30,
      .flush r 60, .capture true, .install true, .send true, .record 61, .flush r 6000]
    (run ops).revisions < 2 ^ 64 ∧ (run ops).accepted = [(1, some 1)] ∧
      (run ops).neg.answeredRevision ≤ (run ops).neg.offeredRevision ∧
      (run ops).neg.offeredRevision ≤ (run ops).neg.desiredOfferRevision := by
  intro r ops
  have hb : (run ops).revisions < 2 ^ 64 := by decide
  exact ⟨hb, by decide, (offer_revisions ops hb).1⟩

end MezonSfu.OfferRevisions
