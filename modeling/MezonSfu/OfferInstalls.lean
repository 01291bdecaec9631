import MezonSfu.RemoteSlotsSafe

/-!
The order in which offers are installed and answered on one session.

The table only knows the manifest that is installed now, and an answer clears it; so the order
is a fact about the calls made so far, which are recorded beside the table.
-/

namespace MezonSfu.OfferInstalls

open RemoteSlots Option

/-- The calls on one session. A manifest is named by the number of its capture. -/
inductive Call where
  | reserve (userId : ℤ) (peerId : ℕ)
  | retire (slot generation : ℕ)
  | capture
  | install (k : ℕ)
  | applyAnswer (k : ℕ)
  deriving DecidableEq, Repr

def Call.op : Call → RemoteSlots.Op
  | .reserve userId peerId => .reserve userId peerId
  | .retire slot generation => .retire slot generation
  | .capture => .capture
  | .install k => .install k
  | .applyAnswer k => .applyAnswer k

/-- The session with the offer generations of the manifests for which an installation, or an
answer, has returned true. -/
structure Record where
  world : World
  installed : List ℕ
  answered : List ℕ

def Record.init : Record := ⟨.init, [], []⟩

def installs (w : World) : Call → Option OfferManifest
  | .install k => w.captured[k]?.bind fun m =>
      if (remoteOfferInstall w.table m).2 then some m else none
  | _ => none

def answers (w : World) : Call → Option OfferManifest
  | .applyAnswer k => w.captured[k]?.bind fun m =>
      if (remoteOfferApplyAnswer w.table m).2 then some m else none
  | _ => none

def step (r : Record) (c : Call) : Record where
  world := RemoteSlots.step r.world c.op
  installed := r.installed ++ ((installs r.world c).map (·.offerGeneration)).toList
  answered := r.answered ++ ((answers r.world c).map (·.offerGeneration)).toList

def run (calls : List Call) : Record := Runs.run step .init calls

/-- When no manifest is installed, only one that is newer than all answered ones is offered for
installation. -/
def Newer (r : Record) : Call → Prop
  | .install k => ∀ m ∈ r.world.captured[k]?, r.world.table.offeredManifest.isNone →
      ∀ a ∈ r.answered, a < m.offerGeneration
  | _ => True

instance (r : Record) (c : Call) : Decidable (Newer r c) := by
  cases c <;> (unfold Newer; infer_instance)

/-- A manifest stands in the list at its address, and the installed one is in the list. -/
structure Addressed (w : World) : Prop where
  captured : ∀ k (m : OfferManifest), w.captured[k]? = some m → m.addr = k
  installed : ∀ m, w.table.offeredManifest = some m → w.captured[m.addr]? = some m

lemma step_manifest (w : World) (c : Call) :
    let r := RemoteSlots.step w c.op
    r.table.offeredManifest = (if (answers w c).isSome then none else
          (installs w c).or w.table.offeredManifest) ∧
      (r.captured = w.captured ∨
        r.captured = w.captured ++ [w.table.manifest w.captured.length]) := by
  cases c with
  | reserve userId peerId => exact ⟨reserve_offeredManifest .., .inl rfl⟩
  | retire slot generation => exact ⟨retire_offeredManifest .., .inl rfl⟩
  | capture => exact ⟨rfl, .inr rfl⟩
  | install k =>
    cases hk : w.captured[k]? with
    | none => simp [Call.op, RemoteSlots.step, installs, answers, hk]
    | some m =>
      rcases install_cases w.table m with heq | ⟨-, -, -, heq⟩ <;>
        simp [Call.op, RemoteSlots.step, installs, answers, hk, heq]
  | applyAnswer k =>
    cases hk : w.captured[k]? with
    | none => simp [Call.op, RemoteSlots.step, installs, answers, hk]
    | some m =>
      rcases applyAnswer_cases w.table m with heq | ⟨-, -, -, heq⟩ <;>
        simp [Call.op, RemoteSlots.step, installs, answers, hk, heq]

variable {m : OfferManifest} {c : Call} {w : World}

lemma installs_spec (h : installs w c = some m) :
    ∃ k, c = .install k ∧ w.captured[k]? = some m ∧ w.table.superseded m = false := by
  cases c with
  | install k =>
    obtain ⟨m', hk, hok⟩ := bind_eq_some_iff.1 h
    rcases install_cases w.table m' with heq | ⟨-, hs, -, heq⟩
    · simp [heq] at hok
    · obtain rfl : m' = m := by simpa [heq] using hok
      exact ⟨k, rfl, hk, hs⟩
  | _ => cases h

lemma answers_spec (hw : Addressed w)
    (h : answers w c = some m) : w.table.offeredManifest = some m := by
  cases c with
  | applyAnswer k =>
    obtain ⟨m', hk, hok⟩ := bind_eq_some_iff.1 h
    rcases applyAnswer_cases w.table m' with heq | ⟨-, haddr, -, heq⟩
    · simp [heq] at hok
    obtain rfl : m' = m := by simpa [heq] using hok
    obtain ⟨old, hold, heq⟩ := map_eq_some_iff.1 haddr
    have hcap := hw.installed old hold
    rw [heq, hw.captured k m' hk, hk] at hcap
    rw [hold, hcap]
  | _ => cases h

lemma addressed_step (h : Addressed w) (c : Call) : Addressed (RemoteSlots.step w c.op) := by
  obtain ⟨hman, hcap⟩ := step_manifest w c
  have hold : ∀ (k : ℕ) (m : OfferManifest), w.captured[k]? = some m →
      (RemoteSlots.step w c.op).captured[k]? = some m := by
    intro k m hk
    rcases hcap with heq | heq <;> rw [heq]
    · exact hk
    · exact (List.getElem?_append_left (List.getElem?_eq_some_iff.1 hk).1).trans hk
  constructor
  · intro k m hk
    rcases hcap with heq | heq <;> rw [heq] at hk
    · exact h.captured k m hk
    rcases Nat.lt_or_ge k w.captured.length with hlt | hge
    · rw [List.getElem?_append_left hlt] at hk
      exact h.captured k m hk
    rw [List.getElem?_append_right hge, List.getElem?_singleton] at hk
    split at hk
    · rw [← Option.some.inj hk]
      change w.captured.length = k
      omega
    · cases hk
  · intro m hm
    rw [hman] at hm
    split at hm
    · cases hm
    cases hi : installs w c with
    | none =>
      rw [hi, none_or] at hm
      exact hold _ m (h.installed m hm)
    | some m' =>
      rw [hi, some_or] at hm
      obtain ⟨k, -, hk, -⟩ := installs_spec hi
      obtain rfl := Option.some.inj hm
      rw [h.captured k m' hk]
      exact hold k m' hk

/-- The installed generations rise, up to that of the installed manifest or, when there is none,
to an answered one. -/
structure Good (r : Record) : Prop where
  addressed : Addressed r.world
  installed : r.installed.Pairwise (· < ·)
  answered : r.answered.Pairwise (· < ·)
  upTo : ∀ m, r.world.table.offeredManifest = some m → ∀ g ∈ r.installed, g ≤ m.offerGeneration
  cleared : r.world.table.offeredManifest = none → ∀ g ∈ r.installed, ∃ a ∈ r.answered, g ≤ a
  before : ∀ m, r.world.table.offeredManifest = some m → ∀ a ∈ r.answered, a < m.offerGeneration

lemma good_init : Good .init := by
  constructor <;> simp [Record.init, World.init, SlotTable.init]
  constructor <;> simp

lemma pairwise_concat {l : List ℕ} (h : l.Pairwise (· < ·)) {x : ℕ} (hx : ∀ y ∈ l, y < x) :
    (l ++ [x]).Pairwise (· < ·) :=
  List.pairwise_append.2
    ⟨h, List.pairwise_singleton .., fun y hy => List.forall_mem_singleton.2 (hx y hy)⟩

lemma Good.installs_newer {r : Record} (h : Good r) (hc : Newer r c)
    (hi : installs r.world c = some m) :
    (∀ g ∈ r.installed, g < m.offerGeneration) ∧ ∀ a ∈ r.answered, a < m.offerGeneration := by
  obtain ⟨k, rfl, hk, hs⟩ := installs_spec hi
  cases ho : r.world.table.offeredManifest with
  | none =>
    have hans := hc m (mem_def.2 hk) (by rw [ho]; rfl)
    refine ⟨?_, hans⟩
    intro g hg
    obtain ⟨a, ha, hga⟩ := h.cleared ho g hg
    exact hga.trans_lt (hans a ha)
  | some old =>
    unfold SlotTable.superseded at hs
    rw [ho] at hs
    have hlt : old.offerGeneration < m.offerGeneration := by simpa using hs
    exact ⟨fun g hg => (h.upTo old ho g hg).trans_lt hlt,
      fun a ha => (h.before old ho a ha).trans hlt⟩

lemma good_step {r : Record} (h : Good r) (hc : Newer r c) : Good (step r c) := by
  have haddr := addressed_step h.addressed c
  obtain ⟨hman, -⟩ := step_manifest r.world c
  cases ha : answers r.world c with
  | some m =>
    -- the answer clears the manifest and is the newest of the answers
    have hinst := answers_spec h.addressed ha
    have hnone : installs r.world c = none := by
      cases c with
      | applyAnswer k => rfl
      | _ => cases ha
    rw [ha, isSome_some, if_pos rfl] at hman
    have hins : (step r c).installed = r.installed := by simp [step, hnone]
    have hans : (step r c).answered = r.answered ++ [m.offerGeneration] := by simp [step, ha]
    constructor
    · exact haddr
    · rw [hins]
      exact h.installed
    · rw [hans]
      exact pairwise_concat h.answered (h.before m hinst)
    · intro m' hm'
      rw [show (step r c).world.table.offeredManifest = none from hman] at hm'
      cases hm'
    · intro _ g hg
      rw [hins] at hg
      rw [hans]
      exact ⟨m.offerGeneration, by simp, h.upTo m hinst g hg⟩
    · intro m' hm'
      rw [show (step r c).world.table.offeredManifest = none from hman] at hm'
      cases hm'
  | none =>
    rw [ha, isSome_none, if_neg Bool.noConfusion] at hman
    have hans : (step r c).answered = r.answered := by simp [step, ha]
    cases hi : installs r.world c with
    | none =>
      rw [hi, none_or] at hman
      have hins : (step r c).installed = r.installed := by simp [step, hi]
      have hsame : (step r c).world.table.offeredManifest = r.world.table.offeredManifest := hman
      constructor
      · exact haddr
      · rw [hins]
        exact h.installed
      · rw [hans]
        exact h.answered
      · rw [hsame, hins]
        exact h.upTo
      · rw [hsame, hins, hans]
        exact h.cleared
      · rw [hsame, hans]
        exact h.before
    | some m =>
      rw [hi, some_or] at hman
      have hins : (step r c).installed = r.installed ++ [m.offerGeneration] := by simp [step, hi]
      have hnow : (step r c).world.table.offeredManifest = some m := hman
      obtain ⟨hnew, hnewer⟩ := h.installs_newer hc hi
      constructor
      · exact haddr
      · rw [hins]
        exact pairwise_concat h.installed hnew
      · rw [hans]
        exact h.answered
      · intro m' hm' g hg
        rw [hnow, Option.some.injEq] at hm'
        rw [hins, List.mem_append, List.mem_singleton] at hg
        rw [← hm']
        rcases hg with hg | rfl
        · exact (hnew g hg).le
        · exact le_rfl
      · intro hnone
        rw [hnow] at hnone
        cases hnone
      · intro m' hm'
        rw [hnow, Option.some.injEq] at hm'
        rw [hans, ← hm']
        exact hnewer

/-- **Installed offers rise.** In any order of the calls in which, while no manifest is installed,
only manifests newer than the answered ones are offered for installation, the generations of the
installed manifests are strictly increasing, and so are those of the answered ones. -/
theorem installs_increase (calls : List Call) (h : Runs.Along step Newer .init calls) :
    (run calls).installed.Pairwise (· < ·) ∧ (run calls).answered.Pairwise (· < ·) := by
  have hgood : Good (run calls) :=
    Runs.run_inv_along step (I := Good) (fun _ _ hr hc => good_step hr hc) good_init h
  exact ⟨hgood.installed, hgood.answered⟩

/-- Two offers, the second installed over the first and answered, and a third. -/
theorem installs_increase_superseded :
    let calls := [Call.reserve 7 1, .capture, .install 0, .reserve 8 2, .capture, .install 1,
      .applyAnswer 1, .capture, .install 2]
    Runs.Along step Newer .init calls ∧ (run calls).installed = [1, 2, 3] ∧
      (run calls).installed.Pairwise (· < ·) := by
  intro calls
  have h : Runs.Along step Newer .init calls := by decide
  exact ⟨h, by decide, (installs_increase calls h).1⟩

/-- **An old offer after a newer one's answer.** The second offer is installed and answered, which
applies the slots of two publishers; then the first one is installed and answered after all, and
the slot of the second publisher is no longer applied. -/
theorem old_offer_installed :
    let calls := [Call.reserve 7 1, .capture, .reserve 8 2, .capture, .install 1, .applyAnswer 1]
    (run calls).world.table.applied 1 = 2 ∧
      (run (calls ++ [.install 0, .applyAnswer 0])).installed = [2, 1] ∧
      (run (calls ++ [.install 0, .applyAnswer 0])).answered = [2, 1] ∧
      (run (calls ++ [.install 0, .applyAnswer 0])).world.table.applied 1 = 0 ∧
      ((run (calls ++ [.install 0, .applyAnswer 0])).world.table.slots 1).state = .active := by
  decide

end MezonSfu.OfferInstalls
