import MezonSfu.DtlsRestart
import MezonSfu.PacedCallers
import MezonSfu.Runs

/-!
The paced queues of a subscriber whose transport is restarted.

A packet is encrypted under the active SRTP context, whose number the queues carry here, and
queued with the transport generation of that moment, which is compared with that of the drain.
-/

namespace MezonSfu.Dtls

open Paced List

variable {κ : Type*}

/-- `entry_valid`. The tests of the session, its slots and its address are `alive`. -/
def entryValid (alive : Entry ℕ → Bool) (t : Transport) (e : Entry ℕ) : Bool :=
  alive e && decide (e.metadata.transportGeneration = t.transportGeneration.toNat)

structure Subscriber (κ : Type*) where
  transport : Transport
  callers : Callers κ ℕ

/-- A step. The `valid` of a drain is what `alive` is in `entryValid`; received media is where
the previous context expires. -/
inductive SubscriberOp (κ : Type*)
  | dtls (d : Datagram)
  | media (nowMs : UInt64)
  | enqueue (k : κ) (len dst pacingBps : ℕ) (metadata : Metadata) (allocated : Bool) (nowUs : ℤ)
  | call (k : κ) (c : Call ℕ)

def guarded (t : Transport) : Call ℕ → Call ℕ
  | .drain alive accepts nowUs remaining => .drain (entryValid alive t) accepts nowUs remaining
  | c => c

def stamped (t : Transport) (metadata : Metadata) : Metadata :=
  { metadata with transportGeneration := t.transportGeneration.toNat }

namespace Subscriber

variable [DecidableEq κ]

def init : Subscriber κ := ⟨.init, .init⟩

/-- Encrypt a packet under the active context and queue it. Without a context nothing can be
encrypted. -/
def enqueue (s : Subscriber κ) (k : κ) (len dst pacingBps : ℕ) (metadata : Metadata)
    (allocated : Bool) (nowUs : ℤ) : Subscriber κ :=
  match s.transport.srtp with
  | none => s
  | some context =>
    match (s.callers.queues k).enqueue context len dst pacingBps (stamped s.transport metadata)
        allocated nowUs with
    | none => s
    | some q => { s with callers := s.callers.put k q }

def apply (s : Subscriber κ) : SubscriberOp κ → Subscriber κ
  | .dtls d => { s with transport := s.transport.handleDtls d }
  | .media nowMs => { s with transport := s.transport.expirePrevious nowMs }
  | .enqueue k len dst pacingBps metadata allocated nowUs =>
    s.enqueue k len dst pacingBps metadata allocated nowUs
  | .call k c => { s with callers := s.callers.call k (guarded s.transport c) }

def Keeps (s : Subscriber κ) : SubscriberOp κ → Prop
  | .enqueue k _ _ _ metadata _ _ => s.callers.MayEnqueue k metadata
  | .call k c => s.callers.MayCall k c
  | _ => True

instance (s : Subscriber κ) (op) : Decidable (s.Keeps op) := by
  cases op <;> (unfold Keeps; infer_instance)

def run (ops : List (SubscriberOp κ)) : Subscriber κ := Runs.run apply init ops

variable {metadata : Metadata} {allocated : Bool}

lemma transport_enqueue {s : Subscriber κ} {k : κ} {len dst pacingBps : ℕ} {nowUs : ℤ} :
    (s.enqueue k len dst pacingBps metadata allocated nowUs).transport = s.transport := by
  unfold enqueue
  split
  · rfl
  · split <;> rfl

lemma keys_apply (s : Subscriber κ) (op : SubscriberOp κ) (hop : ∀ d, op ≠ .dtls d) :
    let r := s.apply op
    r.transport.state = s.transport.state ∧ r.transport.srtp = s.transport.srtp ∧
      r.transport.transportGeneration = s.transport.transportGeneration ∧
      r.transport.restarts = s.transport.restarts := by
  cases op with
  | dtls d => exact absurd rfl (hop d)
  | media nowMs =>
    unfold apply Transport.expirePrevious
    dsimp only
    split_ifs <;> exact ⟨rfl, rfl, rfl, rfl⟩
  | enqueue k len dst pacingBps metadata allocated nowUs =>
    unfold apply
    dsimp only
    rw [transport_enqueue]
    exact ⟨rfl, rfl, rfl, rfl⟩
  | call k c => exact ⟨rfl, rfl, rfl, rfl⟩

variable {s : Subscriber κ} {k : κ} {c : Call ℕ}

lemma established_apply (h : s.transport.Sound) (he : s.transport.state = .established)
    (op : SubscriberOp κ) : (s.apply op).transport.state = .established := by
  cases op with
  | dtls d =>
    change (s.transport.handleDtls d).state = .established
    rcases Transport.handleDtls_established h he d with ⟨-, hr⟩ | ⟨-, hs⟩
    · rw [hr.state]
      exact he
    · rw [hs.state]
      exact he
  | media nowMs => exact (keys_apply s (.media nowMs) fun _ => nofun).1.trans he
  | enqueue k len dst pacingBps metadata allocated nowUs =>
    exact (keys_apply s (.enqueue k len dst pacingBps metadata allocated nowUs)
      fun _ => nofun).1.trans he
  | call k c => exact (keys_apply s (.call k c) fun _ => nofun).1.trans he

/-! ### The entries along a run -/

/-- The generation queued with a packet is the one of its context. -/
def Stamped (t : Transport) (e : Entry ℕ) : Prop :=
  e.data ≤ t.restarts ∧ e.metadata.transportGeneration = (UInt32.ofNat (e.data + 1)).toNat

/-- The queues are in order, every entry has the generation of its context, and there are entries
only on an established session. -/
structure Inv (s : Subscriber κ) : Prop where
  sound : s.transport.Sound
  ordered : s.callers.Ordered
  stamped : ∀ k, ∀ e ∈ (s.callers.queues k).contents, Stamped s.transport e
  before : s.transport.state ≠ .established → ∀ k, (s.callers.queues k).contents = []

omit [DecidableEq κ] in
lemma inv_init : (init : Subscriber κ).Inv where
  sound := Transport.sound_init
  ordered := Callers.ordered_init
  stamped _ _ he := absurd he not_mem_nil
  before _ _ := rfl

omit [DecidableEq κ] in
lemma mayCall_guarded (h : s.callers.MayCall k c) :
    s.callers.MayCall k (guarded s.transport c) := by
  cases c with
  | drain alive accepts nowUs remaining => exact trivial
  | _ => exact h

lemma restarts_handleDtls {t : Transport} (h : t.Sound) (d : Datagram) :
    t.restarts ≤ (t.handleDtls d).restarts := by
  by_cases he : t.state = .established
  · rcases Transport.handleDtls_established h he d with ⟨-, hr⟩ | ⟨-, hs⟩
    · rw [hr.restarts]
      exact Nat.le_succ _
    · rw [hs.restarts]
  · rw [(h.before he).2.1]
    exact Nat.zero_le _

lemma Inv.dtls (h : s.Inv) (d : Datagram) : (s.apply (.dtls d)).Inv where
  sound := h.sound.handleDtls d
  ordered := h.ordered
  stamped k e he :=
    ⟨(h.stamped k e he).1.trans (restarts_handleDtls h.sound d), (h.stamped k e he).2⟩
  before hne k := by
    refine h.before (fun he => hne ?_) k
    exact established_apply h.sound he (.dtls d)

lemma Inv.enqueue (h : s.Inv) {len dst pacingBps : ℕ}
    {nowUs : ℤ} (hk : s.callers.MayEnqueue k metadata) :
    (s.enqueue k len dst pacingBps metadata allocated nowUs).Inv := by
  unfold Subscriber.enqueue
  cases hsrtp : s.transport.srtp with
  | none => exact h
  | some context =>
    dsimp only
    cases hq : (s.callers.queues k).enqueue context len dst pacingBps
        (Dtls.stamped s.transport metadata) allocated nowUs with
    | none => exact h
    | some q =>
      have hest : s.transport.state = .established := by
        by_contra hne
        rw [(h.sound.before hne).1] at hsrtp
        cases hsrtp
      have hcontext : context = s.transport.restarts :=
        Option.some.inj (hsrtp.symm.trans (h.sound.srtp hest))
      have hk' : s.callers.MayEnqueue k (Dtls.stamped s.transport metadata) := hk
      refine ⟨h.sound, h.ordered.put hk' hq, fun j e he => ?_, fun hne => absurd hest hne⟩
      rcases h.ordered.entered hq j with ⟨x, hdata, hmeta, hcont⟩ | hcont
      · rw [hcont, mem_append, mem_singleton] at he
        rcases he with he | rfl
        · exact h.stamped j e he
        -- the packet was encrypted under the context of the present generation
        constructor
        · change x.data ≤ s.transport.restarts
          rw [hdata, hcontext]
        · change x.metadata.transportGeneration = (UInt32.ofNat (x.data + 1)).toNat
          rw [hmeta, hdata, hcontext, ← h.sound.generation hest]
          rfl
      · rw [hcont] at he
        exact h.stamped j e he

lemma Inv.call (h : s.Inv) (hk : s.callers.MayCall k c) : (s.apply (.call k c)).Inv := by
  have hk' := mayCall_guarded hk
  refine ⟨h.sound, h.ordered.call hk', fun j e he => ?_, fun hne j => ?_⟩
  · exact h.stamped j e ((h.ordered.left hk' j).subset he)
  · have hsub := (h.ordered.left hk' j).subset
    rw [h.before hne j] at hsub
    exact subset_nil.1 hsub

/-- **One step** keeps all of it. -/
theorem Inv.apply (h : s.Inv) {op : SubscriberOp κ} (hk : s.Keeps op) : (s.apply op).Inv := by
  cases op with
  | dtls d => exact h.dtls d
  | media nowMs =>
    obtain ⟨hstate, -, -, hrestarts⟩ := keys_apply s (.media nowMs) fun _ => nofun
    refine ⟨h.sound.expirePrevious nowMs, h.ordered, fun k e he => ?_, fun hne => ?_⟩
    · exact ⟨hrestarts ▸ (h.stamped k e he).1, (h.stamped k e he).2⟩
    · exact h.before fun he => hne (hstate.trans he)
  | enqueue k len dst pacingBps metadata allocated nowUs => exact h.enqueue hk
  | call k c => exact h.call hk

lemma inv_run {ops : List (SubscriberOp κ)} (h : Runs.Along apply Keeps init ops) : (run ops).Inv :=
  Runs.run_inv_along apply (I := Inv) (fun _ _ hs hk => hs.apply hk) inv_init h

omit [DecidableEq κ] in
lemma generation_inj {a b : ℕ} (ha : a ≤ b) (hb : b < 2 ^ 32) (hne : a ≠ b) :
    (UInt32.ofNat (a + 1)).toNat ≠ (UInt32.ofNat (b + 1)).toNat := by
  rw [UInt32.toNat_ofNat', UInt32.toNat_ofNat']
  omega

omit [DecidableEq κ] in
lemma Inv.not_entryValid (h : s.Inv) (hb : s.transport.restarts < 2 ^ 32) {e : Entry ℕ}
    (he : e ∈ (s.callers.queues k).toList) (hne : s.transport.srtp ≠ some e.data)
    (alive : Entry ℕ → Bool) : entryValid alive s.transport e = false := by
  have hmem : e.fixed ∈ (s.callers.queues k).contents := mem_map_of_mem he
  have hest : s.transport.state = .established := by
    by_contra hnot
    rw [h.before hnot k] at hmem
    exact absurd hmem not_mem_nil
  obtain ⟨hle, hgen⟩ := h.stamped k e.fixed hmem
  change e.metadata.transportGeneration = (UInt32.ofNat (e.data + 1)).toNat at hgen
  have hdata : e.data ≠ s.transport.restarts := by
    rintro heq
    exact hne (heq ▸ h.sound.srtp hest)
  unfold entryValid
  rw [Bool.and_eq_false_iff, decide_eq_false_iff_not]
  right
  rw [hgen, h.sound.generation hest]
  exact generation_inj hle hb hdata

/-- **A DTLS restart is transactional**, in every state that can be reached. An established
session stays so; its keys are replaced in the one step in which a restart completes, and a
datagram otherwise leaves them alone. With fewer than `2 ^ 32` restarts an entry that was
encrypted under replaced keys is not valid; a drain takes it out as stale, and what a drain sends is
encrypted under the active keys. -/
theorem dtls_restart_transactional (ops : List (SubscriberOp κ))
    (h : Runs.Along apply Keeps init ops) :
    ((run ops).transport.state = .established →
      (∀ op, ((run ops).apply op).transport.state = .established) ∧
      (∀ d, (run ops).transport.restartCompletes d = true →
        ((run ops).transport.handleDtls d).srtp ≠ (run ops).transport.srtp ∧
        ((run ops).transport.handleDtls d).previousSrtp = (run ops).transport.srtp ∧
        ((run ops).transport.handleDtls d).transportGeneration =
          (run ops).transport.transportGeneration + 1 ∧
        ((run ops).transport.handleDtls d).pending = none) ∧
      (∀ d, (run ops).transport.restartCompletes d = false →
        ((run ops).transport.handleDtls d).srtp = (run ops).transport.srtp ∧
        ((run ops).transport.handleDtls d).previousSrtp = (run ops).transport.previousSrtp ∧
        ((run ops).transport.handleDtls d).transportGeneration =
          (run ops).transport.transportGeneration)) ∧
    (∀ op, (∀ d, op ≠ .dtls d) →
      ((run ops).apply op).transport.srtp = (run ops).transport.srtp ∧
      ((run ops).apply op).transport.transportGeneration =
        (run ops).transport.transportGeneration) ∧
    ((run ops).transport.restarts < 2 ^ 32 → ∀ k alive,
      (∀ e ∈ ((run ops).callers.queues k).toList, (run ops).transport.srtp ≠ some e.data →
        entryValid alive (run ops).transport e = false) ∧
      ∀ accepts nowUs remaining,
        let fates := (((run ops).callers.queues k).drain (entryValid alive (run ops).transport)
          accepts nowUs remaining).2
        (∀ e, .sent e ∈ fates → (run ops).transport.srtp = some e.data) ∧
          ∀ f ∈ fates, (run ops).transport.srtp ≠ some f.entry.data → f = .stale f.entry) := by
  have hinv := inv_run h
  refine ⟨fun he => ⟨fun op => established_apply hinv.sound he op, fun d hd => ?_,
    fun d hd => ?_⟩, fun op hop => ⟨(keys_apply _ op hop).2.1, (keys_apply _ op hop).2.2.1⟩,
    fun hb k alive => ?_⟩
  · rcases Transport.handleDtls_established hinv.sound he d with ⟨-, hr⟩ | ⟨hno, -⟩
    · refine ⟨?_, hr.previous, hr.generation, hr.pending⟩
      rw [hr.srtp, hinv.sound.srtp he]
      simp
    · rw [hd] at hno
      cases hno
  · rcases Transport.handleDtls_established hinv.sound he d with ⟨hyes, -⟩ | ⟨-, hs⟩
    · rw [hd] at hyes
      cases hyes
    · exact ⟨hs.srtp, hs.previous, hs.generation⟩
  · refine ⟨fun e hmem hne => hinv.not_entryValid hb hmem hne alive, ?_⟩
    intro accepts nowUs remaining fates
    have hsends : ∀ e, .sent e ∈ fates → (run ops).transport.srtp = some e.data := by
      intro e hsent
      have hvalid := (PacedSend.drain_valid _ _ accepts nowUs remaining).1 hsent
      have hmem : e ∈ ((run ops).callers.queues k).toList := by
        obtain ⟨m, -, hfates, -⟩ := PacedSend.drain_spec (hinv.ordered.wf k)
          (entryValid alive (run ops).transport) accepts nowUs remaining
        have hin := mem_map_of_mem (f := PacedSend.Fate.entry) hsent
        rw [hfates] at hin
        exact mem_of_mem_take hin
      by_contra hne
      rw [hinv.not_entryValid hb hmem hne alive] at hvalid
      cases hvalid
    refine ⟨hsends, fun f hf hne => ?_⟩
    cases f with
    | sent e => exact absurd (hsends e hf) hne
    | stale e => rfl

def clientHello (b : UInt8) : List UInt8 :=
  [22, 254, 253, 0, 0, 0, 0, 0, 0, 0, 0, 0, 46, 1, 0, 0, 34, 0, 0, 0, 0, 0, 0, 0, 34, 254, 253] ++
    List.replicate 32 b

/-- The first handshake; a packet is queued; a restart is begun and finished; another packet is
queued. -/
def restartBetweenPackets : List (SubscriberOp Unit) :=
  let hello (b : UInt8) (nowMs : UInt64) (handshake : FeedStatus) : SubscriberOp Unit :=
    .dtls ⟨clientHello b, nowMs, true, true, handshake, true⟩
  let presented : SubscriberOp Unit := .call () (.admitFramePacket 7 false true false 200000 0)
  let queued : SubscriberOp Unit := .enqueue () 1200 1 1000000 default true 0
  [hello 1 100 .established, presented, queued, hello 2 200 .inProgress,
    .dtls ⟨[22], 300, true, true, .established, true⟩, queued, .call () .finishInputFrame]

/-- The packet under the old keys is stale; the one under the new keys can be sent. -/
theorem dtls_restart_transactional_one :
    Runs.Along apply Keeps init restartBetweenPackets ∧
      (run restartBetweenPackets).transport.srtp = some 1 ∧
      ((run restartBetweenPackets).callers.queues ()).items = [0, 1] ∧
      ∀ alive, ∀ e ∈ ((run restartBetweenPackets).callers.queues ()).toList, e.data = 0 →
        entryValid alive (run restartBetweenPackets).transport e = false :=
  have hkeeps : Runs.Along apply Keeps init restartBetweenPackets := by decide +kernel
  have hsrtp : (run restartBetweenPackets).transport.srtp = some 1 := by decide +kernel
  have hfew : (run restartBetweenPackets).transport.restarts < 2 ^ 32 := by decide +kernel
  ⟨hkeeps, hsrtp, by decide +kernel, fun alive e he h0 =>
    ((dtls_restart_transactional restartBetweenPackets hkeeps).2.2 hfew () alive).1 e he
      (by rw [hsrtp, h0]; decide)⟩

end Subscriber

end MezonSfu.Dtls
