import MezonSfu.RoomLeave

/-!
Publishers and subscribers of a room, over whole runs.

The operations of the room are interleaved with what else happens to its sessions: tracks are
negotiated and observed, and offers are captured, installed and answered.
-/

namespace MezonSfu.RoomGraph

open RemoteSlots

/-! ### Runs -/

/-- One call under the room's lock, or a change of one session beside it. A manifest is whatever
the session was given. -/
inductive Op where
  | addPeer (peer : SessionId) (o : AddOutcome)
  | removePeer (peer : SessionId)
  | updatePeerRole (peer : SessionId) (isAudience : Bool)
  | refreshPeerStreams (peer : SessionId)
  | setPeerPttActive (peer : SessionId) (active : Bool)
  | media (peer : SessionId) (m : Media)
  | capture (peer : SessionId) (addr : ℕ)
  | install (peer : SessionId) (m : OfferManifest)
  | applyAnswer (peer : SessionId) (m : OfferManifest)

def Graph.onSlots (g : Graph) (peer : SessionId) (f : SlotTable → SlotTable) : Graph :=
  g.modify peer fun s => { s with remoteSlots := f s.remoteSlots }

/-- Past the point of admission, allocations succeed. -/
def step (g : Graph) : Op → Graph
  | .addPeer peer o => (g.addPeerResult peer o).1
  | .removePeer peer => g.removePeer peer .well
  | .updatePeerRole peer isAudience => (g.updatePeerRole peer isAudience .well).1
  | .refreshPeerStreams peer => (g.refreshPeerStreams peer .well).1
  | .setPeerPttActive peer active => (g.setPeerPttActive peer active .well).1
  | .media peer m => g.modify peer fun s => { s with media := m }
  | .capture peer addr => g.onSlots peer fun t => (remoteOfferCapture t addr).1
  | .install peer m => g.onSlots peer fun t => (remoteOfferInstall t m).1
  | .applyAnswer peer m => g.onSlots peer fun t => (remoteOfferApplyAnswer t m).1

def JoinsDistinct (g : Graph) : Op → Prop
  | .addPeer peer _ =>
    ∀ q ∈ g.members, q ≠ peer → (g.session q).peerId ≠ (g.session peer).peerId
  | _ => True

instance (g : Graph) (op : Op) : Decidable (JoinsDistinct g op) := by
  cases op <;> (unfold JoinsDistinct; infer_instance)

structure Fresh (g : Graph) : Prop where
  room : ∃ roomId, g.room = .init roomId
  session : ∀ p, (g.session p).room = none ∧ (g.session p).receivers = .empty ∧
    (g.session p).fanoutBundle = .empty ∧ (g.session p).remoteSlots = .init ∧
    (g.session p).acceptsWork = true

structure Running (g : Graph) : Prop where
  coherent : Coherent g
  work : ∀ q, (g.session q).acceptsWork = true

variable {g : Graph}

lemma Fresh.running (h : Fresh g) : Running g := by
  obtain ⟨⟨roomId, hroom⟩, hsession⟩ := h
  have hnone : ∀ p, ¬ g.Member p := fun p => not_member_of_none (hsession p).1
  refine ⟨⟨⟨seated_init ⟨roomId, hroom⟩ fun p => (hsession p).1, ?_, ?_, ?_, ?_⟩, ?_, ?_⟩,
    fun q => (hsession q).2.2.2.2⟩
  · intro p q hp
    exact absurd hp (hnone p)
  · intro p hp
    exact absurd hp (hnone p)
  · intro p s hp
    exact absurd hp (hnone p)
  · intro p _
    obtain ⟨-, hrecv, hfan, hslots, -⟩ := hsession p
    refine ⟨by rw [hrecv]; rfl, by rw [hfan]; rfl, ?_⟩
    rw [hslots]
    funext i
    exact assigned_of_not_active SlotState.noConfusion
  · intro p hp
    exact absurd hp (hnone p)
  · intro p i r hp
    exact absurd hp (hnone p)

lemma Running.onSlots (h : Running g) (peer : SessionId) (f : SlotTable → SlotTable)
    (hf : ∀ t, (f t).assigned = t.assigned) : Running (g.onSlots peer f) := by
  unfold Graph.onSlots
  constructor
  · apply h.coherent.of_alike
    refine ⟨rfl, rfl, ?_⟩
    intro p
    by_cases hp : p = peer
    · rw [hp, modify_self]
      exact ⟨_, hf _, rfl⟩
    · rw [modify_of_ne hp]
      exact ⟨_, rfl, rfl⟩
  · intro q
    by_cases hq : q = peer
    · rw [hq, modify_self]
      exact h.work peer
    · rw [modify_of_ne hq]
      exact h.work q

lemma Running.step (h : Running g) (op : Op) (hc : JoinsDistinct g op) : Running (step g op) := by
  cases op with
  | addPeer peer o =>
    have hids : ∀ q, g.Member q → q ≠ peer →
        (g.session q).peerId ≠ (g.session peer).peerId := by
      intro q hq
      exact hc q (h.coherent.seated.mem_members.2 hq)
    obtain ⟨hcoherent, hsame⟩ := h.coherent.addPeerResult hids o
    exact ⟨hcoherent, fun q => (hsame q).trans (h.work q)⟩
  | removePeer peer =>
    obtain ⟨hcoherent, hsame⟩ := h.coherent.removePeer peer
    exact ⟨hcoherent, fun q => (hsame q).trans (h.work q)⟩
  | updatePeerRole peer isAudience =>
    obtain ⟨hcoherent, hsame⟩ := h.coherent.updatePeerRole peer h.work isAudience
    exact ⟨hcoherent, fun q => (hsame q).trans (h.work q)⟩
  | refreshPeerStreams peer =>
    obtain ⟨hcoherent, hsame⟩ := h.coherent.refreshPeerStreams peer h.work
    exact ⟨hcoherent, fun q => (hsame q).trans (h.work q)⟩
  | setPeerPttActive peer active =>
    obtain ⟨hcoherent, hsame⟩ := h.coherent.setPeerPttActive peer h.work active
    exact ⟨hcoherent, fun q => (hsame q).trans (h.work q)⟩
  | media peer m =>
    refine ⟨h.coherent.modify_media fun _ => m, ?_⟩
    intro q
    exact (modify_media_field (fun _ => m) Session.acceptsWork).trans (h.work q)
  | capture peer addr => exact h.onSlots peer (fun t => (remoteOfferCapture t addr).1) fun _ => rfl
  | install peer m => exact h.onSlots peer _ fun _ => assigned_install m
  | applyAnswer peer m => exact h.onSlots peer _ fun _ => assigned_applyAnswer m

/-! ### Duality -/

/-- `p` has a route to `s`, in cell `i` of its bundle. -/
def Graph.Routes (g : Graph) (p s : SessionId) (i : ℕ) (r : FanoutRoute) : Prop :=
  (g.session p).fanoutBundle.cells i = some r ∧ r.subscriber = s

/-- `s` has an entry for `p`, in cell `i` of its snapshot. -/
def Graph.Receives (g : Graph) (s p : SessionId) (i : ℕ) (e : ReceiverEntry) : Prop :=
  (g.session s).receivers.cells i = some e ∧ e.subscriber = p

/-- What holds of a publisher `p` and a subscriber `s`. -/
structure Dual (g : Graph) (p s : SessionId) : Prop where
  route_iff_entry : (∃ i r, g.Routes p s i r) ↔ ∃ i e, g.Receives s p i e
  same : ∀ i r j e, g.Routes p s i r → g.Receives s p j e →
    r.remoteSlot = e.remoteSlot ∧ r.assignmentGeneration = e.assignmentGeneration
  active : ∀ j e, g.Receives s p j e → (g.session s).remoteSlots.slots e.remoteSlot =
    ⟨.active, (g.session p).userId, (g.session p).peerId, e.assignmentGeneration⟩
  one : ∀ j k e e', g.Receives s p j e → g.Receives s p k e' → j = k
  apart : ∀ j k e e' p', g.Receives s p j e → g.Receives s p' k e' → p' ≠ p →
    e'.remoteSlot ≠ e.remoteSlot
  listener : (g.session p).isAudience = true → ∀ i r, g.Routes p s i r →
    r.eligible.video = false ∧ r.eligible.screen = false

lemma Coherent.dual_pair (h : Coherent g) {p s : SessionId} (hp : g.Member p)
    (hs : g.Member s) : Dual g p s := by
  have hlp := h.linked p hp
  have hls := h.linked s hs
  have hroute : ∀ a, (g.session p).routeView s = some a ↔
      ∃ i r, g.Routes p s i r ∧ (r.remoteSlot, r.assignmentGeneration) = a := by
    intro a
    unfold Session.routeView bundleView Graph.Routes
    rw [hlp.bundle.view_eq_some]
    simp only [and_assoc]
  have hentry : ∀ a, (g.session s).entryView p = some a ↔
      ∃ i e, g.Receives s p i e ∧ (e.remoteSlot, e.assignmentGeneration) = a := by
    intro a
    unfold Session.entryView snapView Graph.Receives
    rw [hls.receivers.view_eq_some]
    simp only [and_assoc]
  have hdual := h.dual p s hp hs
  constructor
  · constructor
    · rintro ⟨i, r, hr⟩
      have hview := (hroute _).2 ⟨i, r, hr, rfl⟩
      rw [hdual, hentry] at hview
      obtain ⟨j, e, he, -⟩ := hview
      exact ⟨j, e, he⟩
    · rintro ⟨j, e, he⟩
      have hview := (hentry _).2 ⟨j, e, he, rfl⟩
      rw [← hdual, hroute] at hview
      obtain ⟨i, r, hr, -⟩ := hview
      exact ⟨i, r, hr⟩
  · intro i r j e hr he
    have hview := (hroute _).2 ⟨i, r, hr, rfl⟩
    rw [hdual, (hentry _).2 ⟨j, e, he, rfl⟩] at hview
    obtain ⟨h1, h2⟩ : _ ∧ _ := by simpa using hview
    exact ⟨h1.symm, h2.symm⟩
  · rintro j e ⟨hcell, hsub⟩
    have hok := hls.entry j e hcell
    rw [← assigned_eq_some, h.table s hs, hok.slot, tags, hcell, Option.map_some, hok.userId,
      hok.peerId, hsub]
  · rintro j k e e' ⟨hj, hsub⟩ ⟨hk, hsub'⟩
    exact hls.receivers.inj j k e e' hj hk (by rw [hsub, hsub'])
  · rintro j k e e' p' ⟨hj, hsub⟩ ⟨hk, hsub'⟩ hne heq
    rw [(hls.entry j e hj).slot, (hls.entry k e' hk).slot] at heq
    rw [heq, hj, Option.some.injEq] at hk
    exact hne (by rw [← hsub', ← hk, hsub])
  · rintro ha i r ⟨hcell, -⟩
    exact h.audience p i r hp ha hcell

lemma Fresh.running_run {g₀ : Graph} (h₀ : Fresh g₀) {ops : List Op}
    (hids : Runs.Along step JoinsDistinct g₀ ops) : Running (Runs.run step g₀ ops) :=
  Runs.run_inv_along step (I := Running) (fun _ op h hc => h.step op hc) h₀.running hids

/-- **Publisher/subscriber duality.** Whatever happened in a room that was empty at first, the
routes of each member are the entries of the others, with the same slots and generations; those
slots are active for the publisher; a member has one entry and one slot per publisher; and no
route of a listener carries camera or screen. -/
theorem graph_duality (g₀ : Graph) (h₀ : Fresh g₀) (ops : List Op)
    (hids : Runs.Along step JoinsDistinct g₀ ops) (p s : SessionId)
    (hp : (Runs.run step g₀ ops).Member p) (hs : (Runs.run step g₀ ops).Member s) :
    Dual (Runs.run step g₀ ops) p s :=
  (h₀.running_run hids).coherent.dual_pair hp hs

def Media.idle : Media :=
  let off : Transceiver := ⟨0, 0, 0, 0, .none, false⟩
  ⟨off, off, off, false, false, false, false, false, false, false, false, false⟩

/-- Sessions as they are before they join; the address serves as both ids. -/
def newSession (isAudience : Bool) (p : SessionId) : Session :=
  { userId := p, peerId := p, isAudience, acceptsWork := true, room := none
    roomSlot := noRoomSlot, media := .idle, receivers := .empty, fanoutBundle := .empty
    remoteSlots := .init }

/-- An empty room that session 3 will join as a listener. -/
def newRoom : Graph := ⟨.init 7, fun p => newSession (p = 3) p, ⟨true, 0, 0⟩⟩

theorem graph_duality_two :
    let ops := [Op.addPeer 1 .well, .addPeer 3 .well, .updatePeerRole 3 false]
    let g := Runs.run step newRoom ops
    (g.Member 1 ∧ g.Member 3 ∧ Runs.Along step JoinsDistinct newRoom ops) ∧
      (g.session 3).routeView 1 = some (0, 1) ∧ Dual g 1 3 ∧ Dual g 3 1 := by
  have hcond : let ops := [Op.addPeer 1 .well, .addPeer 3 .well, .updatePeerRole 3 false]
      let g := Runs.run step newRoom ops
      g.Member 1 ∧ g.Member 3 ∧ Runs.Along step JoinsDistinct newRoom ops := by decide +kernel
  have hfresh : Fresh newRoom := ⟨⟨7, rfl⟩, fun p => ⟨rfl, rfl, rfl, rfl, rfl⟩⟩
  obtain ⟨h1, h3, hids⟩ := hcond
  exact ⟨⟨h1, h3, hids⟩, by decide +kernel, graph_duality newRoom hfresh _ hids 1 3 h1 h3,
    graph_duality newRoom hfresh _ hids 3 1 h3 h1⟩

/-- **No slot outlives its publisher.** Whatever happened in the room, a session that is in no room
has no active slot, and an active slot of a member is the one of its entry for another member. -/
theorem slots_not_leaked (g₀ : Graph) (h₀ : Fresh g₀) (ops : List Op)
    (hids : Runs.Along step JoinsDistinct g₀ ops) (s : SessionId) (i : ℕ)
    (hi : (((Runs.run step g₀ ops).session s).remoteSlots.slots i).state = .active) :
    let g := Runs.run step g₀ ops
    (g.session s).room ≠ none ∧ (g.Member s → ∃ p e, g.Member p ∧ p ≠ s ∧ g.Receives s p i e ∧
      (g.session s).remoteSlots.slots i =
        ⟨.active, (g.session p).userId, (g.session p).peerId, e.assignmentGeneration⟩) := by
  intro g
  have h := (h₀.running_run hids).coherent
  generalize hslot : (g.session s).remoteSlots.slots i = slot at *
  obtain ⟨state, userId, peerId, generation⟩ := slot
  obtain rfl : state = .active := hi
  have hassigned := assigned_eq_some.2 hslot
  refine ⟨fun hroom => ?_, fun hs => ?_⟩
  · rw [(h.outside s hroom).assigned] at hassigned
    cases hassigned
  rw [h.table s hs, tags, Option.map_eq_some_iff] at hassigned
  obtain ⟨e, hcell, heq⟩ := hassigned
  have hok := (h.linked s hs).entry i e hcell
  cases heq
  exact ⟨e.subscriber, e, hok.member, hok.ne, ⟨hcell, rfl⟩, by rw [hok.userId, hok.peerId]⟩

theorem slots_not_leaked_two :
    let g := Runs.run step newRoom [.addPeer 1 .well, .addPeer 3 .well, .updatePeerRole 3 false]
    ∃ p e, g.Member p ∧ p ≠ 1 ∧ g.Receives 1 p 0 e :=
  have hfresh : Fresh newRoom := ⟨⟨7, rfl⟩, fun _ => ⟨rfl, rfl, rfl, rfl, rfl⟩⟩
  have ⟨p, e, hp, hne, he, _⟩ := (slots_not_leaked newRoom hfresh _ (by decide +kernel) 1 0
    (by decide +kernel)).2 (by decide +kernel)
  ⟨p, e, hp, hne, he⟩

end MezonSfu.RoomGraph
