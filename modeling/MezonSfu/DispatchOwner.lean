import MezonSfu.Dispatch

/-!
Does the dispatcher send an established peer's media to the worker that owns its session? The
cache forgets an address when another one takes its slot, and a check that does not move the
owner still rewrites the cache, so not in every run. It does in every run in which neither
happens to a session with an owner.
-/

namespace MezonSfu.Dispatch

open Binding Function Option

variable {Addr Ufrag : Type} [DecidableEq Addr]

def mediaWorker (cfg : Config Addr) (cache : Affinity Addr) (addr : Addr) : ℕ :=
  if cfg.workerCount = 0 then 0 else (cacheHit cfg cache addr).getD (cfg.fallback addr)

lemma selectWorker_other (cfg : Config Addr) (b : Bindings Addr Ufrag) (cache : Affinity Addr)
    (addr : Addr) : (selectWorker cfg b cache addr .other).2 = mediaWorker cfg cache addr := by
  unfold selectWorker mediaWorker
  split
  · rfl
  · cases cacheHit cfg cache addr <;> rfl

lemma cacheHit_store_self (cfg : Config Addr) (cache : Affinity Addr) (addr : Addr) (worker : ℕ) :
    cacheHit cfg (cacheStore cfg cache addr worker) addr = some worker := by
  simp [cacheHit, cacheStore]

variable {addr other : Addr} {k worker : ℕ} {b b' b1 b2 : Bindings Addr Ufrag} {u : Ufrag}
  {s t : Session Addr} {r : Rebind} {stun : Stun Ufrag} {applied : Bool} {e : RoutingEntry}
  {w : World Addr Ufrag} {cfg : Config Addr}

section

variable (cfg : Config Addr)

/-- An entry in another slot stays; one in the same slot is forgotten. -/
lemma cacheHit_store_of_ne (cache : Affinity Addr) (worker : ℕ) (h : other ≠ addr) :
    cacheHit cfg (cacheStore cfg cache addr worker) other =
      if cfg.slot other = cfg.slot addr then none else cacheHit cfg cache other := by
  unfold cacheHit cacheStore
  by_cases hslot : cfg.slot other = cfg.slot addr
  · rw [if_pos hslot, hslot, update_self]
    simp [h.symm]
  · rw [if_neg hslot, update_of_ne hslot]

variable (b : Bindings Addr Ufrag)

variable (cache : Affinity Addr)

lemma selectWorker_cases (addr : Addr) (kind : Kind Ufrag) :
    let pick := selectWorker cfg b cache addr kind
    pick.1 = cache ∧ pick.2 = mediaWorker cfg cache addr ∨
      cfg.workerCount ≠ 0 ∧ pick.1 = cacheStore cfg cache addr pick.2 := by
  unfold selectWorker mediaWorker
  by_cases hn : cfg.workerCount = 0
  · rw [if_pos hn, if_pos hn]
    exact .inl ⟨rfl, rfl⟩
  rw [if_neg hn, if_neg hn]
  cases kind with
  | stun ufrag => exact .inr ⟨hn, rfl⟩
  | other =>
    cases hhit : cacheHit cfg cache addr with
    | some worker => exact .inl ⟨rfl, rfl⟩
    | none => exact .inr ⟨hn, rfl⟩

lemma mediaWorker_self (addr : Addr) (kind : Kind Ufrag) :
    mediaWorker cfg (selectWorker cfg b cache addr kind).1 addr =
      (selectWorker cfg b cache addr kind).2 := by
  rcases selectWorker_cases cfg b cache addr kind with ⟨hcache, hworker⟩ | ⟨hn, hcache⟩
  · rw [hcache, hworker]
  · rw [mediaWorker, if_neg hn, hcache, cacheHit_store_self]
    rfl

/-- After a pick for another address, an address keeps its worker, unless it lost its slot and its
worker was not the fallback. -/
lemma mediaWorker_other
    (kind : Kind Ufrag) (hne : other ≠ addr) (hk : mediaWorker cfg cache other = k)
    (hslot : cfg.slot other = cfg.slot addr → cfg.fallback other = k) :
    mediaWorker cfg (selectWorker cfg b cache addr kind).1 other = k := by
  rcases selectWorker_cases cfg b cache addr kind with ⟨hcache, -⟩ | ⟨hn, hcache⟩
  · rw [hcache, hk]
  rw [mediaWorker, if_neg hn, hcache, cacheHit_store_of_ne cfg cache _ hne]
  rw [mediaWorker, if_neg hn] at hk
  split
  · rename_i hs
    exact hslot hs
  · exact hk

end

/-! ### What a check does to the sessions -/

def Indexed (b : Bindings Addr Ufrag) : Prop :=
  ∀ u s, b.sessions u = some s → b.addrIndex s.addr = some u

omit [DecidableEq Addr] in
lemma Indexed.inj (h : Indexed b) {v : Ufrag} (hu : b.sessions u = some s)
    (hv : b.sessions v = some t) (haddr : s.addr = t.addr) : u = v := by
  have h1 := h u s hu
  have h2 := h v t hv
  rw [haddr, h2] at h1
  exact (some.inj h1).symm

/-- The fields that say where a session is and who owns it. -/
def SameOwner (s t : Session Addr) : Prop :=
  t.addr = s.addr ∧ t.owner = s.owner ∧ t.rebound = s.rebound

/-- What a check from an address may do to a session: leave its owner and address, settle it on
the worker at that address, or leave it without a settled owner. -/
def Settled (b : Bindings Addr Ufrag) (worker : ℕ) (addr : Addr) (u : Ufrag) (t : Session Addr) :
    Prop :=
  (∃ s, b.sessions u = some s ∧ SameOwner s t) ∨ (t.addr = addr ∧ t.owner = some worker) ∨
    t.rebound = true ∨ t.owner = none

/-- In the middle of a check: the session `s` of `u` is in the table, the others are as before. -/
structure Mid (b b' : Bindings Addr Ufrag) (u : Ufrag) (s : Session Addr) : Prop where
  current : b'.sessions u = some s
  others : ∀ v ≠ u, b'.sessions v = b.sessions v
  indexed : Indexed b'
  state : (∃ r, b.sessions u = some r ∧ SameOwner r s) ∨ s.rebound = true ∨ s.owner = none

omit [DecidableEq Addr] in
lemma Mid.settled (h : Mid b b' u s) (worker : ℕ) (addr : Addr) :
    Indexed b' ∧ ∀ v t, b'.sessions v = some t → Settled b worker addr v t := by
  refine ⟨h.indexed, fun v t hv => ?_⟩
  by_cases huv : v = u
  · subst huv
    rw [h.current] at hv
    cases hv
    rcases h.state with hr | hreb | hown
    · exact .inl hr
    · exact .inr (.inr (.inl hreb))
    · exact .inr (.inr (.inr hown))
  · rw [h.others v huv] at hv
    exact .inl ⟨t, hv, rfl, rfl, rfl⟩

variable [DecidableEq Ufrag]

omit [DecidableEq Addr] in
lemma Indexed.update (h : Indexed b) (hu : b.sessions u = some s) (haddr : t.addr = s.addr)
    (hsessions : b'.sessions = update b.sessions u (some t))
    (hindex : b'.addrIndex = b.addrIndex) : Indexed b' := by
  intro v r hv
  rw [hsessions] at hv
  rw [hindex]
  obtain ⟨rfl, ⟨⟩⟩ | ⟨huv, hv⟩ := update_cases hv
  · rw [haddr]
    exact h v s hu
  · exact h v r hv

omit [DecidableEq Addr] in
lemma Mid.update (h : Mid b b1 u s) (hst : SameOwner s t)
    (hsessions : b2.sessions = update b1.sessions u (some t))
    (hindex : b2.addrIndex = b1.addrIndex) : Mid b b2 u t := by
  refine ⟨?_, ?_, h.indexed.update h.current hst.1 hsessions hindex, ?_⟩
  · rw [hsessions, update_self]
  · intro v hv
    rw [hsessions, update_of_ne hv]
    exact h.others v hv
  · obtain ⟨haddr, hown, hreb⟩ := hst
    rcases h.state with ⟨r, hr, h1, h2, h3⟩ | hreb' | hown'
    · exact .inl ⟨r, hr, haddr.trans h1, hown.trans h2, hreb.trans h3⟩
    · exact .inr (.inl (hreb.trans hreb'))
    · exact .inr (.inr (hown.trans hown'))

lemma mid_stunSession (hidx : Indexed b) (h : stunSession b addr u stun = (b', some s, r)) :
    Mid b b' u s ∧ (stun.nominated → s.addr = addr) := by
  have hnew : b.addrIndex addr = none → ∀ v t, b.sessions v = some t → t.addr ≠ addr := by
    rintro hfree v t hv rfl
    rw [hidx v t hv] at hfree
    cases hfree
  rcases stunSession_cases b addr u stun with ⟨r', h'⟩ | ⟨s', hs, hnom, h'⟩ |
    ⟨s', hs, hne, hfree, h'⟩ | ⟨hnone, hfree, h'⟩
  · rw [h'] at h
    simp at h
  · rw [h'] at h
    cases h
    exact ⟨⟨hs, fun _ _ => rfl, hidx, .inl ⟨s, hs, rfl, rfl, rfl⟩⟩, hnom⟩
  · rw [h'] at h
    cases h
    refine ⟨⟨update_self .., fun v hv => update_of_ne hv .., ?_, .inr (.inl rfl)⟩, fun _ => rfl⟩
    intro v t hv
    simp only [Bindings.moved, Bindings.setSession] at hv ⊢
    obtain ⟨rfl, ⟨⟩⟩ | ⟨huv, hv⟩ := update_cases hv
    · exact update_self ..
    · -- the other sessions are neither at the new address nor at the old one
      have hold : t.addr ≠ s'.addr := fun heq => huv (hidx.inj hv hs heq)
      rw [update_of_ne (hnew hfree v t hv), update_of_ne hold]
      exact hidx v t hv
  · rw [h'] at h
    cases h
    refine ⟨⟨update_self .., fun v hv => update_of_ne hv .., ?_, .inr (.inr rfl)⟩, fun _ => rfl⟩
    intro v t hv
    simp only [Bindings.added, Bindings.setSession] at hv ⊢
    obtain ⟨rfl, ⟨⟩⟩ | ⟨huv, hv⟩ := update_cases hv
    · exact update_self ..
    · rw [update_of_ne (hnew hfree v t hv)]
      exact hidx v t hv

section

omit [DecidableEq Addr]

lemma mid_stunReconcile (h : Mid b b1 u s) (hrec : stunReconcile b1 u e s stun = (b2, t, applied)) :
    Mid b b2 u t ∧ SameOwner s t ∧ t.established = s.established ∧ t.room = s.room := by
  unfold stunReconcile at hrec
  split at hrec
  · rename_i b' s' hsome
    cases hrec
    obtain ⟨e', -, -, -, -, -, -, ht, hb⟩ := reconcileAnswer_cases hsome
    have hsame : SameOwner s t := by
      subst ht
      exact ⟨rfl, rfl, rfl⟩
    refine ⟨h.update hsame (by rw [hb]; rfl) (by rw [hb]; rfl), hsame, ?_, ?_⟩
    · rw [ht]
    · rw [ht]
  · cases hrec
    exact ⟨h, ⟨rfl, rfl, rfl⟩, rfl, rfl⟩

lemma mid_stunPublish (h : Mid b b1 u s) (hpub : stunPublish b1 u e s applied stun = (b2, some t)) :
    Mid b b2 u t ∧ SameOwner s t ∧ t.established = s.established := by
  rcases stunPublish_cases b1 u e s applied stun with ⟨h', -⟩ | h' | ⟨-, -, h'⟩
  · rw [h'] at hpub
    simp at hpub
  · rw [h'] at hpub
    cases hpub
    exact ⟨h, ⟨rfl, rfl, rfl⟩, rfl⟩
  · rw [h'] at hpub
    cases hpub
    exact ⟨h.update ⟨rfl, rfl, rfl⟩ rfl rfl, ⟨rfl, rfl, rfl⟩, rfl⟩

lemma settled_stunOwner (h : Mid b b1 u s) (hnom : stun.nominated → s.addr = addr) :
    Indexed (stunOwner b1 u s r worker stun) ∧
      ∀ v t, (stunOwner b1 u s r worker stun).sessions v = some t →
        Settled b worker addr v t := by
  unfold stunOwner
  split
  · rename_i hcond
    refine ⟨h.indexed.update (t := { s with owner := some worker, rebound := false })
      h.current rfl rfl rfl, fun v t hv => ?_⟩
    obtain ⟨-, ⟨⟩⟩ | ⟨huv, hv⟩ := update_cases hv
    · exact .inr (.inl ⟨hnom hcond.1, rfl⟩)
    · exact .inl ⟨t, (h.others v huv).symm.trans hv, rfl, rfl, rfl⟩
  · exact h.settled worker addr

lemma settled_stunBound (h : Mid b b1 u s) (hnom : stun.nominated → s.addr = addr) :
    Indexed (stunBound b1 u e s r worker stun) ∧
      ∀ v t, (stunBound b1 u e s r worker stun).sessions v = some t →
        Settled b worker addr v t := by
  unfold stunBound
  rcases hrec : stunReconcile b1 u e s stun with ⟨b2, t, applied⟩
  obtain ⟨hmid, hst, -, -⟩ := mid_stunReconcile h hrec
  dsimp only
  rcases hpub : stunPublish b2 u e t applied stun with ⟨b3, o⟩
  cases o with
  | none =>
    rcases stunPublish_cases b2 u e t applied stun with ⟨h', -⟩ | h' | ⟨-, -, h'⟩ <;>
      rw [h'] at hpub <;> cases hpub
    exact hmid.settled worker addr
  | some t' =>
    obtain ⟨hmid', hst', -⟩ := mid_stunPublish hmid hpub
    refine settled_stunOwner hmid' fun hn => ?_
    rw [hst'.1, hst.1]
    exact hnom hn

end

/-- **A whole check** keeps the index by address, and settles a session or leaves it. -/
lemma settled_handleStun (hidx : Indexed b) (worker : ℕ) (addr : Addr) (stun : Stun Ufrag) :
    Indexed (handleStun b worker addr stun) ∧
      ∀ v t, (handleStun b worker addr stun).sessions v = some t →
        Settled b worker addr v t := by
  have hsame : Indexed b ∧ ∀ v t, b.sessions v = some t → Settled b worker addr v t :=
    ⟨hidx, fun v t hv => .inl ⟨t, hv, rfl, rfl, rfl⟩⟩
  unfold handleStun
  split
  · exact hsame
  rename_i u hu
  split
  · cases hroute : b.routes u with
    | none =>
      simp only [lookupRoute, hroute]
      exact hsame
    | some e =>
      -- the route is rewritten; the sessions are those of `b`
      simp only [lookupRoute, hroute]
      set b1 := b.setRoute u { e with workerIndex := worker, hasOwner := true }
      have hidx1 : Indexed b1 := hidx
      rcases hsess : stunSession b1 addr u stun with ⟨b2, o, r⟩
      cases o with
      | none =>
        rcases stunSession_cases b1 addr u stun with ⟨r', h'⟩ | ⟨s', -, -, h'⟩ |
          ⟨s', -, -, -, h'⟩ | ⟨-, -, h'⟩ <;> rw [h'] at hsess <;> cases hsess
        exact hsame
      | some s =>
        obtain ⟨hmid, hnom⟩ := mid_stunSession hidx1 hsess
        exact settled_stunBound (b := b1) hmid hnom
  · exact hsame

/-- A check that moves the owner: nominated, from the session's own address, before the session
is established, and for the room it is in. -/
def Transfers (b : Bindings Addr Ufrag) (u : Ufrag) (s : Session Addr) (stun : Stun Ufrag) : Prop :=
  stun.ufrag = some u ∧ stun.authentic = true ∧ stun.nominated = true ∧
    stun.registered = true ∧ s.established = false ∧ ∃ e ∈ b.routes u, s.room = some e.room

lemma owner_of_transfers (hidx : Indexed b) (hu : b.sessions u = some s)
    (htr : Transfers b u s stun) (ht : (handleStun b worker s.addr stun).sessions u = some t) :
    t.owner = some worker := by
  obtain ⟨hname, hauth, hnom, hreg, hest, e, hroute, hroom⟩ := htr
  have hroute : b.routes u = some e := hroute
  unfold handleStun at ht
  simp only [hname, hauth, if_true, lookupRoute, hroute] at ht
  set b1 := b.setRoute u { e with workerIndex := worker, hasOwner := true } with hb1
  have hidx1 : Indexed b1 := hidx
  have hu1 : b1.sessions u = some s := hu
  have hsess : stunSession b1 s.addr u stun = (b1, some s, .unchanged) := by
    simp [stunSession, hnom, getOrCreateByUfrag, hu1]
  rw [hsess] at ht
  dsimp only at ht
  have hmid := (mid_stunSession hidx1 hsess).1
  unfold stunBound at ht
  rcases hrec : stunReconcile b1 u { e with workerIndex := worker, hasOwner := true } s stun with
    ⟨b2, s2, applied⟩
  obtain ⟨hmid2, hsame, hest2, hroom2⟩ := mid_stunReconcile hmid hrec
  rw [hrec] at ht
  -- the session is in the room of the route, so publishing passes it on
  have hpub : stunPublish b2 u { e with workerIndex := worker, hasOwner := true } s2 applied
      stun = (b2, some s2) := by
    simp [stunPublish, hroom2, hroom]
  dsimp only at ht
  rw [hpub] at ht
  have hcond : stun.nominated ∧
      (Rebind.unchanged = Rebind.applied ∨ s2.established = false ∨ s2.owner = none) ∧
      (s2.owner = some worker ∨ stun.registered) :=
    ⟨hnom, .inr (.inl (hest2.trans hest)), .inr hreg⟩
  simp only [stunOwner, if_pos hcond, Bindings.setSession, update_self, some.injEq] at ht
  rw [← ht]

/-! ### The agreement -/

/-- A session with an owner that has not been moved since. -/
structure Owned (b : Bindings Addr Ufrag) (u : Ufrag) (s : Session Addr) (k : ℕ) : Prop where
  session : b.sessions u = some s
  owner : s.owner = some k
  settled : s.rebound = false

/-- The index by address is right, and media of every owned session goes to its owner. -/
structure Good (cfg : Config Addr) (w : World Addr Ufrag) : Prop where
  indexed : Indexed w.bindings
  agrees : ∀ u s k, Owned w.bindings u s k → mediaWorker cfg w.cache s.addr = k

section

variable (cfg : Config Addr)

/-- No owned session loses its cache slot to the address, unless its owner is the worker that its
own hash names. -/
def KeepsSlots (w : World Addr Ufrag) (addr : Addr) : Prop :=
  ∀ u, ∀ s ∈ w.bindings.sessions u, ∀ k ∈ s.owner, s.rebound = false → s.addr ≠ addr →
    cfg.slot s.addr = cfg.slot addr → cfg.fallback s.addr = k

/-- A route that asks for no other worker than `k`. -/
def RouteKeeps (b : Bindings Addr Ufrag) (e : RoutingEntry) (k : ℕ) : Prop :=
  (b.peerCount e.room ≤ smallRoomAffinityMax → cfg.roomHash e.room % cfg.workerCount = k) ∧
    (smallRoomAffinityMax < b.peerCount e.room → e.hasOwner = true →
      e.workerIndex < cfg.workerCount → e.workerIndex = k)

/-- A check from the address of an owned session moves the owner, or its route does not ask for
another worker. -/
def KeepsOwner (w : World Addr Ufrag) (addr : Addr) (stun : Stun Ufrag) : Prop :=
  ∀ u, ∀ s ∈ w.bindings.sessions u, ∀ k ∈ s.owner, s.rebound = false → s.addr = addr →
    Transfers w.bindings u s stun ∨
      ∀ v ∈ stun.ufrag, ∀ e ∈ w.bindings.routes v, RouteKeeps cfg w.bindings e k

def StepOk (w : World Addr Ufrag) : Op Addr Ufrag → Prop
  | .packet addr => KeepsSlots cfg w addr
  | .stun addr check => KeepsSlots cfg w addr ∧ KeepsOwner cfg w addr check
  | _ => True

end

instance (b : Bindings Addr Ufrag) (u : Ufrag) (s : Session Addr) (stun : Stun Ufrag) :
    Decidable (Transfers b u s stun) := by
  unfold Transfers; infer_instance

instance [Fintype Ufrag] (cfg : Config Addr) (w : World Addr Ufrag) (addr : Addr) :
    Decidable (KeepsSlots cfg w addr) := by
  unfold KeepsSlots; infer_instance

instance (cfg : Config Addr) (b : Bindings Addr Ufrag) (e : RoutingEntry) (k : ℕ) :
    Decidable (RouteKeeps cfg b e k) := by
  unfold RouteKeeps; infer_instance

instance [Fintype Ufrag] (cfg : Config Addr) (w : World Addr Ufrag) (addr : Addr)
    (stun : Stun Ufrag) : Decidable (KeepsOwner cfg w addr stun) := by
  unfold KeepsOwner; infer_instance

instance [Fintype Ufrag] (cfg : Config Addr) (w : World Addr Ufrag) (op) :
    Decidable (StepOk cfg w op) := by
  cases op <;> (unfold StepOk; infer_instance)

omit [DecidableEq Ufrag] in
lemma good_init (cfg : Config Addr) : Good cfg (World.init : World Addr Ufrag) := by
  constructor
  · intro u s h
    simp [World.init, Bindings.empty] at h
  · intro u s k h
    have hs := h.session
    simp [World.init, Bindings.empty] at hs

omit [DecidableEq Ufrag] in
lemma selectWorker_stun (hk : mediaWorker cfg w.cache addr = k)
    (hroute : ∀ v ∈ stun.ufrag, ∀ e ∈ w.bindings.routes v, RouteKeeps cfg w.bindings e k) :
    (selectWorker cfg w.bindings w.cache addr (.stun stun.ufrag)).2 = k := by
  unfold selectWorker
  unfold mediaWorker at hk
  by_cases hn : cfg.workerCount = 0
  · rw [if_pos hn] at hk ⊢
    exact hk
  rw [if_neg hn] at hk ⊢
  dsimp only
  cases hu : stun.ufrag with
  | none => exact hk
  | some v =>
    rw [bind_some]
    unfold routedWorker
    cases he : w.bindings.routes v with
    | none => exact hk
    | some e =>
      have hask := hroute v hu e he
      dsimp only
      by_cases hsmall : w.bindings.peerCount e.room ≤ smallRoomAffinityMax
      · rw [if_pos hsmall]
        exact hask.1 hsmall
      rw [if_neg hsmall]
      by_cases hown : e.hasOwner ∧ e.workerIndex < cfg.workerCount
      · rw [if_pos hown]
        exact hask.2 (Nat.lt_of_not_le hsmall) hown.1 hown.2
      · rw [if_neg hown]
        exact hk

lemma good_packet (h : Good cfg w) (hok : KeepsSlots cfg w addr) :
    Good cfg (step cfg w (.packet addr)) := by
  refine ⟨h.indexed, fun u s k hown => ?_⟩
  have hk := h.agrees u s k hown
  change mediaWorker cfg (selectWorker cfg w.bindings w.cache addr .other).1 s.addr = k
  by_cases haddr : s.addr = addr
  · subst haddr
    rw [mediaWorker_self, selectWorker_other, hk]
  · exact mediaWorker_other cfg w.bindings w.cache .other haddr hk
      (hok u s hown.session k hown.owner hown.settled haddr)

lemma good_stun (h : Good cfg w) {check : Stun Ufrag} (hslots : KeepsSlots cfg w addr)
    (howner : KeepsOwner cfg w addr check) : Good cfg (step cfg w (.stun addr check)) := by
  set worker := (selectWorker cfg w.bindings w.cache addr (.stun check.ufrag)).2 with hworker
  obtain ⟨hidx, hsettled⟩ := settled_handleStun h.indexed worker addr check
  refine ⟨hidx, fun u t k hown => ?_⟩
  obtain ⟨hsess, howns, hreb⟩ := hown
  change mediaWorker cfg (selectWorker cfg w.bindings w.cache addr (.stun check.ufrag)).1 t.addr = k
  rcases hsettled u t hsess with ⟨s, hs, haddr, hown, hrebs⟩ | ⟨haddr, hown⟩ | hreb' | hnone
  · -- the session is as before
    have howned : Owned w.bindings u s k := ⟨hs, hown.symm.trans howns, hrebs.symm.trans hreb⟩
    have hk := h.agrees u s k howned
    rw [haddr]
    by_cases hat : s.addr = addr
    · subst hat
      rw [mediaWorker_self]
      rcases howner u s hs k howned.owner howned.settled rfl with htr | hroute
      · have hto := owner_of_transfers h.indexed hs htr hsess
        rw [howns] at hto
        exact (some.inj hto).symm
      · exact selectWorker_stun hk hroute
    · exact mediaWorker_other cfg w.bindings w.cache _ hat hk
        (hslots u s hs k howned.owner howned.settled hat)
  · -- the check settled it here
    rw [howns] at hown
    rw [haddr, mediaWorker_self]
    exact (some.inj hown).symm
  · rw [hreb] at hreb'
    contradiction
  · rw [howns] at hnone
    contradiction

omit [DecidableEq Ufrag] in
lemma Good.of_sessions {w' : World Addr Ufrag} (h : Good cfg w)
    (hs : w'.bindings.sessions = w.bindings.sessions)
    (hi : w'.bindings.addrIndex = w.bindings.addrIndex) (hc : w'.cache = w.cache) :
    Good cfg w' := by
  constructor
  · intro u s hu
    rw [hs] at hu
    rw [hi]
    exact h.indexed u s hu
  · intro u s k hown
    obtain ⟨hu, hk, hr⟩ := hown
    rw [hs] at hu
    rw [hc]
    exact h.agrees u s k ⟨hu, hk, hr⟩

omit [DecidableEq Addr] in
lemma registerAnswer_sessions (b : Bindings Addr Ufrag) (u : Ufrag) (room fd : ℕ)
    (answer : PendingAnswer) :
    (registerAnswer b u room fd answer).sessions = b.sessions ∧
      (registerAnswer b u room fd answer).addrIndex = b.addrIndex := by
  unfold registerAnswer
  split
  · exact ⟨rfl, rfl⟩
  · split <;> exact ⟨rfl, rfl⟩

lemma good_setEstablished (h : Good cfg w) (u : Ufrag) (established : Bool) :
    Good cfg (step cfg w (.setEstablished u established)) := by
  simp only [step]
  split
  · exact h
  rename_i s hs
  refine ⟨h.indexed.update (t := { s with established := established }) hs rfl rfl rfl, ?_⟩
  intro v t k hown
  obtain ⟨hv, hk, hr⟩ := hown
  simp only [Bindings.setSession] at hv
  obtain ⟨rfl, ⟨⟩⟩ | ⟨huv, hv⟩ := update_cases hv
  · exact h.agrees v s k ⟨hs, hk, hr⟩
  · exact h.agrees v t k ⟨hv, hk, hr⟩

lemma good_closeSession (h : Good cfg w) (u : Ufrag) : Good cfg (step cfg w (.closeSession u)) := by
  simp only [step, closeSession]
  split
  · exact h
  rename_i s hs
  have hkept : ∀ v t, update w.bindings.sessions u none v = some t →
      v ≠ u ∧ w.bindings.sessions v = some t := by
    intro v t hv
    by_cases huv : v = u
    · subst huv
      simp at hv
    · rw [update_of_ne huv] at hv
      exact ⟨huv, hv⟩
  constructor
  · intro v t hv
    obtain ⟨hne, hv⟩ := hkept v t hv
    have haddr : t.addr ≠ s.addr := fun heq => hne (h.indexed.inj hv hs heq)
    change update w.bindings.addrIndex s.addr none t.addr = some v
    rw [update_of_ne haddr]
    exact h.indexed v t hv
  · intro v t k hown
    obtain ⟨hv, hk, hr⟩ := hown
    exact h.agrees v t k ⟨(hkept v t hv).2, hk, hr⟩

lemma good_step (h : Good cfg w) (op : Op Addr Ufrag) (hok : StepOk cfg w op) :
    Good cfg (step cfg w op) := by
  cases op with
  | packet addr => exact good_packet h hok
  | stun addr check => exact good_stun h hok.1 hok.2
  | register u room fd answer =>
    obtain ⟨hs, hi⟩ := registerAnswer_sessions w.bindings u room fd answer
    exact h.of_sessions hs hi rfl
  | unregister | setPeerCount => exact h.of_sessions rfl rfl rfl
  | setEstablished u established => exact good_setEstablished h u established
  | closeSession u => exact good_closeSession h u

/-- Media of an established session goes to its owner, unless the session was moved since. -/
def Agrees (cfg : Config Addr) (w : World Addr Ufrag) : Prop :=
  ∀ u s k, w.bindings.sessions u = some s → s.established = true → s.owner = some k →
    s.rebound = false → (selectWorker cfg w.bindings w.cache s.addr .other).2 = k

/-- With three workers: another address takes the slot of an established peer; or the room of a
peer that was owned by hash shrinks to a small one, and the peer's next check rewrites the cache
without moving the owner. -/
theorem media_misses_owner :
    (∃ ops : List (Op ℕ Unit), ¬ Agrees ⟨id, id, 3⟩ (run ⟨id, id, 3⟩ (ops ++ [.packet 16384]))) ∧
      ∃ ops : List (Op ℕ Unit), ¬ Agrees ⟨id, id, 3⟩ (run ⟨id, id, 3⟩
        (ops ++ [.setPeerCount 1 8, .stun 0 (nomination ())])) := by
  constructor
  · refine ⟨[.register () 1 5 ⟨7, 1, true⟩, .stun 0 (nomination ()), .setEstablished () true],
      fun h => ?_⟩
    exact absurd (h () _ 1 rfl rfl rfl rfl) (by decide)
  · refine ⟨[.setPeerCount 1 9, .register () 1 5 ⟨7, 1, true⟩, .stun 0 (nomination ()),
      .setEstablished () true], fun h => ?_⟩
    exact absurd (h () _ 0 rfl rfl rfl rfl) (by decide)

/-- **Dispatch agrees with ownership**, in every run in which no owned session loses its cache
slot to another address, and no check from an owned session's address is routed to another worker
without moving the owner. -/
theorem dispatch_agrees (cfg : Config Addr) (ops : List (Op Addr Ufrag))
    (hok : Runs.Along (step cfg) (StepOk cfg) World.init ops) : Agrees cfg (run cfg ops) := by
  have hgood : Good cfg (run cfg ops) :=
    Runs.run_inv_along (step cfg) (I := Good cfg) (fun w op hw hop => good_step hw op hop)
      (good_init cfg) hok
  intro u s k hs _ hk hr
  rw [selectWorker_other]
  exact hgood.agrees u s k ⟨hs, hk, hr⟩

/-- A peer that is checked, established, and checked again while others send. -/
theorem dispatch_agrees_kept :
    Agrees (⟨id, id, 3⟩ : Config ℕ) (run ⟨id, id, 3⟩
      [.register () 1 5 ⟨7, 1, true⟩, .packet 2, .stun 0 (nomination ()),
        .setEstablished () true, .packet 2, .setPeerCount 1 9, .stun 0 (nomination ())]) :=
  dispatch_agrees _ _ (by decide)

end MezonSfu.Dispatch
