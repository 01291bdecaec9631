import MezonSfu.Connections

/-!
The connection and the session of a client agree on room and user as long as a client that has
answered does not join again as another user or in another room; nothing stops it from doing so.

The invariant follows the identity along its copies: connection, route, pending answer, session.
-/

namespace MezonSfu.Connections

open Binding Function Option

variable {Addr Ufrag : Type}

/-! ### The invariant -/

/-- A session that an answer was applied to belongs to the connection of that answer, and it is
only in the room of its route. -/
structure SessionOk (conns : ℕ → Option (Conn Ufrag)) (b : Bindings Addr Ufrag) (u : Ufrag)
    (s : Session Addr) : Prop where
  conn : ∀ fd, s.fd = some fd →
    ∃ c, conns fd = some c ∧ c.clientUfrag = some u ∧ c.userId = s.userId
  member : ∀ room, s.room = some room → s.fd ≠ none ∧ ∃ e, b.routes u = some e ∧ e.room = room

/-- The route of a connection's answer carries its room and user, every route belongs to a
connection, and the sessions follow the routes. -/
structure Good (conns : ℕ → Option (Conn Ufrag)) (b : Bindings Addr Ufrag) : Prop where
  route : ∀ fd c u, conns fd = some c → c.clientUfrag = some u →
    ∃ e, b.routes u = some e ∧ e.fd = fd ∧ c.joinedRoom = some e.room ∧
      (e.pendingAnswer.valid = true → e.pendingAnswer.userId = c.userId)
  conn : ∀ u e, b.routes u = some e → ∃ c, conns e.fd = some c ∧ c.clientUfrag = some u
  session : ∀ u s, b.sessions u = some s → SessionOk conns b u s

lemma good_init : Good (fun _ => none) (Bindings.empty : Bindings Addr Ufrag) := by
  constructor
  · intro fd c u h
    simp at h
  · intro u e h
    simp [Bindings.empty] at h
  · intro u s h
    simp [Bindings.empty] at h

variable {b b' : Bindings Addr Ufrag} {e : RoutingEntry} {u : Ufrag}
  {conns : ℕ → Option (Conn Ufrag)} {s t : Session Addr} {fd generation room : ℕ}
  {c c' : Conn Ufrag} {srv : Server Addr Ufrag}

lemma Good.of_route (h : Good conns b) (he : b.routes u = some e) :
    ∃ c, conns e.fd = some c ∧ c.clientUfrag = some u ∧ c.joinedRoom = some e.room ∧
      (e.pendingAnswer.valid → e.pendingAnswer.userId = c.userId) := by
  obtain ⟨c, hc, hu⟩ := h.conn u e he
  obtain ⟨e', he', -, hroom, huser⟩ := h.route e.fd c u hc hu
  rw [he] at he'
  cases he'
  exact ⟨c, hc, hu, hroom, huser⟩

variable [DecidableEq Ufrag]

section

variable (h : Good conns b)

include h

lemma Good.setSession (hroutes : b'.routes = b.routes)
    (hsessions : b'.sessions = update b.sessions u (some t)) (ht : SessionOk conns b u t) :
    Good conns b' := by
  have hok : ∀ v s, SessionOk conns b v s → SessionOk conns b' v s := by
    intro v s hs
    refine ⟨hs.conn, ?_⟩
    rw [hroutes]
    exact hs.member
  constructor
  · rw [hroutes]
    exact h.route
  · rw [hroutes]
    exact h.conn
  · intro v s hv
    rw [hsessions] at hv
    obtain ⟨rfl, ⟨⟩⟩ | ⟨huv, hv⟩ := update_cases hv
    · exact hok v t ht
    · exact hok v s (h.session v s hv)

/-- A route may be rewritten, if it keeps room and connection and holds no new answer. -/
lemma Good.setRoute {e' : RoutingEntry} (he : b.routes u = some e)
    (hroom : e'.room = e.room) (hfd : e'.fd = e.fd) (hanswer : e'.pendingAnswer.valid →
      e.pendingAnswer.valid ∧ e'.pendingAnswer.userId = e.pendingAnswer.userId) :
    Good conns (b.setRoute u e') := by
  constructor
  · intro fd c v hc hv
    obtain ⟨f, hf, hffd, hfroom, huser⟩ := h.route fd c v hc hv
    by_cases huv : v = u
    · subst huv
      rw [he] at hf
      cases hf
      refine ⟨e', routes_setRoute_self .., hfd.trans hffd, by rw [hroom]; exact hfroom, ?_⟩
      intro hvalid
      obtain ⟨hold, hid⟩ := hanswer hvalid
      rw [hid]
      exact huser hold
    · exact ⟨f, by rw [routes_setRoute_of_ne b e' huv, hf], hffd, hfroom, huser⟩
  · intro v f hf
    by_cases huv : v = u
    · subst huv
      rw [routes_setRoute_self] at hf
      cases hf
      rw [hfd]
      exact h.conn v e he
    · rw [routes_setRoute_of_ne b e' huv] at hf
      exact h.conn v f hf
  · intro v s hv
    have hs := h.session v s hv
    refine ⟨hs.conn, fun room hr => ?_⟩
    obtain ⟨hne, f, hf, hfr⟩ := hs.member room hr
    refine ⟨hne, ?_⟩
    by_cases huv : v = u
    · subst huv
      rw [he] at hf
      cases hf
      exact ⟨e', routes_setRoute_self .., hroom.trans hfr⟩
    · exact ⟨f, by rw [routes_setRoute_of_ne b e' huv, hf], hfr⟩

/-- Applying a pending answer gives the session the user of its connection. -/
lemma good_reconcileAnswer {runtimeReady : Bool}
    (hrec : reconcileAnswer b u s room fd generation runtimeReady = some (b', t)) :
    Good conns b' ∧ b'.sessions u = some t ∧ t.fd = some fd ∧ t.room = s.room ∧
      ∃ e, b'.routes u = some e ∧ e.room = room := by
  obtain ⟨e, he, hroom, hfd, -, hvalid, hsroom, ht, hb⟩ := reconcileAnswer_cases hrec
  obtain ⟨c, hc, hcu, -, huser⟩ := h.of_route he
  have htok : SessionOk conns b u t := by
    subst ht
    refine ⟨fun f hf => ?_, fun r hr => ⟨by simp, e, he, ?_⟩⟩
    · cases hf
      exact ⟨c, hfd ▸ hc, hcu, (huser hvalid).symm⟩
    rcases hsroom with hnone | hsome
    · rw [hnone] at hr
      contradiction
    · rw [hsome] at hr
      cases hr
      exact hroom
  have hset : Good conns (b.setSession u t) := h.setSession rfl rfl htok
  subst hb
  refine ⟨hset.setRoute he rfl rfl (fun hv => by simp at hv), sessions_setSession_self .., ?_, ?_,
    ⟨_, routes_setRoute_self .., hroom⟩⟩
  · rw [ht]
  · rw [ht]

/-- Publishing a session puts it into the room of its route, and only if the answer of the
route's connection was applied to it. -/
lemma good_stunPublish {o : Option (Session Addr)} {f : RoutingEntry}
    {applied : Bool} {stun : Stun Ufrag} (hs : b.sessions u = some s) (hf : b.routes u = some f)
    (hroom : f.room = e.room) (happlied : applied → s.fd = some e.fd)
    (hpub : stunPublish b u e s applied stun = (b', o)) :
    Good conns b' ∧ ∀ t, o = some t → b'.sessions u = some t := by
  rcases stunPublish_cases b u e s applied stun with ⟨h', -⟩ | h' | ⟨-, hans, h'⟩
  · rw [h'] at hpub
    cases hpub
    exact ⟨h, by simp⟩
  · rw [h'] at hpub
    cases hpub
    exact ⟨h, fun t ht => by cases ht; exact hs⟩
  · rw [h'] at hpub
    cases hpub
    have hfd : s.fd = some e.fd := by
      rcases hans with happ | ⟨-, hfd⟩
      · exact happlied happ
      · exact hfd
    have hok : SessionOk conns b u { s with room := some e.room } := by
      refine ⟨(h.session u s hs).conn, fun room hr => ⟨?_, f, hf, ?_⟩⟩
      · simp [hfd]
      · cases hr
        exact hroom
    refine ⟨h.setSession rfl rfl hok, fun t ht => ?_⟩
    cases ht
    exact sessions_setSession_self ..

lemma good_stunOwner (hs : b.sessions u = some s) (r : Rebind) (worker : ℕ)
    (stun : Stun Ufrag) : Good conns (stunOwner b u s r worker stun) := by
  unfold stunOwner
  split
  · have hok := h.session u s hs
    exact h.setSession (t := { s with owner := some worker, rebound := false }) rfl rfl
      ⟨hok.conn, hok.member⟩
  · exact h

lemma good_stunBound (hs : b.sessions u = some s) (he : b.routes u = some e) (r : Rebind)
    (worker : ℕ) (stun : Stun Ufrag) : Good conns (stunBound b u e s r worker stun) := by
  unfold stunBound
  rcases hrec : stunReconcile b u e s stun with ⟨b1, s1, applied⟩
  -- the session and its route after a pending answer was applied, or not
  have hmid : Good conns b1 ∧ b1.sessions u = some s1 ∧ (applied → s1.fd = some e.fd) ∧
      ∃ f, b1.routes u = some f ∧ f.room = e.room := by
    unfold stunReconcile at hrec
    split at hrec
    · rename_i b2 s2 hsome
      cases hrec
      obtain ⟨hg, hs1, hfd, -, hroute⟩ := good_reconcileAnswer h hsome
      exact ⟨hg, hs1, fun _ => hfd, hroute⟩
    · cases hrec
      exact ⟨h, hs, by simp, e, he, rfl⟩
  obtain ⟨hg, hs1, happ, f, hf, hroom⟩ := hmid
  dsimp only
  rcases hpub : stunPublish b1 u e s1 applied stun with ⟨b2, o⟩
  obtain ⟨hg2, hs2⟩ := good_stunPublish hg hs1 hf hroom happ hpub
  cases o with
  | none => exact hg2
  | some t => exact good_stunOwner hg2 (hs2 t rfl) r worker stun

end

variable [DecidableEq Addr]

lemma good_handleStun (h : Good conns b) (worker : ℕ) (addr : Addr) (stun : Stun Ufrag) :
    Good conns (handleStun b worker addr stun) := by
  unfold handleStun
  split
  · exact h
  rename_i u hu
  split
  · cases hroute : b.routes u with
    | none =>
      simp only [lookupRoute, hroute]
      exact h
    | some e =>
      simp only [lookupRoute, hroute]
      set e1 : RoutingEntry := { e with workerIndex := worker, hasOwner := true }
      set b1 := b.setRoute u e1
      have h1 : Good conns b1 := h.setRoute hroute rfl rfl fun hv => ⟨hv, rfl⟩
      have hr1 : b1.routes u = some e1 := routes_setRoute_self ..
      rcases stunSession_cases b1 addr u stun with ⟨r, h'⟩ | ⟨s, hs, -, h'⟩ |
        ⟨s, hs, -, -, h'⟩ | ⟨-, -, h'⟩
      · rw [h']
        exact h1
      · rw [h']
        exact good_stunBound h1 hs hr1 _ worker stun
      · rw [h']
        have hok := h1.session u s hs
        have hmoved : Good conns (b1.moved u s addr) :=
          h1.setSession (t := { s with addr := addr, rebound := true }) rfl rfl
            ⟨hok.conn, hok.member⟩
        exact good_stunBound hmoved (sessions_setSession_self ..) hr1 _ worker stun
      · rw [h']
        have hnew : SessionOk conns b1 u (newSession addr) :=
          ⟨by simp [newSession], by simp [newSession]⟩
        have hadded : Good conns (b1.added u addr) := h1.setSession rfl rfl hnew
        exact good_stunBound hadded (sessions_setSession_self ..) hr1 _ worker stun
  · exact h

section

omit [DecidableEq Addr] [DecidableEq Ufrag]

/-- The connections that have answered may change in everything but name, room and user; the
others may change at will. -/
lemma Good.of_conns {conns' : ℕ → Option (Conn Ufrag)} (h : Good conns b)
    (hto : ∀ fd c u, conns fd = some c → c.clientUfrag = some u →
      ∃ c', conns' fd = some c' ∧ c'.clientUfrag = some u ∧ c'.userId = c.userId)
    (hfrom : ∀ fd c' u, conns' fd = some c' → c'.clientUfrag = some u →
      ∃ c, conns fd = some c ∧ c.clientUfrag = some u ∧ c'.joinedRoom = c.joinedRoom ∧
        c'.userId = c.userId) : Good conns' b := by
  constructor
  · intro fd c' u hc' hu'
    obtain ⟨c, hc, hu, hroom, huser⟩ := hfrom fd c' u hc' hu'
    obtain ⟨e, he, hfd, hjoined, hpending⟩ := h.route fd c u hc hu
    exact ⟨e, he, hfd, hroom.trans hjoined, fun hv => (hpending hv).trans huser.symm⟩
  · intro u e he
    obtain ⟨c, hc, hu⟩ := h.conn u e he
    obtain ⟨c', hc', hu', -⟩ := hto e.fd c u hc hu
    exact ⟨c', hc', hu'⟩
  · intro u s hs
    have hok := h.session u s hs
    refine ⟨fun fd hfd => ?_, hok.member⟩
    obtain ⟨c, hc, hu, huser⟩ := hok.conn fd hfd
    obtain ⟨c', hc', hu', huser'⟩ := hto fd c u hc hu
    exact ⟨c', hc', hu', huser'.trans huser⟩

lemma Good.setConn (h : Good conns b) (hc : conns fd = some c) (hu : c'.clientUfrag = c.clientUfrag)
    (hsame : c.clientUfrag ≠ none → c'.joinedRoom = c.joinedRoom ∧ c'.userId = c.userId) :
    Good (update conns fd (some c')) b := by
  refine h.of_conns ?_ ?_
  · intro fd' d u hd hdu
    by_cases hfd : fd' = fd
    · subst hfd
      rw [hc] at hd
      cases hd
      exact ⟨c', update_self .., hu.trans hdu, (hsame (by simp [hdu])).2⟩
    · exact ⟨d, by rw [update_of_ne hfd, hd], hdu, rfl⟩
  · intro fd' d u hd hdu
    obtain ⟨rfl, ⟨⟩⟩ | ⟨hfd, hd⟩ := update_cases hd
    · have hold : c.clientUfrag = some u := hu.symm.trans hdu
      obtain ⟨hroom, huser⟩ := hsame (by simp [hold])
      exact ⟨c, hc, hold, hroom, huser⟩
    · exact ⟨d, hd, hdu, rfl, rfl⟩

lemma good_connect (h : Good conns b) (hc : conns fd = none) :
    Good (update conns fd (some .new)) b := by
  refine h.of_conns ?_ ?_
  · intro fd' d u hd hdu
    have hfd : fd' ≠ fd := by
      rintro rfl
      rw [hc] at hd
      contradiction
    exact ⟨d, by rw [update_of_ne hfd, hd], hdu, rfl⟩
  · intro fd' d u hd hdu
    obtain ⟨rfl, ⟨⟩⟩ | ⟨hfd, hd⟩ := update_cases hd
    · simp [Conn.new] at hdu
    · exact ⟨d, hd, hdu, rfl, rfl⟩

lemma good_disconnectRoomUser (h : Good srv.conns srv.bindings) (room : ℕ) (userId : ℤ) :
    Good (disconnectRoomUser srv room userId).conns srv.bindings := by
  refine h.of_conns ?_ ?_
  · intro fd c u hc hu
    refine ⟨_, by simp only [disconnectRoomUser, hc, map_some]; rfl, ?_, ?_⟩
    · split <;> exact hu
    · split <;> rfl
  · intro fd c' u hc' hu
    simp only [disconnectRoomUser, map_eq_some_iff] at hc'
    obtain ⟨c, hc, rfl⟩ := hc'
    refine ⟨c, hc, ?_, ?_, ?_⟩
    · split at hu <;> exact hu
    · split <;> rfl
    · split <;> rfl

end

/-! ### Answers -/

section

omit [DecidableEq Addr]

lemma lookupUfrag_cases {client answer : Option Ufrag} (h : lookupUfrag client answer = some u) :
    client = none ∨ client = some u := by
  unfold lookupUfrag at h
  split at h
  · split at h
    · exact .inr h
    · simp at h
  · exact .inr h
  · exact .inl rfl

/-- An answer that may be registered leaves a route with its room and connection. -/
lemma registerAnswer_eq {tableFull : Bool} (answer : PendingAnswer)
    (h : prepareAnswer b u room fd tableFull = .ok generation) :
    (∀ e, b.routes u = some e → e.room = room ∧ e.fd = fd) ∧
      ∃ e, registerAnswer b u room fd answer = b.setRoute u e ∧ e.room = room ∧ e.fd = fd ∧
        e.pendingAnswer = answer := by
  unfold prepareAnswer at h
  unfold registerAnswer
  split at h
  · rename_i e he
    split at h
    · rename_i hsame
      rw [he]
      refine ⟨fun f hf => ?_, { e with pendingAnswer := answer }, ?_, hsame.1, hsame.2, rfl⟩
      · cases hf
        exact hsame
      · simp only [hsame, and_self, if_true]
    · simp at h
  · rename_i he
    rw [he]
    exact ⟨by simp, _, rfl, rfl, rfl, rfl⟩

/-- Registering an answer ties the connection, the route and the name together. -/
lemma good_register (h : Good conns b) (hc : conns fd = some c)
    (hname : c.clientUfrag = none ∨ c.clientUfrag = some u)
    (hc' : c'.clientUfrag = some u ∧ c'.userId = c.userId ∧ c'.joinedRoom = some e.room)
    (hold : ∀ f, b.routes u = some f → f.room = e.room ∧ f.fd = fd) (hfd : e.fd = fd)
    (huser : e.pendingAnswer.userId = c.userId) :
    Good (update conns fd (some c')) (b.setRoute u e) := by
  -- a connection other than this one has another name
  have hothers : ∀ fd' d v, fd' ≠ fd → conns fd' = some d → d.clientUfrag = some v → v ≠ u := by
    rintro fd' d v hne hd hdv rfl
    obtain ⟨f, hf, hffd, -⟩ := h.route fd' d v hd hdv
    exact hne (hffd.symm.trans (hold f hf).2)
  -- and this one has no other name
  have hown : ∀ v, c.clientUfrag = some v → v = u := by
    intro v hv
    rcases hname with hnone | hsome
    · rw [hnone] at hv
      contradiction
    · rw [hsome] at hv
      exact (some.inj hv).symm
  constructor
  · intro fd' d v hd hdv
    obtain ⟨rfl, ⟨⟩⟩ | ⟨hne, hd⟩ := update_cases hd
    · obtain rfl : u = v := some.inj (hc'.1.symm.trans hdv)
      exact ⟨e, routes_setRoute_self .., hfd, hc'.2.2, fun _ => huser.trans hc'.2.1.symm⟩
    · obtain ⟨f, hf, hffd, hroom, hpend⟩ := h.route fd' d v hd hdv
      have hvu := hothers fd' d v hne hd hdv
      exact ⟨f, by rw [routes_setRoute_of_ne b e hvu, hf], hffd, hroom, hpend⟩
  · intro v f hf
    by_cases hvu : v = u
    · subst hvu
      rw [routes_setRoute_self] at hf
      cases hf
      exact ⟨c', by rw [hfd, update_self], hc'.1⟩
    · rw [routes_setRoute_of_ne b e hvu] at hf
      obtain ⟨d, hd, hdv⟩ := h.conn v f hf
      have hne : f.fd ≠ fd := by
        intro heq
        rw [heq, hc] at hd
        cases hd
        exact hvu (hown v hdv)
      exact ⟨d, by rw [update_of_ne hne, hd], hdv⟩
  · intro v s hs
    have hok := h.session v s hs
    refine ⟨fun f hf => ?_, fun room hr => ?_⟩
    · obtain ⟨d, hd, hdv, hduser⟩ := hok.conn f hf
      by_cases hne : f = fd
      · subst hne
        rw [hc] at hd
        cases hd
        rw [hown v hdv]
        exact ⟨c', update_self .., hc'.1, hc'.2.1.trans hduser⟩
      · exact ⟨d, by rw [update_of_ne hne, hd], hdv, hduser⟩
    · obtain ⟨hne, f, hf, hfr⟩ := hok.member room hr
      refine ⟨hne, ?_⟩
      by_cases hvu : v = u
      · subst hvu
        exact ⟨e, routes_setRoute_self .., (hold f hf).1.symm.trans hfr⟩
      · exact ⟨f, by rw [routes_setRoute_of_ne b e hvu, hf], hfr⟩

lemma good_answerSession (h : Good conns b) (room fd generation : ℕ) (a : Answer Ufrag) :
    Good conns (answerSession b u s room fd generation a) := by
  unfold answerSession
  split
  · exact h
  rename_i b1 t hrec
  obtain ⟨hg, ht, hfd, -, e, he, hroom⟩ := good_reconcileAnswer h hrec
  split
  · have hok := hg.session u t ht
    refine hg.setSession (t := { t with room := some room }) rfl rfl
      ⟨hok.conn, fun r hr => ⟨?_, e, he, ?_⟩⟩
    · simp [hfd]
    · cases hr
      exact hroom
  · exact hg

lemma good_answer (h : Good srv.conns srv.bindings) (hc : srv.conns fd = some c)
    (a : Answer Ufrag) :
    Good (handleAnswer srv fd c a).1.conns (handleAnswer srv fd c a).1.bindings := by
  unfold handleAnswer
  split
  · exact h
  · exact h
  · rename_i room u hroom hu
    split
    · exact h
    split
    · exact h
    split
    · exact h
    split
    · exact h
    · exact h
    · rename_i generation hprep
      obtain ⟨hold, e, hreg, he, hfd, hpend⟩ :=
        registerAnswer_eq ⟨c.userId, generation, true⟩ hprep
      have hrouted : ∀ d : Conn Ufrag, d.clientUfrag = some u → d.userId = c.userId →
          d.joinedRoom = some room → Good (update srv.conns fd (some d))
            (registerAnswer srv.bindings u room fd ⟨c.userId, generation, true⟩) := by
        intro d hdu huser hdroom
        rw [hreg]
        exact good_register h hc (lookupUfrag_cases hu) ⟨hdu, huser, he ▸ hdroom⟩
          (he ▸ hold) hfd (by rw [hpend])
      unfold answerRegistered
      split
      · exact hrouted _ rfl rfl hroom
      · split
        · exact good_answerSession (hrouted { c with clientUfrag := some u } rfl rfl hroom)
            room fd generation a
        · exact hrouted { c with clientUfrag := some u } rfl rfl hroom

end

omit [DecidableEq Addr] [DecidableEq Ufrag] in
lemma routes_unregisterFd :
    (unregisterFd b fd).routes u = some e ↔ b.routes u = some e ∧ e.fd ≠ fd := by
  simp [unregisterFd, filter_eq_some_iff]

omit [DecidableEq Addr] [DecidableEq Ufrag] in
/-- The routes of a closed connection go with it; a session that carries its descriptor must not
be left. -/
lemma good_unregister (h : Good conns b) (hroutes : b'.routes = (unregisterFd b fd).routes)
    (hsessions : ∀ v s, b'.sessions v = some s → b.sessions v = some s ∧ s.fd ≠ some fd) :
    Good (update conns fd none) b' := by
  have hkept : ∀ fd' d, fd' ≠ fd → conns fd' = some d →
      update conns fd none fd' = some d := by
    intro fd' d hne hd
    rw [update_of_ne hne, hd]
  constructor
  · intro fd' d v hd hdv
    by_cases hne : fd' = fd
    · subst hne
      simp at hd
    rw [update_of_ne hne] at hd
    obtain ⟨f, hf, hffd, hroom, hpend⟩ := h.route fd' d v hd hdv
    refine ⟨f, ?_, hffd, hroom, hpend⟩
    rw [hroutes, routes_unregisterFd]
    exact ⟨hf, hffd ▸ hne⟩
  · intro v f hf
    rw [hroutes, routes_unregisterFd] at hf
    obtain ⟨d, hd, hdv⟩ := h.conn v f hf.1
    exact ⟨d, hkept f.fd d hf.2 hd, hdv⟩
  · intro v s hs
    obtain ⟨hs, hsfd⟩ := hsessions v s hs
    have hok := h.session v s hs
    refine ⟨fun f hf => ?_, fun room hr => ?_⟩
    · obtain ⟨d, hd, hdv, hduser⟩ := hok.conn f hf
      have hne : f ≠ fd := by
        rintro rfl
        exact hsfd hf
      exact ⟨d, hkept f d hne hd, hdv, hduser⟩
    obtain ⟨hsome, f, hf, hfr⟩ := hok.member room hr
    refine ⟨hsome, f, ?_, hfr⟩
    -- the route is the one of the session's own connection
    obtain ⟨g, hg⟩ := ne_none_iff_exists'.mp hsome
    obtain ⟨d, hd, hdv, -⟩ := hok.conn g hg
    obtain ⟨f', hf', hf'fd, -⟩ := h.route g d v hd hdv
    rw [hf] at hf'
    cases hf'
    rw [hroutes, routes_unregisterFd]
    refine ⟨hf, ?_⟩
    rintro rfl
    exact hsfd (hf'fd ▸ hg)

lemma good_closed (h : Good srv.conns srv.bindings) (hc : srv.conns fd = some c) :
    Good (finishClientClose srv fd c).conns (finishClientClose srv fd c).bindings := by
  set r := unregisterFd srv.bindings fd
  -- a session with this descriptor has the connection's name
  have hname : ∀ v s, srv.bindings.sessions v = some s → s.fd = some fd →
      c.clientUfrag = some v := by
    intro v s hs hfd
    obtain ⟨d, hd, hdv, -⟩ := (h.session v s hs).conn fd hfd
    rw [hc] at hd
    cases hd
    exact hdv
  unfold finishClientClose
  dsimp only
  cases hown : ownSession r fd c with
  | none =>
    refine good_unregister h rfl fun v s hs => ⟨hs, fun hfd => ?_⟩
    have hv := hname v s hs hfd
    have hs' : r.sessions v = some s := hs
    simp [ownSession, hv, Option.filter, hs', hfd] at hown
  | some u =>
    dsimp only
    have hu : c.clientUfrag = some u := (Option.filter_eq_some_iff.mp hown).1
    unfold closeSession
    split
    · rename_i hnone
      refine good_unregister h rfl fun v s hs => ⟨hs, fun hfd => ?_⟩
      obtain rfl : u = v := Option.some.inj (hu.symm.trans (hname v s hs hfd))
      have hs' : r.sessions u = some s := hs
      rw [hs'] at hnone
      contradiction
    · refine good_unregister h rfl fun v s hs => ?_
      dsimp only at hs
      by_cases hvu : v = u
      · subst hvu
        simp at hs
      · rw [update_of_ne hvu] at hs
        refine ⟨hs, fun hfd => hvu ?_⟩
        exact Option.some.inj ((hname v s hs hfd).symm.trans hu)

/-- The condition on a step: a client that has answered joins only as the user it is, and only in
its room or without success. -/
def StepOk (srv : Server Addr Ufrag) : Op Addr Ufrag → Prop
  | .join fd token roomCreated => ∀ c ∈ srv.conns fd, c.disconnecting = false →
      c.clientUfrag ≠ none → ∀ t ∈ token, t.1 = c.userId ∧
        (t.2 = 0 ∨ roomCreated = false ∨ c.joinedRoom = some t.2)
  | _ => True

instance (srv : Server Addr Ufrag) (op) : Decidable (StepOk srv op) := by
  cases op <;> (unfold StepOk; infer_instance)

omit [DecidableEq Addr] [DecidableEq Ufrag] in
lemma good_join (h : Good srv.conns srv.bindings) (hc : srv.conns fd = some c)
    {token : Option (ℤ × ℕ)} {roomCreated : Bool}
    (hok : c.clientUfrag ≠ none → ∀ t ∈ token, t.1 = c.userId ∧
      (t.2 = 0 ∨ roomCreated = false ∨ c.joinedRoom = some t.2)) :
    Good (handleJoin srv fd c token roomCreated).1.conns
      (handleJoin srv fd c token roomCreated).1.bindings := by
  unfold handleJoin
  split
  · exact h.setConn hc rfl fun _ => ⟨rfl, rfl⟩
  split
  · exact h.setConn hc rfl fun hu => ⟨rfl, (hok hu _ rfl).1⟩
  split
  · exact h.setConn hc rfl fun hu => ⟨rfl, (hok hu _ rfl).1⟩
  rename_i hzero hcreated
  refine h.setConn hc rfl fun hu => ?_
  obtain ⟨huser, hroom⟩ := hok hu _ rfl
  rcases hroom with hz | hf | hsame
  · exact absurd hz hzero
  · exact absurd hf hcreated
  · exact ⟨hsame.symm, huser⟩

lemma good_step (h : Good srv.conns srv.bindings) (op : Op Addr Ufrag) (hok : StepOk srv op) :
    Good (step srv op).conns (step srv op).bindings := by
  -- a message to an open connection
  have hmessage : ∀ fd (f : Conn Ufrag → Server Addr Ufrag),
      (∀ c, srv.conns fd = some c → c.disconnecting = false → Good (f c).conns (f c).bindings) →
      Good (onMessage srv fd f).conns (onMessage srv fd f).bindings := by
    intro fd f hf
    unfold onMessage
    split
    · exact h
    rename_i c hc
    split
    · exact h
    · rename_i hopen
      exact hf c hc (by simpa using hopen)
  cases op with
  | connect fd =>
    simp only [step]
    split
    · rename_i hnone
      exact good_connect h hnone
    · exact h
  | join fd token roomCreated =>
    exact hmessage fd _ fun c hc hopen => good_join h hc (hok c hc hopen)
  | answer fd a => exact hmessage fd _ fun c hc _ => good_answer h hc a
  | other fd ends =>
    refine hmessage fd _ fun c hc _ => ?_
    split
    · exact h.setConn hc rfl fun _ => ⟨rfl, rfl⟩
    · exact h
  | kick fd userId =>
    refine hmessage fd _ fun c hc _ => ?_
    split
    · exact h
    · exact good_disconnectRoomUser h _ userId
  | aloneTimeout room userId => exact good_disconnectRoomUser h room userId
  | closed fd =>
    simp only [step]
    split
    · exact h
    · rename_i c hc
      exact good_closed h hc
  | stun worker addr check => exact good_handleStun h worker addr check
  | setEstablished u established =>
    simp only [step]
    split
    · exact h
    · rename_i s hs
      have hsok := h.session u s hs
      exact h.setSession (t := { s with established := established }) rfl rfl
        ⟨hsok.conn, hsok.member⟩

def Coherent (srv : Server Addr Ufrag) : Prop :=
  ∀ fd c u s room, srv.conns fd = some c → c.clientUfrag = some u →
    srv.bindings.sessions u = some s → s.room = some room →
    c.joinedRoom = some room ∧ c.userId = s.userId

/-- Disconnecting a user of a room, by a kick or for being alone, reaches every connection whose
session is in the room as that user. -/
def DisconnectReaches (srv : Server Addr Ufrag) : Prop :=
  ∀ room userId fd c u s, (disconnectRoomUser srv room userId).conns fd = some c →
    c.clientUfrag = some u → srv.bindings.sessions u = some s → s.room = some room →
    s.userId = userId → c.disconnecting = true

omit [DecidableEq Addr] [DecidableEq Ufrag] in
lemma Good.coherent (h : Good srv.conns srv.bindings) : Coherent srv := by
  intro fd c u s room hc hu hs hroom
  have hok := h.session u s hs
  obtain ⟨hne, e, he, her⟩ := hok.member room hroom
  obtain ⟨g, hg⟩ := ne_none_iff_exists'.mp hne
  obtain ⟨d, hd, hdu, hduser⟩ := hok.conn g hg
  -- both connections are the one that the route names
  obtain ⟨e1, he1, hfd1, hroom1, -⟩ := h.route fd c u hc hu
  obtain ⟨e2, he2, hfd2, -⟩ := h.route g d u hd hdu
  rw [he] at he1 he2
  cases he1
  cases he2
  obtain rfl : fd = g := hfd1.symm.trans hfd2
  rw [hc] at hd
  cases hd
  exact ⟨by rw [hroom1, her], hduser⟩

omit [DecidableEq Addr] [DecidableEq Ufrag] in
lemma Coherent.disconnectReaches (h : Coherent srv) : DisconnectReaches srv := by
  intro room userId fd c' u s hc' hu hs hroom huser
  simp only [disconnectRoomUser, map_eq_some_iff] at hc'
  obtain ⟨c, hc, rfl⟩ := hc'
  have hcu : c.clientUfrag = some u := by split at hu <;> exact hu
  obtain ⟨hjoined, hid⟩ := h fd c u s room hc hcu hs hroom
  split
  · rfl
  · rename_i hnot
    by_contra hdis
    exact hnot ⟨by simpa using hdis, hjoined, hid.trans huser⟩

def goodAnswer (u : Ufrag) : Answer Ufrag :=
  ⟨some u, true, true, true, true, false, true, true, true⟩

/-- A client that has answered and is in a room joins again, as another user and elsewhere: its
session stays where it was, and kicking it there does not reach the connection. -/
theorem rejoin_splits_identity :
    ∃ ops : List (Op ℕ Unit), ¬ Coherent (run ops) ∧ ¬ DisconnectReaches (run ops) := by
  refine ⟨[.connect 5, .join 5 (some (1, 10)) true, .answer 5 (goodAnswer ()),
    .stun 0 0 (nomination ()), .join 5 (some (2, 20)) true], fun h => ?_, fun h => ?_⟩
  · exact absurd (h 5 _ () _ 10 rfl rfl rfl rfl).1 (by decide)
  · exact absurd (h 10 1 5 _ () _ rfl rfl rfl rfl rfl) (by decide)

/-- **Connection and session agree on room and user**, and so disconnecting a user reaches every
connection it should, in every run in which no client that has answered joins as another user or
in another room. -/
theorem identity_coherent (ops : List (Op Addr Ufrag))
    (hok : Runs.Along step StepOk Server.init ops) :
    Coherent (run ops) ∧ DisconnectReaches (run ops) := by
  have hgood : Good (run ops).conns (run ops).bindings :=
    Runs.run_inv_along step (I := fun srv => Good srv.conns srv.bindings)
      (fun srv op h hop => good_step h op hop) good_init hok
  exact ⟨hgood.coherent, hgood.coherent.disconnectReaches⟩

/-- A client changes its mind before it answers, is bound, joins its room again and is kicked. -/
theorem identity_coherent_bound :
    Coherent (run ([.connect 5, .join 5 (some (1, 10)) true, .join 5 (some (2, 20)) true,
      .answer 5 (goodAnswer ()), .stun 0 0 (nomination ()), .join 5 (some (2, 20)) true,
      .aloneTimeout 20 2] : List (Op ℕ Unit))) :=
  (identity_coherent _ (by decide)).1

end MezonSfu.Connections
