import MezonSfu.Bytes

/-!
The DTLS transport of a session: the first handshake, and restarts that run beside the active
connection until their keys replace the old ones.

What the TLS library makes of a datagram, and whether a connection object and the SRTP context can
be created, come with the datagram. The contexts are numbered by the restarts that bring them in,
from zero.
-/

namespace MezonSfu.Dtls

open Bytes

inductive SessionState
  | new
  | dtlsHandshaking
  | established
  | failed
deriving DecidableEq

inductive FeedStatus
  | error
  | inProgress
  | established
deriving DecidableEq

structure Conn where
  established : Bool
deriving DecidableEq

/-- `sfu_dtls_conn_feed`; `handshake` is how the handshake step ends, if one is made. -/
def Conn.feed (c : Conn) (handshake : FeedStatus) : Conn × FeedStatus :=
  if c.established then (c, .established)
  else (⟨decide (handshake = .established)⟩, handshake)

def restartTimeoutMs : UInt64 := 15000
def previousGraceMs : UInt64 := 3000

def extractClientHelloRandom (data : List UInt8) : Option (List UInt8) :=
  if data.length < 13 + 12 + 2 + 32 ∨ byteAt data 0 ≠ 22 then none
  else
    let recordLen := readBe16 data 11
    if recordLen > data.length - 13 ∨ recordLen < 12 + 2 + 32 then none
    else if byteAt data 13 ≠ 1 then none
    else
      let messageLen := readBe24 data 14
      let fragmentOffset := readBe24 data 19
      let fragmentLen := readBe24 data 22
      if fragmentOffset ≠ 0 ∨ messageLen < 2 + 32 ∨ fragmentLen < 2 + 32 ∨
          fragmentLen > recordLen - 12 then none
      else some (slice data 27 32)

structure Pending where
  conn : Conn
  clientRandom : List UInt8
  startedMs : UInt64
deriving DecidableEq

/-- The transport of a session. A context is there or not; `restarts` is a history variable, the
number of restarts that were completed. -/
structure Transport where
  state : SessionState
  dtls : Conn
  pending : Option Pending
  activeClientRandom : Option (List UInt8)
  srtp : Option ℕ
  previousSrtp : Option ℕ
  previousSrtpExpiresMs : UInt64
  transportGeneration : UInt32
  restarts : ℕ
deriving DecidableEq

/-- A datagram with what comes of it outside. It `reaches` the session when the session is found
under the address of its sender, accepts work and still has this address. -/
structure Datagram where
  data : List UInt8
  nowMs : UInt64
  reaches : Bool
  connInit : Bool
  handshake : FeedStatus
  srtpCreated : Bool

namespace Transport

def init : Transport :=
  { state := .new, dtls := ⟨false⟩, pending := none, activeClientRandom := none, srtp := none,
    previousSrtp := none, previousSrtpExpiresMs := 0, transportGeneration := 0, restarts := 0 }

section

variable (t : Transport)

/-- `clear_pending_dtls`. -/
def clearPending : Transport := { t with pending := none }

def expirePending (nowMs : UInt64) : Transport :=
  match t.pending with
  | some p => if nowMs - p.startedMs > restartTimeoutMs then t.clearPending else t
  | none => t

/-- A client hello starts a restart of an established session, and otherwise leaves its random.
`none` where the datagram goes no further. -/
def greet (d : Datagram) : Option Transport :=
  match extractClientHelloRandom d.data with
  | none => some t
  | some random =>
    if t.state = .established then
      if t.pending.isSome then some t
      else if t.activeClientRandom = some random then none
      else if !d.connInit then none
      else some { t with pending := some ⟨⟨false⟩, random, d.nowMs⟩ }
    else if t.activeClientRandom.isNone then some { t with activeClientRandom := some random }
    else some t

def feedPending (p : Pending) (d : Datagram) : Transport :=
  let fed := p.conn.feed d.handshake
  match fed.2 with
  | .established =>
    if d.srtpCreated then
      { t with
        previousSrtp := t.srtp
        srtp := some (t.restarts + 1)
        previousSrtpExpiresMs := d.nowMs + previousGraceMs
        dtls := fed.1
        activeClientRandom := some p.clientRandom
        pending := none
        transportGeneration := t.transportGeneration + 1
        restarts := t.restarts + 1 }
    else t.clearPending
  | .inProgress => { t with pending := some { p with conn := fed.1 } }
  | .error => t.clearPending

def feedActive (d : Datagram) : Transport :=
  let fed := t.dtls.feed d.handshake
  let t := { t with dtls := fed.1 }
  match fed.2 with
  | .established =>
    if t.state = .established then t
    else if d.srtpCreated then
      { t with srtp := some t.restarts, transportGeneration := 1, state := .established }
    else { t with srtp := none, state := .failed }
  | .inProgress => { t with state := .dtlsHandshaking }
  | .error => { t with state := .failed }

def handleDtls (d : Datagram) : Transport :=
  if !d.reaches then t
  else
    let t := t.expirePending d.nowMs
    match t.greet d with
    | none => t
    | some t =>
      match t.pending with
      | some p => t.feedPending p d
      | none => t.feedActive d

/-- In this step a restart handshake completes and its context is created. -/
def restartCompletes (d : Datagram) : Bool :=
  d.reaches &&
    match (t.expirePending d.nowMs).greet d with
    | none => false
    | some t =>
      match t.pending with
      | some p => decide ((p.conn.feed d.handshake).2 = .established) && d.srtpCreated
      | none => false

/-- Received media gives up the previous context when its time is over. -/
def expirePrevious (nowMs : UInt64) : Transport :=
  if t.previousSrtp.isSome = true ∧ nowMs ≥ t.previousSrtpExpiresMs then
    { t with previousSrtp := none, previousSrtpExpiresMs := 0 }
  else t

end

/-! ### What is kept -/

/-- An established session has a finished handshake and the context of its last restart; one that
is not established has no context and no restart. -/
structure Sound (t : Transport) : Prop where
  conn : t.state = .established → t.dtls.established = true
  srtp : t.state = .established → t.srtp = some t.restarts
  generation : t.state = .established → t.transportGeneration = UInt32.ofNat (t.restarts + 1)
  before : t.state ≠ .established → t.srtp = none ∧ t.restarts = 0 ∧ t.pending = none

lemma sound_init : init.Sound := ⟨nofun, nofun, nofun, fun _ => ⟨rfl, rfl, rfl⟩⟩

lemma feed_of_established {c : Conn} (h : c.established) (handshake : FeedStatus) :
    c.feed handshake = (c, .established) := by
  unfold Conn.feed
  rw [if_pos h]

lemma feed_established {c : Conn} {handshake : FeedStatus}
    (h : (c.feed handshake).2 = .established) : (c.feed handshake).1.established := by
  unfold Conn.feed at h ⊢
  split_ifs at h ⊢ with hc
  · exact hc
  · exact decide_eq_true h

/-- Only the pending restart and the random of the client differ. -/
structure SameKeys (t r : Transport) : Prop where
  state : r.state = t.state
  dtls : r.dtls = t.dtls
  srtp : r.srtp = t.srtp
  previous : r.previousSrtp = t.previousSrtp
  generation : r.transportGeneration = t.transportGeneration
  restarts : r.restarts = t.restarts

variable {t r s : Transport}

lemma SameKeys.refl (t : Transport) : SameKeys t t := ⟨rfl, rfl, rfl, rfl, rfl, rfl⟩

lemma SameKeys.trans (h : SameKeys t r) (h' : SameKeys r s) : SameKeys t s :=
  ⟨h'.state.trans h.state, h'.dtls.trans h.dtls, h'.srtp.trans h.srtp, h'.previous.trans h.previous,
    h'.generation.trans h.generation, h'.restarts.trans h.restarts⟩

/-- With the same keys, and a pending restart only where there may be one. -/
lemma Sound.of_sameKeys (h : t.Sound) (hs : SameKeys t r)
    (hp : t.state ≠ .established → r.pending = none) : r.Sound where
  conn he := by
    rw [hs.dtls]
    exact h.conn (hs.state ▸ he)
  srtp he := by
    rw [hs.srtp, hs.restarts]
    exact h.srtp (hs.state ▸ he)
  generation he := by
    rw [hs.generation, hs.restarts]
    exact h.generation (hs.state ▸ he)
  before he := by
    have he' : t.state ≠ .established := hs.state ▸ he
    rw [hs.srtp, hs.restarts]
    exact ⟨(h.before he').1, (h.before he').2.1, hp he'⟩

lemma sameKeys_clearPending (t : Transport) : SameKeys t t.clearPending :=
  ⟨rfl, rfl, rfl, rfl, rfl, rfl⟩

lemma expirePending_spec (h : t.Sound) (nowMs : UInt64) :
    SameKeys t (t.expirePending nowMs) ∧ (t.expirePending nowMs).Sound := by
  have hclear : t.clearPending.Sound := h.of_sameKeys (sameKeys_clearPending t) fun _ => rfl
  unfold expirePending
  split
  · split_ifs
    · exact ⟨sameKeys_clearPending t, hclear⟩
    · exact ⟨.refl t, h⟩
  · exact ⟨.refl t, h⟩

lemma greet_spec (h : t.Sound) {d : Datagram} (hg : t.greet d = some r) :
    SameKeys t r ∧ r.Sound := by
  unfold greet at hg
  split at hg
  · cases hg
    exact ⟨.refl t, h⟩
  rename_i random _
  split_ifs at hg with hest hp hsame hinit hrandom
  · cases hg
    exact ⟨.refl t, h⟩
  · cases hg
    have hs : SameKeys t { t with pending := some ⟨⟨false⟩, random, d.nowMs⟩ } :=
      ⟨rfl, rfl, rfl, rfl, rfl, rfl⟩
    exact ⟨hs, h.of_sameKeys hs fun hne => absurd hest hne⟩
  · cases hg
    have hs : SameKeys t { t with activeClientRandom := some random } :=
      ⟨rfl, rfl, rfl, rfl, rfl, rfl⟩
    exact ⟨hs, h.of_sameKeys hs fun hne => (h.before hne).2.2⟩
  · cases hg
    exact ⟨.refl t, h⟩

structure Restarted (t r : Transport) : Prop where
  state : r.state = t.state
  srtp : r.srtp = some (t.restarts + 1)
  previous : r.previousSrtp = t.srtp
  generation : r.transportGeneration = t.transportGeneration + 1
  pending : r.pending = none
  restarts : r.restarts = t.restarts + 1
  conn : r.dtls.established = true

/-- The pending connection replaces the keys, or nothing but itself changes. -/
lemma feedPending_cases (t : Transport) (p : Pending) (d : Datagram) :
    ((p.conn.feed d.handshake).2 = .established ∧ d.srtpCreated ∧
        Restarted t (t.feedPending p d)) ∨
      (¬ ((p.conn.feed d.handshake).2 = .established ∧ d.srtpCreated) ∧
        SameKeys t (t.feedPending p d)) := by
  unfold feedPending
  cases hf : (p.conn.feed d.handshake).2 with
  | established =>
    dsimp only
    rw [hf]
    split_ifs with hc
    · exact .inl ⟨rfl, hc, rfl, rfl, rfl, rfl, rfl, rfl, feed_established hf⟩
    · exact .inr ⟨fun h => hc h.2, sameKeys_clearPending t⟩
  | inProgress =>
    dsimp only
    rw [hf]
    exact .inr ⟨nofun, rfl, rfl, rfl, rfl, rfl, rfl⟩
  | error =>
    dsimp only
    rw [hf]
    exact .inr ⟨nofun, sameKeys_clearPending t⟩

variable (h : t.Sound)

include h

lemma feedActive_of_established (he : t.state = .established) (d : Datagram) :
    t.feedActive d = t := by
  unfold feedActive
  rw [feed_of_established (h.conn he)]
  dsimp only
  rw [if_pos he]

lemma Sound.restarted (he : t.state = .established) (hr : Restarted t r) : r.Sound where
  conn _ := hr.conn
  srtp _ := by rw [hr.srtp, hr.restarts]
  generation _ := by
    rw [hr.generation, hr.restarts, h.generation he]
    simp
  before hne := absurd (hr.state.trans he) hne

lemma Sound.feedActive (hne : t.state ≠ .established) (d : Datagram) : (t.feedActive d).Sound := by
  obtain ⟨hsrtp, hrestarts, hpending⟩ := h.before hne
  unfold Transport.feedActive
  cases hf : (t.dtls.feed d.handshake).2 with
  | established =>
    dsimp only
    rw [hf]
    rw [if_neg hne]
    split_ifs with hc
    · refine ⟨fun _ => feed_established hf, fun _ => rfl, fun _ => ?_, fun h => absurd rfl h⟩
      rw [hrestarts]
      rfl
    · exact ⟨nofun, nofun, nofun, fun _ => ⟨rfl, hrestarts, hpending⟩⟩
  | inProgress | error =>
    dsimp only
    rw [hf]
    exact ⟨nofun, nofun, nofun, fun _ => ⟨hsrtp, hrestarts, hpending⟩⟩

/-- **One datagram on an established session**: a restart completes and replaces the keys, or
everything but the pending restart stays. -/
theorem handleDtls_established (he : t.state = .established) (d : Datagram) :
    (t.restartCompletes d ∧ Restarted t (t.handleDtls d)) ∨
      (t.restartCompletes d = false ∧ SameKeys t (t.handleDtls d)) := by
  unfold handleDtls restartCompletes
  cases hreach : d.reaches with
  | false => exact .inr ⟨rfl, .refl t⟩
  | true =>
    obtain ⟨hexp, hsound⟩ := expirePending_spec h d.nowMs
    rw [Bool.true_and, Bool.not_true, if_neg Bool.false_ne_true]
    dsimp only
    cases hg : (t.expirePending d.nowMs).greet d with
    | none => exact .inr ⟨rfl, hexp⟩
    | some r =>
      obtain ⟨hgreet, hr⟩ := greet_spec hsound hg
      have hkeys := hexp.trans hgreet
      dsimp only
      cases hp : r.pending with
      | none =>
        rw [feedActive_of_established hr (hkeys.state.trans he) d]
        exact .inr ⟨rfl, hkeys⟩
      | some p =>
        dsimp only
        rcases feedPending_cases r p d with ⟨hf, hc, hres⟩ | ⟨hno, hsame⟩
        · refine .inl ⟨?_, hres.state.trans hkeys.state, ?_, hres.previous.trans hkeys.srtp,
            ?_, hres.pending, ?_, hres.conn⟩
          · rw [decide_eq_true hf, hc]
            rfl
          · rw [hres.srtp, hkeys.restarts]
          · rw [hres.generation, hkeys.generation]
          · rw [hres.restarts, hkeys.restarts]
        · refine .inr ⟨?_, hkeys.trans hsame⟩
          rw [Bool.and_eq_false_iff, decide_eq_false_iff_not]
          by_cases hf : (p.conn.feed d.handshake).2 = .established
          · exact .inr (Bool.eq_false_of_not_eq_true fun hc => hno ⟨hf, hc⟩)
          · exact .inl hf

/-- A pending restart stays possible only while the session is established. -/
lemma handleDtls_pending (hne : t.state ≠ .established) (d : Datagram) :
    (t.handleDtls d).Sound := by
  unfold handleDtls
  split_ifs
  · exact h
  obtain ⟨hexp, hsound⟩ := expirePending_spec h d.nowMs
  dsimp only
  cases hg : (t.expirePending d.nowMs).greet d with
  | none => exact hsound
  | some r =>
    obtain ⟨hgreet, hr⟩ := greet_spec hsound hg
    have hne' : r.state ≠ .established := by
      rw [hgreet.state, hexp.state]
      exact hne
    dsimp only
    rw [(hr.before hne').2.2]
    exact hr.feedActive hne' d

/-- **Every datagram** keeps the transport sound. -/
theorem Sound.handleDtls (d : Datagram) : (t.handleDtls d).Sound := by
  by_cases he : t.state = .established
  · rcases handleDtls_established h he d with ⟨-, hr⟩ | ⟨-, hs⟩
    · exact h.restarted he hr
    · exact h.of_sameKeys hs fun hne => absurd he hne
  · exact handleDtls_pending h he d

lemma Sound.expirePrevious (nowMs : UInt64) : (t.expirePrevious nowMs).Sound := by
  unfold Transport.expirePrevious
  split_ifs
  · exact { h with }
  · exact h

end Transport

end MezonSfu.Dtls
