import MezonSfu.RoutingAnswers
import MezonSfu.StunBind

/-!
The map of routes that a STUN check reads is the routing table: looking a route up, publishing an
answer in its two phases and marking it as applied do the same to both.
-/

namespace MezonSfu.Binding

open Routing Routing.Table Option

variable {Addr Ufrag : Type} [DecidableEq Ufrag] {hash : Ufrag → ℕ} {slots maxMappings i : ℕ}
  {b b' : Bindings Addr Ufrag} {t : Table Ufrag ℤ} {e : Entry Ufrag ℤ}

/-- An entry of the table. Of the media of its answer only the user counts here. -/
def routeOf (e : Entry Ufrag ℤ) : RoutingEntry :=
  ⟨e.room, e.fd, e.workerIndex, e.hasOwner,
    ⟨e.pendingAnswer.media.getD 0, e.pendingAnswer.generation, e.pendingAnswer.valid⟩⟩

def Bindings.Follows (b : Bindings Addr Ufrag) (hash : Ufrag → ℕ) (slots : ℕ)
    (t : Table Ufrag ℤ) : Prop :=
  ∀ u, b.routes u = (t.entryOf hash slots u).map routeOf

/-- Changing an entry is setting its route; what the map said about it before does not matter. -/
lemma follows_setRoute (h : Indexed hash slots t) (hi : i < t.count) (he : t.entries i = some e)
    (hb : ∀ u ≠ e.ufrag, b.routes u = (t.entryOf hash slots u).map routeOf)
    {f : Entry Ufrag ℤ → Entry Ufrag ℤ} (hf : (f e).ufrag = e.ufrag) {route : RoutingEntry}
    (hroute : routeOf (f e) = route) :
    (b.setRoute e.ufrag route).Follows hash slots (t.modifyEntry i f) := by
  subst hroute
  intro u
  unfold modifyEntry
  rw [he, map_some, h.entryOf_update hi he hf]
  split
  · rename_i hu
    rw [hu]
    exact routes_setRoute_self b _ _
  · rename_i hu
    exact (routes_setRoute_of_ne b _ hu).trans (hb u hu)

namespace Bindings.Follows

variable (hb : b.Follows hash slots t)

include hb

lemma route_cases (h : Indexed hash slots t) (u : Ufrag) :
    (t.findEntry hash slots u = none ∧ b.routes u = none) ∨ ∃ i e, i < t.count ∧ e.ufrag = u ∧
      t.findEntry hash slots u = some i ∧ t.entries i = some e ∧ b.routes u = some (routeOf e) := by
  have hroute := hb u
  unfold entryOf at hroute
  cases hfind : t.findEntry hash slots u with
  | none =>
    rw [hfind] at hroute
    exact .inl ⟨rfl, hroute⟩
  | some i =>
    obtain ⟨hi, e, he, hu⟩ := h.findEntry_iff.1 hfind
    rw [hfind, bind_some, he] at hroute
    exact .inr ⟨i, e, hi, hu, rfl, he, hroute⟩

theorem lookupRoute (h : Indexed hash slots t) (u : Ufrag) (worker : ℕ) :
    let r := t.lookupRoute hash slots u worker
    (Binding.lookupRoute b u worker).1.Follows hash slots r.1 ∧
      r.2 = (Binding.lookupRoute b u worker).2.map fun e =>
        ⟨e.room, e.workerIndex, e.fd, e.hasOwner,
          if e.pendingAnswer.valid then e.pendingAnswer.generation else 0⟩ := by
  unfold Table.lookupRoute Binding.lookupRoute
  rcases hb.route_cases h u with ⟨hfind, hroute⟩ | ⟨i, e, hi, rfl, hfind, he, hroute⟩
  · rw [hfind, hroute]
    exact ⟨hb, rfl⟩
  rw [hfind, hroute]
  refine ⟨follows_setRoute h hi he (fun u _ => hb u) rfl rfl, ?_⟩
  dsimp only [modifyEntry]
  rw [Function.update_self, he]
  rfl

theorem reconcileAnswer (h : Indexed hash slots t) {u : Ufrag} {s s' : Session Addr}
    {room fd generation : ℕ} {ready : Bool}
    (hrec : Binding.reconcileAnswer b u s room fd generation ready = some (b', s')) :
    b'.Follows hash slots (t.reconcileAnswer hash slots u room fd generation) := by
  obtain ⟨e', he', hroom, hfd, hgen, hvalid, -, -, rfl⟩ := reconcileAnswer_cases hrec
  rcases hb.route_cases h u with ⟨-, hroute⟩ | ⟨i, e, hi, rfl, hfind, he, hroute⟩
  · rw [hroute] at he'
    cases he'
  rw [hroute] at he'
  cases he'
  unfold Table.reconcileAnswer
  rw [hfind]
  dsimp only
  rw [he, any_some, if_pos (decide_eq_true ⟨hroom, hfd, hvalid, hgen⟩)]
  exact follows_setRoute h hi he (fun u _ => hb u) rfl rfl

end Bindings.Follows

lemma commitAnswer_eq {r : Reservation Ufrag ℤ} (hfind : t.findEntry hash slots r.ufrag = some i)
    (he : t.entries i = some e) (hown : e.room = r.room ∧ e.fd = r.fd) (hi : r.entryIndex = i) :
    (t.commitAnswer hash slots r).1 = t.modifyEntry i fun e =>
      { e with room := r.room, fd := r.fd, pendingAnswer := published e r } := by
  unfold commitAnswer reserved modifyEntry
  rw [hfind, bind_some, he, bind_some, if_pos ⟨hown.1, hown.2, hi.symm⟩, hi]
  rfl

/-- Preparing an answer and committing it, with nothing in between. -/
theorem Bindings.Follows.registerAnswer (hb : b.Follows hash slots t)
    (h : Sound hash slots maxMappings t) (hmax : maxMappings ≤ slots) (u : Ufrag) (room fd : ℕ)
    (answer : Routing.PendingAnswer ℤ) :
    let p := t.prepareAnswer hash slots maxMappings (some u) room fd answer
    ∀ r ∈ p.2.2, Binding.prepareAnswer b u room fd false = .ok r.generation ∧
      (Binding.registerAnswer b u room fd ⟨answer.media.getD 0, r.generation, true⟩).Follows hash
        slots (p.1.commitAnswer hash slots r).1 := by
  unfold Table.prepareAnswer Binding.prepareAnswer Binding.registerAnswer
  dsimp only
  rcases hb.route_cases h.indexed u with ⟨hfind, hroute⟩ | ⟨i, e, hi, rfl, hfind, he, hroute⟩
  · have hnew := h.indexed.findEntry_none.1 hfind
    rw [hfind, hroute]
    by_cases hfull : maxMappings ≤ t.count
    · rw [appendEntry_of_full hfull]
      nofun
    obtain ⟨t', heq, happ⟩ := appendEntry_spec h.indexed hmax (not_le.1 hfull) hnew room fd
    have hcount := happ.count
    have hlast : t'.entries (t'.count - 1) = some (.new u room fd) := by
      rw [hcount]
      exact happ.last
    have hlt : t'.count - 1 < t'.count := by omega
    have hfind' := happ.indexed.findEntry_iff.2 ⟨hlt, _, hlast, rfl⟩
    rw [heq]
    rintro r ⟨⟩
    rw [commitAnswer_eq hfind' hlast ⟨rfl, rfl⟩ rfl]
    refine ⟨?_, follows_setRoute happ.indexed hlt hlast (fun u' hne => ?_) rfl rfl⟩
    · unfold reserve
      rw [hlast]
      rfl
    · rw [happ.entryOf h.indexed hnew, if_neg hne]
      exact hb u'
  · rw [hfind, hroute]
    dsimp only
    rw [he, any_some]
    split
    · rename_i hown
      obtain ⟨rfl, rfl⟩ := of_decide_eq_true hown
      rintro r ⟨⟩
      have hsame : (routeOf e).room = e.room ∧ (routeOf e).fd = e.fd := ⟨rfl, rfl⟩
      rw [commitAnswer_eq hfind he ⟨rfl, rfl⟩ rfl, if_pos hsame, if_pos hsame]
      refine ⟨?_, follows_setRoute h.indexed hi he (fun u _ => hb u) rfl rfl⟩
      unfold reserve
      rw [he]
      rfl
    · nofun

end MezonSfu.Binding
