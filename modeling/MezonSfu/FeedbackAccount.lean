import MezonSfu.FeedbackSender

/-!
The account of a packet: what it was counted for so far, which the two marks of its history
entry determine. `Kept` says that the history, the probe queue and the log agree on the accounts,
and holds through every way in which a packet is numbered, queued, recorded or reported.
-/

namespace MezonSfu.Congestion

open Function List

def countsOf (counted : List (ℕ × Count)) (packet : ℕ) : List Count :=
  (counted.filter fun c => c.1 = packet).map Prod.snd

@[simp] lemma countsOf_nil (packet : ℕ) : countsOf [] packet = [] := rfl

lemma countsOf_append (l m : List (ℕ × Count)) (packet : ℕ) :
    countsOf (l ++ m) packet = countsOf l packet ++ countsOf m packet := by
  simp [countsOf]

lemma countsOf_self (new : List Count) (packet : ℕ) :
    countsOf (new.map (packet, ·)) packet = new := by
  induction new with
  | nil => rfl
  | cons c new ih => simpa [countsOf] using ih

lemma countsOf_other (new : List Count) {packet other : ℕ} (h : other ≠ packet) :
    countsOf (new.map (packet, ·)) other = [] := by
  have hne : ¬ packet = other := fun e => h e.symm
  simp [countsOf, hne]

lemma count_eq_countsOf (counted : List (ℕ × Count)) (packet : ℕ) (c : Count) :
    counted.count (packet, c) = (countsOf counted packet).count c := by
  unfold countsOf
  rw [count, count, countP_map, countP_filter]
  refine countP_congr fun x _ => ?_
  simp [Prod.ext_iff, and_comm]

/-- The account of a packet, after it was reported lost and after it was reported received. A
report about a probe counts only while its cluster is the current one. -/
inductive Account : Sent → Bool → Bool → List Count → Prop
  | unreported (k : Sent) : Account k false false []
  | mediaLost : Account .media true false [.freshTotal, .freshLost]
  | mediaReceived : Account .media false true [.estimator, .freshTotal]
  | mediaLate : Account .media true true [.freshTotal, .freshLost, .estimator]
  | probeLost (c : ℕ) {l : List Count} (h : l = [] ∨ l = [.probe c]) :
      Account (.probe c) true false l
  | probeReceived (c : ℕ) {l : List Count} (h : l = [] ∨ l = [.probe c]) :
      Account (.probe c) false true (.estimator :: l)
  | probeLate (c : ℕ) {l : List Count} (h : l = [] ∨ l = [.probe c]) :
      Account (.probe c) true true (l ++ [.estimator])

namespace Account

variable {k : Sent} {lost received : Bool} {l : List Count}

lemma nodup (h : Account k lost received l) : l.Nodup := by
  cases h with
  | unreported | mediaLost | mediaReceived | mediaLate => simp
  | probeLost c h | probeReceived c h | probeLate c h => obtain rfl | rfl := h <;> simp

lemma media (h : Account .media lost received l) (c : ℕ) : Count.probe c ∉ l := by
  cases h <;> simp

lemma probe {c : ℕ} (h : Account (.probe c) lost received l) {n : Count} (hn : n ∈ l) :
    n = .estimator ∨ n = .probe c := by
  cases h with
  | unreported => simp at hn
  | probeLost c h | probeReceived c h => obtain rfl | rfl := h <;> simp_all
  | probeLate c h => obtain rfl | rfl := h <;> simp_all [or_comm]

lemma late (h : Account k true false l) : Account k true true (l ++ [.estimator]) := by
  cases h with
  | mediaLost => exact .mediaLate
  | probeLost c h => exact .probeLate c h

end Account

def HistoryEntry.kind (e : HistoryEntry) : Sent :=
  if e.isProbe then .probe e.probeClusterId else .media

/-- The history, the probe queue and the log agree: the packets in the ring and in the queue are
all different, and each has the account that its marks say. -/
structure Kept (h : History) (q : List QueuedProbe) (l : Log) : Prop where
  accounts : ∀ packet k, l.sent[packet]? = some k →
    ∃ lost received, Account k lost received (countsOf l.counted packet)
  unsent : ∀ packet, l.sent.length ≤ packet → countsOf l.counted packet = []
  ring : ∀ i, (h.entries i).valid = true →
    l.sent[(h.entries i).packet]? = some (h.entries i).kind ∧
      Account (h.entries i).kind (h.entries i).lossReported (h.entries i).receivedConsumed
        (countsOf l.counted (h.entries i).packet)
  ring_inj : ∀ i j, (h.entries i).valid = true → (h.entries j).valid = true →
    (h.entries i).packet = (h.entries j).packet → i = j
  queue : ∀ e ∈ q, l.sent[e.packet]? = some (.probe e.probeClusterId) ∧
    countsOf l.counted e.packet = []
  queue_nodup : (q.map QueuedProbe.packet).Nodup
  apart : ∀ i, (h.entries i).valid = true → ∀ e ∈ q, (h.entries i).packet ≠ e.packet

namespace Kept

variable {h : History} {q : List QueuedProbe} {l m : Log}

section

variable (hk : Kept h q l)

include hk

lemma congr (hs : m.sent = l.sent) (hc : m.counted = l.counted) : Kept h q m := by
  refine ⟨?_, ?_, ?_, hk.ring_inj, ?_, hk.queue_nodup, hk.apart⟩
  · simpa only [hs, hc] using hk.accounts
  · simpa only [hs, hc] using hk.unsent
  · simpa only [hs, hc] using hk.ring
  · simpa only [hs, hc] using hk.queue

lemma sent_lt {i : ℕ} (hv : (h.entries i).valid) : (h.entries i).packet < l.sent.length := by
  obtain ⟨hlt, -⟩ := List.getElem?_eq_some_iff.1 (hk.ring i hv).1
  exact hlt

lemma queued_lt {e : QueuedProbe} (he : e ∈ q) : e.packet < l.sent.length := by
  obtain ⟨hlt, -⟩ := List.getElem?_eq_some_iff.1 (hk.queue e he).1
  exact hlt

lemma count_le_one (packet : ℕ) (n : Count) : l.counted.count (packet, n) ≤ 1 := by
  rw [count_eq_countsOf]
  by_cases hlt : packet < l.sent.length
  · obtain ⟨lost, received, ha⟩ := hk.accounts packet _ (List.getElem?_eq_getElem hlt)
    exact nodup_iff_count_le_one.1 ha.nodup n
  · rw [hk.unsent packet (Nat.le_of_not_lt hlt)]
    simp

lemma counted_probe {packet c : ℕ} (hc : (packet, .probe c) ∈ l.counted) :
    l.sent[packet]? = some (.probe c) := by
  have hmem : Count.probe c ∈ countsOf l.counted packet := by
    simp only [countsOf, mem_map, mem_filter, decide_eq_true_eq]
    exact ⟨_, ⟨hc, rfl⟩, rfl⟩
  have hlt : packet < l.sent.length := by
    by_contra hge
    rw [hk.unsent packet (by omega)] at hmem
    simp at hmem
  obtain ⟨k, hs⟩ : ∃ k, l.sent[packet]? = some k := ⟨_, List.getElem?_eq_getElem hlt⟩
  obtain ⟨lost, received, ha⟩ := hk.accounts packet k hs
  cases k with
  | media => exact absurd hmem (ha.media _)
  | probe c' =>
    rcases ha.probe hmem with hn | hn
    · simp at hn
    · rw [Count.probe.injEq] at hn
      rw [hs, hn]

lemma number (k : Sent) : Kept h q { l with sent := l.sent ++ [k] } := by
  have old : ∀ {packet : ℕ} {k'}, l.sent[packet]? = some k' →
      (l.sent ++ [k])[packet]? = some k' := by
    intro packet k' hp
    obtain ⟨hlt, -⟩ := List.getElem?_eq_some_iff.1 hp
    rwa [List.getElem?_append_left hlt]
  refine ⟨?_, ?_, ?_, hk.ring_inj, ?_, hk.queue_nodup, hk.apart⟩
  · intro packet k' hp
    by_cases hlt : packet < l.sent.length
    · rw [List.getElem?_append_left hlt] at hp
      exact hk.accounts packet k' hp
    · refine ⟨false, false, ?_⟩
      rw [hk.unsent packet (Nat.le_of_not_lt hlt)]
      exact .unreported k'
  · intro packet hle
    refine hk.unsent packet ?_
    simp only [length_append, length_singleton] at hle
    omega
  · intro i hv
    exact ⟨old (hk.ring i hv).1, (hk.ring i hv).2⟩
  · intro e he
    exact ⟨old (hk.queue e he).1, (hk.queue e he).2⟩

lemma push {e : QueuedProbe} (hs : l.sent[e.packet]? = some (.probe e.probeClusterId))
    (hc : countsOf l.counted e.packet = [])
    (hring : ∀ i, (h.entries i).valid → (h.entries i).packet ≠ e.packet)
    (hq : ∀ d ∈ q, d.packet ≠ e.packet) : Kept h (q ++ [e]) l := by
  refine { hk with queue := ?_, queue_nodup := ?_, apart := ?_ }
  · exact forall_mem_append.2 ⟨hk.queue, forall_mem_singleton.2 ⟨hs, hc⟩⟩
  · rw [map_append, nodup_append]
    refine ⟨hk.queue_nodup, by simp, ?_⟩
    intro p hp p' hp' heq
    obtain ⟨d, hd, rfl⟩ := mem_map.1 hp
    rw [map_singleton, mem_singleton] at hp'
    exact hq d hd (heq.trans hp')
  · intro i hv
    exact forall_mem_append.2 ⟨hk.apart i hv, forall_mem_singleton.2 (hring i hv)⟩

end

lemma pop {e : QueuedProbe} (hk : Kept h (e :: q) l) : Kept h q l := by
  refine { hk with queue := ?_, queue_nodup := ?_, apart := ?_ }
  · exact fun d hd => hk.queue d (mem_cons_of_mem e hd)
  · exact (nodup_cons.1 hk.queue_nodup).2
  · exact fun i hv d hd => hk.apart i hv d (mem_cons_of_mem e hd)

lemma set_cases (h : History) (seq : ℕ) (e : HistoryEntry) (i : ℕ) :
    (i = seq % historyCapacity ∧ (h.set seq e).entries i = e) ∨
      (i ≠ seq % historyCapacity ∧ (h.set seq e).entries i = h.entries i) := by
  by_cases hi : i = seq % historyCapacity
  · exact .inl ⟨hi, hi ▸ update_self ..⟩
  · exact .inr ⟨hi, update_of_ne hi ..⟩

/-- A packet that is nowhere yet is recorded; the entry it overwrites is forgotten. -/
lemma record (hk : Kept h q l) (seq : ℕ) {e : HistoryEntry}
    (hs : l.sent[e.packet]? = some e.kind) (hc : countsOf l.counted e.packet = [])
    (hl : e.lossReported = false) (hr : e.receivedConsumed = false)
    (hring : ∀ i, (h.entries i).valid → (h.entries i).packet ≠ e.packet)
    (hq : ∀ d ∈ q, d.packet ≠ e.packet) : Kept (h.set seq e) q l := by
  refine { hk with ring := ?_, ring_inj := ?_, apart := ?_ }
  · intro i hv
    obtain ⟨-, hi⟩ | ⟨-, hi⟩ := set_cases h seq e i <;> rw [hi] at hv ⊢
    · rw [hc, hl, hr]
      exact ⟨hs, .unreported _⟩
    · exact hk.ring i hv
  · intro i j hvi hvj heq
    obtain ⟨hi, hei⟩ | ⟨-, hei⟩ := set_cases h seq e i <;>
      obtain ⟨hj, hej⟩ | ⟨-, hej⟩ := set_cases h seq e j <;> rw [hei, hej] at heq
    · exact hi.trans hj.symm
    · exact absurd heq.symm (hring j (hej ▸ hvj))
    · exact absurd heq (hring i (hei ▸ hvi))
    · exact hk.ring_inj i j (hei ▸ hvi) (hej ▸ hvj) heq
  · intro i hv d hd
    obtain ⟨-, hi⟩ | ⟨-, hi⟩ := set_cases h seq e i <;> rw [hi] at hv ⊢
    · exact (hq d hd).symm
    · exact hk.apart i hv d hd

/-- A report marks an entry, and the account of its packet grows with it. -/
lemma mark (hk : Kept h q l) (seq : ℕ) {e : HistoryEntry} {new : List Count}
    (hv : (h.entry seq).valid) (hp : e.packet = (h.entry seq).packet)
    (hkind : e.kind = (h.entry seq).kind) (ha : Account e.kind e.lossReported e.receivedConsumed
      (countsOf l.counted e.packet ++ new)) (hm : m.counted = l.counted ++ new.map (e.packet, ·))
    (hs : m.sent = l.sent) : Kept (h.set seq e) q m := by
  have hself : countsOf m.counted e.packet = countsOf l.counted e.packet ++ new := by
    rw [hm, countsOf_append, countsOf_self]
  have hother : ∀ {p}, p ≠ e.packet → countsOf m.counted p = countsOf l.counted p := by
    intro p hne
    rw [hm, countsOf_append, countsOf_other new hne, append_nil]
  have hsent := (hk.ring _ hv).1
  refine ⟨?_, ?_, ?_, ?_, ?_, hk.queue_nodup, ?_⟩
  · intro packet k hk'
    rw [hs] at hk'
    by_cases hpk : packet = e.packet
    · subst hpk
      rw [hp] at hk'
      have hkk : (h.entry seq).kind = k := Option.some.inj (hsent.symm.trans hk')
      rw [hself, ← hkk, ← hkind]
      exact ⟨_, _, ha⟩
    · rw [hother hpk]
      exact hk.accounts packet k hk'
  · intro packet hle
    rw [hs] at hle
    have hlt := hk.sent_lt hv
    rw [hother (by rw [hp]; exact (Nat.lt_of_lt_of_le hlt hle).ne')]
    exact hk.unsent packet hle
  · intro i hvi
    obtain ⟨-, hei⟩ | ⟨hi, hei⟩ := set_cases h seq e i <;> rw [hei] at hvi ⊢
    · rw [hself, hs]
      refine ⟨?_, ha⟩
      rw [hp, hkind]
      exact hsent
    · have hne : (h.entries i).packet ≠ e.packet := by
        rw [hp]
        exact fun heq => hi (hk.ring_inj i _ hvi hv heq)
      rw [hother hne, hs]
      exact hk.ring i hvi
  · intro i j hvi hvj heq
    -- the packets at the two places are the ones that were there before
    have hold : ∀ t, ((h.set seq e).entries t).valid →
        (h.entries t).valid ∧ ((h.set seq e).entries t).packet = (h.entries t).packet := by
      intro t ht
      obtain ⟨rfl, het⟩ | ⟨-, het⟩ := set_cases h seq e t <;> rw [het] at ht ⊢
      · exact ⟨hv, hp⟩
      · exact ⟨ht, rfl⟩
    obtain ⟨hi, hpi⟩ := hold i hvi
    obtain ⟨hj, hpj⟩ := hold j hvj
    exact hk.ring_inj i j hi hj (by rw [← hpi, ← hpj]; exact heq)
  · intro d hd
    have hne : d.packet ≠ e.packet := by
      rw [hp]
      exact fun heq => hk.apart _ hv d hd heq.symm
    rw [hother hne, hs]
    exact hk.queue d hd
  · intro i hvi d hd
    obtain ⟨-, hi⟩ | ⟨-, hi⟩ := set_cases h seq e i <;> rw [hi] at hvi ⊢
    · rw [hp]
      exact hk.apart _ hv d hd
    · exact hk.apart i hvi d hd

end Kept

end MezonSfu.Congestion
