import MezonSfu.Probing

/-!
Sequence numbers towards one subscriber: `sfu_rtp_seq_translate` and
`sfu_rtp_seq_translator_rollback`.

The translator is a table of counters, one for each SSRC. `next` is the counter of an SSRC.
-/

namespace MezonSfu.Rtp

def translatorCap : ℕ := 2048

/-- The translator: SSRCs with the number their next packet gets. -/
abbrev Translator := Probing UInt32 UInt16

def Translator.init : Translator := ⟨fun _ => none⟩

def hashSsrc (ssrc : UInt32) : UInt32 :=
  let a := (ssrc ^^^ (ssrc >>> 16)) * 0x7feb352d
  let b := (a ^^^ (a >>> 15)) * 0x846ca68b
  b ^^^ (b >>> 16)

def home (ssrc : UInt32) : ℕ := (hashSsrc ssrc).toNat

section

variable (t : Translator)

def Translator.next (ssrc : UInt32) : Option UInt16 := t.value home translatorCap ssrc

/-- The number of a packet. Fails when the table is full of other SSRCs. -/
def translate (ssrc : UInt32) (sourceSeq : UInt16) : Option (Translator × UInt16) :=
  match t.locate home translatorCap ssrc with
  | none => none
  | some i =>
    match t.cells i with
    | none => some (t.write i ssrc (sourceSeq + 1), sourceSeq)
    | some c => some (t.write i ssrc (c.2 + 1), c.2)

/-- Take the last `count` numbers of an SSRC back. -/
def rollback (ssrc : UInt32) (count : UInt16) : Translator × Bool :=
  if count = 0 then (t, false)
  else
    match t.locate home translatorCap ssrc with
    | none => (t, false)
    | some i =>
      match t.cells i with
      | none => (t, false)
      | some c => (t.write i ssrc (c.2 - count), true)

abbrev Translator.WF : Prop := Probing.WF home translatorCap t

end

variable {t t' : Translator} {ssrc x : UInt32} {sourceSeq seq : UInt16}

lemma Translator.wf_init : Translator.init.WF := Probing.wf_empty

lemma translate_cases (h : translate t ssrc sourceSeq = some (t', seq)) :
    ∃ i, t.locate home translatorCap ssrc = some i ∧ t' = t.write i ssrc (seq + 1) ∧
      seq = (t.next ssrc).getD sourceSeq := by
  unfold translate at h
  split at h
  · cases h
  rename_i i hi
  have hnext : t.next ssrc = (t.cells i).map Prod.snd := Probing.value_of_locate hi
  refine ⟨i, hi, ?_⟩
  rw [hnext]
  split at h
  · rename_i hc
    obtain ⟨rfl, rfl⟩ := Prod.mk.inj (Option.some.inj h)
    exact ⟨rfl, by simp [hc]⟩
  · rename_i c hc
    obtain ⟨rfl, rfl⟩ := Prod.mk.inj (Option.some.inj h)
    exact ⟨rfl, by simp [hc]⟩

lemma translate_eq_none :
    translate t ssrc sourceSeq = none ↔ t.locate home translatorCap ssrc = none := by
  unfold translate
  split
  · simp [*]
  · split <;> simp [*]

lemma translate_seq (h : translate t ssrc sourceSeq = some (t', seq)) :
    seq = (t.next ssrc).getD sourceSeq := by
  obtain ⟨i, -, -, hs⟩ := translate_cases h
  exact hs

lemma translate_wf (ht : t.WF) (h : translate t ssrc sourceSeq = some (t', seq)) : t'.WF := by
  obtain ⟨i, hi, rfl, -⟩ := translate_cases h
  exact ht.write hi _

lemma next_translate_self (ht : t.WF) (h : translate t ssrc sourceSeq = some (t', seq)) :
    t'.next ssrc = some (seq + 1) := by
  obtain ⟨i, hi, rfl, -⟩ := translate_cases h
  exact ht.value_write_self hi _

lemma next_translate_of_ne (ht : t.WF) (h : translate t ssrc sourceSeq = some (t', seq))
    (hx : x ≠ ssrc) : t'.next x = t.next x := by
  obtain ⟨i, hi, rfl, -⟩ := translate_cases h
  exact ht.value_write_of_ne hi _ hx

lemma translate_of_next {v : UInt16} (h : t.next ssrc = some v) (sourceSeq : UInt16) :
    ∃ t', translate t ssrc sourceSeq = some (t', v) := by
  obtain ⟨i, hi, hv⟩ := Option.bind_eq_some_iff.1 h
  obtain ⟨c, hc, rfl⟩ := Option.map_eq_some_iff.1 hv
  unfold translate
  rw [hi]
  dsimp only
  rw [hc]
  exact ⟨_, rfl⟩

lemma rollback_cases (t : Translator) (ssrc : UInt32) (count : UInt16) :
    (rollback t ssrc count = (t, false) ∧ (count = 0 ∨ t.next ssrc = none)) ∨
    ∃ i v, t.locate home translatorCap ssrc = some i ∧ t.next ssrc = some v ∧ count ≠ 0 ∧
      rollback t ssrc count = (t.write i ssrc (v - count), true) := by
  unfold rollback
  split
  · rename_i h0
    exact .inl ⟨rfl, .inl h0⟩
  rename_i h0
  split
  · rename_i hi
    refine .inl ⟨rfl, .inr ?_⟩
    unfold Translator.next Probing.value
    rw [hi]
    rfl
  · rename_i i hi
    have hnext : t.next ssrc = (t.cells i).map Prod.snd := Probing.value_of_locate hi
    split
    · rename_i hc
      exact .inl ⟨rfl, .inr (by rw [hnext, hc]; rfl)⟩
    · rename_i c hc
      exact .inr ⟨i, c.2, hi, by rw [hnext, hc]; rfl, h0, rfl⟩

lemma rollback_wf (ht : t.WF) (ssrc : UInt32) (count : UInt16) : (rollback t ssrc count).1.WF := by
  rcases rollback_cases t ssrc count with ⟨h, -⟩ | ⟨i, v, hi, -, -, h⟩
  · rwa [h]
  · rw [h]
    exact ht.write hi _

lemma next_rollback_self (ht : t.WF) (ssrc : UInt32) (count : UInt16) :
    (rollback t ssrc count).1.next ssrc = (t.next ssrc).map (· - count) := by
  rcases rollback_cases t ssrc count with ⟨h, h0 | hn⟩ | ⟨i, v, hi, hv, -, h⟩
  · rw [h, h0]
    cases t.next ssrc <;> simp
  · rw [h, hn]
    rfl
  · rw [h, hv]
    exact ht.value_write_self hi _

lemma next_rollback_of_ne (ht : t.WF) (count : UInt16) (hx : x ≠ ssrc) :
    (rollback t ssrc count).1.next x = t.next x := by
  rcases rollback_cases t ssrc count with ⟨h, -⟩ | ⟨i, v, hi, -, -, h⟩
  · rw [h]
  · rw [h]
    exact ht.value_write_of_ne hi _ hx

end MezonSfu.Rtp
