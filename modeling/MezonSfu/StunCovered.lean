import MezonSfu.StunPacket

/-!
Which decisions about a binding request rest on authenticated bytes, and what answers it.

All walks step through the same attributes. What stands before MESSAGE-INTEGRITY is covered; so
the USE-CANDIDATE flag, which is only looked for there, is determined by the covered bytes. The
USERNAME is looked for in the whole packet: it is determined exactly when one comes before
MESSAGE-INTEGRITY, since otherwise any USERNAME can be appended.
-/

namespace MezonSfu.Stun

open Bytes List

variable {mac : Mac} {creds : IceCredentials} {data data' : List UInt8} {mi off i k : ℕ}

/-! ### Attributes -/

def attrAt (data : List UInt8) (i : ℕ) : ℕ := OffsetWalk.offset (nextAttr data) stunHeaderLen i

lemma add_le_nextAttr (data : List UInt8) (off : ℕ) : off + 4 ≤ nextAttr data off :=
  Nat.le_add_right _ _

lemma le_padded (n : ℕ) : n ≤ padded n := by
  unfold padded
  omega

section

variable (data : List UInt8)

lemma attrAt_strictMono : StrictMono (attrAt data) :=
  OffsetWalk.offset_strictMono (add_le_nextAttr data) (by decide) _

lemma headerLen_le_attrAt (i : ℕ) : stunHeaderLen ≤ attrAt data i :=
  OffsetWalk.start_le_offset (add_le_nextAttr data) _ i

lemma attrAt_succ (i : ℕ) : attrAt data (i + 1) = nextAttr data (attrAt data i) :=
  OffsetWalk.offset_succ

lemma attrAt_value_le (h : i < k) :
    attrAt data i + 4 + attrLen data (attrAt data i) ≤ attrAt data k := by
  have hle := (attrAt_strictMono data).monotone (Nat.succ_le_of_lt h)
  rw [attrAt_succ] at hle
  have hpad := le_padded (attrLen data (attrAt data i))
  unfold nextAttr at hle
  omega

end

/-- MESSAGE-INTEGRITY is the attribute `k`. -/
structure IntegrityAt (data : List UInt8) (k : ℕ) : Prop where
  fits : attrAt data k + 4 ≤ data.length
  typed : attrType data (attrAt data k) = attrMessageIntegrity
  first : ∀ j < k, attrType data (attrAt data j) ≠ attrMessageIntegrity

lemma findMessageIntegrity_iff :
    findMessageIntegrity data = some mi ↔ ∃ k, mi = attrAt data k ∧ IntegrityAt data k := by
  unfold findMessageIntegrity
  rw [OffsetWalk.find_eq_some_iff (add_le_nextAttr data) (by decide) le_rfl]
  simp only [beq_iff_eq, beq_eq_false_iff_ne]
  constructor
  · rintro ⟨k, rfl, hfits, htype, hfirst⟩
    exact ⟨k, rfl, hfits, htype, hfirst⟩
  · rintro ⟨k, rfl, h⟩
    exact ⟨k, rfl, h.fits, h.typed, h.first⟩

/-- The USERNAME that is found is the attribute `i`. -/
structure UsernameAt (data : List UInt8) (i : ℕ) : Prop where
  typed : attrType data (attrAt data i) = attrUsername
  fits : attrAt data i + 4 + attrLen data (attrAt data i) ≤ data.length
  first : ∀ j < i, attrType data (attrAt data j) ≠ attrUsername

lemma UsernameAt.find (h : UsernameAt data i) : findUsername data =
    some (slice data (attrAt data i + 4) (attrLen data (attrAt data i))) := by
  unfold findUsername
  rw [Option.map_eq_some_iff]
  refine ⟨attrAt data i, ?_, rfl⟩
  rw [OffsetWalk.find_eq_some_iff (add_le_nextAttr data) (by decide) le_rfl]
  refine ⟨i, rfl, le_trans (Nat.le_add_right _ _) h.fits, ?_, fun j hj => ?_⟩
  · unfold isUsername
    rw [h.typed, beq_self_eq_true, Bool.true_and]
    exact decide_eq_true h.fits
  · unfold isUsername
    rw [Bool.and_eq_false_iff]
    exact .inl (beq_eq_false_iff_ne.2 (h.first j hj))

/-! ### Packets with the same covered bytes -/

def covered (data : List UInt8) : List UInt8 :=
  match findMessageIntegrity data with
  | none => []
  | some miOffset => scratch data miOffset

/-- The packets agree on the attributes before `m`, whatever the length in the header. -/
structure Agree (m : ℕ) (data data' : List UInt8) : Prop where
  type : data.take 2 = data'.take 2
  attrs : (data.take m).drop 4 = (data'.take m).drop 4

variable {m : ℕ}

lemma Agree.slice {n : ℕ} (h : Agree m data data') (hoff : 4 ≤ off) (hm : off + n ≤ m) :
    slice data' off n = slice data off n := by
  rw [← slice_window hoff hm, ← slice_window hoff hm, h.attrs]

lemma Agree.byteAt (h : Agree m data data') (hoff : 4 ≤ off) (hm : off < m) :
    byteAt data' off = byteAt data off := by
  rw [← byteAt_take data' hm, ← byteAt_take data hm]
  obtain ⟨d, rfl⟩ := Nat.exists_eq_add_of_le hoff
  rw [← byteAt_drop, ← byteAt_drop, h.attrs]

lemma Agree.readBe16 (h : Agree m data data') (hoff : 4 ≤ off) (hm : off + 2 ≤ m) :
    readBe16 data' off = readBe16 data off := by
  unfold Bytes.readBe16
  rw [h.byteAt hoff (by omega), h.byteAt (by omega) (by omega)]

lemma Agree.attrType (h : Agree m data data') (hoff : stunHeaderLen ≤ off)
    (hm : off + 4 ≤ m) : attrType data' off = attrType data off := by
  unfold stunHeaderLen at hoff
  exact h.readBe16 (by omega) (by omega)

lemma Agree.attrLen (h : Agree m data data') (hoff : stunHeaderLen ≤ off)
    (hm : off + 4 ≤ m) : attrLen data' off = attrLen data off := by
  unfold stunHeaderLen at hoff
  exact h.readBe16 (by omega) (by omega)

lemma Agree.nextAttr (h : Agree m data data') (hoff : stunHeaderLen ≤ off)
    (hm : off + 4 ≤ m) : nextAttr data' off = nextAttr data off := by
  unfold Stun.nextAttr
  rw [h.attrLen hoff hm]

lemma Agree.attrAt (h : Agree (attrAt data k) data data') (hik : i ≤ k) :
    attrAt data' i = attrAt data i :=
  OffsetWalk.offset_congr (add_le_nextAttr data) (fun _ hoff hm => h.nextAttr hoff hm) le_rfl hik
    (attrAt_strictMono data)

lemma Agree.attrType_at (h : Agree (Stun.attrAt data k) data data') (hik : i < k) :
    Stun.attrType data' (Stun.attrAt data' i) = Stun.attrType data (Stun.attrAt data i) := by
  have hle := attrAt_value_le data hik
  rw [h.attrAt hik.le]
  exact h.attrType (headerLen_le_attrAt data i) (by omega)

lemma Agree.useCandidateFrom (h : Agree m data data') (n : ℕ) (hoff : stunHeaderLen ≤ off) :
    useCandidateFrom data' m n off = useCandidateFrom data m n off := by
  induction n generalizing off with
  | zero => rfl
  | succ n ih =>
    unfold Stun.useCandidateFrom
    by_cases hm : off + 4 ≤ m
    · have hnext : stunHeaderLen ≤ Stun.nextAttr data off := by
        have hle := add_le_nextAttr data off
        omega
      rw [h.nextAttr hoff hm, h.attrType hoff hm, h.attrLen hoff hm, ih hnext]
    · rw [if_neg hm, if_neg hm]

lemma length_scratch (hmi : stunHeaderLen ≤ mi) (hlen : mi ≤ data.length) :
    (scratch data mi).length = mi := by
  unfold stunHeaderLen at hmi
  unfold scratch patchLength
  rw [length_append, length_append, length_writeBe16, length_take, length_drop, length_take]
  omega

lemma agree_of_scratch {mi' : ℕ} (hmi : stunHeaderLen ≤ mi) (hlen : mi ≤ data.length)
    (hmi' : stunHeaderLen ≤ mi') (hlen' : mi' ≤ data'.length)
    (h : scratch data' mi' = scratch data mi) : mi' = mi ∧ Agree mi data data' := by
  have heq : mi' = mi := by
    rw [← length_scratch hmi' hlen', h, length_scratch hmi hlen]
  subst heq
  refine ⟨rfl, ?_⟩
  unfold stunHeaderLen at hmi
  unfold scratch patchLength at h
  rw [take_take, take_take, Nat.min_eq_left (by omega), append_assoc, append_assoc] at h
  obtain ⟨htype, hrest⟩ := append_inj h (by
    rw [length_take, length_take]
    omega)
  exact ⟨htype.symm, (append_cancel_left hrest).symm⟩

structure Passed (mac : Mac) (creds : IceCredentials) (data : List UInt8) (k : ℕ) : Prop where
  request : isBindingRequest data = true
  username : (findUsername data).any (usernameMatches creds.ufrag) = true
  integrity : IntegrityAt data k
  length : attrAt data k + 24 ≤ data.length
  scratchFits : attrAt data k ≤ scratchSize
  macLength : (mac creds.pwd (scratch data (attrAt data k))).length = 20
  macEq : mac creds.pwd (scratch data (attrAt data k)) = slice data (attrAt data k + 4) 20

lemma passes_iff : passes mac creds data ↔ ∃ k, Passed mac creds data k := by
  unfold passes
  rw [Bool.and_eq_true, Bool.and_eq_true]
  constructor
  · rintro ⟨⟨hreq, huser⟩, hverify⟩
    unfold verifyMessageIntegrity at hverify
    split at hverify
    · cases hverify
    rename_i mi hmi
    obtain ⟨k, rfl, hk⟩ := findMessageIntegrity_iff.1 hmi
    split at hverify
    · cases hverify
    · rename_i hbounds
      rw [not_or, not_lt, not_lt] at hbounds
      rw [Bool.and_eq_true, beq_iff_eq, beq_iff_eq] at hverify
      exact ⟨k, hreq, huser, hk, hbounds.1, hbounds.2, hverify.1, hverify.2⟩
  · rintro ⟨k, h⟩
    refine ⟨⟨h.request, h.username⟩, ?_⟩
    rw [findMessageIntegrity_iff.2 ⟨k, rfl, h.integrity⟩]
    unfold verifyMessageIntegrity
    dsimp only
    rw [if_neg (by have := h.length; have := h.scratchFits; omega), Bool.and_eq_true, beq_iff_eq,
      beq_iff_eq]
    exact ⟨h.macLength, h.macEq⟩

lemma IntegrityAt.covered (h : IntegrityAt data k) :
    covered data = scratch data (attrAt data k) := by
  unfold Stun.covered
  rw [findMessageIntegrity_iff.2 ⟨k, rfl, h⟩]

/-- The packets show the same USERNAME, ufrag of the client and USE-CANDIDATE. -/
structure SameDecisions (creds : IceCredentials) (maxLen : ℕ) (data data' : List UInt8) : Prop where
  username : findUsername data' = findUsername data
  clientUfrag : extractClientUfrag data' creds.ufrag maxLen =
    extractClientUfrag data creds.ufrag maxLen
  useCandidate : hasUseCandidate data' = hasUseCandidate data

/-- A USERNAME attribute comes before the first MESSAGE-INTEGRITY. -/
def UsernameFirst (data : List UInt8) : Prop :=
  ∃ i, attrType data (attrAt data i) = attrUsername ∧
    ∀ j < i, attrType data (attrAt data j) ≠ attrMessageIntegrity

lemma IntegrityAt.usernameAt (h : IntegrityAt data k) (hfirst : UsernameFirst data) :
    ∃ i < k, UsernameAt data i := by
  obtain ⟨i₀, htyped, hbefore⟩ := hfirst
  have hlt : i₀ < k := by
    rcases lt_trichotomy i₀ k with hlt | rfl | hgt
    · exact hlt
    · rw [h.typed] at htyped
      cases htyped
    · exact absurd h.typed (hbefore k hgt)
  have hex : ∃ i, attrType data (attrAt data i) = attrUsername := ⟨i₀, htyped⟩
  have hle : Nat.find hex ≤ i₀ := Nat.find_min' hex htyped
  refine ⟨Nat.find hex, by omega, Nat.find_spec hex, ?_, fun j hj => Nat.find_min hex hj⟩
  have hvalue := attrAt_value_le data (lt_of_le_of_lt hle hlt)
  have hfits := h.fits
  omega

lemma Agree.findUsername (h : Agree (Stun.attrAt data k) data data') (hik : i < k)
    (hi : UsernameAt data i) (hlen : Stun.attrAt data k ≤ data'.length) :
    findUsername data' = findUsername data := by
  have hat : Stun.attrAt data' i = Stun.attrAt data i := h.attrAt hik.le
  have hvalue := attrAt_value_le data hik
  have hheader := headerLen_le_attrAt data i
  have hattrLen : Stun.attrLen data' (Stun.attrAt data' i) =
      Stun.attrLen data (Stun.attrAt data i) := by
    rw [hat]
    exact h.attrLen hheader (by omega)
  have hi' : UsernameAt data' i := by
    refine ⟨(h.attrType_at hik).trans hi.typed, ?_, fun j hj => ?_⟩
    · rw [hattrLen, hat]
      omega
    · rw [h.attrType_at (hj.trans hik)]
      exact hi.first j hj
  rw [hi.find, hi'.find, hattrLen, hat]
  unfold stunHeaderLen at hheader
  rw [h.slice (by omega) (by omega)]

/-- **The flag**: packets with the same covered bytes show the same USE-CANDIDATE. -/
lemma Passed.hasUseCandidate {k' : ℕ} (h : Passed mac creds data k) (h' : Passed mac creds data' k')
    (hmi : attrAt data' k' = attrAt data k) (hagree : Agree (attrAt data k) data data') :
    hasUseCandidate data' = hasUseCandidate data := by
  unfold Stun.hasUseCandidate
  rw [h.request, h'.request, findMessageIntegrity_iff.2 ⟨k, rfl, h.integrity⟩,
    findMessageIntegrity_iff.2 ⟨k', rfl, h'.integrity⟩, hmi]
  dsimp only
  rw [hagree.useCandidateFrom _ le_rfl]

lemma Passed.sameDecisions {k' : ℕ} (h : Passed mac creds data k)
    (h' : Passed mac creds data' k') (hcovered : covered data' = covered data)
    (hfirst : UsernameFirst data) (maxLen : ℕ) : SameDecisions creds maxLen data data' := by
  rw [h.integrity.covered, h'.integrity.covered] at hcovered
  have hlen := h.length
  have hlen' := h'.length
  obtain ⟨hmi, hagree⟩ := agree_of_scratch (headerLen_le_attrAt data k) (by omega)
    (headerLen_le_attrAt data' k') (by omega) hcovered
  obtain ⟨i, hik, hi⟩ := h.integrity.usernameAt hfirst
  have husername := hagree.findUsername hik hi (by omega)
  refine ⟨husername, ?_, h.hasUseCandidate h' hmi hagree⟩
  unfold extractClientUfrag
  rw [h.request, h'.request, husername]

/-! ### A USERNAME that is appended -/

/-- The bytes up to the end of MESSAGE-INTEGRITY, and a USERNAME. -/
def appendUsername (data : List UInt8) (mi : ℕ) (name : List UInt8) : List UInt8 :=
  data.take mi ++ (writeBe16 attrMessageIntegrity ++ (writeBe16 20 ++ (slice data (mi + 4) 20 ++
    (writeBe16 attrUsername ++ (writeBe16 name.length ++ name)))))

section Append

variable (name : List UInt8) (hlen : mi + 24 ≤ data.length)
include hlen

lemma take_appendUsername : (appendUsername data mi name).take mi = data.take mi := by
  unfold appendUsername
  rw [take_append, length_take, Nat.min_eq_left (by omega), Nat.sub_self, take_zero,
    append_nil, take_take, Nat.min_self]

omit name in
lemma length_slice_mac : (slice data (mi + 4) 20).length = 20 := by
  unfold slice
  rw [length_take, length_drop]
  omega

lemma length_appendUsername : (appendUsername data mi name).length = mi + 28 + name.length := by
  unfold appendUsername
  simp only [length_append, length_writeBe16, length_slice_mac hlen, length_take]
  omega

lemma agree_appendUsername (hmi : 2 ≤ mi) : Agree mi data (appendUsername data mi name) := by
  have htake := take_appendUsername name hlen
  refine ⟨?_, by rw [htake]⟩
  have h := congrArg (List.take 2) htake
  rw [take_take, take_take, Nat.min_eq_left hmi] at h
  exact h.symm

lemma attrType_integrity : attrType (appendUsername data mi name) mi = attrMessageIntegrity := by
  unfold attrType appendUsername
  rw [readBe16_append (k := 0) (by rw [length_take]; omega), readBe16_write]
  rfl

lemma attrLen_integrity : attrLen (appendUsername data mi name) mi = 20 := by
  unfold attrLen appendUsername
  rw [readBe16_append (k := 2) (by rw [length_take]; omega),
    readBe16_append (k := 0) (by rw [length_writeBe16]), readBe16_write]
  rfl

lemma slice_integrity :
    slice (appendUsername data mi name) (mi + 4) 20 = slice data (mi + 4) 20 := by
  have hmac := length_slice_mac hlen
  unfold appendUsername
  rw [slice_append (k := 4) (by rw [length_take]; omega),
    slice_append (k := 2) (by rw [length_writeBe16]),
    slice_append (k := 0) (by rw [length_writeBe16])]
  generalize slice data (mi + 4) 20 = value at hmac ⊢
  unfold slice
  rw [drop_zero, ← hmac, take_left]

lemma appendUsername_eq : ∃ front : List UInt8, front.length = mi + 24 ∧
    appendUsername data mi name =
      front ++ (writeBe16 attrUsername ++ (writeBe16 name.length ++ name)) := by
  refine ⟨data.take mi ++ (writeBe16 attrMessageIntegrity ++ (writeBe16 20 ++
    slice data (mi + 4) 20)), ?_, ?_⟩
  · simp only [length_append, length_writeBe16, length_slice_mac hlen, length_take]
    omega
  · unfold appendUsername
    simp only [append_assoc]

lemma attrType_appended : attrType (appendUsername data mi name) (mi + 24) = attrUsername := by
  obtain ⟨front, hfront, heq⟩ := appendUsername_eq name hlen
  unfold attrType
  rw [heq, readBe16_append (k := 0) (by omega), readBe16_write]
  rfl

lemma attrLen_appended (hname : name.length < 2 ^ 16) :
    attrLen (appendUsername data mi name) (mi + 24) = name.length := by
  obtain ⟨front, hfront, heq⟩ := appendUsername_eq name hlen
  unfold attrLen
  rw [heq, readBe16_append (k := 2) (by omega),
    readBe16_append (k := 0) (by rw [length_writeBe16]), readBe16_write, Nat.mod_eq_of_lt hname]

lemma slice_appended : slice (appendUsername data mi name) (mi + 24 + 4) name.length = name := by
  obtain ⟨front, hfront, heq⟩ := appendUsername_eq name hlen
  rw [heq, slice_append (k := 4) (by omega), slice_append (k := 2) (by rw [length_writeBe16]),
    slice_append (k := 0) (by rw [length_writeBe16])]
  unfold slice
  rw [drop_zero, take_length]

end Append

lemma Agree.isBindingRequest (h : Agree m data data') (hm : stunHeaderLen ≤ m)
    (hlen : stunHeaderLen ≤ data.length) (hlen' : stunHeaderLen ≤ data'.length) :
    isBindingRequest data' = isBindingRequest data := by
  unfold stunHeaderLen at hm
  have hzero : Bytes.byteAt data' 0 = Bytes.byteAt data 0 := by
    rw [← byteAt_take data' (m := 2) (by omega), ← byteAt_take data (m := 2) (by omega), h.type]
  have hone : Bytes.byteAt data' 1 = Bytes.byteAt data 1 := by
    rw [← byteAt_take data' (m := 2) (by omega), ← byteAt_take data (m := 2) (by omega), h.type]
  have htype : Bytes.readBe16 data' 0 = Bytes.readBe16 data 0 := by
    unfold Bytes.readBe16
    rw [hzero, hone]
  have hcookie : readBe32 data' 4 = readBe32 data 4 := by
    unfold readBe32
    rw [h.readBe16 le_rfl (by omega), h.readBe16 (by omega) (by omega)]
  unfold Stun.isBindingRequest isStunPacket
  rw [hzero, htype, hcookie, decide_eq_true hlen, decide_eq_true hlen']

lemma Passed.appendUsername (h : Passed mac creds data k) (hfirst : ¬ UsernameFirst data)
    (name : List UInt8) (hname : name.length < 2 ^ 16) (hmatch : usernameMatches creds.ufrag name) :
    let r := appendUsername data (attrAt data k) name
    Passed mac creds r k ∧ covered r = covered data ∧ findUsername r = some name := by
  have hlen := h.length
  have hheader := headerLen_le_attrAt data k
  have hlen' := length_appendUsername name hlen
  have hagree := agree_appendUsername name hlen (by unfold stunHeaderLen at hheader; omega)
  have htake := take_appendUsername name hlen
  have htyped := attrType_integrity name hlen
  have hattrLen := attrLen_integrity name hlen
  have hslice := slice_integrity name hlen
  have htypedName := attrType_appended name hlen
  have hlenName := attrLen_appended name hlen hname
  have hsliceName := slice_appended name hlen
  generalize Stun.appendUsername data (attrAt data k) name = data' at *
  have hat : attrAt data' k = attrAt data k := hagree.attrAt le_rfl
  have hscratch : scratch data' (attrAt data k) = scratch data (attrAt data k) := by
    unfold scratch
    rw [htake]
  have hintegrity : IntegrityAt data' k := by
    refine ⟨by rw [hat]; omega, by rw [hat]; exact htyped, fun j hj => ?_⟩
    rw [hagree.attrType_at hj]
    exact h.integrity.first j hj
  -- the appended USERNAME is the attribute behind MESSAGE-INTEGRITY, and the first
  have hnext : attrAt data' (k + 1) = attrAt data k + 24 := by
    rw [attrAt_succ, hat]
    unfold nextAttr
    rw [hattrLen]
    rfl
  have husername : UsernameAt data' (k + 1) := by
    refine ⟨by rw [hnext]; exact htypedName, by rw [hnext, hlenName]; omega, fun j hj => ?_⟩
    rcases Nat.lt_succ_iff_lt_or_eq.1 hj with hlt | rfl
    · rw [hagree.attrType_at hlt]
      intro hname
      exact hfirst ⟨j, hname, fun l hl => h.integrity.first l (hl.trans hlt)⟩
    · rw [hat, htyped]
      decide
  have hfind := husername.find
  rw [hnext, hlenName, hsliceName] at hfind
  refine ⟨⟨?_, ?_, hintegrity, ?_, ?_, ?_, ?_⟩, ?_, hfind⟩
  · rw [hagree.isBindingRequest hheader (by omega) (by omega)]
    exact h.request
  · rw [hfind]
    exact hmatch
  · rw [hat]
    omega
  · rw [hat]
    exact h.scratchFits
  · rw [hat, hscratch]
    exact h.macLength
  · rw [hat, hscratch, hslice]
    exact h.macEq
  · rw [h.integrity.covered, hintegrity.covered, hat, hscratch]

section

variable (creds : IceCredentials)

/-- The local ufrag, a colon and a ufrag of one letter. -/
def shortUsername (c : UInt8) : List UInt8 := creds.ufrag ++ [58, c]

lemma length_shortUsername (c : UInt8) : (shortUsername creds c).length < 2 ^ 16 := by
  have h := creds.ufrag_lt
  unfold shortUsername
  rw [length_append]
  change creds.ufrag.length + 2 < _
  omega

lemma usernameMatches_short (c : UInt8) : usernameMatches creds.ufrag (shortUsername creds c) := by
  have hlt : creds.ufrag.length < (shortUsername creds c).length := by
    unfold shortUsername
    rw [length_append]
    exact Nat.lt_add_of_pos_right (Nat.succ_pos _)
  have hcolon : byteAt (shortUsername creds c) creds.ufrag.length = 58 := by
    unfold shortUsername
    rw [byteAt_append (k := 0) (Nat.add_zero _).symm]
    rfl
  unfold usernameMatches
  rw [decide_eq_true hlt, hcolon]
  unfold shortUsername
  simp

end

/-- **Which binding requests are decided on authenticated bytes only**: for a packet that passes,
every other packet that passes with the same covered bytes shows the same USERNAME, ufrag of the
client and USE-CANDIDATE, exactly if a USERNAME comes before MESSAGE-INTEGRITY. -/
theorem stun_decisions_covered_iff (mac : Mac) (creds : IceCredentials) (maxLen : ℕ)
    (data : List UInt8) (hpass : passes mac creds data = true) :
    (∀ data', passes mac creds data' = true → covered data' = covered data →
      SameDecisions creds maxLen data data') ↔ UsernameFirst data := by
  obtain ⟨k, h⟩ := passes_iff.1 hpass
  constructor
  · intro hall
    by_contra hfirst
    -- one of two appended USERNAMEs is another than the one that was found
    have hforged : ∀ c, findUsername data = some (shortUsername creds c) := by
      intro c
      obtain ⟨hpassed, hcovered, hfind⟩ := h.appendUsername hfirst (shortUsername creds c)
        (length_shortUsername creds c) (usernameMatches_short creds c)
      rw [← (hall _ (passes_iff.2 ⟨k, hpassed⟩) hcovered).username, hfind]
    have heq := (hforged 97).symm.trans (hforged 98)
    unfold shortUsername at heq
    rw [Option.some.injEq, append_cancel_left_eq] at heq
    cases heq
  · intro hfirst data' hpass' hcovered
    obtain ⟨k', h'⟩ := passes_iff.1 hpass'
    exact h.sameDecisions h' hcovered hfirst maxLen

def requestHeader : List UInt8 := [0, 1, 0, 0, 0x21, 0x12, 0xA4, 0x42] ++ List.replicate 12 0

def integrityAttr : List UInt8 := [0, 8, 0, 20] ++ List.replicate 20 7

/-- A USERNAME `a:` with a ufrag of one letter, padded. -/
def usernameAttr (c : UInt8) : List UInt8 := [0, 6, 0, 3, 97, 58, c, 0]

def oneLetter : IceCredentials := ⟨[97], [], by decide, by decide⟩

theorem stun_decisions_covered_iff_first :
    let mac : Mac := fun _ _ => List.replicate 20 7
    let data := requestHeader ++ usernameAttr 98 ++ integrityAttr
    passes mac oneLetter data = true ∧ UsernameFirst data ∧
      ∀ data', passes mac oneLetter data' = true → covered data' = covered data →
        SameDecisions oneLetter 32 data data' :=
  have hfirst : UsernameFirst (requestHeader ++ usernameAttr 98 ++ integrityAttr) :=
    ⟨0, by decide, fun j hj => absurd hj (Nat.not_lt_zero j)⟩
  ⟨by decide, hfirst, (stun_decisions_covered_iff _ oneLetter 32 _ (by decide)).2 hfirst⟩

/-- Two packets that pass with the same covered bytes, the header, and different ufrags of the
client behind MESSAGE-INTEGRITY. -/
theorem stun_appended_username :
    let mac : Mac := fun _ _ => List.replicate 20 7
    let data := requestHeader ++ integrityAttr ++ usernameAttr 98
    let data' := requestHeader ++ integrityAttr ++ usernameAttr 99
    passes mac oneLetter data = true ∧ passes mac oneLetter data' = true ∧
      covered data' = covered data ∧ extractClientUfrag data oneLetter.ufrag 32 = some [98] ∧
      extractClientUfrag data' oneLetter.ufrag 32 = some [99] := by
  decide

/-- What a client looks at in a response. -/
structure Answers (mac : Mac) (pwd data : List UInt8) (src : SockaddrIn) (resp : List UInt8) :
    Prop where
  type : isStunPacket resp ∧ readBe16 resp 0 = stunTypeBindingResp
  length : readBe16 resp 2 + stunHeaderLen = resp.length
  transaction : slice resp 8 12 = slice data 8 12
  mapped : attrType resp 20 = attrXorMappedAddress
  port : readBe16 resp 26 ^^^ stunMagicCookie / 2 ^ 16 = src.port.toNat
  addr : readBe32 resp 28 ^^^ stunMagicCookie = src.addr.toNat
  integrity : verifyMessageIntegrity mac resp (findMessageIntegrity resp) pwd
  fingerprint : attrType resp 56 = attrFingerprint ∧
    readBe32 resp 60 = (crc32Ieee (resp.take 56) ^^^ 0x5354554E).toNat

lemma exists_ofFn {n : ℕ} (h : data.length = n) : ∃ f : Fin n → UInt8, data = ofFn f := by
  subst h
  exact ⟨data.get, (ofFn_get data).symm⟩

/-- A response up to MESSAGE-INTEGRITY. -/
def responseTo (t : Fin 12 → UInt8) (src : SockaddrIn) (len : ℕ) : List UInt8 :=
  writeBe16 stunTypeBindingResp ++ writeBe16 len ++ writeBe32 stunMagicCookie ++ ofFn t ++
    xorMappedAddress src

lemma answers_append (hmac : ∀ key text, (mac key text).length = 20) (pwd : List UInt8)
    (src : SockaddrIn) {t : Fin 12 → UInt8} (ht : slice data 8 12 = ofFn t) :
    Answers mac pwd data src (appendIntegrityAndFingerprint mac (responseTo t src 0) pwd) := by
  obtain ⟨m, hm⟩ := exists_ofFn (hmac pwd (responseTo t src 36))
  let signed := responseTo t src 44 ++ (writeBe16 attrMessageIntegrity ++ (writeBe16 20 ++ ofFn m))
  have happend : appendIntegrityAndFingerprint mac (responseTo t src 0) pwd =
      signed ++ (writeBe16 attrFingerprint ++ (writeBe16 4 ++
        writeBe32 (crc32Ieee signed ^^^ 0x5354554E).toNat)) := by
    have hpatch : patchLength (responseTo t src 0)
      ((responseTo t src 0).length - stunHeaderLen + 24) = responseTo t src 36 := rfl
    unfold appendIntegrityAndFingerprint
    simp only [hpatch, hm]
    rfl
  rw [happend]
  -- every byte has its place now, so the fields can be read
  set resp := signed ++ _
  have hlength : resp.length = 64 := rfl
  have hfirst : byteAt resp 0 = 1 := rfl
  have hmagic : readBe32 resp 4 = stunMagicCookie := readBe32_writeBe32 (by decide)
  have htotal : readBe16 resp 2 = 44 := readBe16_writeBe16 (by decide)
  have hmapped : attrType resp 20 = attrXorMappedAddress := readBe16_writeBe16 (by decide)
  have hnext : attrLen resp 20 = 8 := readBe16_writeBe16 (by decide)
  have hport : readBe16 resp 26 = src.port.toNat ^^^ stunMagicCookie / 2 ^ 16 :=
    readBe16_writeBe16 (Nat.xor_lt_two_pow src.port.toNat_lt (by decide))
  have haddr : readBe32 resp 28 = src.addr.toNat ^^^ stunMagicCookie :=
    readBe32_writeBe32 (Nat.xor_lt_two_pow src.addr.toNat_lt (by decide))
  have hintegrity : attrType resp 32 = attrMessageIntegrity := readBe16_writeBe16 (by decide)
  have hscratch : scratch resp 32 = responseTo t src 36 := rfl
  have hvalue : slice resp 36 20 = ofFn m := rfl
  have hfind : findMessageIntegrity resp = some 32 := by
    simp [findMessageIntegrity, hlength, stunHeaderLen, OffsetWalk.find, hmapped, nextAttr, hnext,
      padded, hintegrity, attrXorMappedAddress, attrMessageIntegrity]
  refine ⟨⟨?_, readBe16_writeBe16 (by decide)⟩, ?_, ht.symm, hmapped, ?_, ?_, ?_,
    readBe16_writeBe16 (by decide), readBe32_writeBe32 (UInt32.toNat_lt _)⟩
  · rw [isStunPacket, hmagic, hlength, hfirst]
    rfl
  · rw [htotal, hlength, stunHeaderLen]
  · rw [hport, Nat.xor_assoc, Nat.xor_self, Nat.xor_zero]
  · rw [haddr, Nat.xor_assoc, Nat.xor_self, Nat.xor_zero]
  · simp [hfind, verifyMessageIntegrity, hlength, hscratch, hm, hvalue, scratchSize]

/-- **Who passes is answered**, and who knows the password accepts the answer and learns its own
address from it. -/
theorem binding_request_answered (hmac : ∀ key text, (mac key text).length = 20)
    (creds : IceCredentials) (data : List UInt8) (src : SockaddrIn) (outBufCap : ℕ) :
    let response := handleBindingRequest mac creds data (some src) outBufCap
    (response.isSome ↔ passes mac creds data ∧ 64 ≤ outBufCap) ∧
      ∀ resp, response = some resp → Answers mac creds.pwd data src resp := by
  intro response
  unfold response handleBindingRequest stunHeaderLen
  rw [Option.bind_some]
  split_ifs with hpass hcap
  · simp [hcap]
  · refine ⟨by simp [hpass, not_lt.1 hcap], ?_⟩
    rintro resp ⟨⟩
    simp only [passes, isBindingRequest, isStunPacket, Bool.and_eq_true, decide_eq_true_eq] at hpass
    have hlen : 12 + 8 ≤ data.length := hpass.1.1.1.1.1
    have hslice : (slice data 8 12).length = 12 := by
      rw [slice, length_take, length_drop, Nat.min_eq_left (Nat.le_sub_of_add_le hlen)]
    obtain ⟨t, ht⟩ := exists_ofFn hslice
    rw [ht]
    exact answers_append hmac creds.pwd src ht
  · simp [hpass]

theorem binding_request_answered_first :
    (handleBindingRequest (fun _ _ => replicate 20 7) oneLetter
      (requestHeader ++ usernameAttr 98 ++ integrityAttr) (some ⟨9, 10⟩) 64).isSome :=
  (binding_request_answered (fun _ _ => length_replicate) oneLetter _ ⟨9, 10⟩ 64).1.2
    ⟨by decide, le_rfl⟩

end MezonSfu.Stun
