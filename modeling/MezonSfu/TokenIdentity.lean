import MezonSfu.Handshake

/-!
What the claims of a token are, where they can be trusted.

The first place of a payload where the quoted name of a claim stands is its key, if it stands
nowhere before; then the integer behind it is read exactly, if it is one of 64 bits that is
written next to its key. The room may stand in the object of the claim `video`.
-/

namespace MezonSfu.Handshake

open Json List Option

variable {needle json name left rest raw : List UInt8} {d : Digits} {v : ℤ}

lemma afterFirst_self (needle rest : List UInt8) :
    afterFirst needle (needle ++ rest) = some rest := by
  have hpre : needle.isPrefixOf (needle ++ rest) := List.isPrefixOf_iff_prefix.2 (prefix_append ..)
  cases h : needle ++ rest with
  | nil =>
    obtain ⟨rfl, rfl⟩ := append_eq_nil_iff.1 h
    rfl
  | cons c tail =>
    rw [h] at hpre
    unfold afterFirst
    rw [if_pos hpre, ← h, drop_left]

lemma afterFirst_of_first (left needle rest : List UInt8)
    (h : ∀ i < left.length, ¬ needle <+: (left ++ (needle ++ rest)).drop i) :
    afterFirst needle (left ++ (needle ++ rest)) = some rest := by
  induction left with
  | nil => exact afterFirst_self needle rest
  | cons c left ih =>
    have hhere : ¬ needle.isPrefixOf (c :: (left ++ (needle ++ rest))) := by
      rw [List.isPrefixOf_iff_prefix]
      exact h 0 (Nat.succ_pos _)
    rw [cons_append]
    unfold afterFirst
    rw [if_neg hhere]
    exact ih fun i hi => h (i + 1) (Nat.succ_lt_succ hi)

/-! ### Integers -/

def NoDigit (rest : List UInt8) : Prop := ∀ c, rest.head? = some c → isDigit c = false

lemma takeWhile_digits (d : Digits) (h : NoDigit rest) :
    (d.text ++ rest).takeWhile isDigit = d.text := by
  rw [takeWhile_append_of_pos d.digits]
  cases rest with
  | nil => rw [takeWhile_nil, append_nil]
  | cons c tail =>
    rw [takeWhile_cons, h c rfl, if_neg Bool.false_ne_true, append_nil]

lemma dropWhile_digits (d : Digits) (h : NoDigit rest) :
    (d.text ++ rest).dropWhile isDigit = rest := by
  rw [dropWhile_append_of_pos d.digits]
  cases rest with
  | nil => rfl
  | cons c tail => rw [dropWhile_cons, h c rfl, if_neg Bool.false_ne_true]

lemma Digits.exists_cons (d : Json.Digits) : ∃ c tail, d.text = c :: tail ∧ isDigit c := by
  obtain ⟨c, tail, h⟩ := exists_cons_of_ne_nil d.ne_nil
  exact ⟨c, tail, h, d.digits c (h ▸ mem_cons_self ..)⟩

variable {c : UInt8} {negative : Bool} {gap : List UInt8} {doc : Document}

lemma isDigit_iff : isDigit c ↔ 48 ≤ c.toNat ∧ c.toNat ≤ 57 := by
  unfold isDigit
  rw [Bool.and_eq_true, decide_eq_true_eq, decide_eq_true_eq, UInt8.le_iff_toNat_le,
    UInt8.le_iff_toNat_le]
  rfl

lemma isDigit_ne {k : UInt8} (h : isDigit c) (hk : isDigit k = false) : c ≠ k := by
  rintro rfl
  rw [h] at hk
  cases hk

lemma isSpace_of_isDigit (h : isDigit c) : isSpace c = false := by
  obtain ⟨hlo, -⟩ := isDigit_iff.1 h
  have h32 : (c == 32) = false := beq_eq_false_iff_ne.2 (isDigit_ne h rfl)
  have h13 : decide (c ≤ 13) = false := by
    rw [decide_eq_false_iff_not, UInt8.le_iff_toNat_le]
    change ¬ c.toNat ≤ 13
    omega
  unfold isSpace
  rw [h32, h13, Bool.and_false]
  rfl

lemma splitSign_int (negative : Bool) (d : Digits) (rest : List UInt8) :
    splitSign ((intText negative d ++ rest).dropWhile isSpace) = (negative, d.text ++ rest) := by
  cases negative with
  | true => rfl
  | false =>
    obtain ⟨c, tail, hc, hdigit⟩ := Digits.exists_cons d
    unfold intText
    rw [if_neg Bool.false_ne_true, nil_append, hc, cons_append, dropWhile_cons,
      isSpace_of_isDigit hdigit, if_neg Bool.false_ne_true]
    have hminus : c ≠ 45 := isDigit_ne hdigit rfl
    have hplus : c ≠ 43 := isDigit_ne hdigit rfl
    unfold splitSign
    dsimp only
    rw [if_neg hminus, if_neg hplus]

/-- **`strtoll`** reads an integer of 64 bits exactly. -/
lemma strtoll_int (negative : Bool) (d : Digits) (h : NoDigit rest)
    (hmin : int64Min ≤ intValue negative d) (hmax : intValue negative d ≤ int64Max) :
    strtoll (intText negative d ++ rest) = (intValue negative d, rest) := by
  have hne : d.text.isEmpty = false := by
    obtain ⟨c, tail, hc, -⟩ := Digits.exists_cons d
    rw [hc]
    rfl
  have hclamp : max int64Min (min int64Max (intValue negative d)) = intValue negative d := by
    rw [min_eq_right hmax, max_eq_right hmin]
  unfold strtoll
  rw [splitSign_int]
  dsimp only
  rw [takeWhile_digits d h, dropWhile_digits d h, hne, if_neg Bool.false_ne_true]
  exact congrArg (·, rest) hclamp

lemma mem_intText (h : c ∈ intText negative d) : c = 45 ∨ isDigit c := by
  unfold intText at h
  rw [mem_append] at h
  rcases h with h | h
  · cases negative with
    | true => exact .inl (mem_singleton.1 h)
    | false => cases h
  · exact .inr (d.digits c h)

lemma intText_ne (h : c ∈ intText negative d) :
    c ≠ 34 ∧ c ≠ 92 ∧ c ≠ 0 ∧ c ≠ 32 ∧ c ≠ 9 ∧ c ≠ 58 := by
  rcases mem_intText h with rfl | hdigit
  · decide
  · exact ⟨isDigit_ne hdigit rfl, isDigit_ne hdigit rfl, isDigit_ne hdigit rfl,
      isDigit_ne hdigit rfl, isDigit_ne hdigit rfl, isDigit_ne hdigit rfl⟩

lemma exists_cons_intText (negative : Bool) (d : Digits) :
    ∃ c tail, intText negative d = c :: tail := by
  obtain ⟨c, tail, hc, -⟩ := Digits.exists_cons d
  cases negative with
  | true => exact ⟨45, d.text, rfl⟩
  | false => exact ⟨c, tail, hc⟩

lemma copyString_plain (outCap : ℕ) (out : List UInt8) (hplain : ∀ c ∈ raw, c ≠ 34 ∧ c ≠ 92)
    (hcap : out.length + raw.length < outCap) :
    copyString outCap (raw ++ 34 :: rest) out = some (out ++ raw) := by
  induction raw generalizing out with
  | nil =>
    rw [nil_append, append_nil]
    unfold copyString
    rw [if_pos rfl]
  | cons c raw ih =>
    obtain ⟨hquote, hslash⟩ := hplain c (mem_cons_self ..)
    rw [length_cons] at hcap
    rw [cons_append]
    unfold copyString
    rw [if_neg hquote, if_neg hslash, if_neg (by omega),
      ih _ (fun x hx => hplain x (mem_cons_of_mem _ hx))
        (by rw [length_append, length_singleton]; omega), append_assoc]
    rfl

lemma cString_append {s : List UInt8} (h : ∀ c ∈ s, c ≠ 0) (rest : List UInt8) :
    cString (s ++ rest) = s ++ cString rest :=
  takeWhile_append_of_pos fun c hc => decide_eq_true (h c hc)

lemma noDigit_cString (h : NoDigit rest) : NoDigit (cString rest) := by
  intro c hc
  cases rest with
  | nil => cases hc
  | cons x tail =>
    unfold cString at hc
    rw [takeWhile_cons] at hc
    split at hc
    · exact h c hc
    · cases hc

/-- A claim that is found where it is written: its name stands nowhere before, only spaces, or tabs
before a number, are between it and its value, and the value is an integer of 64 bits of at most 31
characters. -/
structure Plain (doc : Document) (name : List UInt8) (m : Member) (left : List UInt8) (v : ℤ) :
    Prop where
  key : rawText m.key = name
  first : ∀ i < (left ++ m.before.text).length, ¬ quoted name <+: doc.text.drop i
  gap : ∀ c ∈ m.beforeColon.text ++ 58 :: m.afterColon.text,
    c = 32 ∨ c = 58 ∨ c = 9 ∧ m.value.text.head? ≠ some 34
  writes : m.value.WritesInt v
  short : m.value.text.length ≤ 33
  min : int64Min ≤ v
  max : v ≤ int64Max

lemma dropWhile_gap {skip : UInt8 → Bool} (hgap : ∀ c ∈ gap, skip c) (hc : skip c = false) :
    (gap ++ c :: rest).dropWhile skip = c :: rest := by
  rw [dropWhile_append_of_pos hgap, dropWhile_cons, hc, if_neg Bool.false_ne_true]

lemma extract_num (negative : Bool) (hname : (quoted name).length < 96)
    (hafter : afterFirst (quoted name) json = some (gap ++ (intText negative d ++ rest)))
    (hgap : ∀ c ∈ gap, c = 32 ∨ c = 58 ∨ c = 9) (hrest : NoDigit rest)
    (hmin : int64Min ≤ intValue negative d) (hmax : intValue negative d ≤ int64Max) :
    extractJsonInt64 json name = some (intValue negative d) := by
  obtain ⟨c, tail, hc⟩ := exists_cons_intText negative d
  have hmem : c ∈ intText negative d := hc ▸ mem_cons_self ..
  obtain ⟨h34, -, -, h32, h9, h58⟩ := intText_ne hmem
  have hskip : (gap ++ (intText negative d ++ rest)).dropWhile
      (fun c => c == 32 || c == 9 || c == 58) = intText negative d ++ rest := by
    rw [hc, cons_append]
    refine dropWhile_gap (fun x hx => ?_) (by simp [h32, h9, h58])
    rcases hgap x hx with rfl | rfl | rfl <;> rfl
  have hstart : ¬ (c ≠ 45 ∧ (!isDigit c)) := by
    rintro ⟨hminus, hdigit⟩
    rcases mem_intText hmem with rfl | h
    · exact hminus rfl
    · rw [h] at hdigit
      cases hdigit
  have hstr : cString (intText negative d ++ rest) = intText negative d ++ cString rest :=
    cString_append (fun c hc => (intText_ne hc).2.2.1) rest
  have hread := strtoll_int negative d (noDigit_cString hrest) hmin hmax
  have hlen : ¬ (cString rest).length = (intText negative d ++ cString rest).length := by
    rw [length_append, hc, length_cons]
    omega
  unfold extractJsonInt64
  rw [if_neg (not_le.2 hname), hafter, bind_some, hskip]
  rw [hc, cons_append]
  dsimp only
  rw [if_neg h34, if_neg hstart, ← cons_append, ← hc, hstr, hread]
  rw [if_neg hlen]

lemma extract_str (negative : Bool) (hname : (quoted name).length < 96)
    (hjson : (quoted name).length ≤ json.length)
    (hafter : afterFirst (quoted name) json = some (gap ++ (quoted (intText negative d) ++ rest)))
    (hgap : ∀ c ∈ gap, c = 32 ∨ c = 58) (hshort : (intText negative d).length < 32)
    (hmin : int64Min ≤ intValue negative d) (hmax : intValue negative d ≤ int64Max) :
    extractJsonInt64 json name = some (intValue negative d) := by
  have hquoted : quoted (intText negative d) ++ rest =
      34 :: (intText negative d ++ 34 :: rest) := by
    unfold quoted
    simp only [cons_append, append_assoc, nil_append]
  rw [hquoted] at hafter
  have hskip : ∀ {skip : UInt8 → Bool}, skip 32 → skip 58 → ∀ c ∈ gap, skip c := by
    intro skip h32 h58 c hc
    rcases hgap c hc with rfl | rfl
    · exact h32
    · exact h58
  have hcopy : copyString 32 (intText negative d ++ 34 :: rest) [] = some (intText negative d) :=
    copyString_plain 32 [] (fun c hc => ⟨(intText_ne hc).1, (intText_ne hc).2.1⟩)
      (by rw [length_nil]; omega)
  have hbuf : jsonExtractString json name 32 = some (intText negative d) := by
    unfold jsonExtractString
    rw [if_neg (by omega), hafter, bind_some, dropWhile_gap (hskip rfl rfl) rfl]
    dsimp only
    rw [if_pos rfl, hcopy]
  have hne : ∀ c ∈ intText negative d, c ≠ 0 := fun c hc => (intText_ne hc).2.2.1
  have hstr : cString (intText negative d) = intText negative d := by
    have h := cString_append hne []
    rwa [append_nil, show cString [] = [] from rfl, append_nil] at h
  have hnil : NoDigit [] := nofun
  have hread := strtoll_int negative d hnil hmin hmax
  rw [append_nil] at hread
  unfold extractJsonInt64
  rw [if_neg (not_le.2 hname), hafter, bind_some, dropWhile_gap (hskip rfl rfl) rfl]
  dsimp only
  rw [if_pos rfl, hbuf, bind_some, hstr, hread]
  rfl

lemma Delimits.noDigit (h : Delimits rest) : NoDigit rest := by
  obtain ⟨c, tail, rfl, hc⟩ := h
  intro x hx
  cases hx
  rcases hc with hc | rfl | rfl
  · unfold isBlank at hc
    simp only [Bool.or_eq_true, beq_iff_eq] at hc
    rcases hc with ((rfl | rfl) | rfl) | rfl <;> rfl
  · rfl
  · rfl

/-- **A plain claim is read exactly.** -/
lemma Plain.extract {m : Member} {right : List UInt8} (h : Plain doc name m left v)
    (htext : doc.text = left ++ (m.text ++ right)) (hright : Delimits right)
    (hname : (quoted name).length < 96) : extractJsonInt64 doc.text name = some v := by
  have hsplit : doc.text = (left ++ m.before.text) ++ (quoted name ++
      ((m.beforeColon.text ++ 58 :: m.afterColon.text) ++
        (m.value.text ++ (m.after.text ++ right)))) := by
    rw [htext, m.text_eq]
    unfold Member.front
    rw [h.key]
    simp only [append_assoc, cons_append]
  have hafter := afterFirst_of_first (left ++ m.before.text) (quoted name)
    ((m.beforeColon.text ++ 58 :: m.afterColon.text) ++
      (m.value.text ++ (m.after.text ++ right))) (by rw [← hsplit]; exact h.first)
  rw [← hsplit] at hafter
  have hlen : (quoted name).length ≤ doc.text.length := by
    rw [hsplit, length_append, length_append, length_append]
    omega
  have hrest := Delimits.noDigit (delimits_space m.after hright)
  have hshort := h.short
  have hmin := h.min
  have hmax := h.max
  cases hvalue : m.value with
  | num n =>
    have hwrites := h.writes
    rw [hvalue] at hwrites hafter
    cases hwrites with
    | num n hfraction hexponent =>
      have hnum : (Value.num n).text = intText n.negative n.int := by
        rw [Value.text, Number.text, hfraction, hexponent]
        simp
      rw [hnum] at hafter
      exact extract_num _ hname hafter (fun c hc => (h.gap c hc).imp_right (.imp_right And.left))
        hrest hmin hmax
  | str s =>
    have hwrites := h.writes
    rw [hvalue] at hwrites hafter hshort
    cases hwrites with
    | str s negative d hraw =>
      have hgap : ∀ c ∈ m.beforeColon.text ++ 58 :: m.afterColon.text, c = 32 ∨ c = 58 := by
        intro c hc
        refine (h.gap c hc).imp_right fun h58 => h58.resolve_right fun h9 => h9.2 ?_
        rw [hvalue]
        rfl
      rw [Value.text, hraw] at hafter hshort
      refine extract_str _ hname hlen hafter hgap ?_ hmin hmax
      unfold quoted at hshort
      rw [length_cons, length_append, length_singleton] at hshort
      omega
  | null | bool | arr | obj =>
    have hwrites := h.writes
    rw [hvalue] at hwrites
    cases hwrites

def tokenPayload (crypto : Crypto) (token : List UInt8) : Option (List UInt8) :=
  (tokenParts token).bind (payloadJson crypto)

lemma verified_claims {crypto : Crypto} {token secret : List UInt8} {now : ℤ} {claims : JwtClaims}
    (h : handshakeVerifyTokenClaims crypto token secret now = some claims)
    (hpayload : tokenPayload crypto token = some json) :
    claims = readClaims json ∧ claims.roomId ≠ 0 := by
  obtain ⟨parsed, hparse, h⟩ := bind_eq_some_iff.1 h
  split at h
  · cases h
  rename_i hzero
  split at h
  · cases h
  cases h
  refine ⟨?_, fun hroom => hzero (.inr hroom)⟩
  unfold jwtParseHs256 at hparse
  split at hparse
  · cases hparse
  obtain ⟨parts, hparts, hparse⟩ := bind_eq_some_iff.1 hparse
  unfold tokenPayload at hpayload
  rw [hparts, bind_some] at hpayload
  split at hparse
  · cases hparse
  obtain ⟨header, -, hparse⟩ := bind_eq_some_iff.1 hparse
  obtain ⟨alg, -, hparse⟩ := bind_eq_some_iff.1 hparse
  split at hparse
  · cases hparse
  · rw [hpayload, map_some, Option.some.injEq] at hparse
    exact hparse.symm

/-- Where the quoted name first stands, if it does, nothing follows that is read as a value. -/
def Unread (doc : Document) (name : List UInt8) : Prop :=
  ∀ rest ∈ afterFirst (quoted name) doc.text,
    ∀ c ∈ (rest.dropWhile fun c => c == 32 || c == 9 || c == 58).head?,
      c ≠ 34 ∧ c ≠ 45 ∧ isDigit c = false

/-- The integer that is written in the claim `identity` or, if no value follows that name, in the
claim `sub`. -/
def IdentityIs (doc : Document) (v : ℤ) : Prop :=
  (∃ m left right, doc.TopLevel m left right ∧ Plain doc (ascii "identity") m left v) ∨
    (Unread doc (ascii "identity") ∧
      ∃ m left right, doc.TopLevel m left right ∧ Plain doc (ascii "sub") m left v)

/-- The integer that is written in the claim `room`, or as the room in the claim `video`. -/
def RoomIs (doc : Document) (v : ℤ) : Prop :=
  ∃ m left right, (doc.TopLevel m left right ∨ doc.Inside (ascii "video") m left right) ∧
    Plain doc (ascii "room") m left v

lemma IdentityIs.userId (h : IdentityIs doc v) : (readClaims doc.text).userId = v := by
  unfold readClaims
  rcases h with ⟨m, left, right, htop, hplain⟩ | ⟨hunread, m, left, right, htop, hplain⟩
  · rw [hplain.extract htop.text htop.delimits (by decide)]
    rfl
  have hnone : extractJsonInt64 doc.text (ascii "identity") = none := by
    unfold extractJsonInt64
    rw [if_neg (by decide)]
    cases hafter : afterFirst (quoted (ascii "identity")) doc.text with
    | none => rfl
    | some rest =>
      rw [bind_some]
      cases hvalue : rest.dropWhile fun c => c == 32 || c == 9 || c == 58 with
      | nil => rfl
      | cons c tail =>
        obtain ⟨h34, h45, hdigit⟩ := hunread rest hafter c (by rw [hvalue]; rfl)
        dsimp only
        rw [if_neg h34, if_pos ⟨h45, by rw [hdigit]; rfl⟩]
  rw [hnone, hplain.extract htop.text htop.delimits (by decide)]
  rfl

lemma RoomIs.extract (h : RoomIs doc v) : extractJsonInt64 doc.text (ascii "room") = some v := by
  obtain ⟨m, left, right, htop | hin, hplain⟩ := h
  · exact hplain.extract htop.text htop.delimits (by decide)
  · exact hplain.extract hin.text hin.delimits (by decide)

/-- **The identity of a token is exact**: an accepted token whose payload is an object with the
identity `v` and the room `r`, both plain, gives the user `v` and the room `r`. -/
theorem token_identity_exact (crypto : Crypto) (token secret : List UInt8) (now : ℤ)
    (claims : JwtClaims) (doc : Document) (v r : ℤ)
    (haccept : handshakeVerifyTokenClaims crypto token secret now = some claims)
    (hpayload : tokenPayload crypto token = some doc.text) (hidentity : IdentityIs doc v)
    (hroom : RoomIs doc r) : claims.userId = v ∧ (claims.roomId : ℤ) = r := by
  obtain ⟨hclaims, hne⟩ := verified_claims haccept hpayload
  have hroomId : claims.roomId = r.toNat := by
    rw [hclaims]
    unfold readClaims
    rw [hroom.extract]
    rfl
  refine ⟨by rw [hclaims, hidentity.userId], ?_⟩
  omega

/-! ### A token -/

def sextet (c : UInt8) : ℕ :=
  if 97 ≤ c then c.toNat - 71 else if 65 ≤ c then c.toNat - 65
  else if 48 ≤ c then c.toNat + 4 else if c = 43 then 62 else 63

/-- Base64 in blocks of four, with zeros for what is padded. -/
def base64Blocks : List UInt8 → Option (List UInt8)
  | [] => some []
  | a :: b :: c :: d :: rest =>
    (base64Blocks rest).map fun out =>
      let v := ([a, b, c, d].map fun x => if x = 61 then 0 else sextet x).foldl
        (fun v x => v * 64 + x) 0
      [UInt8.ofNat (v / 2 ^ 16), UInt8.ofNat (v / 2 ^ 8), UInt8.ofNat v] ++ out
  | _ => none

/-- A keyed hash of three bytes, and base64. -/
def sampleCrypto : Crypto := ⟨fun _ _ => [1, 2, 3], base64Blocks⟩

def plainPiece (c : UInt8) : Piece :=
  if h : 32 ≤ c ∧ c ≠ 34 ∧ c ≠ 92 then .plain c h else .escape 110 (by decide)

def plainText (s : String) : List Piece := (ascii s).map plainPiece

def plainMember (key : String) (value : Value) : Member :=
  .mk .none (plainText key) .none .none value .none

/-- The room stands in the claim `video`. -/
def sampleDocument : Document where
  lead := .none
  space := .none
  members :=
    [plainMember "identity" (.str (plainText "99")),
      plainMember "exp"
        (.num ⟨false, ⟨ascii "100", by decide, by decide +kernel⟩, by decide, none, none⟩),
      plainMember "video" (.obj .none [plainMember "room" (.str (plainText "101"))])]
  trail := .none

def sampleToken : List UInt8 :=
  ascii "eyJhbGciOiJIUzI1NiJ9." ++
    ascii "eyJpZGVudGl0eSI6Ijk5IiwiZXhwIjoxMDAsInZpZGVvIjp7InJvb20iOiIxMDEifX0" ++
    ascii ".AQID"

def sampleClaims : JwtClaims := ⟨99, 100, 0, 101, [], []⟩

example : sampleDocument.text =
    ascii "\x7b\"identity\":\"99\",\"exp\":100,\"video\":\x7b\"room\":\"101\"\x7d\x7d" := by
  decide +kernel

lemma sample_accepted : handshakeVerifyTokenClaims sampleCrypto sampleToken (ascii "secret") 50 =
    some sampleClaims := by
  decide +kernel

lemma sample_payload : tokenPayload sampleCrypto sampleToken = some sampleDocument.text := by
  decide +kernel

lemma writesInt_plain (s : String) (d : Digits) (hs : rawText (plainText s) = intText false d)
    (hv : intValue false d = v) : (Value.str (plainText s)).WritesInt v :=
  hv ▸ .str _ false d hs

lemma sample_identity : IdentityIs sampleDocument 99 := by
  refine .inl ⟨plainMember "identity" (.str (plainText "99")), _, _,
    ⟨_, _, ⟨[], _, rfl, rfl, rfl⟩, rfl, rfl⟩, ?_⟩
  exact ⟨by decide +kernel, by decide +kernel, by decide +kernel,
    writesInt_plain "99" ⟨ascii "99", by decide, by decide +kernel⟩ (by decide +kernel) (by decide),
    by decide +kernel, by decide, by decide⟩

lemma sample_room : RoomIs sampleDocument 101 := by
  refine ⟨plainMember "room" (.str (plainText "101")), _, _, .inr ⟨_, _, _, _, _, _, _,
    ⟨_, _, ⟨sampleDocument.members.take 2, [], rfl, rfl, rfl⟩, rfl, rfl⟩, by decide +kernel, rfl,
    ⟨[], [], rfl, rfl, rfl⟩, rfl, rfl⟩, ?_⟩
  exact ⟨by decide +kernel, by decide +kernel, by decide +kernel,
    writesInt_plain "101" ⟨ascii "101", by decide, by decide +kernel⟩ (by decide +kernel)
      (by decide), by decide +kernel, by decide, by decide⟩

theorem token_identity_exact_sample :
    tokenPayload sampleCrypto sampleToken = some sampleDocument.text ∧
      IdentityIs sampleDocument 99 ∧ RoomIs sampleDocument 101 ∧
      sampleClaims.userId = 99 ∧ (sampleClaims.roomId : ℤ) = 101 :=
  ⟨sample_payload, sample_identity, sample_room,
    token_identity_exact sampleCrypto sampleToken (ascii "secret") 50 sampleClaims sampleDocument
      99 101 sample_accepted sample_payload sample_identity sample_room⟩

/-- The token is accepted with a room, and its payload has no claim of that name. -/
theorem token_room_in_video :
    handshakeVerifyTokenClaims sampleCrypto sampleToken (ascii "secret") 50 =
        some sampleClaims ∧
      tokenPayload sampleCrypto sampleToken = some sampleDocument.text ∧
      sampleClaims.roomId = 101 ∧ ∀ m ∈ sampleDocument.members, rawText m.key ≠ ascii "room" :=
  ⟨sample_accepted, sample_payload, rfl, by decide +kernel⟩

end MezonSfu.Handshake
