import MezonSfu.Handshake

/-!
Room messages (`sfu_signaling_build_room_message`): the text of a client, escaped into the frame
that goes to the room. Lengths are those of the byte strings, whose conversions to `int` are not
modelled.
-/

namespace MezonSfu.RoomMessage

open Json Handshake List

def escapeByte (c : UInt8) : List UInt8 :=
  if c = 34 then [92, 34]
  else if c = 92 then [92, 92]
  else if c = 13 then [92, 114]
  else if c = 10 then [92, 110]
  else if c = 9 then [92, 116]
  else [c]

/-- The loop of `sfu_json_escape`, with room for a closing zero. -/
def escapeLoop (outCap : ℕ) : List UInt8 → List UInt8 → Option (List UInt8)
  | [], out => some out
  | c :: value, out =>
    if outCap ≤ out.length + (escapeByte c).length then none
    else escapeLoop outCap value (out ++ escapeByte c)

def jsonEscape (value : List UInt8) (outCap : ℕ) : Option (List UInt8) :=
  if outCap = 0 then none else escapeLoop outCap value []

def header : List UInt8 := ascii "\x7b\"type\":\"room_message\",\"message\":\""

def trailer (userId : ℤ) (peerId : ℕ) : List UInt8 :=
  ascii "\",\"user_id\":\"" ++ ascii (toString userId) ++ ascii "\",\"peer_id\":" ++
    ascii (toString peerId) ++ ascii "\x7d"

def buildRoomMessage (raw : List UInt8) (userId : ℤ) (peerId outCap : ℕ) : Option (List UInt8) :=
  if outCap = 0 ∨ raw = [] then none
  else if 96 ≤ (trailer userId peerId).length then none
  else if outCap ≤ header.length then none
  else
    (jsonEscape raw (outCap - header.length)).bind fun escaped =>
      if outCap - (header.length + escaped.length) < (trailer userId peerId).length then none
      else some (header ++ escaped ++ trailer userId peerId)

variable {raw value out frame rest : List UInt8} {userId : ℤ} {peerId outCap cap : ℕ}

/-- The loop ends well exactly when the text and its closing zero fit. -/
lemma escapeLoop_eq (h : out.length < outCap) :
    escapeLoop outCap value out =
      if outCap ≤ (out ++ value.flatMap escapeByte).length then none
      else some (out ++ value.flatMap escapeByte) := by
  induction value generalizing out with
  | nil =>
    rw [flatMap_nil, append_nil, if_neg h.not_ge]
    rfl
  | cons c value ih =>
    unfold escapeLoop
    rw [flatMap_cons, ← append_assoc]
    split_ifs with hc hall hall
    · rfl
    · simp only [length_append] at hall
      omega
    all_goals
      rw [ih (by rw [length_append]; omega)]
    · exact if_pos hall
    · exact if_neg hall

/-- **Copying undoes the escapes**, up to the quote that closes the string. -/
lemma copyString_escaped (h : out.length + raw.length < cap) :
    copyString cap (raw.flatMap escapeByte ++ 34 :: rest) out = some (out ++ raw) := by
  induction raw generalizing out with
  | nil =>
    change copyString cap (34 :: rest) out = _
    unfold copyString
    rw [if_pos rfl, append_nil]
  | cons c raw ih =>
    have hroom : ¬ cap ≤ out.length + 1 := by
      rw [length_cons] at h
      omega
    have hnext : ∀ e, copyString cap (raw.flatMap escapeByte ++ 34 :: rest) (out ++ [e]) =
        some (out ++ e :: raw) := by
      intro e
      have hlen : (out ++ [e]).length + raw.length < cap := by
        rw [length_append, length_singleton]
        rw [length_cons] at h
        omega
      rw [ih hlen, append_assoc]
      rfl
    have hescape : ∀ e, unescape e = c →
        copyString cap (92 :: e :: (raw.flatMap escapeByte ++ 34 :: rest)) out =
          some (out ++ c :: raw) := by
      rintro e rfl
      simp only [copyString, if_neg hroom]
      exact hnext _
    rw [flatMap_cons, append_assoc]
    unfold escapeByte
    split_ifs with h1 h2 h3 h4 h5
    · exact hescape 34 h1.symm
    · exact hescape 92 h2.symm
    · exact hescape 114 h3.symm
    · exact hescape 110 h4.symm
    · exact hescape 116 h5.symm
    · change copyString cap (c :: _) out = _
      unfold copyString
      rw [if_neg h1, if_neg h2, if_neg hroom]
      exact hnext c

lemma afterFirst_header (rest : List UInt8) :
    afterFirst (quoted (ascii "message")) (header ++ rest) = some (58 :: 34 :: rest) := by
  rfl

/-- The frame of a message: the escaped text between the header and the trailer. -/
def message (raw : List UInt8) (userId : ℤ) (peerId : ℕ) : List UInt8 :=
  header ++ raw.flatMap escapeByte ++ trailer userId peerId

lemma buildRoomMessage_eq :
    buildRoomMessage raw userId peerId outCap =
      if outCap = 0 ∨ raw = [] then none
      else if 96 ≤ (trailer userId peerId).length then none
      else if outCap < (message raw userId peerId).length then none
      else some (message raw userId peerId) := by
  have htrailer : 0 < (trailer userId peerId).length := by simp [trailer, ascii]
  have hlen : (message raw userId peerId).length =
      header.length + (raw.flatMap escapeByte).length + (trailer userId peerId).length := by
    simp only [message, length_append]
  unfold buildRoomMessage
  refine if_congr Iff.rfl rfl (if_congr Iff.rfl rfl ?_)
  split_ifs with hhead hlong hlong
  · rfl
  · omega
  all_goals
    unfold jsonEscape
    rw [if_neg (by omega), escapeLoop_eq (by simpa using hhead), nil_append]
  · split_ifs with hcap
    · rfl
    · exact if_pos (by omega)
  · rw [if_neg (by omega)]
    exact if_neg (by omega)

/-- **Room messages survive the round trip.** -/
theorem room_message_round_trip (h : buildRoomMessage raw userId peerId outCap = some frame)
    (hcap : raw.length < cap) : jsonExtractString frame (ascii "message") cap = some raw := by
  rw [buildRoomMessage_eq] at h
  split_ifs at h
  obtain ⟨rest, hrest⟩ : ∃ rest, trailer userId peerId = 34 :: rest := ⟨_, rfl⟩
  cases h
  rw [message, hrest, append_assoc]
  have hcopy : copyString cap (raw.flatMap escapeByte ++ 34 :: rest) [] = some raw :=
    copyString_escaped (by simpa using hcap)
  have hlen : (quoted (ascii "message")).length = 9 ∧ header.length = 34 := by decide
  unfold jsonExtractString
  rw [if_neg, afterFirst_header]
  · exact hcopy
  · rw [hlen.1, length_append, hlen.2]
    omega

/-- A message that looks like a field, with a quote, a backslash, a line break and a byte that is
not text. -/
theorem room_message_round_trip_quoted :
    ∃ frame, buildRoomMessage (ascii "\"message\":\\\n" ++ [1, 255]) (-7) 3 200 = some frame ∧
      jsonExtractString frame (ascii "message") 15 =
        some (ascii "\"message\":\\\n" ++ [1, 255]) := by
  have h : (buildRoomMessage (ascii "\"message\":\\\n" ++ [1, 255]) (-7) 3 200).isSome := by
    decide
  obtain ⟨frame, hframe⟩ := Option.isSome_iff_exists.1 h
  exact ⟨frame, hframe, room_message_round_trip hframe (by decide)⟩

/-- The ids have the widths of the source. -/
lemma length_trailer (huser : -2 ^ 63 ≤ userId ∧ userId < 2 ^ 63) (hpeer : peerId < 2 ^ 32) :
    (trailer userId peerId).length < 96 := by
  have hu : (ascii (toString userId)).length ≤ 20 := by
    rw [Int.toString_eq_repr, Int.repr_eq_if]
    simp only [ascii, length_map, String.length_toList]
    split_ifs
    · exact (Nat.repr_length userId.toNat 19 (by decide) (by omega)).trans (by decide)
    · rw [String.length_append]
      exact Nat.add_le_add_left (Nat.repr_length (-userId).toNat 19 (by decide) (by omega)) 1
  have hp : (ascii (toString peerId)).length ≤ 10 := by
    simp only [ascii, length_map, String.length_toList]
    exact Nat.repr_length peerId 10 (by decide) (by omega)
  have hfixed : (ascii "\",\"user_id\":\"").length = 13 ∧
      (ascii "\",\"peer_id\":").length = 12 ∧ (ascii "\x7d").length = 1 := by decide
  simp only [trailer, length_append]
  omega

/-- What the length of a message promises: the text and its closing zero fit, and it is refused
exactly when they do not. -/
def LengthLaw (raw : List UInt8) (userId : ℤ) (peerId outCap : ℕ) : Prop :=
  (∀ frame, buildRoomMessage raw userId peerId outCap = some frame → frame.length < outCap) ∧
  (buildRoomMessage raw userId peerId outCap = none ↔
    outCap < (message raw userId peerId).length + 1)

/-- **The law fails exactly where the text fills the buffer**: the closing zero is then written
behind it. -/
theorem length_law_iff (hraw : raw ≠ []) (huser : -2 ^ 63 ≤ userId ∧ userId < 2 ^ 63)
    (hpeer : peerId < 2 ^ 32) :
    LengthLaw raw userId peerId outCap ↔ (message raw userId peerId).length ≠ outCap := by
  have htrailer := length_trailer huser hpeer
  unfold LengthLaw
  rw [buildRoomMessage_eq, if_neg htrailer.not_ge]
  have hpos : 0 < (message raw userId peerId).length := by simp [message, header, ascii]
  split_ifs with hnone hlong
  · have hzero := hnone.resolve_right hraw
    exact iff_of_true ⟨nofun, iff_of_true rfl (by omega)⟩ (by omega)
  · exact iff_of_true ⟨nofun, iff_of_true rfl (by omega)⟩ (by omega)
  · simp only [Option.some.injEq, forall_eq', false_iff]
    omega

theorem length_law_short : LengthLaw (ascii "a\n") (-7) 3 200 :=
  (length_law_iff (by decide) (by decide) (by decide)).2 (by decide)

/-- A message of one byte into a buffer of the length of its frame. -/
theorem length_law_exact : ¬ LengthLaw (ascii "a") 7 3 63 := by
  intro h
  exact absurd (h.1 (message (ascii "a") 7 3) (by decide)) (by decide)

end MezonSfu.RoomMessage
