import MezonSfu.JsonText

/-!
The claims of a join token (`protocol/signaling/handshake.c`, `protocol/signaling/json_lite.c`).

A token is three parts in base64url: header, payload and signature. A claim is looked for as the
first place of the payload where its quoted name stands, whatever that is, and its integer is read
with `strtoll`. HMAC and the base64 decoder of the library are parameters; C strings end at the
first zero byte.
-/

namespace MezonSfu.Handshake

open Json

def sfuJwtMaxToken : ℕ := 4096
def sfuJwtMaxPart : ℕ := 3072
def evpMaxMdSize : ℕ := 64

/-- The routines of the library: HMAC-SHA256 and `EVP_DecodeBlock`. -/
structure Crypto where
  hmac : List UInt8 → List UInt8 → List UInt8
  decodeBlock : List UInt8 → Option (List UInt8)

def cString (buf : List UInt8) : List UInt8 := buf.takeWhile (· ≠ 0)

/-! ### `strtoll` -/

def int64Min : ℤ := -2 ^ 63
def int64Max : ℤ := 2 ^ 63 - 1

def isSpace (c : UInt8) : Bool := c == 32 || (9 ≤ c && c ≤ 13)

def digitsValue (ds : List UInt8) : ℕ := ds.foldl (fun v c => v * 10 + (c.toNat - 48)) 0

def splitSign : List UInt8 → Bool × List UInt8
  | [] => (false, [])
  | c :: t => if c = 45 then (true, t) else if c = 43 then (false, t) else (false, c :: t)

/-- `strtoll` in base 10: the value, which saturates, and where the number ends. -/
def strtoll (s : List UInt8) : ℤ × List UInt8 :=
  let r := splitSign (s.dropWhile isSpace)
  let ds := r.2.takeWhile isDigit
  if ds.isEmpty then (0, s)
  else
    let v : ℤ := if r.1 then -digitsValue ds else digitsValue ds
    (max int64Min (min int64Max v), r.2.dropWhile isDigit)

/-- What follows the first place where the needle stands. -/
def afterFirst (needle : List UInt8) : List UInt8 → Option (List UInt8)
  | [] => if needle.isPrefixOf [] then some [] else none
  | c :: rest =>
    if needle.isPrefixOf (c :: rest) then some ((c :: rest).drop needle.length)
    else afterFirst needle rest

def unescape (c : UInt8) : UInt8 :=
  if c = 110 then 10 else if c = 114 then 13 else if c = 116 then 9 else c

/-- The loop of `sfu_json_extract_string` that copies to a buffer of `outCap` bytes. -/
def copyString (outCap : ℕ) : List UInt8 → List UInt8 → Option (List UInt8)
  | [], _ => none
  | c :: rest, out =>
    if c = 34 then some out
    else if c = 92 then
      match rest with
      | [] => none
      | e :: rest =>
        if outCap ≤ out.length + 1 then none else copyString outCap rest (out ++ [unescape e])
    else if outCap ≤ out.length + 1 then none
    else copyString outCap rest (out ++ [c])

def jsonExtractString (json field : List UInt8) (outCap : ℕ) : Option (List UInt8) :=
  let needle := quoted field
  if outCap = 0 ∨ 128 ≤ needle.length ∨ json.length < needle.length then none
  else
    (afterFirst needle json).bind fun p =>
      match p.dropWhile fun c => c == 32 || c == 58 with
      | [] => none
      | c :: p => if c = 34 then copyString outCap p [] else none

def extractJsonInt64 (json field : List UInt8) : Option ℤ :=
  let needle := quoted field
  if 96 ≤ needle.length then none
  else
    (afterFirst needle json).bind fun p =>
      let p := p.dropWhile fun c => c == 32 || c == 9 || c == 58
      match p with
      | [] => none
      | c :: _ =>
        if c = 34 then
          (jsonExtractString json field 32).bind fun buf =>
            let r := strtoll (cString buf)
            if r.2.isEmpty then some r.1 else none
        else if c ≠ 45 ∧ !isDigit c then none
        else
          let r := strtoll (cString p)
          if r.2.length = (cString p).length then none else some r.1

/-! ### Tokens -/

/-- A character of base64url as one of base64; blanks are skipped. -/
def b64Char (c : UInt8) : Option (Option UInt8) :=
  if c = 45 then some (some 43)
  else if c = 95 then some (some 47)
  else if isDigit c || (65 ≤ c && c ≤ 90) || (97 ≤ c && c ≤ 122) || c == 43 || c == 47 then
    some (some c)
  else if c = 32 ∨ c = 10 ∨ c = 13 ∨ c = 9 then some none
  else none

/-- `b64url_decode`, to a buffer of `outCap` bytes. -/
def b64urlDecode (crypto : Crypto) (input : List UInt8) (outCap : ℕ) : Option (List UInt8) :=
  if outCap = 0 ∨ sfuJwtMaxPart < input.length then none
  else
    (input.mapM b64Char).bind fun chars =>
      let std := chars.reduceOption
      let std := std ++ List.replicate ((4 - std.length % 4) % 4) 61
      if outCap < std.length / 4 * 3 then none
      else
        (crypto.decodeBlock std).bind fun decoded =>
          let pad := (std.reverse.take 2).count 61
          if decoded.length < pad then none else some (decoded.take (decoded.length - pad))

/-- A token at its dots. -/
structure Parts where
  header : List UInt8
  payload : List UInt8
  signature : List UInt8

def splitDot (s : List UInt8) : Option (List UInt8 × List UInt8) :=
  if 46 ∈ s then some (s.takeWhile (· ≠ 46), (s.dropWhile (· ≠ 46)).tail) else none

def tokenParts (token : List UInt8) : Option Parts :=
  (splitDot token).bind fun a =>
    (splitDot a.2).bind fun b =>
      if 46 ∈ b.2 ∨ a.1 = [] ∨ b.1 = [] ∨ b.2 = [] then none else some ⟨a.1, b.1, b.2⟩

def signatureVerifies (crypto : Crypto) (secret : List UInt8) (parts : Parts) : Bool :=
  let expected := crypto.hmac secret (parts.header ++ 46 :: parts.payload)
  !expected.isEmpty && b64urlDecode crypto parts.signature evpMaxMdSize == some expected

def payloadJson (crypto : Crypto) (parts : Parts) : Option (List UInt8) :=
  b64urlDecode crypto parts.payload (sfuJwtMaxPart - 1)

structure JwtClaims where
  userId : ℤ
  exp : ℤ
  nbf : ℤ
  roomId : ℕ
  iss : List UInt8
  metadata : List UInt8
  deriving DecidableEq

def readClaims (json : List UInt8) : JwtClaims where
  userId :=
    ((extractJsonInt64 json (ascii "identity")).orElse fun _ =>
      extractJsonInt64 json (ascii "sub")).getD 0
  exp := (extractJsonInt64 json (ascii "exp")).getD 0
  nbf := (extractJsonInt64 json (ascii "nbf")).getD 0
  roomId := ((extractJsonInt64 json (ascii "room")).getD 0).toNat
  iss := cString ((jsonExtractString json (ascii "iss") 64).getD [])
  metadata := cString ((jsonExtractString json (ascii "metadata") 64).getD [])

def jwtParseHs256 (crypto : Crypto) (token secret : List UInt8) : Option JwtClaims :=
  if token = [] ∨ secret = [] ∨ sfuJwtMaxToken < token.length then none
  else
    (tokenParts token).bind fun parts =>
      if !signatureVerifies crypto secret parts then none
      else
        (b64urlDecode crypto parts.header (sfuJwtMaxPart - 1)).bind fun header =>
          (jsonExtractString header (ascii "alg") 16).bind fun alg =>
            if cString alg ≠ ascii "HS256" then none
            else (payloadJson crypto parts).map readClaims

/-- `sfu_handshake_verify_token_claims`, at the time `now`. -/
def handshakeVerifyTokenClaims (crypto : Crypto) (token secret : List UInt8) (now : ℤ) :
    Option JwtClaims :=
  (jwtParseHs256 crypto token secret).bind fun claims =>
    if claims.userId = 0 ∨ claims.roomId = 0 then none
    else if now < claims.nbf ∨ claims.exp < now then none
    else some claims

end MezonSfu.Handshake
