import MezonSfu.Bytes
import MezonSfu.OffsetWalk

/-!
STUN binding requests (`transport/stun/stun.c`).

A packet has a header of 20 bytes and attributes, each with a type, a length and a value padded to
a multiple of four. MESSAGE-INTEGRITY covers the bytes before it, with the length in the header
replaced by the one that ends with it. The MAC is a parameter.
-/

namespace MezonSfu.Stun

open Bytes

def stunMagicCookie : ℕ := 0x2112A442
def stunHeaderLen : ℕ := 20
def stunTypeBindingReq : ℕ := 0x0001
def stunTypeBindingResp : ℕ := 0x0101

def attrUsername : ℕ := 0x0006
def attrMessageIntegrity : ℕ := 0x0008
def attrXorMappedAddress : ℕ := 0x0020
def attrUseCandidate : ℕ := 0x0025
def attrFingerprint : ℕ := 0x8028

/-- The size of the buffer that the covered bytes are copied to. -/
def scratchSize : ℕ := 1500

/-- `sfu_ice_credentials_t`: the texts in their fields of 32 and 64 bytes. -/
structure IceCredentials where
  ufrag : List UInt8
  pwd : List UInt8
  ufrag_lt : ufrag.length < 32
  pwd_lt : pwd.length < 64

abbrev Mac := List UInt8 → List UInt8 → List UInt8

variable (data : List UInt8)

def isStunPacket : Bool :=
  stunHeaderLen ≤ data.length && byteAt data 0 &&& 0xC0 == 0 &&
    readBe32 data 4 == stunMagicCookie

def isBindingRequest : Bool :=
  isStunPacket data && readBe16 data 0 == stunTypeBindingReq

/-! ### Attributes -/

def attrType (off : ℕ) : ℕ := readBe16 data off

def attrLen (off : ℕ) : ℕ := readBe16 data (off + 2)

def padded (len : ℕ) : ℕ := (len + 3) / 4 * 4

def nextAttr (off : ℕ) : ℕ := off + 4 + padded (attrLen data off)

/-- `find_message_integrity`; an offset of 0 is `none`. -/
def findMessageIntegrity : Option ℕ :=
  OffsetWalk.find (nextAttr data) 4 data.length
    (fun off => attrType data off == attrMessageIntegrity) data.length stunHeaderLen

def isUsername (off : ℕ) : Bool :=
  attrType data off == attrUsername && off + 4 + attrLen data off ≤ data.length

/-- `find_username`: the value of the attribute. -/
def findUsername : Option (List UInt8) :=
  (OffsetWalk.find (nextAttr data) 4 data.length (isUsername data) data.length
    stunHeaderLen).map fun off => slice data (off + 4) (attrLen data off)

/-- The loop of `sfu_stun_has_use_candidate`. It does not go beyond MESSAGE-INTEGRITY. -/
def useCandidateFrom (miOffset : ℕ) : ℕ → ℕ → Bool
  | 0, _ => false
  | n + 1, off =>
    if off + 4 ≤ miOffset then
      if miOffset < nextAttr data off then false
      else if attrType data off == attrUseCandidate then attrLen data off == 0
      else useCandidateFrom miOffset n (nextAttr data off)
    else false

def hasUseCandidate : Bool :=
  isBindingRequest data &&
    match findMessageIntegrity data with
    | none => false
    | some miOffset => useCandidateFrom data miOffset miOffset stunHeaderLen

/-- The USERNAME is the local ufrag, a colon and the ufrag of the client. -/
def usernameMatches (ufrag username : List UInt8) : Bool :=
  ufrag.length < username.length && byteAt username ufrag.length == 58 &&
    username.take ufrag.length == ufrag

/-- `sfu_stun_extract_client_ufrag`, for a buffer of `maxLen` bytes. -/
def extractClientUfrag (data localUfrag : List UInt8) (maxLen : ℕ) : Option (List UInt8) :=
  if isBindingRequest data then
    (findUsername data).bind fun username =>
      if usernameMatches localUfrag username then
        let clientUfrag := username.drop (localUfrag.length + 1)
        if maxLen ≤ clientUfrag.length ∨ clientUfrag.length = 0 then none else some clientUfrag
      else none
  else none

def patchLength (buf : List UInt8) (v : ℕ) : List UInt8 := buf.take 2 ++ writeBe16 v ++ buf.drop 4

/-- The bytes that a MESSAGE-INTEGRITY at an offset covers. -/
def scratch (miOffset : ℕ) : List UInt8 :=
  patchLength (data.take miOffset) (miOffset - stunHeaderLen + 24)

def verifyMessageIntegrity (mac : Mac) (data : List UInt8) (miOffset : Option ℕ)
    (pwd : List UInt8) : Bool :=
  match miOffset with
  | none => false
  | some miOffset =>
    if data.length < miOffset + 24 ∨ scratchSize < miOffset then false
    else
      let computed := mac pwd (scratch data miOffset)
      computed.length == 20 && computed == slice data (miOffset + 4) 20

/-- The check of `sfu_stun_handle_binding_request`. -/
def passes (mac : Mac) (creds : IceCredentials) (data : List UInt8) : Bool :=
  isBindingRequest data && (findUsername data).any (usernameMatches creds.ufrag) &&
    verifyMessageIntegrity mac data (findMessageIntegrity data) creds.pwd

/-- One byte of `crc32_ieee`. -/
def crc32Byte (crc : UInt32) (byte : UInt8) : UInt32 :=
  (List.range 8).foldl
    (fun crc _ => if crc &&& 1 = 1 then (crc >>> 1) ^^^ 0xEDB88320 else crc >>> 1)
    (crc ^^^ byte.toUInt32)

def crc32Ieee : UInt32 := ~~~(data.foldl crc32Byte 0xFFFFFFFF)

def appendIntegrityAndFingerprint (mac : Mac) (buf pwd : List UInt8) : List UInt8 :=
  let buf := patchLength buf (buf.length - stunHeaderLen + 24)
  let buf := buf ++ writeBe16 attrMessageIntegrity ++ writeBe16 20 ++ mac pwd buf
  let buf := patchLength buf (buf.length - stunHeaderLen + 8)
  let crc := crc32Ieee buf ^^^ 0x5354554E
  buf ++ writeBe16 attrFingerprint ++ writeBe16 4 ++ writeBe32 crc.toNat

structure SockaddrIn where
  port : UInt16
  addr : UInt32

def xorMappedAddress (src : SockaddrIn) : List UInt8 :=
  let xport := src.port.toNat ^^^ (stunMagicCookie / 2 ^ 16)
  let xaddr := src.addr.toNat ^^^ stunMagicCookie
  writeBe16 attrXorMappedAddress ++ writeBe16 8 ++ [0x00, 0x01] ++ writeBe16 xport ++
    writeBe32 xaddr

/-- `sfu_stun_handle_binding_request`. Sources that are not IPv4 are `none`. -/
def handleBindingRequest (mac : Mac) (creds : IceCredentials) (data : List UInt8)
    (src : Option SockaddrIn) (outBufCap : ℕ) : Option (List UInt8) :=
  if passes mac creds data then
    src.bind fun src =>
      if outBufCap < stunHeaderLen + 12 + 24 + 8 then none
      else
        let header := writeBe16 stunTypeBindingResp ++ writeBe16 0 ++ writeBe32 stunMagicCookie ++
          slice data 8 12
        some (appendIntegrityAndFingerprint mac (header ++ xorMappedAddress src) creds.pwd)
  else none

end MezonSfu.Stun
