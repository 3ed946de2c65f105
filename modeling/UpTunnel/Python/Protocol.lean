import UpTunnel.Lib.PyJson
import UpTunnel.Protocol

/-!
# UpTunnel.Python.Protocol

`client/uptunnel/protocol.py`: the encoders, `decode` and `payload_json`.

* `decode_stream`: a stream frame is decoded into what it was made of.
* `decode_control`: a control frame is decoded as `json.loads` reads its body.

`decode` leaves the interpreter's recursion limit out, which `decodeWithin` has.
-/

namespace UpTunnel.Python

open Js

def PROTOCOL_VERSION : Nat := 1

def HELLO : Nat := 0x01
def HELLO_OK : Nat := 0x02
def ERROR : Nat := 0x03
def OPEN_TUNNEL : Nat := 0x10
def TUNNEL_OK : Nat := 0x11
def STREAM_OPEN : Nat := 0x20
def STREAM_DATA : Nat := 0x21
def STREAM_EOF : Nat := 0x22
def STREAM_ACK : Nat := 0x23
def STREAM_RESET : Nat := 0x24

def STREAM_FRAME_FLOOR : Nat := 0x20

structure ProtocolError where
  message : String
  deriving DecidableEq, Repr

/-- What `decode` returns: a type, and a body or a stream id and a payload. -/
inductive Frame where
  | control (frameType : Nat) (body : Py.Dict)
  | stream (frameType : Nat) (streamId : Nat) (payload : Bytes)

/-! ## Encoders -/

inductive EncodeError where
  /-- `bytes must be in range(0, 256)` -/
  | valueError
  /-- `'I' format requires 0 <= number <= 4294967295` -/
  | structError
  deriving DecidableEq, Repr

/-- `bytes([n])` -/
def byte (n : Nat) : Except EncodeError Bytes := if n < 256 then .ok [UInt8.ofNat n] else .error .valueError

/-- `struct.pack(">I", n)` -/
def pack (n : Nat) : Except EncodeError Bytes := if n ≤ 4294967295 then .ok (u32be n) else .error .structError

/-- `json.dumps(body).encode("utf-8")` -/
def jsonBytes (body : Py.Dict) : Bytes := utf8Encode (Py.dumps (.dict body))

def control (frameType : Nat) (body : Py.Dict) : Except EncodeError Bytes := do
  let head ← byte frameType
  return head ++ jsonBytes body

def streamJson (frameType streamId : Nat) (body : Py.Dict) : Except EncodeError Bytes := do
  let head ← byte frameType
  let id ← pack streamId
  return head ++ id ++ jsonBytes body

def streamData (streamId : Nat) (payload : Bytes) : Except EncodeError Bytes := do
  let head ← byte STREAM_DATA
  let id ← pack streamId
  return head ++ id ++ payload

def streamOnly (frameType streamId : Nat) : Except EncodeError Bytes := do
  let head ← byte frameType
  let id ← pack streamId
  return head ++ id

def streamAck (streamId consumed : Nat) : Except EncodeError Bytes := do
  let head ← byte STREAM_ACK
  let id ← pack streamId
  let n ← pack consumed
  return head ++ (id ++ n)

/-! ## Decoders -/

/-- `"%02x" % n` -/
def hex02 (n : Nat) : String := if n < 0x10 then "0" ++ toHex n else toHex n

/-- `json.loads(buf.decode("utf-8"))`; `none` is a ValueError or a UnicodeDecodeError. -/
def loadsBytes (maxStrDigits : Nat) (buf : Bytes) : Option Py.Val :=
  (Py.decode buf).bind (Py.loads maxStrDigits)

def decode (maxStrDigits : Nat) (buf : Bytes) : Except ProtocolError Frame :=
  match buf with
  | [] => .error ⟨"empty frame"⟩
  | b :: rest =>
    let frameType := b.toNat
    if frameType < STREAM_FRAME_FLOOR then
      if rest = [] then .ok (.control frameType [])
      else
        match loadsBytes maxStrDigits rest with
        | none => .error ⟨"malformed JSON in frame 0x" ++ hex02 frameType⟩
        | some (.dict body) => .ok (.control frameType body)
        | some _ => .error ⟨"frame 0x" ++ hex02 frameType ++ " body must be an object"⟩
    else if rest.length < 4 then .error ⟨"stream frame 0x" ++ hex02 frameType ++ " is missing its id"⟩
    else .ok (.stream frameType (readUInt32BE rest) (rest.drop 4))

/-- What leaves `decode`. -/
inductive DecodeError where
  | protocol (e : ProtocolError)
  /-- The RecursionError of `json.loads`; `decode` catches ValueErrors. -/
  | recursion

/-- The body of a control frame nests deeper than the interpreter lets `json.loads` go. -/
def recurses (maxStrDigits maxNesting : Nat) (buf : Bytes) : Bool :=
  match buf with
  | [] => false
  | b :: rest =>
    decide (b.toNat < STREAM_FRAME_FLOOR) && !rest.isEmpty &&
      (Py.decode rest).any fun cs => decide (maxNesting < Py.callsOf maxStrDigits cs)

/-- `decode` where `json.loads` can open `maxNesting` arrays and objects at a time. -/
def decodeWithin (maxStrDigits maxNesting : Nat) (buf : Bytes) : Except DecodeError Frame :=
  if recurses maxStrDigits maxNesting buf then .error .recursion
  else (decode maxStrDigits buf).mapError .protocol

/-- The JSON tail of STREAM_OPEN and STREAM_RESET. -/
def payloadJson (maxStrDigits : Nat) (payload : Bytes) : Py.Dict :=
  if payload = [] then []
  else
    match loadsBytes maxStrDigits payload with
    | some (.dict body) => body
    | _ => []

/-! ## Frames -/

section
variable {maxStrDigits type id : Nat} {payload : Bytes} {body : Py.Dict}

theorem pack_ok (h : id < 2 ^ 32) : pack id = .ok (u32be id) := by
  unfold pack
  rw [if_pos (by omega)]

theorem byte_ok (h : type < 256) : byte type = .ok [UInt8.ofNat type] := if_pos h

theorem decode_stream (ht : type < 256) (hf : STREAM_FRAME_FLOOR ≤ type) (hid : id < 2 ^ 32) (payload : Bytes) :
    decode maxStrDigits (UInt8.ofNat type :: u32be id ++ payload) = .ok (.stream type id payload) := by
  have h1 : (UInt8.ofNat type).toNat = type := by
    rw [UInt8.toNat_ofNat']
    omega
  simp only [decode, List.cons_append, h1]
  rw [if_neg (by omega), if_neg (by simp [u32be]), readUInt32BE_u32be hid]
  rfl

theorem decode_control (ht : type < STREAM_FRAME_FLOOR) (hne : payload ≠ [])
    (h : loadsBytes maxStrDigits payload = some (.dict body)) :
    decode maxStrDigits (UInt8.ofNat type :: payload) = .ok (.control type body) := by
  have hlt : type < 32 := ht
  have h1 : (UInt8.ofNat type).toNat = type := by
    rw [UInt8.toNat_ofNat']
    omega
  simp only [decode, h1]
  rw [if_pos ht, if_neg hne, h]

end

end UpTunnel.Python
