import UpTunnel.Lib.JsonText

/-!
# UpTunnel.Protocol

Wire protocol v1 (`server/src/protocol.ts`, and word for word `client-node/src/protocol.ts`): frame
types, encoders, `decodeFrame`, `streamFrameJson`.

A `Frame` is what `decodeFrame` returns. The two-party models hand `Frame`s from one side to the
other; `codec_round_trip` says that the bytes on the wire carry exactly that.
-/

namespace UpTunnel

open Js

def PROTOCOL_VERSION : Int := 1

namespace FrameType

def hello : Nat := 0x01
def helloOk : Nat := 0x02
def error : Nat := 0x03
def openTunnel : Nat := 0x10
def tunnelOk : Nat := 0x11
def closeTunnel : Nat := 0x12
def streamOpen : Nat := 0x20
def streamData : Nat := 0x21
def streamEof : Nat := 0x22
def streamAck : Nat := 0x23
def streamReset : Nat := 0x24

end FrameType

def STREAM_FRAME_FLOOR : Nat := 0x20

/-- The `kind` of a tunnel, in messages and in the configurations of both sides. -/
inductive TunnelKind where
  | http
  | tcp
  deriving DecidableEq, Repr

inductive Frame where
  | control (type : Nat) (body : Obj)
  | stream (type : Nat) (streamId : Nat) (payload : Bytes)

structure ProtocolError where
  message : String
  deriving DecidableEq, Repr

/-! ## Big-endian u32 -/

/-- `buf.writeUInt32BE(n)`, for an `n` in range. -/
def u32be (n : Nat) : Bytes :=
  [UInt8.ofNat (n / 0x1000000), UInt8.ofNat (n / 0x10000), UInt8.ofNat (n / 0x100), UInt8.ofNat n]

/-- `buf.readUInt32BE(0)`; a shorter buffer is not read by any caller. -/
def readUInt32BE : Bytes → Nat
  | a :: b :: c :: d :: _ => a.toNat * 0x1000000 + b.toNat * 0x10000 + c.toNat * 0x100 + d.toNat
  | _ => 0

theorem readUInt32BE_u32be {n : Nat} (h : n < 2 ^ 32) (rest : Bytes) :
    readUInt32BE (u32be n ++ rest) = n := by
  simp only [u32be, readUInt32BE, List.cons_append, UInt8.toNat_ofNat']
  omega

@[simp] theorem length_u32be (n : Nat) : (u32be n).length = 4 := rfl

/-- `writeUInt32BE` throws a `RangeError` on a value that is no u32. -/
def writeUInt32BE (n : Nat) : Except JsError Bytes :=
  if n ≤ 0xffffffff then .ok (u32be n)
  else .error (.rangeError "The value of \"value\" is out of range.")

/-! ## Encoders -/

def encodeControl (type : Nat) (body : Obj) : Bytes :=
  UInt8.ofNat type :: utf8Encode (Json.obj body).stringify

def encodeStreamJson (type streamId : Nat) (body : Obj) : Bytes :=
  UInt8.ofNat type :: u32be streamId ++ utf8Encode (Json.obj body).stringify

def encodeStreamData (streamId : Nat) (payload : Bytes) : Bytes :=
  UInt8.ofNat FrameType.streamData :: u32be streamId ++ payload

def encodeStreamOnly (type streamId : Nat) : Bytes :=
  UInt8.ofNat type :: u32be streamId

def encodeStreamAck (streamId bytes : Nat) : Except JsError Bytes := do
  let n ← writeUInt32BE bytes
  return UInt8.ofNat FrameType.streamAck :: u32be streamId ++ n

/-! ## Decoders -/

def toHex (n : Nat) : String := String.ofList (Nat.toDigits 16 n)

/-- `JSON.parse(buf.toString("utf8"))` -/
def parseBody (buf : Bytes) : Option Json := jsonParse (utf8Chars buf)

def decodeFrame (buf : Bytes) : Except ProtocolError Frame :=
  match buf with
  | [] => .error ⟨"empty frame"⟩
  | b :: rest =>
    let type := b.toNat
    if type < STREAM_FRAME_FLOOR then
      let body? : Except ProtocolError Json :=
        if rest = [] then .ok (.obj [])
        else match parseBody rest with
          | some body => .ok body
          | none => .error ⟨"frame 0x" ++ toHex type ++ " has a malformed JSON body"⟩
      match body? with
      | .error e => .error e
      | .ok (.obj body) => .ok (.control type body)
      | .ok _ => .error ⟨"frame 0x" ++ toHex type ++ " body must be a JSON object"⟩
    else if rest.length < 4 then
      .error ⟨"stream frame 0x" ++ toHex type ++ " is missing its stream id"⟩
    else .ok (.stream type (readUInt32BE rest) (rest.drop 4))

/-- The JSON tail of a stream frame that carries one. -/
def streamFrameJson (payload : Bytes) : Obj :=
  if payload = [] then []
  else match parseBody payload with
    | some (.obj body) => body
    | _ => []

/-! ## The frames an endpoint sends -/

namespace Frame

def streamJson (type streamId : Nat) (body : Obj) : Frame :=
  .stream type streamId (utf8Encode (Json.obj body).stringify)

def data (streamId : Nat) (payload : Bytes) : Frame := .stream FrameType.streamData streamId payload

def eof (streamId : Nat) : Frame := .stream FrameType.streamEof streamId []

/-- A STREAM_RESET with the JSON body `{ code }`. -/
def reset (streamId : Nat) (code : String) : Frame :=
  streamJson FrameType.streamReset streamId [("code", .str code)]

/-- `encodeStreamAck` may throw, so the frame may not come to exist. -/
def ack (streamId bytes : Nat) : Except JsError Frame :=
  (writeUInt32BE bytes).map fun n => .stream FrameType.streamAck streamId n

/-- The stream a frame names. -/
def streamId? : Frame → Option Nat
  | .stream _ id _ => some id
  | .control .. => none

@[simp] theorem streamId?_control (t : Nat) (b : Obj) : (Frame.control t b).streamId? = none := rfl
@[simp] theorem streamId?_stream (t id : Nat) (p : Bytes) :
    (Frame.stream t id p).streamId? = some id := rfl
@[simp] theorem streamId?_data (id : Nat) (p : Bytes) : (data id p).streamId? = some id := rfl
@[simp] theorem streamId?_eof (id : Nat) : (eof id).streamId? = some id := rfl
@[simp] theorem streamId?_reset (id : Nat) (c : String) : (reset id c).streamId? = some id := rfl

theorem ack_ok {id n : Nat} {f : Frame} (h : ack id n = .ok f) :
    n ≤ 0xffffffff ∧ f = .stream FrameType.streamAck id (u32be n) := by
  simp only [ack, writeUInt32BE] at h
  split at h
  · exact ⟨‹_›, by simpa [Except.map] using h.symm⟩
  · simp [Except.map] at h

theorem ack_error_iff {id n : Nat} : (∃ e, ack id n = .error e) ↔ 0xffffffff < n := by
  simp only [ack, writeUInt32BE]
  split
  · simp only [Except.map, reduceCtorEq, exists_false, false_iff]; omega
  · simp only [Except.map, Except.error.injEq, exists_eq', true_iff]; omega

end Frame

theorem decodeFrame_stream {type : Nat} (ht : type < 256) (hf : STREAM_FRAME_FLOOR ≤ type) {id : Nat}
    (hid : id < 2 ^ 32) (payload : Bytes) :
    decodeFrame (UInt8.ofNat type :: u32be id ++ payload) = .ok (.stream type id payload) := by
  have h1 : (UInt8.ofNat type).toNat = type := by
    rw [UInt8.toNat_ofNat']; omega
  simp only [decodeFrame, List.cons_append, h1]
  rw [if_neg (by omega), if_neg (by simp [u32be]), readUInt32BE_u32be hid]
  rfl

end UpTunnel
