import UpTunnel.Protocol

/-!
# UpTunnel.Encode

The encoders of `server/src/protocol.ts` and of `client-node/src/protocol.ts`, write by write: each allocates a buffer
whose content is not known and fills it at offsets of its own. The client's file has its own decoder, too.

* `Server.encodeStreamJson_eq`, `Client.encodeStreamJson_eq` and so on: no byte is left as it was allocated.
* `Client.decodeFrame_eq`: the two decoders are one function.
-/

namespace UpTunnel

open Js

/-! ## Buffers -/

/-- `Buffer.allocUnsafe(n)`: what is in it is what the memory held. -/
def allocUnsafe (memory : Nat → UInt8) (n : Nat) : Bytes := (List.range n).map memory

/-- `bytes` in the place of what `buf` has from `offset` on. -/
def patch (buf : Bytes) (offset : Nat) (bytes : Bytes) : Bytes :=
  buf.take offset ++ (bytes ++ buf.drop (offset + bytes.length))

/-- `buf.writeUInt32BE(n, offset)`, for an offset in range. -/
def writeUInt32BEAt (buf : Bytes) (n offset : Nat) : Except JsError Bytes := (writeUInt32BE n).map (patch buf offset)

/-- `source.copy(target, offset)`: as much as the target has room for. -/
def copyTo (source target : Bytes) (offset : Nat) : Bytes :=
  patch target offset (source.take (target.length - offset))

section
variable {memory : Nat → UInt8} {n k id : Nat} {t : UInt8} {tail payload : Bytes}

theorem length_allocUnsafe (memory : Nat → UInt8) (n : Nat) : (allocUnsafe memory n).length = n := by
  simp [allocUnsafe]

theorem writeUInt32BE_ok (h : n < 2 ^ 32) : writeUInt32BE n = .ok (u32be n) := by
  unfold writeUInt32BE
  rw [if_pos (by omega)]

/-- The first byte is set. -/
theorem set_allocUnsafe (memory : Nat → UInt8) (k : Nat) (t : UInt8) :
    ∃ tail, (allocUnsafe memory (1 + k)).set 0 t = t :: tail ∧ tail.length = k := by
  have hlen := length_allocUnsafe memory (1 + k)
  cases h : allocUnsafe memory (1 + k) with
  | nil =>
    rw [h, List.length_nil] at hlen
    omega
  | cons a tail =>
    rw [h, List.length_cons] at hlen
    exact ⟨tail, rfl, by omega⟩

/-- A u32 is written behind what is there already. -/
theorem writeUInt32BEAt_append (head : Bytes) (hn : n < 2 ^ 32) (htail : tail.length = 4 + k) :
    ∃ rest, writeUInt32BEAt (head ++ tail) n head.length = .ok (head ++ (u32be n ++ rest)) ∧ rest.length = k := by
  refine ⟨tail.drop 4, ?_, by rw [List.length_drop]; omega⟩
  unfold writeUInt32BEAt patch
  rw [writeUInt32BE_ok hn]
  simp only [Except.map, length_u32be, List.take_left, List.drop_append]
  rw [List.drop_eq_nil_of_le (by omega), show head.length + 4 - head.length = 4 by omega, List.nil_append]

/-- The header of a stream frame, and room for `k` bytes. -/
theorem header_eq (memory : Nat → UInt8) (k : Nat) (t : UInt8) (hid : id < 2 ^ 32) :
    ∃ rest, writeUInt32BEAt ((allocUnsafe memory (5 + k)).set 0 t) id 1 = .ok (t :: u32be id ++ rest) ∧
      rest.length = k := by
  obtain ⟨tail, hset, htail⟩ := set_allocUnsafe memory (4 + k) t
  rw [show 5 + k = 1 + (4 + k) by omega, hset]
  exact writeUInt32BEAt_append [t] hid htail

theorem copyTo_append (head : Bytes) (h : tail.length = payload.length) :
    copyTo payload (head ++ tail) head.length = head ++ payload := by
  have hroom : (head ++ tail).length - head.length = payload.length := by
    rw [List.length_append]
    omega
  unfold copyTo patch
  rw [hroom, List.take_length, List.take_left, List.drop_eq_nil_of_le (by rw [List.length_append]; omega),
    List.append_nil]

end

/-! ## The server's encoders -/

namespace Server

variable (memory : Nat → UInt8)

def encodeControl (type : Nat) (body : Obj) : Bytes :=
  let json := utf8Encode (Json.obj body).stringify
  let out := allocUnsafe memory (1 + json.length)
  let out := out.set 0 (UInt8.ofNat type)
  copyTo json out 1

def encodeStreamJson (type streamId : Nat) (body : Obj) : Except JsError Bytes := do
  let json := utf8Encode (Json.obj body).stringify
  let out := allocUnsafe memory (5 + json.length)
  let out := out.set 0 (UInt8.ofNat type)
  let out ← writeUInt32BEAt out streamId 1
  return copyTo json out 5

def encodeStreamData (streamId : Nat) (payload : Bytes) : Except JsError Bytes := do
  let out := allocUnsafe memory (5 + payload.length)
  let out := out.set 0 (UInt8.ofNat FrameType.streamData)
  let out ← writeUInt32BEAt out streamId 1
  return copyTo payload out 5

def encodeStreamOnly (type streamId : Nat) : Except JsError Bytes := do
  let out := allocUnsafe memory 5
  let out := out.set 0 (UInt8.ofNat type)
  writeUInt32BEAt out streamId 1

def encodeStreamAck (streamId bytes : Nat) : Except JsError Bytes := do
  let out := allocUnsafe memory 9
  let out := out.set 0 (UInt8.ofNat FrameType.streamAck)
  let out ← writeUInt32BEAt out streamId 1
  writeUInt32BEAt out bytes 5

end Server

/-! ## The client's encoders -/

namespace Client

variable (memory : Nat → UInt8)

def encodeControl (type : Nat) (body : Obj) : Bytes :=
  let json := utf8Encode (Json.obj body).stringify
  let out := allocUnsafe memory (1 + json.length)
  let out := out.set 0 (UInt8.ofNat type)
  copyTo json out 1

def encodeStreamJson (type streamId : Nat) (body : Obj) : Except JsError Bytes := do
  let json := utf8Encode (Json.obj body).stringify
  let out := allocUnsafe memory (5 + json.length)
  let out := out.set 0 (UInt8.ofNat type)
  let out ← writeUInt32BEAt out streamId 1
  return copyTo json out 5

def encodeStreamData (streamId : Nat) (payload : Bytes) : Except JsError Bytes := do
  let out := allocUnsafe memory (5 + payload.length)
  let out := out.set 0 (UInt8.ofNat FrameType.streamData)
  let out ← writeUInt32BEAt out streamId 1
  return copyTo payload out 5

def encodeStreamOnly (type streamId : Nat) : Except JsError Bytes := do
  let out := allocUnsafe memory 5
  let out := out.set 0 (UInt8.ofNat type)
  writeUInt32BEAt out streamId 1

def encodeStreamAck (streamId bytes : Nat) : Except JsError Bytes := do
  let out := allocUnsafe memory 9
  let out := out.set 0 (UInt8.ofNat FrameType.streamAck)
  let out ← writeUInt32BEAt out streamId 1
  writeUInt32BEAt out bytes 5

def decodeFrame (buf : Bytes) : Except ProtocolError Frame :=
  match buf.head? with
  | none => .error ⟨"empty frame"⟩
  | some b =>
    let type := b.toNat
    if type < STREAM_FRAME_FLOOR then
      let body? : Except ProtocolError Json :=
        if buf.length > 1 then
          match parseBody (buf.drop 1) with
          | some body => .ok body
          | none => .error ⟨"frame 0x" ++ toHex type ++ " has a malformed JSON body"⟩
        else .ok (.obj [])
      match body? with
      | .error e => .error e
      | .ok (.obj body) => .ok (.control type body)
      | .ok _ => .error ⟨"frame 0x" ++ toHex type ++ " body must be a JSON object"⟩
    else if buf.length < 5 then
      .error ⟨"stream frame 0x" ++ toHex type ++ " is missing its stream id"⟩
    else .ok (.stream type (readUInt32BE (buf.drop 1)) (buf.drop 5))

def streamFrameJson (payload : Bytes) : Obj :=
  if payload.length = 0 then []
  else match parseBody payload with
    | some (.obj parsed) => parsed
    | _ => []

theorem decodeFrame_eq : decodeFrame = UpTunnel.decodeFrame := by
  funext buf
  cases buf with
  | nil => rfl
  | cons b rest =>
    unfold decodeFrame UpTunnel.decodeFrame
    simp only [List.head?_cons, List.length_cons, List.drop_succ_cons, List.drop_zero]
    by_cases ht : b.toNat < STREAM_FRAME_FLOOR
    · rw [if_pos ht, if_pos ht]
      cases rest with
      | nil => rfl
      | cons c rest =>
        rw [if_pos (by simp)]
        rfl
    · have hlen : rest.length + 1 < 5 ↔ rest.length < 4 := by omega
      rw [if_neg ht, if_neg ht]
      simp only [hlen]

theorem streamFrameJson_eq : streamFrameJson = UpTunnel.streamFrameJson := by
  funext payload
  cases payload with
  | nil => rfl
  | cons b rest => rfl

end Client

/-! ## What they write -/

section
variable {memory : Nat → UInt8} {type id n : Nat} {body : Obj} {payload : Bytes}

theorem Server.encodeControl_eq : Server.encodeControl memory type body = UpTunnel.encodeControl type body := by
  obtain ⟨tail, hset, htail⟩ :=
    set_allocUnsafe memory (utf8Encode (Json.obj body).stringify).length (UInt8.ofNat type)
  unfold Server.encodeControl
  simp only [hset]
  exact copyTo_append [UInt8.ofNat type] htail

theorem Server.encodeStreamJson_eq (hid : id < 2 ^ 32) :
    Server.encodeStreamJson memory type id body = .ok (UpTunnel.encodeStreamJson type id body) := by
  obtain ⟨rest, hw, hrest⟩ := header_eq memory (utf8Encode (Json.obj body).stringify).length (UInt8.ofNat type) hid
  unfold Server.encodeStreamJson
  simp only [hw, bind, Except.bind]
  exact congrArg Except.ok (copyTo_append (UInt8.ofNat type :: u32be id) hrest)

theorem Server.encodeStreamData_eq (hid : id < 2 ^ 32) :
    Server.encodeStreamData memory id payload = .ok (UpTunnel.encodeStreamData id payload) := by
  obtain ⟨rest, hw, hrest⟩ := header_eq memory payload.length (UInt8.ofNat FrameType.streamData) hid
  unfold Server.encodeStreamData
  simp only [hw, bind, Except.bind]
  exact congrArg Except.ok (copyTo_append (UInt8.ofNat FrameType.streamData :: u32be id) hrest)

theorem Server.encodeStreamOnly_eq (hid : id < 2 ^ 32) :
    Server.encodeStreamOnly memory type id = .ok (UpTunnel.encodeStreamOnly type id) := by
  obtain ⟨rest, hw, hrest⟩ := header_eq memory 0 (UInt8.ofNat type) hid
  obtain rfl := List.length_eq_zero_iff.mp hrest
  rw [List.append_nil] at hw
  exact hw

theorem Server.encodeStreamAck_eq (hid : id < 2 ^ 32) (hn : n < 2 ^ 32) :
    Server.encodeStreamAck memory id n = UpTunnel.encodeStreamAck id n := by
  obtain ⟨rest, hw, hrest⟩ := header_eq memory 4 (UInt8.ofNat FrameType.streamAck) hid
  obtain ⟨rest', hw', hrest'⟩ :=
    @writeUInt32BEAt_append n 0 _ (UInt8.ofNat FrameType.streamAck :: u32be id) hn hrest
  obtain rfl := List.length_eq_zero_iff.mp hrest'
  unfold Server.encodeStreamAck UpTunnel.encodeStreamAck
  simp only [hw, bind, Except.bind, writeUInt32BE_ok hn]
  exact hw'

/-- The client's file has the same writes. -/
theorem Client.encoders_eq :
    Client.encodeControl = Server.encodeControl ∧ Client.encodeStreamJson = Server.encodeStreamJson ∧
      Client.encodeStreamData = Server.encodeStreamData ∧ Client.encodeStreamOnly = Server.encodeStreamOnly ∧
      Client.encodeStreamAck = Server.encodeStreamAck := ⟨rfl, rfl, rfl, rfl, rfl⟩

end

end UpTunnel
