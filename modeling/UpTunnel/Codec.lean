import UpTunnel.Encode
import UpTunnel.Python.Protocol

/-!
# UpTunnel.Codec

Frames between the three implementations of the protocol.

* `Codec.Lawful`: what an implementation has to write and to read for its frames to be understood by any other.
* `Server.lawful`, `Client.lawful`, `Python.lawful`: each of the three does.
* `codec_round_trip`: so every frame that one of them encodes comes back from every decoder as it was, and every
  stream frame that one of them decodes is the encoding of what comes out.
-/

namespace UpTunnel

open Js

/-! ## Implementations of the protocol -/

/-- What a decoder returns. -/
inductive Decoded (β : Type) where
  | control (type : Nat) (body : β)
  | stream (type : Nat) (streamId : Nat) (payload : Bytes)

/-- An implementation of the protocol with its own type of JSON objects. `none` is an exception. -/
structure Codec where
  Body : Type
  encodeControl : Nat → Body → Option Bytes
  encodeStreamJson : Nat → Nat → Body → Option Bytes
  encodeStreamData : Nat → Bytes → Option Bytes
  encodeStreamOnly : Nat → Nat → Option Bytes
  encodeStreamAck : Nat → Nat → Option Bytes
  decode : Bytes → Option (Decoded Body)
  /-- The JSON tail of a stream frame. -/
  json : Bytes → Body
  /-- The amount of a STREAM_ACK. -/
  amount : Bytes → Option Nat
  /-- The JSON text of an object, and the object of a text. -/
  text : Body → String
  read : String → Option Body
  /-- The members of an object, in the terms that the implementations share. -/
  members : Body → Obj

namespace Codec

/-- The frames are those of the protocol, whatever the bodies are. -/
structure Lawful (c : Codec) : Prop where
  control : ∀ type body, type < STREAM_FRAME_FLOOR →
    c.encodeControl type body = some (UInt8.ofNat type :: utf8Encode (c.text body))
  streamJson : ∀ type id body, type < 256 → id < 2 ^ 32 →
    c.encodeStreamJson type id body = some (UInt8.ofNat type :: u32be id ++ utf8Encode (c.text body))
  streamData : ∀ id payload, id < 2 ^ 32 →
    c.encodeStreamData id payload = some (UInt8.ofNat FrameType.streamData :: u32be id ++ payload)
  streamOnly : ∀ type id, type < 256 → id < 2 ^ 32 → c.encodeStreamOnly type id = some (UInt8.ofNat type :: u32be id)
  streamAck : ∀ id n, id < 2 ^ 32 → n < 2 ^ 32 →
    c.encodeStreamAck id n = some (UInt8.ofNat FrameType.streamAck :: u32be id ++ u32be n)
  decodeControl : ∀ type s body, type < STREAM_FRAME_FLOOR → c.read s = some body →
    c.decode (UInt8.ofNat type :: utf8Encode s) = some (.control type body)
  decodeStream : ∀ type id payload, STREAM_FRAME_FLOOR ≤ type → type < 256 → id < 2 ^ 32 →
    c.decode (UInt8.ofNat type :: u32be id ++ payload) = some (.stream type id payload)
  json : ∀ s body, c.read s = some body → c.json (utf8Encode s) = body
  amount : ∀ n rest, n < 2 ^ 32 → c.amount (u32be n ++ rest) = some n

/-- What `c` writes for a body, `d` reads as the same object. -/
def CarriesOver (c d : Codec) (body : c.Body) : Prop :=
  ∃ body', d.read (c.text body) = some body' ∧ d.members body' = c.members body

end Codec

/-! ## The three of them -/

section
variable (memory : Nat → UInt8) (maxStrDigits : Nat)

def decodedJs : Frame → Decoded Obj
  | .control type body => .control type body
  | .stream type streamId payload => .stream type streamId payload

def readJs (s : String) : Option Obj :=
  match jsonParse s.toList with
  | some (.obj o) => some o
  | _ => none

/-- `if (payload.length >= 4) … payload.readUInt32BE(0)` -/
def amountJs (payload : Bytes) : Option Nat := if payload.length ≥ 4 then some (readUInt32BE payload) else none

def Server.codec : Codec where
  Body := Obj
  encodeControl type body := some (Server.encodeControl memory type body)
  encodeStreamJson type id body := (Server.encodeStreamJson memory type id body).toOption
  encodeStreamData id payload := (Server.encodeStreamData memory id payload).toOption
  encodeStreamOnly type id := (Server.encodeStreamOnly memory type id).toOption
  encodeStreamAck id n := (Server.encodeStreamAck memory id n).toOption
  decode buf := (decodeFrame buf).toOption.map decodedJs
  json := streamFrameJson
  amount := amountJs
  text body := (Json.obj body).stringify
  read := readJs
  members := id

def Client.codec : Codec where
  Body := Obj
  encodeControl type body := some (Client.encodeControl memory type body)
  encodeStreamJson type id body := (Client.encodeStreamJson memory type id body).toOption
  encodeStreamData id payload := (Client.encodeStreamData memory id payload).toOption
  encodeStreamOnly type id := (Client.encodeStreamOnly memory type id).toOption
  encodeStreamAck id n := (Client.encodeStreamAck memory id n).toOption
  decode buf := (Client.decodeFrame buf).toOption.map decodedJs
  json := Client.streamFrameJson
  amount := amountJs
  text body := (Json.obj body).stringify
  read := readJs
  members := id

def Python.decoded : Python.Frame → Decoded Py.Dict
  | .control frameType body => .control frameType body
  | .stream frameType streamId payload => .stream frameType streamId payload

/-- `int.from_bytes(bytes, "big")` -/
def Python.fromBytes (bytes : Bytes) : Nat := bytes.foldl (fun n b => 256 * n + b.toNat) 0

def Python.codec : Codec where
  Body := Py.Dict
  encodeControl type body := (Python.control type body).toOption
  encodeStreamJson type id body := (Python.streamJson type id body).toOption
  encodeStreamData id payload := (Python.streamData id payload).toOption
  encodeStreamOnly type id := (Python.streamOnly type id).toOption
  encodeStreamAck id n := (Python.streamAck id n).toOption
  decode buf := (Python.decode maxStrDigits buf).toOption.map Python.decoded
  json := Python.payloadJson maxStrDigits
  amount payload := if payload.length ≥ 4 then some (Python.fromBytes (payload.take 4)) else none
  text body := Py.dumps (.dict body)
  read s :=
    match Py.loads maxStrDigits s.toList with
    | some (.dict d) => some d
    | _ => none
  members := Py.membersToJs

end

/-! ## They are lawful -/

theorem u32be_readUInt32BE (b₀ b₁ b₂ b₃ : UInt8) : u32be (readUInt32BE [b₀, b₁, b₂, b₃]) = [b₀, b₁, b₂, b₃] := by
  have h0 := b₀.toNat_lt
  have h1 := b₁.toNat_lt
  have h2 := b₂.toNat_lt
  have h3 := b₃.toNat_lt
  have hb : ∀ (n : Nat) (b : UInt8), n % 256 = b.toNat → UInt8.ofNat n = b := by
    intro n b h
    apply UInt8.toNat_inj.1
    rw [UInt8.toNat_ofNat', h]
  simp only [u32be, readUInt32BE, List.cons.injEq, and_true]
  refine ⟨hb _ _ ?_, hb _ _ ?_, hb _ _ ?_, hb _ _ ?_⟩ <;> omega

/-- Any four bytes are a u32. -/
theorem u32be_of_length {payload : Bytes} (h : payload.length = 4) : ∃ n, n < 2 ^ 32 ∧ payload = u32be n := by
  match payload, h with
  | [b₀, b₁, b₂, b₃], _ =>
    have h0 := b₀.toNat_lt
    have h1 := b₁.toNat_lt
    have h2 := b₂.toNat_lt
    have h3 := b₃.toNat_lt
    refine ⟨readUInt32BE [b₀, b₁, b₂, b₃], ?_, (u32be_readUInt32BE b₀ b₁ b₂ b₃).symm⟩
    simp only [readUInt32BE]
    omega

section
variable {memory : Nat → UInt8} {maxStrDigits : Nat} {s : String}

theorem utf8Encode_ne_nil (h : s.toList ≠ []) : utf8Encode s ≠ [] := by
  intro he
  have hc := congrArg utf8Chars he
  rw [utf8Chars_utf8Encode] at hc
  exact h (by rw [hc]; rfl)

theorem readJs_some {o : Obj} (h : readJs s = some o) :
    utf8Encode s ≠ [] ∧ parseBody (utf8Encode s) = some (.obj o) := by
  have hp : jsonParse s.toList = some (.obj o) := by
    unfold readJs at h
    split at h
    · rename_i o' ho
      cases h
      exact ho
    · cases h
  refine ⟨utf8Encode_ne_nil fun hnil => ?_, by rw [parseBody, utf8Chars_utf8Encode, hp]⟩
  rw [hnil] at hp
  cases hp

theorem decodeFrame_control {type : Nat} {rest : Bytes} {o : Obj} (ht : type < STREAM_FRAME_FLOOR) (hne : rest ≠ [])
    (h : parseBody rest = some (.obj o)) : decodeFrame (UInt8.ofNat type :: rest) = .ok (.control type o) := by
  have hlt : type < 32 := ht
  have h1 : (UInt8.ofNat type).toNat = type := by
    rw [UInt8.toNat_ofNat']
    omega
  simp only [decodeFrame, h1]
  rw [if_pos ht, if_neg hne, h]

theorem amountJs_u32be {n : Nat} (hn : n < 2 ^ 32) (rest : Bytes) : amountJs (u32be n ++ rest) = some n := by
  unfold amountJs
  rw [if_pos (by rw [List.length_append, length_u32be]; omega), readUInt32BE_u32be hn]

theorem Server.lawful : (Server.codec memory).Lawful where
  control type body _ := congrArg some Server.encodeControl_eq
  streamJson type id body _ hid := congrArg Except.toOption (Server.encodeStreamJson_eq hid)
  streamData id payload hid := congrArg Except.toOption (Server.encodeStreamData_eq hid)
  streamOnly type id _ hid := congrArg Except.toOption (Server.encodeStreamOnly_eq hid)
  streamAck id n hid hn := by
    show (Server.encodeStreamAck memory id n).toOption = _
    rw [Server.encodeStreamAck_eq hid hn, UpTunnel.encodeStreamAck, writeUInt32BE_ok hn]
    rfl
  decodeControl type s body ht h := by
    obtain ⟨hne, hp⟩ := readJs_some h
    show (decodeFrame _).toOption.map decodedJs = _
    rw [decodeFrame_control ht hne hp]
    rfl
  decodeStream type id payload hf ht hid := by
    show (decodeFrame _).toOption.map decodedJs = _
    rw [decodeFrame_stream ht hf hid]
    rfl
  json s body h := by
    obtain ⟨hne, hp⟩ := readJs_some h
    show streamFrameJson _ = _
    rw [streamFrameJson, if_neg hne, hp]
  amount n rest hn := amountJs_u32be hn rest

theorem Client.lawful : (Client.codec memory).Lawful := by
  obtain ⟨h1, h2, h3, h4, h5⟩ := Client.encoders_eq
  have he : Client.codec memory = Server.codec memory := by
    unfold Client.codec Server.codec
    rw [h1, h2, h3, h4, h5, Client.decodeFrame_eq, Client.streamFrameJson_eq]
  rw [he]
  exact Server.lawful

theorem Python.read_some {body : Py.Dict} (h : (Python.codec maxStrDigits).read s = some body) :
    utf8Encode s ≠ [] ∧ Python.loadsBytes maxStrDigits (utf8Encode s) = some (.dict body) := by
  have hl : Py.loads maxStrDigits s.toList = some (.dict body) := by
    change (match Py.loads maxStrDigits s.toList with
      | some (.dict d) => some d
      | _ => none) = some body at h
    split at h
    · rename_i d hd
      cases h
      exact hd
    · cases h
  have hd : Py.decode (utf8Encode s) = some s.toList := Py.decode_iff.2 (by rw [String.ofList_toList])
  refine ⟨utf8Encode_ne_nil fun hnil => ?_, by rw [Python.loadsBytes, hd, Option.bind_some, hl]⟩
  rw [hnil] at hl
  cases hl

theorem Python.fromBytes_u32be {n : Nat} (hn : n < 2 ^ 32) (rest : Bytes) :
    Python.fromBytes ((u32be n ++ rest).take 4) = n := by
  rw [List.take_left' (length_u32be n)]
  simp only [Python.fromBytes, u32be, List.foldl_cons, List.foldl_nil, UInt8.toNat_ofNat']
  omega

theorem Python.control_ok {type : Nat} (body : Py.Dict) (ht : type < STREAM_FRAME_FLOOR) :
    Python.control type body = .ok (UInt8.ofNat type :: utf8Encode (Py.dumps (.dict body))) := by
  have hlt : type < 32 := ht
  rw [Python.control, Python.byte_ok (by omega)]
  rfl

theorem Python.streamJson_ok {type id : Nat} (body : Py.Dict) (ht : type < 256) (hid : id < 2 ^ 32) :
    Python.streamJson type id body = .ok (UInt8.ofNat type :: u32be id ++ utf8Encode (Py.dumps (.dict body))) := by
  rw [Python.streamJson, Python.byte_ok ht, Python.pack_ok hid]
  rfl

theorem Python.lawful : (Python.codec maxStrDigits).Lawful where
  control type body ht := congrArg Except.toOption (Python.control_ok body ht)
  streamJson type id body ht hid := congrArg Except.toOption (Python.streamJson_ok body ht hid)
  streamData id payload hid := by
    show (Python.streamData id payload).toOption = _
    rw [Python.streamData, Python.byte_ok (by decide), Python.pack_ok hid]
    rfl
  streamOnly type id ht hid := by
    show (Python.streamOnly type id).toOption = _
    rw [Python.streamOnly, Python.byte_ok ht, Python.pack_ok hid]
    rfl
  streamAck id n hid hn := by
    show (Python.streamAck id n).toOption = _
    rw [Python.streamAck, Python.byte_ok (by decide), Python.pack_ok hid, Python.pack_ok hn]
    rfl
  decodeControl type s body ht h := by
    obtain ⟨hne, hl⟩ := Python.read_some h
    show (Python.decode maxStrDigits _).toOption.map Python.decoded = _
    rw [Python.decode_control ht hne hl]
    rfl
  decodeStream type id payload hf ht hid := by
    show (Python.decode maxStrDigits _).toOption.map Python.decoded = _
    rw [Python.decode_stream ht hf hid]
    rfl
  json s body h := by
    obtain ⟨hne, hl⟩ := Python.read_some h
    show Python.payloadJson maxStrDigits _ = _
    rw [Python.payloadJson, if_neg hne, hl]
  amount n rest hn := by
    show (if (u32be n ++ rest).length ≥ 4 then some (Python.fromBytes ((u32be n ++ rest).take 4)) else none) = _
    rw [if_pos (by rw [List.length_append, length_u32be]; omega), Python.fromBytes_u32be hn]

end

/-! ## Between any two of them -/

/-- One of the implementations, with what the platform gives it. -/
inductive Impl where
  | server (memory : Nat → UInt8)
  | client (memory : Nat → UInt8)
  | python (maxStrDigits : Nat)

def Impl.codec : Impl → Codec
  | .server memory => Server.codec memory
  | .client memory => Client.codec memory
  | .python maxStrDigits => Python.codec maxStrDigits

theorem Impl.lawful (i : Impl) : i.codec.Lawful :=
  match i with
  | .server _ => Server.lawful
  | .client _ => Client.lawful
  | .python _ => Python.lawful

namespace Codec

variable {e d : Codec}

theorem control_round_trip (he : e.Lawful) (hd : d.Lawful) {type : Nat} {body : e.Body}
    (ht : type < STREAM_FRAME_FLOOR) (hb : CarriesOver e d body) :
    ∃ b body', e.encodeControl type body = some b ∧ d.decode b = some (.control type body') ∧
      d.members body' = e.members body := by
  obtain ⟨body', hr, hm⟩ := hb
  exact ⟨_, body', he.control type body ht, hd.decodeControl type _ body' ht hr, hm⟩

theorem streamJson_round_trip (he : e.Lawful) (hd : d.Lawful) {type id : Nat} {body : e.Body}
    (hf : STREAM_FRAME_FLOOR ≤ type) (ht : type < 256) (hid : id < 2 ^ 32) (hb : CarriesOver e d body) :
    ∃ b payload, e.encodeStreamJson type id body = some b ∧ d.decode b = some (.stream type id payload) ∧
      d.members (d.json payload) = e.members body := by
  obtain ⟨body', hr, hm⟩ := hb
  refine ⟨_, _, he.streamJson type id body ht hid, hd.decodeStream type id _ hf ht hid, ?_⟩
  rw [hd.json _ body' hr, hm]

/-- A stream frame is its type, its id and the rest. -/
theorem stream_parts {b : Bytes} (hlen : 5 ≤ b.length) (hf : ∀ t ∈ b.head?, STREAM_FRAME_FLOOR ≤ t.toNat) :
    ∃ type id payload, STREAM_FRAME_FLOOR ≤ type ∧ type < 256 ∧ id < 2 ^ 32 ∧
      b = UInt8.ofNat type :: u32be id ++ payload := by
  match b, hlen, hf with
  | t :: b₀ :: b₁ :: b₂ :: b₃ :: payload, _, hf =>
    have h0 := b₀.toNat_lt
    have h1 := b₁.toNat_lt
    have h2 := b₂.toNat_lt
    have h3 := b₃.toNat_lt
    refine ⟨t.toNat, readUInt32BE [b₀, b₁, b₂, b₃], payload, hf t rfl, t.toNat_lt, ?_, ?_⟩
    · simp only [readUInt32BE]
      omega
    · rw [UInt8.ofNat_toNat, u32be_readUInt32BE]
      rfl

end Codec

/-- Whatever one of the three encodes, each of them decodes into what it was made of, given that the JSON of the body
carries over; and what one of them decodes as a stream frame is what any of them would have encoded. -/
theorem codec_round_trip (e d : Impl) :
    (∀ type body, type < STREAM_FRAME_FLOOR → Codec.CarriesOver e.codec d.codec body →
      ∃ b body', e.codec.encodeControl type body = some b ∧ d.codec.decode b = some (.control type body') ∧
        d.codec.members body' = e.codec.members body) ∧
    (∀ type id body, STREAM_FRAME_FLOOR ≤ type → type < 256 → id < 2 ^ 32 → Codec.CarriesOver e.codec d.codec body →
      ∃ b payload, e.codec.encodeStreamJson type id body = some b ∧
        d.codec.decode b = some (.stream type id payload) ∧
        d.codec.members (d.codec.json payload) = e.codec.members body) ∧
    (∀ id payload, id < 2 ^ 32 →
      ∃ b, e.codec.encodeStreamData id payload = some b ∧
        d.codec.decode b = some (.stream FrameType.streamData id payload)) ∧
    (∀ type id, STREAM_FRAME_FLOOR ≤ type → type < 256 → id < 2 ^ 32 →
      ∃ b, e.codec.encodeStreamOnly type id = some b ∧ d.codec.decode b = some (.stream type id [])) ∧
    (∀ id n, id < 2 ^ 32 → n < 2 ^ 32 →
      ∃ b payload, e.codec.encodeStreamAck id n = some b ∧
        d.codec.decode b = some (.stream FrameType.streamAck id payload) ∧ d.codec.amount payload = some n) ∧
    ∀ b : Bytes, 5 ≤ b.length → (∀ t ∈ b.head?, STREAM_FRAME_FLOOR ≤ t.toNat) →
      ∃ type id payload, d.codec.decode b = some (.stream type id payload) ∧ type < 256 ∧ id < 2 ^ 32 ∧
        (∃ head, e.codec.encodeStreamOnly type id = some head ∧ b = head ++ payload) ∧
        (payload = [] → e.codec.encodeStreamOnly type id = some b) ∧
        (type = FrameType.streamData → e.codec.encodeStreamData id payload = some b) ∧
        (type = FrameType.streamAck → payload.length = 4 →
          ∃ n, d.codec.amount payload = some n ∧ e.codec.encodeStreamAck id n = some b) := by
  have he := e.lawful
  have hd := d.lawful
  refine ⟨fun type body ht hb => Codec.control_round_trip he hd ht hb,
    fun type id body hf ht hid hb => Codec.streamJson_round_trip he hd hf ht hid hb, ?_, ?_, ?_, ?_⟩
  · intro id payload hid
    exact ⟨_, he.streamData id payload hid, hd.decodeStream _ id payload (by decide) (by decide) hid⟩
  · intro type id hf ht hid
    refine ⟨_, he.streamOnly type id ht hid, ?_⟩
    have h := hd.decodeStream type id [] hf ht hid
    rwa [List.append_nil] at h
  · intro id n hid hn
    refine ⟨_, _, he.streamAck id n hid hn, hd.decodeStream _ id _ (by decide) (by decide) hid, ?_⟩
    have h := hd.amount n [] hn
    rwa [List.append_nil] at h
  · intro b hlen hfloor
    obtain ⟨type, id, payload, hf, ht, hid, rfl⟩ := Codec.stream_parts hlen hfloor
    have honly := he.streamOnly type id ht hid
    refine ⟨type, id, payload, hd.decodeStream type id payload hf ht hid, ht, hid, ⟨_, honly, rfl⟩, ?_, ?_, ?_⟩
    · rintro rfl
      rw [honly, List.append_nil]
    · rintro rfl
      exact he.streamData id payload hid
    · rintro rfl h4
      obtain ⟨n, hn, rfl⟩ := u32be_of_length h4
      have h := hd.amount n [] hn
      rw [List.append_nil] at h
      exact ⟨n, h, he.streamAck id n hid hn⟩

/-- The body of a HELLO_OK. -/
def welcomeBody : Obj :=
  [("agentId", .str "ag_1"), ("streamWindow", .num (.fin 262144)), ("httpDomain", .str "localhost")]

/-- The body of a STREAM_OPEN. -/
def openBody : Obj := [("tunnelId", .str "tn_1"), ("remoteAddr", .str "10.0.0.1:5000")]

/-- The text or the integer that a value is. -/
def atom : Py.Val → Option (String ⊕ Int)
  | .str s => some (.inl s)
  | .int n => some (.inr n)
  | _ => none

def atoms (d : Py.Dict) : List (String × Option (String ⊕ Int)) := d.map fun m => (m.1, atom m.2)

theorem eq_of_atom {v w : Py.Val} (h : atom v = atom w) (hw : atom w ≠ none) : v = w := by
  cases w with
  | str s => cases v <;> simp_all [atom]
  | int n => cases v <;> simp_all [atom]
  | _ => exact absurd rfl hw

theorem eq_of_atoms : ∀ {d d' : Py.Dict}, atoms d = atoms d' → (∀ m ∈ d', atom m.2 ≠ none) → d = d'
  | [], [], _, _ => rfl
  | m :: d, m' :: d', h, hd' => by
    simp only [atoms, List.map_cons, List.cons.injEq, Prod.mk.injEq] at h
    obtain ⟨⟨hkey, hvalue⟩, hrest⟩ := h
    rw [eq_of_atoms hrest fun x hx => hd' x (List.mem_cons_of_mem _ hx),
      Prod.ext hkey (eq_of_atom hvalue (hd' m' List.mem_cons_self))]

theorem carriesOver_of_atoms {memory : Nat → UInt8} {maxStrDigits : Nat} {body : Obj} {d : Py.Dict}
    (hread : ((Python.codec maxStrDigits).read (Json.obj body).stringify).map atoms = some (atoms d))
    (hd : ∀ m ∈ d, atom m.2 ≠ none) (hmembers : Py.membersToJs d = body) :
    Codec.CarriesOver (Impl.server memory).codec (Impl.python maxStrDigits).codec body := by
  obtain ⟨body', hbody', h⟩ := Option.map_eq_some_iff.mp hread
  rw [eq_of_atoms h hd] at hbody'
  exact ⟨d, hbody', hmembers⟩

theorem carriesOver_welcomeBody :
    Codec.CarriesOver (Impl.server fun _ => 0).codec (Impl.python 4300).codec welcomeBody :=
  carriesOver_of_atoms
    (d := [("agentId", .str "ag_1"), ("streamWindow", .int 262144), ("httpDomain", .str "localhost")])
    (by decide +kernel) (by decide) rfl

theorem carriesOver_openBody :
    Codec.CarriesOver (Impl.server fun _ => 0).codec (Impl.python 4300).codec openBody :=
  carriesOver_of_atoms (d := [("tunnelId", .str "tn_1"), ("remoteAddr", .str "10.0.0.1:5000")])
    (by decide +kernel) (by decide) rfl

/-- A HELLO_OK, a STREAM_OPEN with the last id and the largest STREAM_ACK of the server, read by the Python
client; and a STREAM_DATA that the Python client has read, encoded again by the server. -/
theorem codec_round_trip_session :
    (∃ b body', (Impl.server fun _ => 0).codec.encodeControl FrameType.helloOk welcomeBody = some b ∧
      (Impl.python 4300).codec.decode b = some (.control FrameType.helloOk body') ∧
      Py.membersToJs body' = welcomeBody) ∧
    (∃ b payload, (Impl.server fun _ => 0).codec.encodeStreamJson FrameType.streamOpen 0xffffffff openBody = some b ∧
      (Impl.python 4300).codec.decode b = some (.stream FrameType.streamOpen 0xffffffff payload) ∧
      Py.membersToJs (Python.payloadJson 4300 payload) = openBody) ∧
    (∃ b payload, (Impl.server fun _ => 0).codec.encodeStreamAck 0xffffffff 0xffffffff = some b ∧
      (Impl.python 4300).codec.decode b = some (.stream FrameType.streamAck 0xffffffff payload) ∧
      (Impl.python 4300).codec.amount payload = some 0xffffffff) ∧
    ∃ type id payload, (Impl.python 4300).codec.decode [0x21, 0x80, 0, 0, 1, 0xff] = some (.stream type id payload) ∧
      (type = FrameType.streamData →
        (Impl.server fun _ => 0).codec.encodeStreamData id payload = some [0x21, 0x80, 0, 0, 1, 0xff]) := by
  obtain ⟨hcontrol, hjson, -, -, hack, hback⟩ := codec_round_trip (.server fun _ => 0) (.python 4300)
  obtain ⟨type, id, payload, hd, -, -, -, -, he, -⟩ :=
    hback [0x21, 0x80, 0, 0, 1, 0xff] (by decide +kernel) (by decide +kernel)
  exact ⟨hcontrol _ _ (by decide) carriesOver_welcomeBody,
    hjson _ _ _ (by decide) (by decide) (by decide) carriesOver_openBody,
    hack _ _ (by decide) (by decide), type, id, payload, hd, he⟩

end UpTunnel
