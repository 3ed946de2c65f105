import UpTunnel.Server.Ledger

/-!
# UpTunnel.Booking.System

How a device comes by its tunnels: after HELLO_OK it sends one OPEN_TUNNEL for each of its specs, in
order, and enters the spec under the tunnel's id when the TUNNEL_OK with its `reqId` arrives; the
session answers requests as their binds settle, and announces visitors by STREAM_OPEN.

The device is any that keeps to this, and a spec is what it likes (`ask` is the body of its request).
Frames of streams are there, but what they say is left open.
-/

namespace UpTunnel

open Js Relay

/-- The type and the body of a control frame. -/
def Frame.control? : Frame → Option (Nat × Obj)
  | .control type body => some (type, body)
  | .stream .. => none

def controls (fs : List Frame) : List (Nat × Obj) := fs.filterMap Frame.control?

/-- Frames of streams that are there: no control frame, and no STREAM_OPEN. -/
def Mild (fs : List Frame) : Prop :=
  ∀ f ∈ fs, ∃ type id payload, f = .stream type id payload ∧ type ≠ FrameType.streamOpen

section
variable {fs gs : List Frame}

theorem Mild.not_control (h : Mild fs) (type : Nat) (body : Obj) : .control type body ∉ fs := by
  intro hm
  obtain ⟨type', id, payload, he, -⟩ := h _ hm
  cases he

theorem Mild.not_open (h : Mild fs) (id : Nat) (payload : Bytes) : .stream FrameType.streamOpen id payload ∉ fs := by
  intro hm
  obtain ⟨type, id', payload', he, hne⟩ := h _ hm
  cases he
  exact hne rfl

theorem Mild.controls (h : Mild fs) : controls fs = [] := by
  refine List.filterMap_eq_nil_iff.mpr fun f hf => ?_
  obtain ⟨type, id, payload, rfl, -⟩ := h f hf
  rfl

theorem Mild.nil : Mild [] := fun _ h => by cases h

theorem Mild.append (h : Mild fs) (h' : Mild gs) : Mild (fs ++ gs) := fun f hf =>
  (List.mem_append.mp hf).elim (h f) (h' f)

theorem Mild.ite (h : Mild fs) (b : Bool) : Mild (if b then fs else []) := by
  split
  · exact h
  · exact .nil

end

/-- One end of the WebSocket between a session and its device. -/
structure Side where
  sent : List Frame
  received : List Frame
  /-- What it sends gets under way. -/
  up : Bool
  /-- It hears no more. -/
  ended : Bool

namespace Side

def sends (s : Side) (fs : List Frame) : Side := { s with sent := s.sent ++ if s.up then fs else [] }

@[simp] theorem sends_nil (s : Side) : s.sends [] = s := by simp [sends]

def hears (s : Side) (fs : List Frame) : Side := { s with received := s.received ++ fs }

/-- It has heard `ins` and sent `fs`, and may have gone down. -/
structure Turns (s s' : Side) (ins fs : List Frame) : Prop where
  sent : s'.sent = s.sent ++ if s.up then fs else []
  received : s'.received = s.received ++ ins
  up : s'.up = true → s.up = true
  ended : s.ended = true → s'.ended = true

theorem Turns.not_ended {s s' : Side} {ins fs : List Frame} (h : s.Turns s' ins fs) (ho : s'.ended = false) :
    s.ended = false := by
  cases hs : s.ended with
  | false => rfl
  | true => simp [h.ended hs] at ho

end Side

structure Booking (σ : Type) extends Ledger where
  server : Side
  device : Side
  /-- HELLO_OK has arrived. -/
  welcomed : Bool
  /-- The spec registered under a tunnel id. -/
  tunnels : Dict String σ
  /-- The spec of a request that has no reply yet. -/
  pending : Dict String σ
  /-- Ghost: the tunnel that the visitor of a STREAM_OPEN came by, by the frame's place among those sent. -/
  came : Dict Nat Nat

/-- What a session and its device go by. -/
structure BookingEnv (σ : Type) extends Engine where
  cfg : Config
  /-- The address of the session. -/
  self : Nat
  /-- The body of HELLO_OK. -/
  hello : Obj
  specs : List σ
  /-- The body of a request, by its `reqId`. -/
  ask : String → σ → Obj
  ask_reqId : ∀ reqId spec, (ask reqId spec).get "reqId" = some (.str reqId)
  hello_reqId : hello.get "reqId" = none

namespace BookingEnv

variable {σ : Type} (env : BookingEnv σ)

/-- The requests of the device, in the order of its specs. -/
def requests : List (Nat × Obj) :=
  env.specs.zipIdx.map fun (spec, i) => (FrameType.openTunnel, env.ask (toString i) spec)

/-- As frames. -/
def asks : List Frame := env.requests.map fun request => .control request.1 request.2

theorem controls_asks : controls env.asks = env.requests := by
  rw [asks, controls, List.filterMap_map]
  exact List.filterMap_some

theorem getElem?_requests (k : Nat) :
    env.requests[k]? = env.specs[k]?.map fun spec => (FrameType.openTunnel, env.ask (toString k) spec) := by
  simp only [requests, List.getElem?_map, List.getElem?_zipIdx, Option.map_map]
  cases env.specs[k]? <;> simp

end BookingEnv

namespace Booking

variable {σ : Type}

inductive Event where
  /-- Of other sessions, at the registry. -/
  | elsewhere
  /-- The session is destroyed. -/
  | gone
  | serverTalks
  | request (body : Obj)
  | settled
  | visitor
  | deviceTalks
  | welcomed
  | greeted
  | announced
  | refused
  | hangup

/-- A visitor can come by the tunnel at `t`: by its name, or by its listener. -/
def Reachable (s : Relay) (t : Nat) : Prop := s.Live t ∨ ∃ tn, s.tunnels[t]? = some tn ∧ tn.listener = true

inductive Step (env : BookingEnv σ) : Booking σ → Event → Booking σ → Prop where
  | elsewhere {b : Booking σ} {relay : Relay} {e : Relay.Event} (hid : b.relay.FreshId e)
      (hf : b.relay.Foreign env.self e) (hs : Relay.step env.cfg b.relay e = some relay) :
      Step env b .elsewhere { b with relay }
  | gone {b : Booking σ} {r : Registrant} (hr : b.relay.agents[env.self]? = some r) :
      Step env b .gone { b with relay := b.relay.destroy env.self r, server := { b.server with up := false } }
  | serverTalks {b : Booking σ} {server : Side} {ins fs : List Frame} (ht : b.server.Turns server ins fs)
      (hfs : Mild fs) (hc : controls ins = []) (hins : ins <+: b.device.sent.drop b.server.received.length) :
      Step env b .serverTalks { b with server }
  | request {b : Booking σ} {r : Registrant} {body : Obj} {id : String} {l : Ledger} {reply : Option Frame}
      (hr : b.relay.agents[env.self]? = some r)
      (hnext : b.device.sent[b.server.received.length]? = some (.control FrameType.openTunnel body))
      (hid : ∀ tn ∈ b.relay.tunnels, tn.id ≠ id) (hne : id ≠ "")
      (hl : b.toLedger.request env.cfg env.toEngine env.self r (controls b.server.received).length body id = (l, reply)) :
      Step env b (.request body)
        { b with
          toLedger := l
          server := (b.server.hears [.control FrameType.openTunnel body]).sends reply.toList }
  | settled {b : Booking σ} {t : Nat} {failure : Option String} {l : Ledger} {f : Frame}
      (hl : b.toLedger.settle env.cfg t failure = some (l, f)) :
      Step env b .settled { b with toLedger := l, server := b.server.sends [f] }
  | visitor {b : Booking σ} {t : Nat} (id : Nat) {tn : Tunnel} {payload : Bytes} {fs : List Frame}
      (ht : b.relay.tunnels[t]? = some tn) (ha : tn.agent = env.self) (hr : Reachable b.relay t)
      (hp : (streamFrameJson payload).get "tunnelId" = some (.str tn.id)) (hfs : Mild fs) :
      Step env b .visitor
        { b with
          server := b.server.sends (.stream FrameType.streamOpen id payload :: fs)
          came := if b.server.up then b.came.insert b.server.sent.length t else b.came }
  | deviceTalks {b : Booking σ} {device : Side} {ins fs : List Frame} (ht : b.device.Turns device ins fs)
      (hfs : Mild fs) (hc : controls ins = []) (hins : ins <+: b.server.sent.drop b.device.received.length) :
      Step env b .deviceTalks { b with device }
  | welcomed {b : Booking σ} {pending : Dict String σ} (hw : b.welcomed = false)
      (hnext : b.server.sent[b.device.received.length]? = some (.control FrameType.helloOk env.hello))
      (hp : ∀ (k : Nat) (spec : σ), env.specs[k]? = some spec → pending.lookup (toString k) = some spec) :
      Step env b .welcomed
        { b with
          welcomed := true
          pending
          device := (b.device.hears [.control FrameType.helloOk env.hello]).sends env.asks }
  /-- A HELLO_OK after the first changes nothing. -/
  | greeted {b : Booking σ} (hw : b.welcomed = true)
      (hnext : b.server.sent[b.device.received.length]? = some (.control FrameType.helloOk env.hello)) :
      Step env b .greeted { b with device := b.device.hears [.control FrameType.helloOk env.hello] }
  | announced {b : Booking σ} {body : Obj} {reqId id : String} (hw : b.welcomed = true)
      (hnext : b.server.sent[b.device.received.length]? = some (.control FrameType.tunnelOk body))
      (hk : body.get "reqId" = some (.str reqId)) (hid : body.get "tunnelId" = some (.str id)) :
      Step env b .announced
        { b with
          device := b.device.hears [.control FrameType.tunnelOk body]
          tunnels := match b.pending.lookup reqId with
            | some spec => if id = "" then b.tunnels else b.tunnels.insert id spec
            | none => b.tunnels
          pending := b.pending.erase reqId }
  | refused {b : Booking σ} {body : Obj} {reqId : String} (hw : b.welcomed = true)
      (hnext : b.server.sent[b.device.received.length]? = some (.control FrameType.error body))
      (hk : body.get "reqId" = some (.str reqId)) :
      Step env b .refused
        { b with
          device := b.device.hears [.control FrameType.error body]
          pending := b.pending.erase reqId }
  | hangup {b : Booking σ} {device : Side} {fs : List Frame} (ht : b.device.Turns device [] fs) (hfs : Mild fs)
      (ho : device.ended = true) : Step env b .hangup { b with device, tunnels := ∅, pending := ∅ }

end Booking

end UpTunnel
