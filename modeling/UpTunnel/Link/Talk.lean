import UpTunnel.Booking.Books
import UpTunnel.Lib.JsonRound
import UpTunnel.Link.System

/-!
# UpTunnel.Link.Talk

What the streams of the two sides say. Whatever happens to a stream, its owner sends frames that name
streams and open none (`Wire.Talks`); nothing is assumed of the state. Only `openStream` sends a
STREAM_OPEN, and that first (`openStream_talks`).
-/

namespace UpTunnel

open Js Hub

/-- Between `w` and `w'` frames of streams were sent, and no STREAM_OPEN. -/
def Wire.Talks (w w' : Wire) : Prop := ∃ fs, w.Does w' fs ∧ Mild fs

namespace Wire.Talks

variable {w w' w'' : Wire}

theorem refl (w : Wire) : w.Talks w := ⟨[], .refl w, .nil⟩

theorem trans (h : w.Talks w') (h' : w'.Talks w'') : w.Talks w'' := by
  obtain ⟨fs, hd, hm⟩ := h
  obtain ⟨gs, hd', hm'⟩ := h'
  exact ⟨fs ++ gs, hd.trans hd', hm.append hm'⟩

theorem send (env : WireEnv) (w : Wire) {type id : Nat} {payload : Bytes} (h : type ≠ FrameType.streamOpen) :
    w.Talks (w.send env (.stream type id payload)) := by
  refine ⟨_, .send env w _, fun f hf => ?_⟩
  cases List.mem_singleton.mp hf
  exact ⟨type, id, payload, rfl, h⟩

theorem reset (env : WireEnv) (w : Wire) (id : Nat) (code : String) : w.Talks (w.send env (.reset id code)) :=
  send env w (by decide)

end Wire.Talks

/-! ## Streams -/

namespace Ctx

variable {env : WireEnv} {c c' : Ctx}

theorem finish_wire (c : Ctx) : c.finish.wire = c.wire := by
  unfold finish
  split <;> rfl

theorem onSourceData_talks (chunk : Bytes) (c : Ctx) : c.wire.Talks (c.onSourceData env chunk).wire := by
  unfold onSourceData
  split
  · exact .refl _
  · have h : c.wire.Talks (c.wire.send env (.data c.self.id chunk)) := .send env c.wire (by decide)
    dsimp only
    split <;> exact h

theorem onSourceEnd_talks (c : Ctx) : c.wire.Talks (c.onSourceEnd env).wire := by
  unfold onSourceEnd
  split
  · exact .refl _
  · have h : c.wire.Talks (c.wire.send env (.eof c.self.id)) := .send env c.wire (by decide)
    dsimp only
    split
    · rw [finish_wire]
      exact h
    · exact h

theorem flushAck_talks (h : c.flushAck env = .ok c') : c.wire.Talks c'.wire := by
  unfold flushAck at h
  split at h
  · cases h
    exact .refl _
  · obtain ⟨f, hf, rfl⟩ := map_ok.mp h
    obtain ⟨-, rfl⟩ := Frame.ack_ok hf
    exact .send env c.wire (by decide)

theorem destroy_talks (reason : String) (c : Ctx) : c.wire.Talks (c.destroy env reason).wire := by
  unfold destroy
  split
  · exact .refl _
  · dsimp only
    split
    · exact .reset env c.wire _ _
    · exact .refl _

end Ctx

namespace Stream

variable {env : WireEnv} {c c' : Ctx}

theorem onData_talks {payload : Bytes} {flushed : Bool} (h : onData env c payload flushed = .ok c') :
    c.wire.Talks c'.wire := by
  unfold onData at h
  split at h
  · cases h
    exact .refl _
  · dsimp only at h
    split at h
    · have hq := Ctx.flushAck_talks h
      exact hq
    · cases h
      exact .refl _

theorem onEof_talks (h : onEof env c = .ok c') : c.wire.Talks c'.wire := by
  unfold onEof at h
  split at h
  · cases h
    exact .refl _
  · obtain ⟨c1, h1, rfl⟩ := map_ok.mp h
    have ht := Ctx.flushAck_talks h1
    dsimp only
    split
    · rw [Ctx.finish_wire]
      exact ht
    · exact ht

theorem onDrain_talks (h : onDrain env c = .ok c') : c.wire.Talks c'.wire := by
  have hq := Ctx.flushAck_talks h
  exact hq

theorem setUp_talks (preread : Bytes) (c : Ctx) : c.wire.Talks (AgentSession.setUp env preread c).wire := by
  have hp : ∀ c : Ctx, c.wire.Talks (if preread.length > 0 then writePreread env c preread else c).wire := by
    intro c
    split
    · unfold writePreread
      split
      · exact .refl _
      · exact Ctx.onSourceData_talks preread c
    · exact .refl _
  unfold AgentSession.setUp
  dsimp only
  by_cases hc : c.wire.congested = true
  · rw [if_pos hc]
    exact hp { c with self := c.self.setGlobalPause true }
  · rw [if_neg hc]
    exact hp c

end Stream

namespace ClientStream

variable {env : WireEnv} {c c' : ClientCtx}

theorem flushAck_talks (h : flushAck env c = .ok c') : c.wire.Talks c'.wire := by
  obtain ⟨b, hb, rfl⟩ := map_ok.mp h
  exact Ctx.flushAck_talks hb

theorem finish_wire (c : ClientCtx) : (finish c).wire = c.wire := Ctx.finish_wire c.base

theorem onLocalData_talks (chunk : Bytes) (c : ClientCtx) : c.wire.Talks (onLocalData env c chunk).wire :=
  Ctx.onSourceData_talks chunk c.base

theorem onLocalEnd_talks (c : ClientCtx) : c.wire.Talks (onLocalEnd env c).wire := Ctx.onSourceEnd_talks c.base

theorem destroy_talks (reason : String) (c : ClientCtx) : c.wire.Talks (destroy env c reason).wire :=
  Ctx.destroy_talks reason c.base

theorem writeLocal_talks {payload : Bytes} {flushed : Bool} (h : writeLocal env c payload flushed = .ok c') :
    c.wire.Talks c'.wire := by
  rw [writeLocal_eq] at h
  split at h
  · have hq := flushAck_talks h
    exact hq
  · cases h
    exact .refl _

theorem onData_talks {payload : Bytes} {flushed : Bool} (h : onData env c payload flushed = .ok c') :
    c.wire.Talks c'.wire := by
  unfold onData at h
  split at h
  · cases h
    exact .refl _
  · split at h
    · cases h
      exact .refl _
    · exact writeLocal_talks h

theorem onEof_talks {flushed : Bool} (h : onEof env c flushed = .ok c') : c.wire.Talks c'.wire := by
  unfold onEof at h
  split at h
  · cases h
    exact .refl _
  · split at h
    · cases h
      exact .refl _
    · obtain ⟨c1, h1, rfl⟩ := map_ok.mp h
      have ht := flushAck_talks h1
      dsimp only
      split
      · rw [finish_wire]
        exact ht
      · exact ht

theorem onDrain_talks (h : onDrain env c = .ok c') : c.wire.Talks c'.wire := by
  have hq := flushAck_talks h
  exact hq

theorem dialFailed_talks (message : String) (c : ClientCtx) : c.wire.Talks (dialFailed env c message).wire := by
  unfold dialFailed
  split
  · exact .refl _
  · exact .send env c.wire (by decide)

theorem writeQueued_talks {payloads : List Bytes} {flushed : Nat → Bool}
    (h : writeQueued env c payloads flushed = .ok c') : c.wire.Talks c'.wire := by
  induction payloads generalizing c flushed with
  | nil =>
    cases h
    exact .refl _
  | cons payload rest ih =>
    obtain ⟨c1, h1, h2⟩ := bind_ok.mp h
    exact (writeLocal_talks h1).trans (ih h2)

theorem attach_talks {flushed : Nat → Bool} (h : attach env c flushed = .ok c') : c.wire.Talks c'.wire := by
  unfold attach at h
  split at h
  · cases h
    exact .refl _
  · obtain ⟨c1, hq, h2⟩ := bind_ok.mp h
    obtain ⟨c2, hx, rfl⟩ := map_ok.mp h2
    have h1 := writeQueued_talks hq
    have h3 : c1.wire.Talks c2.wire := by
      split at hx
      · have he := onEof_talks hx
        exact he
      · cases hx
        exact .refl _
    split <;> exact h1.trans h3

end ClientStream

/-! ## Hubs -/

namespace Hub

variable {α : Type} [StreamObj α] {env : WireEnv} {h h' : Hub α}

theorem clearCongestion_talks (h : Hub α) : h.wire.Talks h.clearCongestion.wire := by
  rw [wire_clearCongestion]
  exact ⟨[], ⟨by simp, rfl, rfl, rfl⟩, .nil⟩

theorem poll_talks (h : Hub α) (buffered : Nat) : h.wire.Talks (h.poll env buffered).wire := by
  unfold poll
  split
  · exact clearCongestion_talks h
  · exact .refl _

theorem call_talks {a : Nat} {m : α → Wire → Bool → α × Wire} (hm : ∀ s (w : Wire) l, w.Talks (m s w l).2) :
    h.wire.Talks (h.call a m).wire := by
  unfold call
  split
  · exact .refl _
  · exact hm _ _ _

theorem run_talks {a : Nat} {m : α → Wire → Bool → Except JsError (α × Wire)}
    (hm : ∀ s (w : Wire) l r, m s w l = .ok r → w.Talks r.2) (hr : h.run a m = .ok h') : h.wire.Talks h'.wire := by
  unfold run at hr
  split at hr
  · cases hr
    exact .refl _
  · obtain ⟨r, hm', rfl⟩ := map_ok.mp hr
    exact hm _ _ _ r hm'

theorem foldl_call_talks {m : α → Wire → Bool → α × Wire} (hm : ∀ s (w : Wire) l, w.Talks (m s w l).2) (as : List Nat) :
    ∀ h : Hub α, h.wire.Talks (as.foldl (fun h a => h.call a m) h).wire := by
  induction as with
  | nil => exact fun h => .refl _
  | cons a as ih => exact fun h => (call_talks hm).trans (ih _)

end Hub

/-! ## The session -/

/-- A WebSocket as one end of a booking: teardown ends what a device hears. -/
def Wire.side (w : Wire) : Side := ⟨w.sent, w.received, w.canSend, w.closed⟩

theorem Wire.Does.turns {w w' : Wire} {fs : List Frame} (h : w.Does w' fs) : w.side.Turns w'.side [] fs where
  sent := h.sent
  received := by simp [Wire.side, h.received]
  up hu := by simpa [Wire.side, h.canSend] using hu
  ended ho := by simpa [Wire.side, h.closed] using ho

theorem Wire.Does.side {w w' : Wire} {fs : List Frame} (h : w.Does w' fs) : w'.side = w.side.sends fs := by
  have hs := h.sent
  simp only [Wire.side, Side.sends, h.received, h.canSend, h.closed]
  rw [hs]
  rfl

theorem Wire.Talks.turns {w w' : Wire} {f : Frame}
    (h : ({ w with received := w.received ++ [f] } : Wire).Talks w') :
    ∃ fs, w.side.Turns w'.side [f] fs ∧ Mild fs := by
  obtain ⟨fs, hd, hm⟩ := h
  exact ⟨fs, ⟨hd.turns.sent, by simp [Wire.side, hd.received], hd.turns.up, hd.turns.ended⟩, hm⟩

theorem Wire.notOpen_turns (w : Wire) : w.side.Turns { w with readyOpen := false }.side [] [] where
  sent := by
    show w.sent = w.sent ++ if w.canSend then [] else []
    split <;> simp
  received := by simp [Wire.side]
  up hu := by simp [Wire.side, Wire.canSend] at hu
  ended ho := ho

/-- What is sent while it cannot be is lost. -/
theorem Wire.send_side (env : WireEnv) (w : Wire) (f : Frame) : (w.send env f).side = w.side.sends [f] := by
  simp [side, Side.sends, send_sent, passed, canSend]

/-- An event of a public socket, of the timer or of the WebSocket's state. -/
def AgentSession.Event.isLocal : AgentSession.Event → Bool
  | .data .. | .end _ | .drain _ | .error _ | .close _ | .poll _ | .notOpen => true
  | .accept .. | .frame .. | .control .. | .destroy => false

/-- An announcement as the agent reads it. -/
theorem streamFrameJson_texts {ms : List (String × String)} (h : (ms.map (·.1)).Nodup) :
    streamFrameJson (utf8Encode (Json.obj (texts ms)).stringify) = texts ms := by
  have hne : utf8Encode (Json.obj (texts ms)).stringify ≠ [] := by
    intro he
    have hc := utf8Chars_utf8Encode (Json.obj (texts ms)).stringify
    rw [he, toList_stringify] at hc
    cases hc
  rw [streamFrameJson, if_neg hne, parseBody, utf8Chars_utf8Encode, jsonParse_stringify h]

namespace AgentSession

variable {env : WireEnv} {streamWindow : Int} {s s' : AgentSession} {h h' : Hub Stream}

theorem method_talks {m : Ctx → Ctx} (hm : ∀ c : Ctx, c.wire.Talks (m c).wire) (t : Stream) (w : Wire) (l : Bool) :
    w.Talks (method m t w l).2 := hm ⟨t, w, l⟩

theorem methodE_talks {m : Ctx → Except JsError Ctx} (hm : ∀ c c', m c = .ok c' → c.wire.Talks c'.wire) (t : Stream)
    (w : Wire) (l : Bool) (r : Stream × Wire) (h : methodE m t w l = .ok r) : w.Talks r.2 := by
  obtain ⟨c, hc, rfl⟩ := map_ok.mp h
  exact hm ⟨t, w, l⟩ c hc

theorem handleStreamFrame_talks {type id : Nat} {payload : Bytes} {flushed : Bool}
    (hs : handleStreamFrame env h type id payload flushed = .ok h') : h.wire.Talks h'.wire := by
  unfold handleStreamFrame at hs
  split at hs
  · cases hs
    split
    · rw [wire_send]
      exact .reset env _ _ _
    · exact .refl _
  · split at hs
    · exact run_talks (methodE_talks fun c c' h => Stream.onData_talks h) hs
    split at hs
    · exact run_talks (methodE_talks fun c c' h => Stream.onEof_talks h) hs
    split at hs
    · cases hs
      split
      · exact call_talks fun s w l => .refl w
      · exact .refl _
    split at hs
    · cases hs
      exact call_talks (method_talks fun c => Ctx.destroy_talks _ c)
    · cases hs
      exact .refl _

theorem step_turns {e : Event} (he : e.isLocal = true) (hs : step env streamWindow s e = some s') :
    ∃ fs, s.wire.side.Turns s'.wire.side [] fs ∧ Mild fs := by
  have key : s.wire.Talks s'.wire → ∃ fs, s.wire.side.Turns s'.wire.side [] fs ∧ Mild fs := by
    rintro ⟨fs, hd, hm⟩
    exact ⟨fs, hd.turns, hm⟩
  cases e with
  | accept | frame | control | destroy => cases he
  | data a chunk =>
    obtain ⟨h1, hh, rfl⟩ := Option.map_eq_some_iff.mp hs
    refine key ?_
    rw [← onSocket_wire hh]
    exact call_talks (method_talks fun c => Ctx.onSourceData_talks chunk c)
  | «end» a =>
    obtain ⟨h1, hh, rfl⟩ := Option.map_eq_some_iff.mp hs
    refine key ?_
    rw [← onSocket_wire hh]
    exact call_talks (method_talks fun c => Ctx.onSourceEnd_talks c)
  | drain a =>
    obtain ⟨h1, hh, hs1⟩ := Option.bind_eq_some_iff.mp hs
    obtain ⟨h2, hx, rfl⟩ := Option.map_eq_some_iff.mp hs1
    refine key ?_
    rw [← onSocket_wire hh]
    exact run_talks (methodE_talks fun c c' h => Stream.onDrain_talks h) (toOption_eq_some.mp hx)
  | error a =>
    cases hs
    exact key (call_talks (method_talks fun c => Ctx.destroy_talks _ c))
  | close a =>
    obtain ⟨h1, hh, rfl⟩ := Option.map_eq_some_iff.mp hs
    refine key ?_
    rw [← onSocket_wire hh]
    refine call_talks (method_talks fun c => ?_)
    rw [Ctx.finish_wire]
    exact .refl _
  | poll buffered =>
    simp only [step] at hs
    split at hs
    · cases hs
      exact key (poll_talks _ buffered)
    · cases hs
  | notOpen =>
    cases hs
    exact ⟨[], Wire.notOpen_turns s.wire, .nil⟩

/-- The frame that arrives. -/
theorem frame_turns {f : Frame} {flushed : Bool} (hs : step env streamWindow s (.frame f flushed) = some s') :
    ∃ fs, s.wire.side.Turns s'.wire.side [f] fs ∧ Mild fs := by
  cases f with
  | control type body =>
    cases hs
    exact Wire.Talks.turns (.refl _)
  | stream type id payload =>
    obtain ⟨h1, hh, rfl⟩ := Option.map_eq_some_iff.mp hs
    exact Wire.Talks.turns (handleStreamFrame_talks (toOption_eq_some.mp hh))

/-- A connection is announced by a STREAM_OPEN with the id of its tunnel, and that first. -/
theorem openStream_talks (env : WireEnv) (streamWindow : Int) (s : AgentSession) (tunnelId remoteAddr : String)
    (socket : Socket) (preread : Bytes) :
    (s.openStream env streamWindow tunnelId remoteAddr socket preread).wire = s.wire ∨
    ∃ id payload fs, (streamFrameJson payload).get "tunnelId" = some (.str tunnelId) ∧ Mild fs ∧
      s.wire.Does (s.openStream env streamWindow tunnelId remoteAddr socket preread).wire
        (.stream FrameType.streamOpen id payload :: fs) := by
  unfold openStream
  split
  rename_i id? next _
  dsimp only
  cases id? with
  | none => exact .inl rfl
  | some id =>
    right
    have hset : ∀ (h : Hub Stream) (a : Nat), h.wire.Talks (h.call a (method (setUp env preread))).wire := fun h a =>
      call_talks (method_talks (Stream.setUp_talks preread))
    obtain ⟨fs, hd, hm⟩ := hset ((s.toHub.send env (.streamJson FrameType.streamOpen id
      [("tunnelId", .str tunnelId), ("remoteAddr", .str remoteAddr)])).insert id
        (Endpoint.new id socket streamWindow s.wire)) _
    refine ⟨id, _, fs, ?_, hm, (Wire.Does.send env s.wire _).trans (by rwa [← wire_send])⟩
    have hj : (texts [("tunnelId", tunnelId), ("remoteAddr", remoteAddr)]).get "tunnelId" = some (.str tunnelId) := rfl
    rwa [← streamFrameJson_texts (by simp)] at hj

/-- The session is over, and sends no more. -/
theorem destroy_side (env : WireEnv) (s : AgentSession) :
    (s.destroy env).wire.side = { s.wire.side with up := false, ended := true } := by
  unfold destroy
  split
  · rename_i hc
    simp [Wire.side, Wire.canSend, hc]
  · have hm : ∀ c : Ctx, c.wire.Talks (c.destroy env "agent_gone").wire := Ctx.destroy_talks "agent_gone"
    obtain ⟨fs, hd, -⟩ := (clearCongestion_talks { s.toHub with wire := { s.wire with closed := true } }).trans
      (foldl_call_talks (method_talks hm) _ _)
    simp only [Wire.side, Side.mk.injEq]
    exact ⟨by simpa [Wire.passed, Wire.canSend] using hd.sent, hd.received, by simpa [Wire.canSend] using hd.canSend,
      hd.closed⟩

end AgentSession

/-! ## The agent -/

/-- An event of a local socket or a dial, of the timer or of the WebSocket's state. -/
def Agent.Event.isLocal : Agent.Event → Bool
  | .dialed .. | .dialFailed .. | .data .. | .end _ | .drain _ | .error _ | .close _ | .poll _ | .notOpen => true
  | .frame .. | .teardown => false

namespace Agent

variable {env : WireEnv} {specs : List TunnelSpec} {a a' : Agent} {h h' : Hub ClientStream}

theorem method_talks {m : ClientCtx → ClientCtx} (hm : ∀ c : ClientCtx, c.wire.Talks (m c).wire) (t : ClientStream)
    (w : Wire)
    (l : Bool) : w.Talks (method m t w l).2 := hm ⟨t, w, l⟩

theorem methodE_talks {m : ClientCtx → Except JsError ClientCtx} (hm : ∀ c c', m c = .ok c' → c.wire.Talks c'.wire)
    (t : ClientStream) (w : Wire) (l : Bool) (r : ClientStream × Wire) (h : methodE m t w l = .ok r) :
    w.Talks r.2 := by
  obtain ⟨c, hc, rfl⟩ := map_ok.mp h
  exact hm ⟨t, w, l⟩ c hc

theorem handleStreamFrame_talks {type id : Nat} {payload : Bytes} {flushed : Bool}
    (hs : handleStreamFrame env h type id payload flushed = .ok h') : h.wire.Talks h'.wire := by
  unfold handleStreamFrame at hs
  split at hs
  · cases hs
    split
    · rw [wire_send]
      exact .reset env _ _ _
    · exact .refl _
  · split at hs
    · exact run_talks (methodE_talks fun c c' h => ClientStream.onData_talks h) hs
    split at hs
    · exact run_talks (methodE_talks fun c c' h => ClientStream.onEof_talks h) hs
    split at hs
    · cases hs
      split
      · exact call_talks fun s w l => .refl w
      · exact .refl _
    split at hs
    · cases hs
      exact call_talks (method_talks fun c => ClientStream.destroy_talks _ c)
    · cases hs
      exact .refl _

/-- The tables of tunnels and requests stay. -/
theorem step_turns {e : Event} (he : e.isLocal = true) (hs : step env specs a e = some a') :
    a'.tunnels = a.tunnels ∧ a'.pending = a.pending ∧ a'.handshook = a.handshook ∧
      ∃ fs, a.wire.side.Turns a'.wire.side [] fs ∧ Mild fs := by
  have key : a.wire.Talks a'.wire → ∃ fs, a.wire.side.Turns a'.wire.side [] fs ∧ Mild fs := by
    rintro ⟨fs, hd, hm⟩
    exact ⟨fs, hd.turns, hm⟩
  cases e with
  | frame | teardown => cases he
  | dialed x flushed =>
    simp only [step] at hs
    split at hs
    · obtain ⟨h1, hx, rfl⟩ := Option.map_eq_some_iff.mp hs
      exact ⟨rfl, rfl, rfl, key (run_talks (methodE_talks fun c c' h => ClientStream.attach_talks h)
        (toOption_eq_some.mp hx))⟩
    · cases hs
  | dialFailed x message =>
    simp only [step] at hs
    split at hs
    · cases hs
      exact ⟨rfl, rfl, rfl, key (call_talks (method_talks fun c => ClientStream.dialFailed_talks message c))⟩
    · cases hs
  | data x chunk =>
    obtain ⟨h1, hh, rfl⟩ := Option.map_eq_some_iff.mp hs
    refine ⟨rfl, rfl, rfl, key ?_⟩
    rw [← onSocket_wire hh]
    exact call_talks (method_talks fun c => ClientStream.onLocalData_talks chunk c)
  | «end» x =>
    obtain ⟨h1, hh, rfl⟩ := Option.map_eq_some_iff.mp hs
    refine ⟨rfl, rfl, rfl, key ?_⟩
    rw [← onSocket_wire hh]
    exact call_talks (method_talks fun c => ClientStream.onLocalEnd_talks c)
  | drain x =>
    obtain ⟨h1, hh, hs1⟩ := Option.bind_eq_some_iff.mp hs
    obtain ⟨h2, hx, rfl⟩ := Option.map_eq_some_iff.mp hs1
    refine ⟨rfl, rfl, rfl, key ?_⟩
    rw [← onSocket_wire hh]
    exact run_talks (methodE_talks fun c c' h => ClientStream.onDrain_talks h) (toOption_eq_some.mp hx)
  | error x =>
    obtain ⟨h1, hh, rfl⟩ := Option.map_eq_some_iff.mp hs
    refine ⟨rfl, rfl, rfl, key ?_⟩
    rw [← onSocket_wire hh]
    exact call_talks (method_talks fun c => ClientStream.destroy_talks _ c)
  | close x =>
    obtain ⟨h1, hh, rfl⟩ := Option.map_eq_some_iff.mp hs
    refine ⟨rfl, rfl, rfl, key ?_⟩
    rw [← onSocket_wire hh]
    refine call_talks (method_talks fun c => ?_)
    rw [ClientStream.finish_wire]
    exact .refl _
  | poll buffered =>
    simp only [step] at hs
    split at hs
    · cases hs
      exact ⟨rfl, rfl, rfl, key (poll_talks _ buffered)⟩
    · cases hs
  | notOpen =>
    cases hs
    exact ⟨rfl, rfl, rfl, [], Wire.notOpen_turns a.wire, .nil⟩

theorem onMessage_handshook (env : WireEnv) (specs : List TunnelSpec) (h : a.handshook = true) (flushed : Bool) (f : Frame) :
    a.onMessage env specs flushed f = a.handleFrame env flushed f := by
  rw [onMessage, if_pos h]

theorem onMessage_hello (h : a.handshook = false) (flushed : Bool) (f : Frame) :
    a.onMessage env specs flushed f = (a.handleHandshake f).map fun
      | .error _ => a.teardownSession env
      | .ok a => { a with handshook := true }.registerTunnels env specs := by
  rw [onMessage, h]
  rfl

theorem onStreamOpen_talks (a : Agent) (id : Nat) (tunnelId : String) :
    a.wire.Talks (a.onStreamOpen env id tunnelId).wire := by
  unfold onStreamOpen
  split
  · rw [wire_send]
    exact .reset env _ _ _
  · exact .refl _

theorem teardownSession_turns (env : WireEnv) (a : Agent) :
    ∃ fs, a.wire.side.Turns (a.teardownSession env).wire.side [] fs ∧ Mild fs := by
  have hc : ∀ c : ClientCtx, c.wire.Talks (ClientStream.destroy env c "peer_reset").wire :=
    ClientStream.destroy_talks "peer_reset"
  obtain ⟨fs, hd, hm⟩ := (clearCongestion_talks a.toHub).trans (foldl_call_talks (method_talks hc) _ _)
  exact ⟨fs, ⟨hd.turns.sent, hd.turns.received, fun hu => by simp [teardownSession, Wire.side, Wire.canSend] at hu,
    fun _ => rfl⟩, hm⟩

/-- The requests for `specs` have gone out, with the numbers from `i` on. -/
structure Registers (a a' : Agent) (i : Nat) (specs : List TunnelSpec) : Prop where
  wire : a.wire.Does a'.wire
    ((specs.zipIdx i).map fun p => .control FrameType.openTunnel (openTunnelBody (toString p.2) p.1))
  tunnels : a'.tunnels = a.tunnels
  handshook : a'.handshook = a.handshook
  pending : ∀ (k : Nat) spec, specs[k]? = some spec → a'.pending.lookup (toString (i + k)) = some spec
  others : ∀ q, (∀ k < specs.length, q ≠ toString (i + k)) → a'.pending.lookup q = a.pending.lookup q

theorem foldl_registerTunnel (env : WireEnv) (specs : List TunnelSpec) (i : Nat) (a : Agent) :
    Registers a ((specs.zipIdx i).foldl (fun a (spec, i) => a.registerTunnel env i spec) a) i specs := by
  induction specs generalizing i a with
  | nil => exact ⟨.refl _, rfl, rfl, fun k spec h => by simp at h, fun _ _ => rfl⟩
  | cons spec specs ih =>
    have h := ih (i + 1) (a.registerTunnel env i spec)
    refine ⟨?_, h.tunnels, h.handshook, fun k spec' hk => ?_, fun q hq => ?_⟩
    · have hd : a.wire.Does (a.registerTunnel env i spec).wire
          [.control FrameType.openTunnel (openTunnelBody (toString i) spec)] := by
        rw [registerTunnel, wire_send]
        exact .send env a.wire _
      exact hd.trans h.wire
    · cases k with
      | zero =>
        cases hk
        refine (h.others (toString i) fun k _ he => ?_).trans (AList.lookup_insert _)
        have := Booking.toString_injective he
        omega
      | succ k =>
        have := h.pending k spec' hk
        rwa [show i + 1 + k = i + (k + 1) by omega] at this
    · refine (h.others q fun k hk he => hq (k + 1) (by simpa using hk) ?_).trans
        (AList.lookup_insert_ne (hq 0 (by simp)))
      rwa [show i + 1 + k = i + (k + 1) by omega] at he

end Agent

end UpTunnel
