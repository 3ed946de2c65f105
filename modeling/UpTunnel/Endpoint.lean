import UpTunnel.Protocol

/-!
# UpTunnel.Endpoint

One end of a stream. `Stream` (`server/src/stream.ts`) and `ClientStream`
(`client-node/src/stream.ts`) hold the same credit, pause and EOF fields and share, line for line,
`onSocketData`/`onLocalData`, `onSocketEnd`/`onLocalEnd`, `onAck`, `flushAck`, `setGlobalPause`,
`maybeResume`, `destroy` and `finish`; `AgentSession` and `Agent` share `send` and
`checkCongestion`. This module is that common part. What the two ends do differently is in
`Server.Stream` and `Client.Stream`.

A method runs on a `Ctx`: the endpoint and its owner's side of the WebSocket. `peer.send` may start
congestion, and then calls back `setGlobalPause(true)` on this very endpoint, in the middle of the
method. The owner's other streams are paused by the owner (`Server.Session`, `Client.Agent`).
-/

namespace UpTunnel

open Js

/-! ## Sockets -/

/-- A `net.Socket` as the code sees it. -/
@[ext]
structure Socket where
  /-- `pause()` was called after the last `resume()`. -/
  paused : Bool
  /-- What its `data` events have handed over, a pre-read head first. -/
  read : List Bytes
  /-- The `end` event has been emitted. -/
  endSeen : Bool
  /-- What has been passed to `write()`. -/
  written : List Bytes
  /-- A `write()` has returned false, and no `drain` event has come since. -/
  needDrain : Bool
  /-- `end()` was called. -/
  ended : Bool
  destroyed : Bool
  deriving DecidableEq, Repr

namespace Socket

/-- A socket that has just been accepted or connected. -/
def fresh : Socket where
  paused := false
  read := []
  endSeen := false
  written := []
  needDrain := false
  ended := false
  destroyed := false

/-- Node emits `data` only while the socket flows and before its `end`. -/
def canRead (s : Socket) : Bool := !s.paused && !s.endSeen && !s.destroyed

/-- `socket.write(buf)`, which returns `flushed`. -/
def write (s : Socket) (buf : Bytes) (flushed : Bool) : Socket :=
  { s with written := s.written ++ [buf], needDrain := s.needDrain || !flushed }

def bytesRead (s : Socket) : Bytes := s.read.flatten

def bytesWritten (s : Socket) : Bytes := s.written.flatten

end Socket

/-! ## The WebSocket of the owner -/

/-- The fields that `AgentSession.send` and `Agent.send` read and write. -/
structure Wire where
  /-- `AgentSession.closed`; for an `Agent`, that `this.ws` is null. -/
  closed : Bool
  /-- `ws.readyState === WebSocket.OPEN` -/
  readyOpen : Bool
  congested : Bool
  congestionTimer : Bool
  /-- Every frame handed to `ws.send`, in order. -/
  sent : List Frame
  /-- Ghost: every frame that has arrived, in order. -/
  received : List Frame

/-- What the owner's `send` depends on besides its own fields. -/
structure WireEnv where
  /-- `cfg.wsMaxBuffered`, or the agent's `WS_MAX_BUFFERED`. -/
  wsMaxBuffered : Int
  /-- What `ws.bufferedAmount` reads right after the `n`-th frame was handed over: any value. -/
  bufferedAmount : Nat → Nat

namespace Wire

def canSend (w : Wire) : Bool := !w.closed && w.readyOpen

variable (env : WireEnv)

/-- The owner's half of `checkCongestion`; pausing the streams is up to the caller. -/
def checkCongestion (w : Wire) : Wire :=
  if w.congested || env.bufferedAmount w.sent.length ≤ env.wsMaxBuffered then w
  else { w with congested := true, congestionTimer := true }

def send (w : Wire) (f : Frame) : Wire :=
  if w.canSend then checkCongestion env { w with sent := w.sent ++ [f] } else w

/-- The frames a `send` hands to the WebSocket: none once it is not open. -/
def passed (w : Wire) (fs : List Frame) : List Frame := if w.canSend then fs else []

@[simp] theorem passed_nil (w : Wire) : w.passed [] = [] := by simp [passed]

theorem send_sent (w : Wire) (f : Frame) : (w.send env f).sent = w.sent ++ w.passed [f] := by
  unfold send passed checkCongestion
  split <;> (try split) <;> simp

@[simp] theorem send_closed (w : Wire) (f : Frame) : (w.send env f).closed = w.closed := by
  unfold send checkCongestion
  split <;> (try split) <;> rfl

@[simp] theorem send_readyOpen (w : Wire) (f : Frame) : (w.send env f).readyOpen = w.readyOpen := by
  unfold send checkCongestion
  split <;> (try split) <;> rfl

@[simp] theorem send_received (w : Wire) (f : Frame) : (w.send env f).received = w.received := by
  unfold send checkCongestion
  split <;> (try split) <;> rfl

@[simp] theorem send_canSend (w : Wire) (f : Frame) : (w.send env f).canSend = w.canSend := by
  simp [canSend]

/-- Congestion only ever starts here. -/
theorem send_congested_of (w : Wire) (f : Frame) (h : w.congested = true) :
    (w.send env f).congested = true := by
  unfold send checkCongestion
  split <;> (try split) <;> simp_all

end Wire

/-! ## Endpoints -/

/-- The fields common to `Stream` and `ClientStream`. Before `attach`, when a `ClientStream` has no
socket, `socket` is a placeholder that `attach` replaces. -/
@[ext]
structure Endpoint where
  id : Nat
  socket : Socket
  sendCredit : Int
  recvUnacked : Nat
  pausedForCredit : Bool
  pausedGlobally : Bool
  sentEof : Bool
  receivedEof : Bool
  finished : Bool
  /-- Ghost: what it has passed to `peer.send` as STREAM_DATA. -/
  chunks : List Bytes
  /-- Ghost: the sum of the acknowledgements received. -/
  acked : Nat
  /-- Ghost: how many frames the owner had sent when it came to this endpoint. -/
  sentBefore : Nat
  /-- Ghost: how many frames the owner had received when it came to this endpoint. -/
  receivedBefore : Nat
  deriving DecidableEq, Repr

namespace Endpoint

/-- The constructors' initial values. -/
def new (id : Nat) (socket : Socket) (window : Int) (wire : Wire) : Endpoint where
  id := id
  socket := socket
  sendCredit := window
  recvUnacked := 0
  pausedForCredit := false
  pausedGlobally := false
  sentEof := false
  receivedEof := false
  finished := false
  chunks := []
  acked := 0
  sentBefore := wire.sent.length
  receivedBefore := wire.received.length

def pause (s : Endpoint) : Endpoint := { s with socket := { s.socket with paused := true } }

def resume (s : Endpoint) : Endpoint := { s with socket := { s.socket with paused := false } }

def maybeResume (s : Endpoint) : Endpoint :=
  if s.finished || s.pausedGlobally || s.sendCredit ≤ 0 then s
  else if !s.pausedForCredit then s
  else { s with pausedForCredit := false }.resume

def setGlobalPause (paused : Bool) (s : Endpoint) : Endpoint :=
  if s.pausedGlobally = paused || s.finished then s
  else
    let s := { s with pausedGlobally := paused }
    if paused then s.pause else s.maybeResume

/-- What `destroy` makes of the endpoint itself. -/
def aborted (s : Endpoint) : Endpoint :=
  if s.finished then s
  else { s with finished := true, socket := { s.socket with destroyed := true } }

theorem finished_aborted (s : Endpoint) : s.aborted.finished = true := by
  unfold aborted
  split
  · assumption
  · rfl

theorem aborted_aborted (s : Endpoint) : s.aborted.aborted = s.aborted := by
  rw [aborted, if_pos s.finished_aborted]

def onAck (s : Endpoint) (bytes : Nat) : Endpoint :=
  if s.finished then s
  else { s with sendCredit := s.sendCredit + bytes, acked := s.acked + bytes }.maybeResume

end Endpoint

/-- An endpoint and its owner's WebSocket, while one of the endpoint's methods runs. -/
structure Ctx where
  self : Endpoint
  wire : Wire
  /-- The owner's table holds this endpoint. -/
  listed : Bool

namespace Ctx

variable (env : WireEnv)

/-- `this.peer.send(frame)`. Where `checkCongestion` starts congestion it pauses this endpoint too,
if the table holds it. -/
def send (c : Ctx) (f : Frame) : Ctx :=
  let w := c.wire.send env f
  { c with
    self := if c.listed && w.congested && !c.wire.congested then c.self.setGlobalPause true else c.self
    wire := w }

/-- `Stream.onSocketData`, `ClientStream.onLocalData`. -/
def onSourceData (c : Ctx) (chunk : Bytes) : Ctx :=
  if c.self.finished || c.self.sentEof then c
  else
    let c := c.send env (.data c.self.id chunk)
    let s := { c.self with
      sendCredit := c.self.sendCredit - chunk.length
      chunks := c.self.chunks ++ [chunk] }
    if s.sendCredit ≤ 0 && !s.pausedForCredit then
      { c with self := { s with pausedForCredit := true }.pause }
    else { c with self := s }

/-- `finish`; the owner's `onStreamFinished` is up to the caller. -/
def finish (c : Ctx) : Ctx :=
  if c.self.finished then c else { c with self := { c.self with finished := true } }

/-- `Stream.onSocketEnd`, `ClientStream.onLocalEnd`. -/
def onSourceEnd (c : Ctx) : Ctx :=
  if c.self.finished || c.self.sentEof then c
  else
    let c := { c with self := { c.self with sentEof := true } }
    let c := c.send env (.eof c.self.id)
    if c.self.receivedEof then c.finish else c

/-- Throws where the acknowledgement does not fit a u32. -/
def flushAck (c : Ctx) : Except JsError Ctx :=
  if c.self.recvUnacked = 0 || c.self.finished then .ok c
  else
    let n := c.self.recvUnacked
    let c := { c with self := { c.self with recvUnacked := 0 } }
    (Frame.ack c.self.id n).map fun f => c.send env f

/-- `destroy(reason)`; the owner's `onStreamFinished` is up to the caller. -/
def destroy (c : Ctx) (reason : String) : Ctx :=
  if c.self.finished then c
  else
    let c := { c with self := { c.self with finished := true } }
    let c := if reason ≠ "peer_reset" then c.send env (.reset c.self.id reason) else c
    { c with self := { c.self with socket := { c.self.socket with destroyed := true } } }

def onReset (c : Ctx) : Ctx := c.destroy env "peer_reset"

end Ctx

/-! ## Up to pauses

`core` forgets the three pause flags, which decide when a socket reads but never what a method
sends, and whether the socket owes a `drain`. What a method does to the rest is an equation between
cores. -/

namespace Endpoint

def core (s : Endpoint) : Endpoint :=
  { s with
    pausedForCredit := false
    pausedGlobally := false
    socket := { s.socket with paused := false, needDrain := false } }

@[simp] theorem core_pause (s : Endpoint) : s.pause.core = s.core := rfl
@[simp] theorem core_resume (s : Endpoint) : s.resume.core = s.core := rfl

@[simp] theorem core_maybeResume (s : Endpoint) : s.maybeResume.core = s.core := by
  unfold maybeResume
  split <;> (try split) <;> rfl

@[simp] theorem core_setGlobalPause (b : Bool) (s : Endpoint) : (s.setGlobalPause b).core = s.core := by
  unfold setGlobalPause
  split
  · rfl
  · cases b with
    | false => exact core_maybeResume _
    | true => rfl

theorem core_onAck (s : Endpoint) (n : Nat) :
    (s.onAck n).core = if s.finished then s.core
      else { s.core with sendCredit := s.sendCredit + n, acked := s.acked + n } := by
  unfold onAck
  split
  · rfl
  · exact core_maybeResume _

end Endpoint

/-- The frames `fs` acknowledge `total` bytes of the stream `id`. -/
def Acks (id : Nat) (fs : List Frame) (total : Nat) : Prop :=
  ∃ ns : List Nat, (∀ n ∈ ns, n ≤ 0xffffffff) ∧
    fs = ns.map (fun n => .stream FrameType.streamAck id (u32be n)) ∧ ns.sum = total

theorem Acks.nil (id : Nat) : Acks id [] 0 := ⟨[], by simp, rfl, rfl⟩

theorem Acks.single {id n : Nat} (h : n ≤ 0xffffffff) :
    Acks id [.stream FrameType.streamAck id (u32be n)] n := ⟨[n], by simpa using h, rfl, by simp⟩

theorem Acks.append {id : Nat} {fs gs : List Frame} {m n : Nat} (h : Acks id fs m) (h' : Acks id gs n) :
    Acks id (fs ++ gs) (m + n) := by
  obtain ⟨ms, hm, rfl, rfl⟩ := h
  obtain ⟨ns, hn, rfl, rfl⟩ := h'
  refine ⟨ms ++ ns, fun n h => ?_, by simp, by simp⟩
  rcases List.mem_append.mp h with h | h
  · exact hm n h
  · exact hn n h

/-- What methods do to a WebSocket: the frames `fs` went to `peer.send`. -/
structure Wire.Does (w w' : Wire) (fs : List Frame) : Prop where
  sent : w'.sent = w.sent ++ w.passed fs
  received : w'.received = w.received
  closed : w'.closed = w.closed
  readyOpen : w'.readyOpen = w.readyOpen

namespace Wire.Does

variable {w w' w'' : Wire} {fs gs : List Frame}

theorem refl (w : Wire) : w.Does w [] := ⟨by simp, rfl, rfl, rfl⟩

theorem send (env : WireEnv) (w : Wire) (f : Frame) : w.Does (w.send env f) [f] :=
  ⟨send_sent env w f, by simp, by simp, by simp⟩

theorem canSend (h : w.Does w' fs) : w'.canSend = w.canSend := by
  simp [Wire.canSend, h.closed, h.readyOpen]

theorem passed (h : w.Does w' fs) (gs : List Frame) : w'.passed gs = w.passed gs := by
  simp [Wire.passed, h.canSend]

theorem trans (h : w.Does w' fs) (h' : w'.Does w'' gs) : w.Does w'' (fs ++ gs) where
  sent := by
    rw [h'.sent, h.sent, h.passed]
    unfold Wire.passed
    split <;> simp
  received := h'.received.trans h.received
  closed := h'.closed.trans h.closed
  readyOpen := h'.readyOpen.trans h.readyOpen

end Wire.Does

/-- What a method has done, up to pauses: the endpoint's core is now that of `s`, and the frames
`fs` went to `peer.send`. -/
structure Ctx.Does (c c' : Ctx) (s : Endpoint) (fs : List Frame) : Prop where
  core : c'.self.core = s.core
  wire : c.wire.Does c'.wire fs

namespace Ctx

variable (env : WireEnv)

@[simp] theorem send_wire (c : Ctx) (f : Frame) : (c.send env f).wire = c.wire.send env f := rfl

@[simp] theorem core_send (c : Ctx) (f : Frame) : (c.send env f).self.core = c.self.core := by
  unfold send
  simp only
  split
  · exact Endpoint.core_setGlobalPause true _
  · rfl

theorem Does.refl (c : Ctx) : c.Does c c.self [] := ⟨rfl, .refl _⟩

theorem Does.send (c : Ctx) (f : Frame) : c.Does (c.send env f) c.self [f] :=
  ⟨core_send env c f, .send env c.wire f⟩

/-- The fields of the core that a `send` leaves alone, for the code that runs after it. -/
theorem send_field {α : Type} (g : Endpoint → α) (hg : ∀ s, g s.core = g s) (c : Ctx) (f : Frame) :
    g (c.send env f).self = g c.self := by
  rw [← hg, core_send, hg]

/-- A field that is no pause flag, read off what a method has done. -/
theorem Does.field {c c' : Ctx} {s : Endpoint} {fs : List Frame} (h : c.Does c' s fs) {α : Type}
    (g : Endpoint → α) (hg : ∀ s, g s.core = g s) : g c'.self = g s := by
  rw [← hg, h.core, hg]

/-- A method that goes on after `Does` with the new endpoint. -/
theorem Does.trans {c c' c'' : Ctx} {s s' : Endpoint} {fs gs : List Frame} (h : c.Does c' s fs)
    (h' : c'.Does c'' s' gs) : c.Does c'' s' (fs ++ gs) :=
  ⟨h'.core, h.wire.trans h'.wire⟩

theorem onSourceData_does {c : Ctx} {chunk : Bytes} (hf : c.self.finished = false)
    (he : c.self.sentEof = false) :
    c.Does (c.onSourceData env chunk)
      { c.self with sendCredit := c.self.sendCredit - chunk.length, chunks := c.self.chunks ++ [chunk] }
      [.data c.self.id chunk] := by
  have hs := Does.send env c (.data c.self.id chunk)
  have hcore := hs.core
  unfold onSourceData
  rw [if_neg (by simp [hf, he])]
  dsimp only
  split
  all_goals
    refine ⟨?_, hs.wire⟩
    rw [Endpoint.ext_iff] at hcore ⊢
    simp_all [Endpoint.core, Endpoint.pause]

theorem onSourceData_skip {c : Ctx} {chunk : Bytes} (h : (c.self.finished || c.self.sentEof) = true) :
    c.onSourceData env chunk = c := by
  simp [onSourceData, h]

theorem finish_does (c : Ctx) : c.Does c.finish { c.self with finished := true } [] := by
  unfold finish
  split
  · rename_i h
    exact ⟨by simp [Endpoint.core, h], .refl _⟩
  · exact ⟨rfl, .refl _⟩

/-- The `if (…) this.finish()` that ends a method. -/
theorem Does.finish_if {c c' : Ctx} {s : Endpoint} {fs : List Frame} (h : c.Does c' s fs)
    (hs : s.finished = false) (b : Bool) :
    c.Does (if b then c'.finish else c') { s with finished := b } fs := by
  have hcore := h.core
  cases b with
  | false =>
    refine ⟨?_, h.wire⟩
    rw [if_neg (by simp), hcore]
    simp [Endpoint.core, hs]
  | true =>
    have ht := h.trans (finish_does c')
    refine ⟨?_, by simpa using ht.wire⟩
    rw [if_pos rfl, ht.core, Endpoint.ext_iff]
    rw [Endpoint.ext_iff] at hcore
    simp_all [Endpoint.core]

theorem onSourceEnd_does {c : Ctx} (hf : c.self.finished = false) (he : c.self.sentEof = false) :
    c.Does (c.onSourceEnd env)
      { c.self with sentEof := true, finished := c.self.receivedEof } [.eof c.self.id] := by
  let c1 : Ctx := { c with self := { c.self with sentEof := true } }
  let c2 := c1.send env (.eof c.self.id)
  have hs : c.Does c2 c1.self [.eof c.self.id] := by
    have h := Does.send env c1 (.eof c.self.id)
    exact ⟨h.core, h.wire⟩
  have hr : c2.self.receivedEof = c.self.receivedEof := hs.field Endpoint.receivedEof fun _ => rfl
  have hstep : c.onSourceEnd env = if c2.self.receivedEof then c2.finish else c2 := by
    simp [onSourceEnd, hf, he, c1, c2]
  rw [hstep, hr]
  exact hs.finish_if hf c.self.receivedEof

theorem onSourceEnd_skip {c : Ctx} (h : (c.self.finished || c.self.sentEof) = true) :
    c.onSourceEnd env = c := by
  simp [onSourceEnd, h]

theorem flushAck_finished {c : Ctx} (h : c.self.finished = true) : c.flushAck env = .ok c := by
  simp [flushAck, h]

theorem flushAck_does {c c' : Ctx} (hf : c.self.finished = false) (h : c.flushAck env = .ok c') :
    ∃ fs, Acks c.self.id fs c.self.recvUnacked ∧ c.Does c' { c.self with recvUnacked := 0 } fs := by
  unfold flushAck at h
  split at h
  · rename_i hn
    have hn : c.self.recvUnacked = 0 := by simpa [hf] using hn
    cases h
    refine ⟨[], hn ▸ Acks.nil _, ?_⟩
    rw [show ({ c.self with recvUnacked := 0 } : Endpoint) = c.self by
      rw [Endpoint.ext_iff]; simp [hn]]
    exact Does.refl c
  · cases ha : Frame.ack c.self.id c.self.recvUnacked with
    | error e => simp [ha, Except.map] at h
    | ok f =>
      obtain ⟨hle, rfl⟩ := Frame.ack_ok ha
      simp only [ha, Except.map, Except.ok.injEq] at h
      subst h
      have hs := Does.send env { c with self := { c.self with recvUnacked := 0 } }
        (.stream FrameType.streamAck c.self.id (u32be c.self.recvUnacked))
      exact ⟨_, Acks.single hle, hs.core, hs.wire⟩

theorem flushAck_error_iff {c : Ctx} :
    (∃ e, c.flushAck env = .error e) ↔ c.self.finished = false ∧ 0xffffffff < c.self.recvUnacked := by
  unfold flushAck
  split
  · rename_i h
    simp only [reduceCtorEq, exists_false, false_iff]
    simp only [Bool.or_eq_true, decide_eq_true_eq] at h
    rintro ⟨hf, hn⟩
    rcases h with h | h
    · omega
    · simp [hf] at h
  · rename_i h
    simp only [Bool.or_eq_true, decide_eq_true_eq, not_or, Bool.not_eq_true] at h
    dsimp only
    rw [← @Frame.ack_error_iff c.self.id]
    cases Frame.ack c.self.id c.self.recvUnacked <;> simp [Except.map, h.2]

theorem destroy_does {c : Ctx} (reason : String) (hf : c.self.finished = false) :
    c.Does (c.destroy env reason)
      { c.self with finished := true, socket := { c.self.socket with destroyed := true } }
      (if reason ≠ "peer_reset" then [.reset c.self.id reason] else []) := by
  let c1 : Ctx := { c with self := { c.self with finished := true } }
  have key : ∀ c2 : Ctx, c2.self.core = c1.self.core →
      ({ c2.self with socket := { c2.self.socket with destroyed := true } } : Endpoint).core =
        ({ c.self with finished := true, socket := { c.self.socket with destroyed := true } } : Endpoint).core := by
    intro c2 h
    rw [Endpoint.ext_iff] at h ⊢
    simp_all [Endpoint.core, c1]
  unfold destroy
  rw [if_neg (by simp [hf])]
  dsimp only
  split
  · have hs := Does.send env c1 (.reset c.self.id reason)
    exact ⟨key _ hs.core, hs.wire⟩
  · exact ⟨key c1 rfl, .refl _⟩

theorem send_of_not_canSend {c : Ctx} (h : c.wire.canSend = false) (f : Frame) : c.send env f = c := by
  have hw : c.wire.send env f = c.wire := by simp [Wire.send, h]
  unfold send
  rw [hw]
  cases hc : c.wire.congested <;> simp [hc]

/-- A `destroy` that sends nothing, because of its reason or because the WebSocket is not open. -/
theorem destroy_silent {c : Ctx} {reason : String} (h : reason = "peer_reset" ∨ c.wire.canSend = false) :
    c.destroy env reason = { c with self := c.self.aborted } := by
  unfold destroy Endpoint.aborted
  by_cases hf : c.self.finished = true
  · simp [hf]
  · rw [if_neg hf, if_neg hf]
    by_cases hr : reason = "peer_reset"
    · simp [hr]
    · have hc : c.wire.canSend = false := h.resolve_left hr
      simp only [ne_eq, hr, not_false_eq_true, if_true]
      rw [send_of_not_canSend env (by exact hc)]

@[simp] theorem destroy_finished (c : Ctx) (reason : String) : (c.destroy env reason).self.finished = true := by
  unfold destroy
  split
  · assumption
  · dsimp only
    split
    · exact (send_field env Endpoint.finished (fun _ => rfl) _ _)
    · rfl

theorem destroy_skip {c : Ctx} (reason : String) (hf : c.self.finished = true) :
    c.destroy env reason = c := by
  simp [destroy, hf]

end Ctx

end UpTunnel
