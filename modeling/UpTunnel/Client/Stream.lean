import UpTunnel.Endpoint
import UpTunnel.Client.HostRewrite

/-!
# UpTunnel.Client.Stream

`ClientStream` of `client-node/src/stream.ts`: a stream id bridged to a local socket that has yet
to be dialled. The methods it shares with `Stream` are those of `Endpoint`; here are dialling, the
frames queued meanwhile and the head held back for a Host rewrite.
-/

namespace UpTunnel

open Js

structure TunnelSpec where
  name : String
  kind : TunnelKind
  targetHost : String
  targetPort : Nat
  subdomain : Option String
  remotePort : Option Nat
  rewriteHost : Bool
  deriving DecidableEq, Repr

def targetLabel (spec : TunnelSpec) : String := spec.targetHost ++ ":" ++ toString spec.targetPort

def MAX_HEAD_BUFFER : Nat := 32 * 1024

@[ext]
structure ClientStream extends Endpoint where
  spec : TunnelSpec
  connected : Bool
  /-- Payloads that arrived before the local connection was up. -/
  queued : List Bytes
  queuedEof : Bool
  headBuf : List Bytes
  headLen : Nat
  headDone : Bool

/-- A `ClientStream` and the agent's WebSocket, while one of its methods runs. -/
structure ClientCtx where
  self : ClientStream
  wire : Wire
  /-- The agent's table holds this stream. -/
  listed : Bool

namespace ClientCtx

def base (c : ClientCtx) : Ctx := ⟨c.self.toEndpoint, c.wire, c.listed⟩

/-- `c` after a method of `Endpoint`. -/
def put (c : ClientCtx) (b : Ctx) : ClientCtx :=
  { self := { c.self with toEndpoint := b.self }, wire := b.wire, listed := b.listed }

@[simp] theorem base_put (c : ClientCtx) (b : Ctx) : (c.put b).base = b := rfl

end ClientCtx

namespace ClientStream

/-- Rewriting is off, and no head is held back. -/
def new (id : Nat) (spec : TunnelSpec) (window : Int) (wire : Wire) : ClientStream where
  toEndpoint := Endpoint.new id Socket.fresh window wire
  spec := spec
  connected := false
  queued := []
  queuedEof := false
  headBuf := []
  headLen := 0
  headDone := !(spec.kind = .http && spec.rewriteHost)

def setGlobalPause (paused : Bool) (s : ClientStream) : ClientStream :=
  { s with toEndpoint := s.toEndpoint.setGlobalPause paused }

def onAck (s : ClientStream) (bytes : Nat) : ClientStream :=
  { s with toEndpoint := s.toEndpoint.onAck bytes }

/-- `buf.indexOf("\r\n\r\n") !== -1` -/
def hasTerminator : Bytes → Bool
  | [] => false
  | b :: rest => (b :: rest).take 4 == [13, 10, 13, 10] || hasTerminator rest

/-- The bytes to pass on now: none until the request head is complete or too long. -/
def consumeHead (s : ClientStream) (chunk : Bytes) : ClientStream × Bytes :=
  let s := { s with headBuf := s.headBuf ++ [chunk], headLen := s.headLen + chunk.length }
  let head := s.headBuf.flatten
  if !hasTerminator head && s.headLen < MAX_HEAD_BUFFER then (s, [])
  else
    ({ s with headBuf := [], headLen := 0, headDone := true },
      rewriteHostHeader head (targetLabel s.spec))

variable (env : WireEnv)

def onLocalData (c : ClientCtx) (chunk : Bytes) : ClientCtx := c.put (c.base.onSourceData env chunk)

def onLocalEnd (c : ClientCtx) : ClientCtx := c.put (c.base.onSourceEnd env)

def flushAck (c : ClientCtx) : Except JsError ClientCtx := (c.base.flushAck env).map c.put

def finish (c : ClientCtx) : ClientCtx := c.put c.base.finish

def destroy (c : ClientCtx) (reason : String) : ClientCtx := c.put (c.base.destroy env reason)

def onReset (c : ClientCtx) : ClientCtx := destroy env c "peer_reset"

/-- The `drain` listener. -/
def onDrain (c : ClientCtx) : Except JsError ClientCtx :=
  flushAck env { c with self := { c.self with socket := { c.self.socket with needDrain := false } } }

/-- `flushed` is what `socket.write` returns, if it is called. -/
def writeLocal (c : ClientCtx) (payload : Bytes) (flushed : Bool) : Except JsError ClientCtx :=
  let s := { c.self with recvUnacked := c.self.recvUnacked + payload.length }
  let (s, out) := if s.headDone then (s, payload) else s.consumeHead payload
  if out.length = 0 then flushAck env { c with self := s }
  else
    let c := { c with self := { s with socket := s.socket.write out flushed } }
    if flushed then flushAck env c else .ok c

def onData (c : ClientCtx) (payload : Bytes) (flushed : Bool) : Except JsError ClientCtx :=
  if c.self.finished || c.self.receivedEof then .ok c
  else if !c.self.connected then .ok { c with self := { c.self with queued := c.self.queued ++ [payload] } }
  else writeLocal env c payload flushed

/-- `flushed` is what `socket.write` returns for a head still held back. -/
def onEof (c : ClientCtx) (flushed : Bool) : Except JsError ClientCtx :=
  if c.self.finished || c.self.receivedEof then .ok c
  else if !c.self.connected then .ok { c with self := { c.self with queuedEof := true } }
  else
    let s := { c.self with receivedEof := true }
    let s := if s.headBuf.length > 0 then
        let head := s.headBuf.flatten
        { s with
          headBuf := []
          headDone := true
          socket := s.socket.write (rewriteHostHeader head (targetLabel s.spec)) flushed }
      else s
    (flushAck env { c with self := s }).map fun c =>
      let c := { c with self := { c.self with socket := { c.self.socket with ended := true } } }
      if c.self.sentEof then finish c else c

/-- The loop of `attach` over the queued payloads; `flushed i` is what the `i`-th write returns. -/
def writeQueued (c : ClientCtx) : List Bytes → (Nat → Bool) → Except JsError ClientCtx
  | [], _ => .ok c
  | payload :: rest, flushed => do
    let c ← writeLocal env c payload (flushed 0)
    writeQueued c rest fun i => flushed (i + 1)

/-- The dial has come through with a new socket. A stream that is already finished drops it. The
head that `onEof` may still write is the last of the writes that `flushed` counts. -/
def attach (c : ClientCtx) (flushed : Nat → Bool) : Except JsError ClientCtx :=
  if c.self.finished then .ok c
  else
    let n := c.self.queued.length
    let c := { c with self := { c.self with socket := Socket.fresh, connected := true } }
    writeQueued env c c.self.queued flushed >>= fun c =>
      let c := { c with self := { c.self with queued := [] } }
      (if c.self.queuedEof then onEof env c (flushed n) else .ok c).map fun c =>
        if c.self.pausedGlobally then { c with self := { c.self with toEndpoint := c.self.pause } } else c

def dialFailed (c : ClientCtx) (message : String) : ClientCtx :=
  if c.self.finished then c
  else
    let b := c.base
    let b := { b with self := { b.self with finished := true } }
    c.put (b.send env (.streamJson FrameType.streamReset c.self.id
      [("code", .str "dial_failed"), ("message", .str message)]))

/-! ## What they do -/

/-- Up to pauses, writes and the head held back for a Host rewrite. -/
def core (s : ClientStream) : ClientStream :=
  { s with
    toEndpoint := { s.toEndpoint.core with socket := { s.toEndpoint.core.socket with written := [] } }
    headBuf := []
    headLen := 0
    headDone := true }

/-- No head is to be rewritten, or no longer. -/
structure Verbatim (s : ClientStream) : Prop where
  headDone : s.headDone = true
  headBuf : s.headBuf = []

@[simp] theorem core_setGlobalPause (b : Bool) (s : ClientStream) : (s.setGlobalPause b).core = s.core := by
  simp [core, setGlobalPause]

end ClientStream

/-- What a method has done, up to pauses and the head held back: the stream's core is now that of
`s`, the frames `fs` went to `peer.send`, and a stream that passes bytes on unchanged has written
`out`. -/
structure ClientCtx.Does (c c' : ClientCtx) (s : ClientStream) (out : Bytes) (fs : List Frame) : Prop where
  core : c'.self.core = s.core
  out : c.self.Verbatim →
    c'.self.Verbatim ∧ c'.self.socket.bytesWritten = c.self.socket.bytesWritten ++ out
  wire : c.wire.Does c'.wire fs

namespace ClientCtx

variable {c c' c'' : ClientCtx} {s s' : ClientStream} {out out' : Bytes} {fs gs : List Frame}

theorem Does.field (h : c.Does c' s out fs) {α : Type} (g : ClientStream → α) (hg : ∀ s, g s.core = g s) :
    g c'.self = g s := by
  rw [← hg, h.core, hg]

theorem Does.trans (h : c.Does c' s out fs) (h' : c'.Does c'' s' out' gs) :
    c.Does c'' s' (out ++ out') (fs ++ gs) where
  core := h'.core
  out hv := by
    obtain ⟨hv1, h1⟩ := h.out hv
    obtain ⟨hv2, h2⟩ := h'.out hv1
    exact ⟨hv2, by rw [h2, h1, List.append_assoc]⟩
  wire := h.wire.trans h'.wire

/-- A change that neither writes nor sends. -/
theorem Does.of_quiet (hs : c'.self.core = s.core) (hd : c'.self.headDone = c.self.headDone)
    (hb : c'.self.headBuf = c.self.headBuf)
    (hw : c'.self.socket.written = c.self.socket.written) (hwire : c.wire.Does c'.wire fs) :
    c.Does c' s [] fs :=
  ⟨hs, fun hv => ⟨⟨hd.trans hv.headDone, hb.trans hv.headBuf⟩, by simp [Socket.bytesWritten, hw]⟩, hwire⟩

/-- A method of `Endpoint` leaves the fields of `ClientStream` alone. -/
theorem Does.put {b : Ctx} {e : Endpoint} (h : c.base.Does b e fs)
    (hw : e.socket.written = c.self.socket.written) :
    c.Does (c.put b) { c.self with toEndpoint := e } [] fs := by
  refine .of_quiet ?_ rfl rfl ?_ h.wire
  · simp [ClientStream.core, ClientCtx.put, h.core]
  · exact (h.field (·.socket.written) fun _ => rfl).trans hw

end ClientCtx

namespace ClientStream

variable {env : WireEnv} {c c' : ClientCtx}

theorem flushAck_does (hf : c.self.finished = false) (h : flushAck env c = .ok c') :
    ∃ fs, Acks c.self.id fs c.self.recvUnacked ∧ c.Does c' { c.self with recvUnacked := 0 } [] fs := by
  obtain ⟨b, hb, rfl⟩ := map_ok.mp h
  obtain ⟨fs, ha, hd⟩ := Ctx.flushAck_does env (c := c.base) hf hb
  exact ⟨fs, ha, .put hd rfl⟩

theorem onDrain_does (hf : c.self.finished = false) (h : onDrain env c = .ok c') :
    ∃ fs, Acks c.self.id fs c.self.recvUnacked ∧ c.Does c' { c.self with recvUnacked := 0 } [] fs := by
  obtain ⟨fs, ha, hd⟩ := flushAck_does (c := { c with self := { c.self with
    socket := { c.self.socket with needDrain := false } } }) hf h
  exact ⟨fs, ha, hd.core, fun hv => hd.out ⟨hv.headDone, hv.headBuf⟩, hd.wire⟩

theorem destroy_does (reason : String) (hf : c.self.finished = false) :
    c.Does (destroy env c reason)
      { c.self with finished := true, socket := { c.self.socket with destroyed := true } } []
      (if reason ≠ "peer_reset" then [.reset c.self.id reason] else []) :=
  .put (Ctx.destroy_does env (c := c.base) reason hf) rfl

theorem finish_does : c.Does (finish c) { c.self with finished := true } [] [] :=
  .put (Ctx.finish_does c.base) rfl

@[simp] theorem core_consumeHead (s : ClientStream) (chunk : Bytes) : (s.consumeHead chunk).1.core = s.core := by
  unfold consumeHead
  dsimp only
  split <;> rfl

/-- What `writeLocal` makes of the stream before it acknowledges, and whether it acknowledges. -/
def wrote (s : ClientStream) (payload : Bytes) (flushed : Bool) : ClientStream × Bool :=
  let s := { s with recvUnacked := s.recvUnacked + payload.length }
  let (s, out) := if s.headDone then (s, payload) else s.consumeHead payload
  if out.length = 0 then (s, true)
  else ({ s with socket := s.socket.write out flushed }, flushed)

theorem writeLocal_eq (c : ClientCtx) (payload : Bytes) (flushed : Bool) :
    writeLocal env c payload flushed =
      if (wrote c.self payload flushed).2 then flushAck env { c with self := (wrote c.self payload flushed).1 }
      else .ok { c with self := (wrote c.self payload flushed).1 } := by
  have key : ∀ p : ClientStream × Bytes,
      let c1 : ClientCtx := { c with self := { p.1 with socket := p.1.socket.write p.2 flushed } }
      let q := if p.2.length = 0 then (p.1, true) else (c1.self, flushed)
      (if p.2.length = 0 then flushAck env { c with self := p.1 }
        else if flushed then flushAck env c1 else .ok c1) =
      if q.2 then flushAck env { c with self := q.1 } else .ok { c with self := q.1 } := by
    intro p
    dsimp only
    split <;> simp
  exact key _

theorem core_wrote (s : ClientStream) (payload : Bytes) (flushed : Bool) :
    (wrote s payload flushed).1.core =
      ({ s with recvUnacked := s.recvUnacked + payload.length } : ClientStream).core := by
  unfold wrote
  dsimp only
  have key : ∀ p : ClientStream × Bytes, (if p.2.length = 0 then (p.1, true)
      else ({ p.1 with socket := p.1.socket.write p.2 flushed }, flushed)).1.core = p.1.core := by
    intro p
    split <;> rfl
  rw [key]
  split
  · rfl
  · exact core_consumeHead _ _

theorem wrote_verbatim {s : ClientStream} (hv : s.Verbatim) (payload : Bytes) (flushed : Bool) :
    (wrote s payload flushed).1.Verbatim ∧
      (wrote s payload flushed).1.socket.bytesWritten = s.socket.bytesWritten ++ payload := by
  unfold wrote
  simp only [hv.headDone, if_true]
  split
  · rename_i hn
    have hnil : payload = [] := List.length_eq_zero_iff.mp hn
    exact ⟨⟨rfl, hv.headBuf⟩, by simp [hnil]⟩
  · exact ⟨⟨rfl, hv.headBuf⟩, by simp [Socket.bytesWritten, Socket.write]⟩

theorem writeLocal_does {payload : Bytes} {flushed : Bool} (hf : c.self.finished = false)
    (h : writeLocal env c payload flushed = .ok c') :
    ∃ n fs, Acks c.self.id fs n ∧ ∃ r, r + n = c.self.recvUnacked + payload.length ∧
      c.Does c' { c.self with recvUnacked := r } payload fs := by
  rw [writeLocal_eq] at h
  let c1 : ClientCtx := { c with self := (wrote c.self payload flushed).1 }
  have hd : c.Does c1 { c.self with recvUnacked := c.self.recvUnacked + payload.length } payload [] :=
    ⟨core_wrote c.self payload flushed, fun hv => wrote_verbatim hv payload flushed, .refl _⟩
  split at h
  · have hid : c1.self.id = c.self.id := hd.field (·.id) fun _ => rfl
    have hfin : c1.self.finished = false := (hd.field (·.finished) fun _ => rfl).trans hf
    have hn : c1.self.recvUnacked = c.self.recvUnacked + payload.length :=
      hd.field (·.recvUnacked) fun _ => rfl
    obtain ⟨fs, ha, hd'⟩ := flushAck_does (c := c1) hfin h
    rw [hid, hn] at ha
    have hcore : ({ c1.self with recvUnacked := 0 } : ClientStream).core =
        ({ c.self with recvUnacked := 0 } : ClientStream).core :=
      congrArg (fun s : ClientStream => { s with recvUnacked := 0 }) hd.core
    have hd2 := hd.trans hd'
    exact ⟨_, fs, ha, 0, by simp, hd2.core.trans hcore, by simpa using hd2.out, hd2.wire⟩
  · cases h
    exact ⟨0, [], Acks.nil _, _, rfl, hd⟩

theorem onData_does {payload : Bytes} {flushed : Bool} (hf : c.self.finished = false)
    (he : c.self.receivedEof = false) (hc : c.self.connected = true)
    (h : onData env c payload flushed = .ok c') :
    ∃ n fs, Acks c.self.id fs n ∧ ∃ r, r + n = c.self.recvUnacked + payload.length ∧
      c.Does c' { c.self with recvUnacked := r } payload fs :=
  writeLocal_does hf (by simpa [onData, hf, he, hc] using h)

theorem onData_queues {payload : Bytes} {flushed : Bool} (hf : c.self.finished = false)
    (he : c.self.receivedEof = false) (hc : c.self.connected = false) :
    onData env c payload flushed =
      .ok { c with self := { c.self with queued := c.self.queued ++ [payload] } } := by
  simp [onData, hf, he, hc]

/-- The `if (…) this.finish()` that ends a method. -/
theorem finish_if {s : ClientStream} {out : Bytes} {fs : List Frame} (h : c.Does c' s out fs)
    (hs : s.finished = false) (b : Bool) :
    c.Does (if b then finish c' else c') { s with finished := b } out fs := by
  cases b with
  | false =>
    have hsame : ({ s with finished := false } : ClientStream) = s := by rw [← hs]
    rw [if_neg (by simp), hsame]
    exact h
  | true =>
    have ht := h.trans (finish_does (c := c'))
    have hcore : ({ c'.self with finished := true } : ClientStream).core =
        ({ s with finished := true } : ClientStream).core :=
      congrArg (fun s : ClientStream => { s with finished := true }) h.core
    rw [if_pos rfl]
    exact ⟨ht.core.trans hcore, by simpa using ht.out, by simpa using ht.wire⟩

theorem onEof_does {flushed : Bool} (hf : c.self.finished = false) (he : c.self.receivedEof = false)
    (hc : c.self.connected = true) (h : onEof env c flushed = .ok c') :
    ∃ fs, Acks c.self.id fs c.self.recvUnacked ∧ c.Does c'
      { c.self with
        receivedEof := true
        recvUnacked := 0
        socket := { c.self.socket with ended := true }
        finished := c.self.sentEof } [] fs := by
  let s1 : ClientStream := { c.self with receivedEof := true }
  let s2 : ClientStream := if s1.headBuf.length > 0 then
      { s1 with
        headBuf := []
        headDone := true
        socket := s1.socket.write (rewriteHostHeader s1.headBuf.flatten (targetLabel s1.spec)) flushed }
    else s1
  let c1 : ClientCtx := { c with self := s2 }
  have hd : c.Does c1 s1 [] [] := by
    refine ⟨?_, fun hv => ?_, .refl _⟩
    · show (ite _ _ _ : ClientStream).core = _
      split <;> rfl
    · have hs : s2 = s1 := if_neg (by simp [s1, hv.headBuf])
      simp only [c1, hs]
      exact ⟨⟨hv.headDone, hv.headBuf⟩, by simp [s1]⟩
  have h1 : (flushAck env c1).map (fun c =>
      let c := { c with self := { c.self with socket := { c.self.socket with ended := true } } }
      if c.self.sentEof then finish c else c) = .ok c' := by
    simpa [onEof, hf, he, hc, c1, s2, s1] using h
  obtain ⟨c2, hx, h2⟩ := map_ok.mp h1
  have hfin : c1.self.finished = false := (hd.field (·.finished) fun _ => rfl).trans hf
  have hid : c1.self.id = c.self.id := hd.field (·.id) fun _ => rfl
  have hn : c1.self.recvUnacked = c.self.recvUnacked := hd.field (·.recvUnacked) fun _ => rfl
  obtain ⟨fs, ha, hd'⟩ := flushAck_does hfin hx
  rw [hid, hn] at ha
  let c3 : ClientCtx := { c2 with self := { c2.self with socket := { c2.self.socket with ended := true } } }
  have hd2 := hd.trans hd'
  have h3 : c.Does c3 { c.self with
      receivedEof := true, recvUnacked := 0, socket := { c.self.socket with ended := true } } [] fs := by
    have e1 := congrArg (fun s : ClientStream =>
      { s with socket := { s.socket with ended := true } }) hd'.core
    have e2 := congrArg (fun s : ClientStream =>
      { s with recvUnacked := 0, socket := { s.socket with ended := true } }) hd.core
    refine ⟨e1.trans e2, fun hv => ?_, by simpa using hd2.wire⟩
    obtain ⟨hv', hw⟩ := hd2.out hv
    exact ⟨⟨hv'.headDone, hv'.headBuf⟩, hw⟩
  have hs : c3.self.sentEof = c.self.sentEof := h3.field (·.sentEof) fun _ => rfl
  have h2 : (if c3.self.sentEof then finish c3 else c3) = c' := h2
  rw [← h2, hs]
  exact ⟨fs, ha, finish_if h3 hf c.self.sentEof⟩

theorem onEof_queues {flushed : Bool} (hf : c.self.finished = false) (he : c.self.receivedEof = false)
    (hc : c.self.connected = false) :
    onEof env c flushed = .ok { c with self := { c.self with queuedEof := true } } := by
  simp [onEof, hf, he, hc]

theorem writeQueued_does {payloads : List Bytes} {flushed : Nat → Bool} (hf : c.self.finished = false)
    (h : writeQueued env c payloads flushed = .ok c') :
    ∃ n fs, Acks c.self.id fs n ∧ ∃ r, r + n = c.self.recvUnacked + payloads.flatten.length ∧
      c.Does c' { c.self with recvUnacked := r } payloads.flatten fs := by
  induction payloads generalizing c flushed with
  | nil =>
    cases h
    exact ⟨0, [], Acks.nil _, _, rfl, .of_quiet rfl rfl rfl rfl (.refl _)⟩
  | cons payload rest ih =>
    obtain ⟨c1, h1, h2⟩ := bind_ok.mp h
    obtain ⟨n, fs, ha, r, hr, hd⟩ := writeLocal_does hf h1
    have hfin : c1.self.finished = false := (hd.field (·.finished) fun _ => rfl).trans hf
    have hid : c1.self.id = c.self.id := hd.field (·.id) fun _ => rfl
    have hn : c1.self.recvUnacked = r := hd.field (·.recvUnacked) fun _ => rfl
    obtain ⟨n', fs', ha', r', hr', hd'⟩ := ih hfin h2
    rw [hid] at ha'
    have hcore : ({ c1.self with recvUnacked := r' } : ClientStream).core =
        ({ c.self with recvUnacked := r' } : ClientStream).core :=
      congrArg (fun s : ClientStream => { s with recvUnacked := r' }) hd.core
    have hd2 := hd.trans hd'
    refine ⟨n + n', fs ++ fs', ha.append ha', r', ?_, hd2.core.trans hcore, hd2.out, hd2.wire⟩
    simp only [List.flatten_cons, List.length_append]
    omega

theorem attach_skip {flushed : Nat → Bool} (hf : c.self.finished = true) :
    attach env c flushed = .ok c := by
  simp [attach, hf]

theorem attach_does {flushed : Nat → Bool} (hf : c.self.finished = false)
    (he : c.self.receivedEof = false) (hw : c.self.socket.written = [])
    (h : attach env c flushed = .ok c') :
    ∃ n fs, Acks c.self.id fs n ∧ ∃ r, r + n = c.self.recvUnacked + c.self.queued.flatten.length ∧
      (c.self.queuedEof = true → r = 0) ∧ c.Does c'
        { c.self with
          socket := { Socket.fresh with ended := c.self.queuedEof }
          connected := true
          recvUnacked := r
          queued := []
          receivedEof := c.self.queuedEof
          finished := c.self.queuedEof && c.self.sentEof } c.self.queued.flatten fs := by
  let c0 : ClientCtx := { c with self := { c.self with socket := Socket.fresh, connected := true } }
  unfold attach at h
  rw [if_neg (by simp [hf])] at h
  obtain ⟨c1, hq, h2⟩ := bind_ok.mp h
  obtain ⟨n, fs, ha, r, hr, hd⟩ := writeQueued_does (c := c0) hf hq
  let c2 : ClientCtx := { c1 with self := { c1.self with queued := [] } }
  let s2 : ClientStream := { c.self with
    socket := Socket.fresh, connected := true, recvUnacked := r, queued := [] }
  have hd2 : c.Does c2 s2 c.self.queued.flatten fs := by
    refine ⟨congrArg (fun s : ClientStream => { s with queued := [] }) hd.core, fun hv => ?_, hd.wire⟩
    obtain ⟨hv', hout⟩ := hd.out ⟨hv.headDone, hv.headBuf⟩
    exact ⟨⟨hv'.headDone, hv'.headBuf⟩, by simpa [c2, c0, Socket.bytesWritten, Socket.fresh, hw] using hout⟩
  obtain ⟨c3, hx, h3⟩ := map_ok.mp h2
  have hpause : ∀ {s : ClientStream} {out : Bytes} {gs : List Frame}, c.Does c3 s out gs → c.Does c' s out gs := by
    intro s out gs hg
    rw [← h3]
    split
    · exact ⟨hg.core, fun hv => ⟨⟨(hg.out hv).1.headDone, (hg.out hv).1.headBuf⟩, (hg.out hv).2⟩, hg.wire⟩
    · exact hg
  have hqe : c1.self.queuedEof = c.self.queuedEof := hd2.field (·.queuedEof) fun _ => rfl
  have hx1 : (if c1.self.queuedEof then onEof env c2 (flushed c.self.queued.length) else .ok c2) = .ok c3 := hx
  cases hc : c.self.queuedEof with
  | false =>
    rw [if_neg (by simp [hqe, hc])] at hx1
    cases hx1
    refine ⟨n, fs, ha, r, hr, fun h => by simp at h, hpause ?_⟩
    have hs : ({ s2 with
        socket := { Socket.fresh with ended := false }
        receivedEof := false
        finished := false && c.self.sentEof } : ClientStream) = s2 := by
      simp [s2, hf, he, Socket.fresh]
    rw [← hs] at hd2
    exact hd2
  | true =>
    rw [if_pos (by simp [hqe, hc])] at hx1
    have hid : c2.self.id = c.self.id := hd2.field (·.id) fun _ => rfl
    have hn : c2.self.recvUnacked = r := hd2.field (·.recvUnacked) fun _ => rfl
    obtain ⟨fs', ha', hd'⟩ := onEof_does (c := c2) ((hd2.field (·.finished) fun _ => rfl).trans hf)
      ((hd2.field (·.receivedEof) fun _ => rfl).trans he) (hd2.field (·.connected) fun _ => rfl) hx1
    rw [hid, hn] at ha'
    have hse : c2.self.sentEof = c.self.sentEof := hd2.field (·.sentEof) fun _ => rfl
    have hcore := congrArg (fun s : ClientStream => { s with
      receivedEof := true
      recvUnacked := 0
      socket := { s.socket with ended := true }
      finished := c.self.sentEof }) hd2.core
    rw [hse] at hd'
    have hd3 := hd2.trans hd'
    refine ⟨n + r, fs ++ fs', ha.append ha', 0, by simp only [c0] at hr; omega, fun _ => rfl, hpause ?_⟩
    exact ⟨hd3.core.trans hcore, by simpa using hd3.out, hd3.wire⟩

theorem dialFailed_does (message : String) (hf : c.self.finished = false) :
    c.Does (dialFailed env c message) { c.self with finished := true } []
      [.streamJson FrameType.streamReset c.self.id
        [("code", .str "dial_failed"), ("message", .str message)]] := by
  have hs := Ctx.Does.send env { c.base with self := { c.base.self with finished := true } }
    (.streamJson FrameType.streamReset c.self.id [("code", .str "dial_failed"), ("message", .str message)])
  have hd := ClientCtx.Does.put (c := c) (e := { c.base.self with finished := true }) ⟨hs.core, hs.wire⟩ rfl
  unfold dialFailed
  rw [if_neg (by simp [hf])]
  exact hd

end ClientStream

end UpTunnel
