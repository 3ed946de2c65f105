import UpTunnel.Server.Stream
import UpTunnel.Client.Stream

/-!
# UpTunnel.Calls

What a stream object calls on its `StreamPeer`: every `send`, also while the WebSocket is not open,
and every `onStreamFinished`. The methods are those of `Endpoint`, `Server.Stream` and
`Client.Stream` once more, in the order of the source, with each call recorded; forgetting the
record gives the methods there back (`toCtx_…`, `toClientCtx_…`).

A method that throws yields the stream as it is at the throw, so what it has called until then is
not lost. The process ends there: nothing catches the exception.

* `Traced.step`, `ClientTraced.step`: one event of a stream on its own, in any order.
-/

namespace UpTunnel

open Js

/-- A call on the `StreamPeer`. -/
inductive Call where
  | send (f : Frame)
  | onStreamFinished (id : Nat)

/-- The frames among the calls. -/
def emitted (calls : List Call) : List Frame :=
  calls.filterMap fun
    | .send f => some f
    | .onStreamFinished _ => none

/-- The ids for which `onStreamFinished` was called. -/
def finishes (calls : List Call) : List Nat :=
  calls.filterMap fun
    | .send _ => none
    | .onStreamFinished id => some id

@[simp] theorem emitted_append (cs ds : List Call) : emitted (cs ++ ds) = emitted cs ++ emitted ds := by
  simp [emitted]

@[simp] theorem finishes_append (cs ds : List Call) : finishes (cs ++ ds) = finishes cs ++ finishes ds := by
  simp [finishes]

@[simp] theorem emitted_send (f : Frame) : emitted [.send f] = [f] := rfl
@[simp] theorem emitted_onStreamFinished (id : Nat) : emitted [.onStreamFinished id] = [] := rfl
@[simp] theorem finishes_send (f : Frame) : finishes [.send f] = [] := rfl
@[simp] theorem finishes_onStreamFinished (id : Nat) : finishes [.onStreamFinished id] = [id] := rfl

/-- What can happen to a stream. `preread` is the server's only, `attach` and `dialFailed` the
client's. -/
inductive StreamEvent where
  | data (chunk : Bytes)
  | «end»
  | drain
  | error
  | close
  | preread (head : Bytes)
  /-- The dial has come through; `flushed i` is what the `i`-th write of `attach` returns. -/
  | attach (flushed : Nat → Bool)
  | dialFailed (message : String)
  /-- An inbound frame that names the stream; `flushed` is what `socket.write` returns. -/
  | frame (type : Nat) (payload : Bytes) (flushed : Bool)
  | setGlobalPause (paused : Bool)
  | destroy (reason : String)
  /-- Whatever else the owner does to its WebSocket and its table. -/
  | owner (wire : Wire) (listed : Bool)

/-- The state after a method, thrown out of or not. -/
def outcome {σ : Type} : Except σ σ → σ
  | .ok s => s
  | .error s => s

@[simp] theorem outcome_ok {σ : Type} (s : σ) : outcome (.ok s) = s := rfl
@[simp] theorem outcome_error {σ : Type} (s : σ) : outcome (.error s : Except σ σ) = s := rfl

section
variable {σ ε : Type} {P : σ → Prop}

theorem outcome_map {x : Except σ σ} {f : σ → σ} (hx : P (outcome x)) (hf : ∀ s, P s → P (f s)) :
    P (outcome (x.map f)) := by
  cases x with
  | error s => exact hx
  | ok s => exact hf s hx

theorem outcome_bind {x : Except σ σ} {f : σ → Except σ σ} (hx : P (outcome x))
    (hf : ∀ s, P s → P (outcome (f s))) : P (outcome (x >>= f)) := by
  cases x with
  | error s => exact hx
  | ok s => exact hf s hx

/-- The state after the events `es`, or at the first throw among them. -/
def after (step : σ → ε → Except σ σ) (s : σ) (es : List ε) : σ := outcome (es.foldlM step s)

theorem after_invariant {step : σ → ε → Except σ σ} (hs : ∀ s e, P s → P (outcome (step s e))) (es : List ε) :
    ∀ {s : σ}, P s → P (after step s es) := by
  induction es with
  | nil => exact id
  | cons e es ih =>
    intro s h
    simp only [after, List.foldlM_cons]
    have h1 := hs s e h
    cases hx : step s e with
    | error s' => rw [hx] at h1; exact h1
    | ok s' => rw [hx] at h1; exact ih h1

end

/-- Two methods that agree up to `g` still do after a last part of which that is true. -/
theorem toOption_map_map {ε ε' α β : Type} {x : Except ε α} {y : Except ε' β} {g : α → β} {f : α → α}
    {f' : β → β} (h : x.toOption.map g = y.toOption) (hf : ∀ a, g (f a) = f' (g a)) :
    (x.map f).toOption.map g = (y.map f').toOption := by
  cases x with
  | error e =>
    cases y with
    | error e' => rfl
    | ok b => simp [Except.toOption] at h
  | ok a =>
    cases y with
    | error e' => simp [Except.toOption] at h
    | ok b =>
      have hb : g a = b := by simpa [Except.toOption] using h
      simp [Except.toOption, Except.map, hf, hb]

theorem toOption_map_bind {ε ε' α β : Type} {x : Except ε α} {y : Except ε' β} {g : α → β}
    {f : α → Except ε α} {f' : β → Except ε' β} (h : x.toOption.map g = y.toOption)
    (hf : ∀ a, (f a).toOption.map g = (f' (g a)).toOption) :
    (x >>= f).toOption.map g = (y >>= f').toOption := by
  cases x with
  | error e =>
    cases y with
    | error e' => rfl
    | ok b => simp [Except.toOption] at h
  | ok a =>
    cases y with
    | error e' => simp [Except.toOption] at h
    | ok b =>
      have hb : g a = b := by simpa [Except.toOption] using h
      subst hb
      exact hf a

/-! ## The server's stream -/

/-- A stream, its owner's WebSocket, and the calls the stream has made. -/
structure Traced extends Ctx where
  calls : List Call

namespace Traced

def new (id : Nat) (socket : Socket) (window : Int) (wire : Wire) (listed : Bool) : Traced where
  self := Endpoint.new id socket window wire
  wire := wire
  listed := listed
  calls := []

def onSocket (t : Traced) (f : Socket → Socket) : Traced :=
  { t with self := { t.self with socket := f t.self.socket } }

def setGlobalPause (t : Traced) (paused : Bool) : Traced := { t with self := t.self.setGlobalPause paused }

def onAck (t : Traced) (bytes : Nat) : Traced := { t with self := t.self.onAck bytes }

variable (env : WireEnv)

def send (t : Traced) (f : Frame) : Traced :=
  { toCtx := t.toCtx.send env f, calls := t.calls ++ [.send f] }

def onStreamFinished (t : Traced) : Traced :=
  { t with calls := t.calls ++ [.onStreamFinished t.self.id] }

def onSourceData (t : Traced) (chunk : Bytes) : Traced :=
  if t.self.finished || t.self.sentEof then t
  else
    let t := t.send env (.data t.self.id chunk)
    let s := { t.self with
      sendCredit := t.self.sendCredit - chunk.length
      chunks := t.self.chunks ++ [chunk] }
    if s.sendCredit ≤ 0 && !s.pausedForCredit then
      { t with self := { s with pausedForCredit := true }.pause }
    else { t with self := s }

def finish (t : Traced) : Traced :=
  if t.self.finished then t else onStreamFinished { t with self := { t.self with finished := true } }

def onSourceEnd (t : Traced) : Traced :=
  if t.self.finished || t.self.sentEof then t
  else
    let t := { t with self := { t.self with sentEof := true } }
    let t := t.send env (.eof t.self.id)
    if t.self.receivedEof then t.finish else t

def flushAck (t : Traced) : Except Traced Traced :=
  if t.self.recvUnacked = 0 || t.self.finished then .ok t
  else
    let n := t.self.recvUnacked
    let t := { t with self := { t.self with recvUnacked := 0 } }
    match Frame.ack t.self.id n with
    | .ok f => .ok (t.send env f)
    | .error _ => .error t

def destroy (t : Traced) (reason : String) : Traced :=
  if t.self.finished then t
  else
    let t := { t with self := { t.self with finished := true } }
    let t := if reason ≠ "peer_reset" then t.send env (.reset t.self.id reason) else t
    onStreamFinished (t.onSocket fun k => { k with destroyed := true })

def onReset (t : Traced) : Traced := destroy env t "peer_reset"

def writePreread (t : Traced) (head : Bytes) : Traced :=
  if head.length = 0 then t else onSourceData env t head

def onData (t : Traced) (payload : Bytes) (flushed : Bool) : Except Traced Traced :=
  if t.self.finished || t.self.receivedEof then .ok t
  else
    let t := { t with self := { t.self with
      socket := t.self.socket.write payload flushed
      recvUnacked := t.self.recvUnacked + payload.length } }
    if flushed then t.flushAck env else .ok t

def onEof (t : Traced) : Except Traced Traced :=
  if t.self.finished || t.self.receivedEof then .ok t
  else
    let t := { t with self := { t.self with receivedEof := true } }
    (t.flushAck env).map fun t =>
      let t := t.onSocket fun k => { k with ended := true }
      if t.self.sentEof then t.finish else t

/-- The `drain` listener. -/
def onDrain (t : Traced) : Except Traced Traced :=
  (t.onSocket fun k => { k with needDrain := false }).flushAck env

/-- The stream part of `AgentSession.handleFrame`. -/
def onFrame (t : Traced) (type : Nat) (payload : Bytes) (flushed : Bool) : Except Traced Traced :=
  if type = FrameType.streamData then onData env t payload flushed
  else if type = FrameType.streamEof then onEof env t
  else if type = FrameType.streamAck then
    .ok (if payload.length ≥ 4 then t.onAck (readUInt32BE payload) else t)
  else if type = FrameType.streamReset then .ok (onReset env t)
  else .ok t

def step (t : Traced) : StreamEvent → Except Traced Traced
  | .data chunk => .ok (onSourceData env (t.onSocket fun k => { k with read := k.read ++ [chunk] }) chunk)
  | .end => .ok (onSourceEnd env (t.onSocket fun k => { k with endSeen := true }))
  | .drain => onDrain env t
  | .error => .ok (destroy env t "socket_error")
  | .close => .ok (finish (t.onSocket fun k => { k with destroyed := true }))
  | .preread head => .ok (writePreread env t head)
  | .attach _ => .ok t
  | .dialFailed _ => .ok t
  | .frame type payload flushed => onFrame env t type payload flushed
  | .setGlobalPause paused => .ok (t.setGlobalPause paused)
  | .destroy reason => .ok (destroy env t reason)
  | .owner wire listed => .ok { t with wire := wire, listed := listed }

/-! ### Forgetting the calls -/

variable {env} {t : Traced}

@[simp] theorem toCtx_onSourceData (chunk : Bytes) :
    (onSourceData env t chunk).toCtx = t.toCtx.onSourceData env chunk := by
  unfold onSourceData Ctx.onSourceData
  split
  · rfl
  · dsimp only
    split
    · rename_i h
      exact (if_pos h).symm
    · rename_i h
      exact (if_neg h).symm

@[simp] theorem toCtx_finish : t.finish.toCtx = t.toCtx.finish := by
  unfold finish Ctx.finish
  split <;> rfl

@[simp] theorem toCtx_onSourceEnd : (onSourceEnd env t).toCtx = t.toCtx.onSourceEnd env := by
  unfold onSourceEnd Ctx.onSourceEnd
  split
  · rfl
  · dsimp only
    split
    · rename_i h
      exact toCtx_finish.trans (if_pos h).symm
    · rename_i h
      exact (if_neg h).symm

theorem toCtx_flushAck : (t.flushAck env).toOption.map (·.toCtx) = (t.toCtx.flushAck env).toOption := by
  unfold flushAck Ctx.flushAck
  split
  · rfl
  · dsimp only
    cases Frame.ack t.self.id t.self.recvUnacked <;> rfl

@[simp] theorem toCtx_destroy (reason : String) :
    (destroy env t reason).toCtx = t.toCtx.destroy env reason := by
  unfold destroy Ctx.destroy
  split
  · rfl
  · dsimp only
    split <;> rfl

@[simp] theorem toCtx_onReset : (onReset env t).toCtx = t.toCtx.onReset env := toCtx_destroy _

@[simp] theorem toCtx_writePreread (head : Bytes) :
    (writePreread env t head).toCtx = Stream.writePreread env t.toCtx head := by
  unfold writePreread Stream.writePreread
  split
  · rfl
  · exact toCtx_onSourceData head

theorem toCtx_onData (payload : Bytes) (flushed : Bool) :
    (onData env t payload flushed).toOption.map (·.toCtx) =
      (Stream.onData env t.toCtx payload flushed).toOption := by
  unfold onData Stream.onData
  split
  · rfl
  · cases flushed with
    | false => rfl
    | true => exact toCtx_flushAck

theorem toCtx_onEof : (onEof env t).toOption.map (·.toCtx) = (Stream.onEof env t.toCtx).toOption := by
  unfold onEof Stream.onEof
  split
  · rfl
  · refine toOption_map_map toCtx_flushAck fun t => ?_
    dsimp only [onSocket]
    split
    · exact toCtx_finish
    · rfl

end Traced

/-! ## The client's stream -/

/-- A client stream, its agent's WebSocket, and the calls the stream has made. -/
structure ClientTraced extends ClientCtx where
  calls : List Call

namespace ClientTraced

def base (t : ClientTraced) : Traced := ⟨t.toClientCtx.base, t.calls⟩

/-- `t` after a method of `Traced`. -/
def put (t : ClientTraced) (b : Traced) : ClientTraced := ⟨t.toClientCtx.put b.toCtx, b.calls⟩

@[simp] theorem base_put (t : ClientTraced) (b : Traced) : (t.put b).base = b := rfl
@[simp] theorem toClientCtx_put (t : ClientTraced) (b : Traced) :
    (t.put b).toClientCtx = t.toClientCtx.put b.toCtx := rfl

/-- A method of `Traced` that may throw. -/
def via (t : ClientTraced) (m : Traced → Except Traced Traced) : Except ClientTraced ClientTraced :=
  match m t.base with
  | .ok b => .ok (t.put b)
  | .error b => .error (t.put b)

def new (id : Nat) (spec : TunnelSpec) (window : Int) (wire : Wire) (listed : Bool) : ClientTraced where
  self := ClientStream.new id spec window wire
  wire := wire
  listed := listed
  calls := []

def onSocket (t : ClientTraced) (f : Socket → Socket) : ClientTraced :=
  { t with self := { t.self with socket := f t.self.socket } }

variable (env : WireEnv)

def onLocalData (t : ClientTraced) (chunk : Bytes) : ClientTraced := t.put (t.base.onSourceData env chunk)

def onLocalEnd (t : ClientTraced) : ClientTraced := t.put (t.base.onSourceEnd env)

def flushAck (t : ClientTraced) : Except ClientTraced ClientTraced := t.via (Traced.flushAck env)

def finish (t : ClientTraced) : ClientTraced := t.put t.base.finish

def destroy (t : ClientTraced) (reason : String) : ClientTraced := t.put (t.base.destroy env reason)

def onReset (t : ClientTraced) : ClientTraced := destroy env t "peer_reset"

/-- The `drain` listener. -/
def onDrain (t : ClientTraced) : Except ClientTraced ClientTraced :=
  flushAck env (t.onSocket fun k => { k with needDrain := false })

def writeLocal (t : ClientTraced) (payload : Bytes) (flushed : Bool) : Except ClientTraced ClientTraced :=
  let s := { t.self with recvUnacked := t.self.recvUnacked + payload.length }
  let (s, out) := if s.headDone then (s, payload) else s.consumeHead payload
  if out.length = 0 then flushAck env { t with self := s }
  else
    let t := { t with self := { s with socket := s.socket.write out flushed } }
    if flushed then flushAck env t else .ok t

def onData (t : ClientTraced) (payload : Bytes) (flushed : Bool) : Except ClientTraced ClientTraced :=
  if t.self.finished || t.self.receivedEof then .ok t
  else if !t.self.connected then .ok { t with self := { t.self with queued := t.self.queued ++ [payload] } }
  else writeLocal env t payload flushed

def onEof (t : ClientTraced) (flushed : Bool) : Except ClientTraced ClientTraced :=
  if t.self.finished || t.self.receivedEof then .ok t
  else if !t.self.connected then .ok { t with self := { t.self with queuedEof := true } }
  else
    let s := { t.self with receivedEof := true }
    let s := if s.headBuf.length > 0 then
        let head := s.headBuf.flatten
        { s with
          headBuf := []
          headDone := true
          socket := s.socket.write (rewriteHostHeader head (targetLabel s.spec)) flushed }
      else s
    (flushAck env { t with self := s }).map fun t =>
      let t := t.onSocket fun k => { k with ended := true }
      if t.self.sentEof then finish t else t

def writeQueued (t : ClientTraced) : List Bytes → (Nat → Bool) → Except ClientTraced ClientTraced
  | [], _ => .ok t
  | payload :: rest, flushed => do
    let t ← writeLocal env t payload (flushed 0)
    writeQueued t rest fun i => flushed (i + 1)

def attach (t : ClientTraced) (flushed : Nat → Bool) : Except ClientTraced ClientTraced :=
  if t.self.finished then .ok t
  else
    let n := t.self.queued.length
    let t := { t with self := { t.self with socket := Socket.fresh, connected := true } }
    writeQueued env t t.self.queued flushed >>= fun t =>
      let t := { t with self := { t.self with queued := [] } }
      (if t.self.queuedEof then onEof env t (flushed n) else .ok t).map fun t =>
        if t.self.pausedGlobally then { t with self := { t.self with toEndpoint := t.self.pause } } else t

def dialFailed (t : ClientTraced) (message : String) : ClientTraced :=
  if t.self.finished then t
  else
    let b := t.base
    let b := { b with self := { b.self with finished := true } }
    t.put ((b.send env (.streamJson FrameType.streamReset t.self.id
      [("code", .str "dial_failed"), ("message", .str message)])).onStreamFinished)

/-- The stream part of `Agent.handleFrame`. -/
def onFrame (t : ClientTraced) (type : Nat) (payload : Bytes) (flushed : Bool) :
    Except ClientTraced ClientTraced :=
  if type = FrameType.streamData then onData env t payload flushed
  else if type = FrameType.streamEof then onEof env t flushed
  else if type = FrameType.streamAck then
    .ok (if payload.length ≥ 4 then { t with self := t.self.onAck (readUInt32BE payload) } else t)
  else if type = FrameType.streamReset then .ok (onReset env t)
  else .ok t

/-- The local socket has listeners from `attach` on, and is dialled once. -/
def step (t : ClientTraced) : StreamEvent → Except ClientTraced ClientTraced
  | .data chunk =>
    .ok (if t.self.connected then
      onLocalData env (t.onSocket fun k => { k with read := k.read ++ [chunk] }) chunk else t)
  | .end =>
    .ok (if t.self.connected then onLocalEnd env (t.onSocket fun k => { k with endSeen := true }) else t)
  | .drain => if t.self.connected then onDrain env t else .ok t
  | .error => .ok (if t.self.connected then destroy env t "local_error" else t)
  | .close =>
    .ok (if t.self.connected then finish (t.onSocket fun k => { k with destroyed := true }) else t)
  | .preread _ => .ok t
  | .attach flushed => if t.self.connected then .ok t else attach env t flushed
  | .dialFailed message => .ok (if t.self.connected then t else dialFailed env t message)
  | .frame type payload flushed => onFrame env t type payload flushed
  | .setGlobalPause paused => .ok { t with self := t.self.setGlobalPause paused }
  | .destroy reason => .ok (destroy env t reason)
  | .owner wire listed => .ok { t with wire := wire, listed := listed }

/-! ### Forgetting the calls -/

variable {env} {t : ClientTraced}

@[simp] theorem toClientCtx_onLocalData (chunk : Bytes) :
    (onLocalData env t chunk).toClientCtx = ClientStream.onLocalData env t.toClientCtx chunk := by
  simp [onLocalData, ClientStream.onLocalData, base]

@[simp] theorem toClientCtx_onLocalEnd :
    (onLocalEnd env t).toClientCtx = ClientStream.onLocalEnd env t.toClientCtx := by
  simp [onLocalEnd, ClientStream.onLocalEnd, base]

theorem toClientCtx_flushAck :
    (flushAck env t).toOption.map (·.toClientCtx) = (ClientStream.flushAck env t.toClientCtx).toOption := by
  have h : (t.base.flushAck env).toOption.map (·.toCtx) = (t.base.toCtx.flushAck env).toOption :=
    Traced.toCtx_flushAck
  unfold flushAck via ClientStream.flushAck
  cases hm : t.base.flushAck env with
  | error b =>
    rw [hm] at h
    cases hx : t.toClientCtx.base.flushAck env with
    | error e => rfl
    | ok c => simp [base, hx, Except.toOption] at h
  | ok b =>
    rw [hm] at h
    cases hx : t.toClientCtx.base.flushAck env with
    | error e => simp [base, hx, Except.toOption] at h
    | ok c =>
      have hc : b.toCtx = c := by simpa [base, hx, Except.toOption] using h
      subst hc
      rfl

@[simp] theorem toClientCtx_finish : (finish t).toClientCtx = ClientStream.finish t.toClientCtx := by
  simp [finish, ClientStream.finish, base]

@[simp] theorem toClientCtx_destroy (reason : String) :
    (destroy env t reason).toClientCtx = ClientStream.destroy env t.toClientCtx reason := by
  simp [destroy, ClientStream.destroy, base]

@[simp] theorem toClientCtx_onReset :
    (onReset env t).toClientCtx = ClientStream.onReset env t.toClientCtx := toClientCtx_destroy _

theorem toClientCtx_onDrain :
    (onDrain env t).toOption.map (·.toClientCtx) = (ClientStream.onDrain env t.toClientCtx).toOption :=
  toClientCtx_flushAck

theorem toClientCtx_writeLocal (payload : Bytes) (flushed : Bool) :
    (writeLocal env t payload flushed).toOption.map (·.toClientCtx) =
      (ClientStream.writeLocal env t.toClientCtx payload flushed).toOption := by
  have key : ∀ p : ClientStream × Bytes,
      (if p.2.length = 0 then flushAck env { t with self := p.1 }
        else if flushed then flushAck env { t with self := { p.1 with socket := p.1.socket.write p.2 flushed } }
        else .ok { t with self := { p.1 with socket := p.1.socket.write p.2 flushed } }).toOption.map
        (·.toClientCtx) =
      (if p.2.length = 0 then ClientStream.flushAck env { t.toClientCtx with self := p.1 }
        else if flushed then
          ClientStream.flushAck env { t.toClientCtx with self := { p.1 with socket := p.1.socket.write p.2 flushed } }
        else .ok { t.toClientCtx with self := { p.1 with socket := p.1.socket.write p.2 flushed } }).toOption := by
    intro p
    split
    · exact toClientCtx_flushAck
    · cases flushed with
      | false => rfl
      | true => exact toClientCtx_flushAck
  exact key _

theorem toClientCtx_onData (payload : Bytes) (flushed : Bool) :
    (onData env t payload flushed).toOption.map (·.toClientCtx) =
      (ClientStream.onData env t.toClientCtx payload flushed).toOption := by
  unfold onData ClientStream.onData
  split
  · rfl
  · split
    · rfl
    · exact toClientCtx_writeLocal payload flushed

theorem toClientCtx_onEof (flushed : Bool) :
    (onEof env t flushed).toOption.map (·.toClientCtx) =
      (ClientStream.onEof env t.toClientCtx flushed).toOption := by
  unfold onEof ClientStream.onEof
  split
  · rfl
  · split
    · rfl
    · refine toOption_map_map toClientCtx_flushAck fun t => ?_
      dsimp only [onSocket]
      split
      · exact toClientCtx_finish
      · rfl

theorem toClientCtx_writeQueued (payloads : List Bytes) (flushed : Nat → Bool) :
    (writeQueued env t payloads flushed).toOption.map (·.toClientCtx) =
      (ClientStream.writeQueued env t.toClientCtx payloads flushed).toOption := by
  induction payloads generalizing t flushed with
  | nil => rfl
  | cons payload rest ih => exact toOption_map_bind (toClientCtx_writeLocal payload _) fun _ => ih _

theorem toClientCtx_attach (flushed : Nat → Bool) :
    (attach env t flushed).toOption.map (·.toClientCtx) =
      (ClientStream.attach env t.toClientCtx flushed).toOption := by
  unfold attach ClientStream.attach
  split
  · rfl
  · refine toOption_map_bind (toClientCtx_writeQueued _ _) fun t => ?_
    refine toOption_map_map ?_ fun t => ?_
    · dsimp only
      split
      · exact toClientCtx_onEof _
      · rfl
    · dsimp only
      split <;> rfl

@[simp] theorem toClientCtx_dialFailed (message : String) :
    (dialFailed env t message).toClientCtx = ClientStream.dialFailed env t.toClientCtx message := by
  unfold dialFailed ClientStream.dialFailed
  split <;> rfl

end ClientTraced

end UpTunnel
