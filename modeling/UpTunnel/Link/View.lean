import UpTunnel.Lib.Duplex
import UpTunnel.Server.Session
import UpTunnel.Client.Agent

/-!
# UpTunnel.Link.View

Both kinds of endpoint as an `End` of `Lib.Duplex`, and what their methods do in these terms.

* `msgs`: what the frames of a WebSocket mean to one stream.
* `Moved`: what the methods that `Stream` and `ClientStream` share do.
* `StreamObj.Acted`: a method has moved an endpoint as `End.Run` says, whatever the rest of its
  hub does. One lemma `…_acted` for each event of a stream.
-/

namespace UpTunnel

open Js

/-! ## Messages -/

/-- What a frame means to the stream `k`. -/
def msg? (k : Nat) : Frame → Option (Msg UInt8)
  | .control .. => none
  | .stream type id payload =>
    if id ≠ k then none
    else if type = FrameType.streamData then some (.data payload)
    else if type = FrameType.streamEof then some .eof
    else if type = FrameType.streamAck then
      if payload.length ≥ 4 then some (.ack (readUInt32BE payload)) else none
    else if type = FrameType.streamReset then some .reset
    else none

def msgs (k : Nat) (fs : List Frame) : List (Msg UInt8) := fs.filterMap (msg? k)

section
variable {k : Nat} {f : Frame} {fs gs : List Frame}

@[simp] theorem msgs_nil : msgs k [] = [] := rfl

@[simp] theorem msgs_append : msgs k (fs ++ gs) = msgs k fs ++ msgs k gs := List.filterMap_append

theorem msgs_singleton : msgs k [f] = (msg? k f).toList := by
  unfold msgs
  cases h : msg? k f <;> simp [h]

theorem msg?_of_ne (h : f.streamId? ≠ some k) : msg? k f = none := by
  cases f with
  | control => rfl
  | stream type id payload =>
    have h : id ≠ k := fun e => h (congrArg some e)
    simp [msg?, h]

theorem msgs_of_ne (h : ∀ f ∈ fs, f.streamId? ≠ some k) : msgs k fs = [] := by
  simp only [msgs, List.filterMap_eq_nil_iff]
  exact fun f hf => msg?_of_ne (h f hf)

@[simp] theorem msg?_data (payload : Bytes) : msg? k (.data k payload) = some (.data payload) := by
  simp [msg?, Frame.data]

@[simp] theorem msg?_eof : msg? k (.eof k) = some .eof := by
  simp [msg?, Frame.eof, FrameType.streamEof, FrameType.streamData]

@[simp] theorem msg?_streamEof (payload : Bytes) : msg? k (.stream FrameType.streamEof k payload) = some .eof := by
  simp [msg?, FrameType.streamEof, FrameType.streamData]

@[simp] theorem msg?_streamReset (payload : Bytes) : msg? k (.stream FrameType.streamReset k payload) = some .reset := by
  simp [msg?, FrameType.streamEof, FrameType.streamData, FrameType.streamAck, FrameType.streamReset]

@[simp] theorem msg?_reset (code : String) : msg? k (.reset k code) = some .reset := msg?_streamReset _

theorem msg?_streamAck {payload : Bytes} (h : payload.length ≥ 4) :
    msg? k (.stream FrameType.streamAck k payload) = some (.ack (readUInt32BE payload)) := by
  simp [msg?, FrameType.streamEof, FrameType.streamData, FrameType.streamAck, h]

theorem msg?_short {id : Nat} {payload : Bytes} (h : ¬ payload.length ≥ 4) :
    msg? k (.stream FrameType.streamAck id payload) = none := by
  simp [msg?, FrameType.streamEof, FrameType.streamData, FrameType.streamAck, h]

@[simp] theorem msg?_streamOpen (id : Nat) (payload : Bytes) : msg? k (.stream FrameType.streamOpen id payload) = none := by
  simp [msg?, FrameType.streamEof, FrameType.streamData, FrameType.streamAck, FrameType.streamOpen,
    FrameType.streamReset]

theorem Acks.msgs {n : Nat} (h : Acks k fs n) : ∃ ns : List Nat, UpTunnel.msgs k fs = ns.map .ack ∧ ns.sum = n := by
  obtain ⟨ns, hle, rfl, hsum⟩ := h
  refine ⟨ns, ?_, hsum⟩
  induction ns generalizing n with
  | nil => rfl
  | cons m ms ih =>
    have hm : m < 2 ^ 32 := by have := hle m List.mem_cons_self; omega
    have h1 : msg? k (.stream FrameType.streamAck k (u32be m)) = some (.ack m) := by
      rw [msg?_streamAck (by simp)]
      simpa using readUInt32BE_u32be hm []
    have h2 := ih (fun x hx => hle x (List.mem_cons_of_mem _ hx)) rfl
    simp only [UpTunnel.msgs, List.map_cons, List.filterMap_cons, h1] at h2 ⊢
    rw [h2]

end

/-- The frames are about the stream `k`, and do not open it. -/
def Names (k : Nat) (fs : List Frame) : Prop :=
  ∀ f ∈ fs, ∃ type payload, f = .stream type k payload ∧ type ≠ FrameType.streamOpen

theorem Names.nil (k : Nat) : Names k [] := by simp [Names]

theorem Names.single {k type : Nat} (payload : Bytes) (h : type ≠ FrameType.streamOpen) :
    Names k [.stream type k payload] := by
  intro f hf
  exact ⟨type, payload, List.mem_singleton.mp hf, h⟩

theorem Acks.names {k n : Nat} {fs : List Frame} (h : Acks k fs n) : Names k fs := by
  obtain ⟨ns, _, rfl, _⟩ := h
  intro f hf
  obtain ⟨n, _, rfl⟩ := List.mem_map.mp hf
  exact ⟨_, _, rfl, by decide⟩

/-! ## Endpoints -/

namespace Endpoint

/-- An endpoint as an `End`; what it holds and has taken is up to the kind of endpoint. -/
def toEnd (s : Endpoint) (held : Bytes) (heldEof : Bool) (taken : Bytes) : End UInt8 where
  credit := s.sendCredit
  pushed := s.chunks.flatten
  pushedEof := s.sentEof
  held := held
  heldEof := heldEof
  taken := taken
  takenEof := s.receivedEof
  unacked := s.recvUnacked
  finished := s.finished

/-- What it has sent is what it has read, unless it is finished and discards. -/
structure Reads (s : Endpoint) : Prop where
  sent : s.chunks.flatten <+: s.socket.bytesRead
  all : s.finished = false → s.sentEof = false → s.chunks.flatten = s.socket.bytesRead
  eof : s.sentEof = true → s.socket.endSeen = true ∧ s.chunks.flatten = s.socket.bytesRead
  ended : s.socket.ended = true → s.receivedEof = true

/-- What does not change over the life of an endpoint. -/
structure Kept (s s' : Endpoint) : Prop where
  id : s'.id = s.id
  sentBefore : s'.sentBefore = s.sentBefore
  receivedBefore : s'.receivedBefore = s.receivedBefore
  finished : s.finished = true → s'.finished = true

theorem Kept.refl (s : Endpoint) : s.Kept s := ⟨rfl, rfl, rfl, fun h => h⟩

theorem Kept.of_core {s s' t : Endpoint} (h : s'.core = t.core) (hk : s.Kept t) : s.Kept s' := by
  rw [Endpoint.ext_iff] at h
  simp only [core] at h
  obtain ⟨h1, -, -, -, -, -, -, -, h2, -, -, h3, h4⟩ := h
  exact ⟨h1.trans hk.id, h3.trans hk.sentBefore, h4.trans hk.receivedBefore, fun hf => h2.trans (hk.finished hf)⟩

theorem Reads.of_core {s t : Endpoint} (h : s.core = t.core) (hr : t.Reads) : s.Reads := by
  have hr : t.core.Reads := ⟨hr.sent, hr.all, hr.eof, hr.ended⟩
  rw [← h] at hr
  exact ⟨hr.sent, hr.all, hr.eof, hr.ended⟩

theorem toEnd_of_core {s t : Endpoint} (h : s.core = t.core) (held : Bytes) (heldEof : Bool) (taken : Bytes) :
    s.toEnd held heldEof taken = t.toEnd held heldEof taken :=
  show s.core.toEnd held heldEof taken = t.core.toEnd held heldEof taken from
    congrArg (fun s : Endpoint => s.toEnd held heldEof taken) h

/-- A method has consumed the frames `ins` and sent `fs`; the receiving side is as before. -/
structure Moved (s s' : Endpoint) (ins fs : List Frame) : Prop where
  run : ∀ held heldEof taken,
    (s.toEnd held heldEof taken).Run (msgs s.id ins) (s'.toEnd held heldEof taken) (msgs s.id fs)
  reads : s.Reads → s'.Reads
  kept : s.Kept s'
  written : s'.socket.written = s.socket.written
  receivedEof : s'.receivedEof = s.receivedEof
  silent : s.finished = true → fs = []

theorem Moved.of_core {s s' t : Endpoint} {ins fs : List Frame} (h : s'.core = t.core) (hm : s.Moved t ins fs) :
    s.Moved s' ins fs where
  run held heldEof taken := by rw [toEnd_of_core h]; exact hm.run held heldEof taken
  reads hr := (hm.reads hr).of_core h
  kept := hm.kept.of_core h
  written := (congrArg (·.socket.written) h).trans hm.written
  receivedEof := (congrArg (·.receivedEof) h).trans hm.receivedEof
  silent := hm.silent

/-- Only the pause flags change. -/
theorem Moved.of_quiet {s s' : Endpoint} (h : s'.core = s.core) : s.Moved s' [] [] :=
  .of_core h ⟨fun _ _ _ => .refl, fun h => h, .refl s, rfl, rfl, fun _ => rfl⟩

theorem aborted_moved (s : Endpoint) : s.Moved s.aborted [] [] := by
  unfold aborted
  split
  · exact .of_quiet rfl
  · rename_i hf
    have hf : s.finished = false := by simpa using hf
    refine ⟨fun held heldEof taken => ?_, fun hr => ⟨hr.sent, fun h => by simp at h, hr.eof, hr.ended⟩,
      ⟨rfl, rfl, rfl, fun _ => rfl⟩, rfl, rfl, fun h => rfl⟩
    exact (End.Step.die none [] (by simp)).run hf

theorem onAck_moved {s : Endpoint} (hf : s.finished = false) {payload : Bytes} (hp : payload.length ≥ 4) :
    s.Moved (s.onAck (readUInt32BE payload)) [.stream FrameType.streamAck s.id payload] [] := by
  refine .of_core (t := { s with
    sendCredit := s.sendCredit + readUInt32BE payload
    acked := s.acked + readUInt32BE payload }) ?_ ?_
  · rw [core_onAck, if_neg (by simp [hf])]
    rfl
  · refine ⟨fun held heldEof taken => ?_, fun hr => ⟨hr.sent, hr.all, hr.eof, hr.ended⟩,
      ⟨rfl, rfl, rfl, fun h => h⟩, rfl, rfl,
      fun _ => rfl⟩
    rw [msgs_singleton, msg?_streamAck hp]
    exact (End.Step.grant (readUInt32BE payload)).run hf

end Endpoint

/-! ## The methods that both ends share -/

namespace Ctx

variable {env : WireEnv} {c c' : Ctx}

/-- `data`: the socket hands over a chunk. -/
theorem data_moved (env : WireEnv) (chunk : Bytes) :
    let c1 : Ctx := { c with self := { c.self with
      socket := { c.self.socket with read := c.self.socket.read ++ [chunk] } } }
    c.self.socket.endSeen = false → ∃ fs, Names c.self.id fs ∧ c.wire.Does (c1.onSourceData env chunk).wire fs ∧
      c.self.Moved (c1.onSourceData env chunk).self [] fs := by
  intro c1 hend
  have hread : c1.self.socket.bytesRead = c.self.socket.bytesRead ++ chunk := by
    simp [c1, Socket.bytesRead]
  by_cases h : (c.self.finished || c.self.sentEof) = true
  · -- a finished endpoint discards; one that has sent its EOF reads no more
    rw [onSourceData_skip env (c := c1) h]
    refine ⟨[], .nil _, .refl _, fun _ _ _ => .refl, fun hr => ⟨?_, fun hf he => ?_, fun he => ?_, hr.ended⟩,
      ⟨rfl, rfl, rfl, fun h => h⟩, rfl, rfl, fun _ => rfl⟩
    · exact hr.sent.trans ⟨chunk, hread.symm⟩
    · have hf : c.self.finished = false := hf
      have he : c.self.sentEof = false := he
      simp [hf, he] at h
    · have := (hr.eof he).1
      simp [hend] at this
  · simp only [Bool.or_eq_true, not_or, Bool.not_eq_true] at h
    have hd : c1.Does (c1.onSourceData env chunk) _ _ := onSourceData_does env h.1 h.2
    refine ⟨[.data c.self.id chunk], .single chunk (by decide), hd.wire, .of_core hd.core ⟨fun held heldEof taken => ?_,
      fun hr => ⟨?_, fun _ _ => ?_, fun he => ?_, hr.ended⟩, ⟨rfl, rfl, rfl, fun h => h⟩, rfl, rfl,
      fun hf => by simp [h.1] at hf⟩⟩
    · rw [msgs_singleton, msg?_data]
      have hs := End.Step.run (.push (e := c.self.toEnd held heldEof taken) chunk h.2) h.1
      simpa [Endpoint.toEnd, c1] using hs
    · simp [Socket.bytesRead, c1, hr.all h.1 h.2]
    · simp [Socket.bytesRead, c1, hr.all h.1 h.2]
    · have he : c.self.sentEof = true := he
      simp [h.2] at he

theorem end_moved (env : WireEnv) :
    let c1 : Ctx := { c with self := { c.self with socket := { c.self.socket with endSeen := true } } }
    ∃ fs, Names c.self.id fs ∧ c.wire.Does (c1.onSourceEnd env).wire fs ∧
      c.self.Moved (c1.onSourceEnd env).self [] fs := by
  intro c1
  by_cases h : (c.self.finished || c.self.sentEof) = true
  · rw [onSourceEnd_skip env (c := c1) h]
    exact ⟨[], .nil _, .refl _, fun _ _ _ => .refl,
      fun hr => ⟨hr.sent, hr.all, fun he => ⟨rfl, (hr.eof he).2⟩, hr.ended⟩, ⟨rfl, rfl, rfl, fun h => h⟩, rfl, rfl,
      fun _ => rfl⟩
  · simp only [Bool.or_eq_true, not_or, Bool.not_eq_true] at h
    have hd := onSourceEnd_does env (c := c1) h.1 h.2
    refine ⟨[.eof c.self.id], .single [] (by decide), hd.wire, .of_core hd.core ⟨fun held heldEof taken => ?_,
      fun hr => ⟨hr.sent, fun _ he => by simp at he, fun _ => ⟨rfl, hr.all h.1 h.2⟩, hr.ended⟩,
      ⟨rfl, rfl, rfl, fun hf => by simp [h.1] at hf⟩, rfl, rfl, fun hf => by simp [h.1] at hf⟩⟩
    rw [msgs_singleton, msg?_eof]
    exact (End.Step.pushEof (e := c.self.toEnd held heldEof taken) h.2).run h.1

theorem destroy_moved (env : WireEnv) (reason : String) (ins : List Frame) (hins : c.self.finished = true → ins = [])
    (hms : (msgs c.self.id ins).length ≤ 1) : ∃ fs, Names c.self.id fs ∧ c.wire.Does (c.destroy env reason).wire fs ∧
      c.self.Moved (c.destroy env reason).self ins fs := by
  cases hf : c.self.finished with
  | true =>
    rw [destroy_skip env reason hf, hins hf]
    exact ⟨[], .nil _, .refl _, .of_quiet rfl⟩
  | false =>
    have hd := destroy_does env reason hf
    have hm : ∃ m : Option (Msg UInt8), msgs c.self.id ins = m.toList := by
      match h : msgs c.self.id ins with
      | [] => exact ⟨none, rfl⟩
      | [m] => exact ⟨some m, rfl⟩
      | _ :: _ :: _ => simp [h] at hms
    obtain ⟨m, hm⟩ := hm
    refine ⟨_, ?_, hd.wire, .of_core hd.core ⟨fun held heldEof taken => ?_,
      fun hr => ⟨hr.sent, fun h => by simp at h, hr.eof, hr.ended⟩, ⟨rfl, rfl, rfl, fun _ => rfl⟩, rfl, rfl,
      fun h => by simp [hf] at h⟩⟩
    · split
      · exact .single _ (by decide)
      · exact .nil _
    · rw [hm]
      refine (End.Step.die m _ fun x hx => ?_).run hf
      split at hx
      · simpa [msgs_singleton] using hx
      · simp at hx

/-- `close`: the socket is gone. -/
theorem close_moved :
    let c1 : Ctx := { c with self := { c.self with socket := { c.self.socket with destroyed := true } } }
    c.self.Moved c1.finish.self [] [] ∧ c.wire.Does c1.finish.wire [] := by
  intro c1
  unfold finish
  cases hf : c.self.finished with
  | true =>
    rw [if_pos rfl]
    exact ⟨⟨fun _ _ _ => .refl, fun hr => ⟨hr.sent, hr.all, hr.eof, hr.ended⟩, ⟨rfl, rfl, rfl, fun h => h⟩, rfl, rfl,
      fun _ => rfl⟩, .refl _⟩
  | false =>
    rw [if_neg (by simp)]
    exact ⟨⟨fun held heldEof taken => (End.Step.die none [] (by simp)).run hf,
      fun hr => ⟨hr.sent, fun h => by simp at h, hr.eof, hr.ended⟩, ⟨rfl, rfl, rfl, fun _ => rfl⟩, rfl, rfl,
      fun _ => rfl⟩, .refl _⟩

theorem flushAck_moved (h : c.flushAck env = .ok c') : ∃ fs, Names c.self.id fs ∧ c.wire.Does c'.wire fs ∧
    c.self.Moved c'.self [] fs := by
  cases hf : c.self.finished with
  | true =>
    rw [flushAck_finished env hf] at h
    cases h
    exact ⟨[], .nil _, .refl _, .of_quiet rfl⟩
  | false =>
    obtain ⟨fs, ha, hd⟩ := flushAck_does env hf h
    refine ⟨fs, ha.names, hd.wire, .of_core hd.core ⟨fun held heldEof taken => ?_,
      fun hr => ⟨hr.sent, hr.all, hr.eof, hr.ended⟩, ⟨rfl, rfl, rfl, fun h => h⟩, rfl, rfl, fun h => by simp [hf] at h⟩⟩
    obtain ⟨ns, hns, hsum⟩ := ha.msgs
    rw [hns]
    exact (End.Step.flush (e := c.self.toEnd held heldEof taken) ns 0 (by simp [hsum, Endpoint.toEnd])).run hf

end Ctx

/-! ## What an event does to its stream -/

open StreamObj

/-- A stream seen as an `End`, whatever the pauses. -/
class EndView (α : Type) extends StreamObj α where
  View : α → End UInt8 → Prop
  view_finished : ∀ {s : α} {e : End UInt8}, View s e → e.finished = (base s).finished
  base_pause : ∀ (b : Bool) (s : α), base (setGlobalPause b s) = (base s).setGlobalPause b
  view_pause : ∀ {b : Bool} {s : α} {e : End UInt8}, View s e → View (setGlobalPause b s) e

open EndView

/-- An event has turned the stream `s` into `s'`: it has consumed the frames `ins` and sent `fs`. -/
structure Acted {α : Type} [EndView α] (s s' : α) (w w' : Wire) (ins fs : List Frame) : Prop where
  names : Names (base s).id fs
  wire : w.Does w' fs
  kept : (base s).Kept (base s')
  silent : (base s).finished = true → fs = []
  view : ∀ e, View s e → ∃ e', View s' e' ∧ e.Run (msgs (base s).id ins) e' (msgs (base s).id fs)

/-! ### The server's streams -/

namespace Stream

/-- The server holds nothing back. -/
def asEnd (s : Stream) : End UInt8 := s.toEnd [] false s.socket.bytesWritten

instance : EndView Stream where
  View s e := e = asEnd s ∧ s.Reads
  view_finished h := by rw [h.1]; rfl
  base_pause _ _ := rfl
  view_pause := by
    rintro b s e ⟨rfl, hr⟩
    have hc := Endpoint.core_setGlobalPause b s
    have hw : (s.setGlobalPause b).socket.written = s.socket.written := congrArg (·.socket.written) hc
    refine ⟨?_, hr.of_core hc⟩
    show asEnd s = asEnd (s.setGlobalPause b)
    rw [asEnd, asEnd, Endpoint.toEnd_of_core hc, Socket.bytesWritten, Socket.bytesWritten, hw]

variable {env : WireEnv} {s s' : Stream} {w w' : Wire} {ins fs : List Frame} {c c' : Ctx}

theorem acted (hn : Names s.id fs) (hw : w.Does w' fs) (hk : s.Kept s') (hs : s.finished = true → fs = [])
    (hr : s.Reads → s'.Reads) (hrun : (asEnd s).Run (msgs s.id ins) (asEnd s') (msgs s.id fs)) :
    Acted s s' w w' ins fs := by
  refine ⟨hn, hw, hk, hs, ?_⟩
  rintro e ⟨rfl, he⟩
  exact ⟨_, ⟨rfl, hr he⟩, hrun⟩

theorem acted_of_moved (hn : Names s.id fs) (hw : w.Does w' fs) (hm : s.Moved s' ins fs) :
    Acted s s' w w' ins fs := by
  refine acted hn hw hm.kept hm.silent hm.reads ?_
  have hb : s'.socket.bytesWritten = s.socket.bytesWritten := by simp [Socket.bytesWritten, hm.written]
  rw [asEnd, asEnd, hb]
  exact hm.run _ _ _

theorem onData_acted {payload : Bytes} {flushed : Bool} (hf : c.self.finished = false)
    (h : onData env c payload flushed = .ok c') :
    ∃ fs, Acted c.self c'.self c.wire c'.wire [.data c.self.id payload] fs := by
  cases he : c.self.receivedEof with
  | true =>
    have hc : c = c' := by simpa [onData, hf, he] using h
    subst hc
    refine ⟨[], acted (.nil _) (.refl _) (.refl _) (fun _ => rfl) (fun h => h) ?_⟩
    rw [msgs_singleton, msg?_data]
    exact (End.Step.late (.data payload) he (by simp)).run hf
  | false =>
    obtain ⟨n, fs, ha, r, hr, hd⟩ := onData_does hf he h
    have hw : c'.self.socket.bytesWritten = c.self.socket.bytesWritten ++ payload := by
      have := hd.field (·.socket.written) fun _ => rfl
      simp [Socket.bytesWritten, this]
    refine ⟨fs, acted ha.names hd.wire (.of_core hd.core ⟨rfl, rfl, rfl, fun h => h⟩) (fun h => by simp [hf] at h)
      (fun hr => .of_core hd.core ⟨hr.sent, hr.all, hr.eof, hr.ended⟩) ?_⟩
    obtain ⟨ns, hns, hsum⟩ := ha.msgs
    rw [msgs_singleton, msg?_data, hns, asEnd, asEnd, Endpoint.toEnd_of_core hd.core, hw]
    have h1 := End.Step.run (.hold (e := c.self.toEnd [] false c.self.socket.bytesWritten) payload he) hf
    have h2 := h1.step (m := none) hf (.take payload [] ns r (by simp [Endpoint.toEnd]) he (by
      simp only [Endpoint.toEnd]
      omega))
    simpa [Endpoint.toEnd] using h2

theorem onEof_acted {payload : Bytes} (hf : c.self.finished = false) (h : onEof env c = .ok c') :
    ∃ fs, Acted c.self c'.self c.wire c'.wire [.stream FrameType.streamEof c.self.id payload] fs := by
  cases he : c.self.receivedEof with
  | true =>
    have hc : c = c' := by simpa [onEof, hf, he] using h
    subst hc
    refine ⟨[], acted (.nil _) (.refl _) (.refl _) (fun _ => rfl) (fun h => h) ?_⟩
    rw [msgs_singleton, msg?_streamEof]
    exact (End.Step.late .eof he (by simp)).run hf
  | false =>
    obtain ⟨fs, ha, hd⟩ := onEof_does hf he h
    have hw : c'.self.socket.bytesWritten = c.self.socket.bytesWritten := by
      have := hd.field (·.socket.written) fun _ => rfl
      simp [Socket.bytesWritten, this]
    refine ⟨fs, acted ha.names hd.wire (.of_core hd.core ⟨rfl, rfl, rfl, fun h => by simp [hf] at h⟩)
      (fun h => by simp [hf] at h)
      (fun hr => .of_core hd.core ⟨hr.sent, fun _ => hr.all hf, hr.eof, fun _ => rfl⟩) ?_⟩
    obtain ⟨ns, hns, hsum⟩ := ha.msgs
    rw [msgs_singleton, msg?_streamEof, hns, asEnd, asEnd, Endpoint.toEnd_of_core hd.core, hw]
    have h1 := End.Step.run (.holdEof (e := c.self.toEnd [] false c.self.socket.bytesWritten) he) hf
    have h2 := h1.step (m := none) hf (.takeEof ns rfl rfl (by simp [hsum, Endpoint.toEnd]))
    simpa [Endpoint.toEnd] using h2

theorem onDrain_acted (h : onDrain env c = .ok c') : ∃ fs, Acted c.self c'.self c.wire c'.wire [] fs := by
  obtain ⟨fs, hn, hw, hm⟩ := Ctx.flushAck_moved h
  exact ⟨fs, acted_of_moved hn hw ⟨hm.run, fun hr => hm.reads ⟨hr.sent, hr.all, hr.eof, hr.ended⟩,
    ⟨hm.kept.id, hm.kept.sentBefore, hm.kept.receivedBefore, hm.kept.finished⟩, hm.written, hm.receivedEof, hm.silent⟩⟩

end Stream

/-! ### The agent's streams -/

namespace ClientStream

/-- The stream passes bytes on unchanged. -/
def Plain (c : ClientStream) : Prop := ¬ (c.spec.kind = .http ∧ c.spec.rewriteHost = true)

/-- What the agent has queued while it dials, it holds. What it has taken is what it has written,
unless it rewrites a head. -/
def asEnd (c : ClientStream) (taken : Bytes) : End UInt8 :=
  c.toEndpoint.toEnd c.queued.flatten (c.queuedEof && !c.receivedEof) taken

/-- `c` is the end `e`. -/
structure View (c : ClientStream) (e : End UInt8) : Prop where
  isEnd : e = c.asEnd e.taken
  plain : c.Plain → c.Verbatim ∧ e.taken = c.socket.bytesWritten
  reads : c.toEndpoint.Reads
  dialling : c.connected = false → c.finished = false →
    c.socket.written = [] ∧ c.chunks = [] ∧ c.sentEof = false ∧ c.receivedEof = false
  attached : c.connected = true → c.queued = [] ∧ (c.queuedEof = true → c.receivedEof = true)

variable {env : WireEnv} {c c' : ClientCtx} {s : ClientStream} {e : End UInt8} {out : Bytes} {ins fs : List Frame}

theorem View.finished (hv : View s e) : e.finished = s.finished := by
  rw [hv.isEnd]
  rfl

instance : EndView ClientStream where
  View := View
  view_finished := View.finished
  base_pause _ _ := rfl
  view_pause := by
    intro b s e hv
    have hc := Endpoint.core_setGlobalPause b s.toEndpoint
    have hw : (s.setGlobalPause b).socket.written = s.socket.written := congrArg (·.socket.written) hc
    have hf : (s.setGlobalPause b).finished = s.finished := congrArg (·.finished) hc
    refine ⟨hv.isEnd.trans ?_, fun hp => ?_, hv.reads.of_core hc, fun h1 h2 => ?_, fun h1 => ?_⟩
    · show s.asEnd e.taken = (s.setGlobalPause b).asEnd e.taken
      have hre : (s.setGlobalPause b).receivedEof = s.receivedEof := congrArg (·.receivedEof) hc
      rw [asEnd, asEnd, hre]
      exact (Endpoint.toEnd_of_core hc _ _ _).symm
    · obtain ⟨h1, h2⟩ := hv.plain hp
      refine ⟨⟨h1.headDone, h1.headBuf⟩, ?_⟩
      show e.taken = (s.setGlobalPause b).socket.bytesWritten
      rw [h2, Socket.bytesWritten, Socket.bytesWritten, hw]
    · obtain ⟨h3, h4, h5, h6⟩ := hv.dialling h1 (hf.symm.trans h2)
      exact ⟨hw.trans h3, (congrArg (·.chunks) hc).trans h4, (congrArg (·.sentEof) hc).trans h5,
        (congrArg (·.receivedEof) hc).trans h6⟩
    · obtain ⟨h3, h4⟩ := hv.attached h1
      exact ⟨h3, fun h => (congrArg (·.receivedEof) hc).trans (h4 h)⟩

theorem asEnd_of_core {s t : ClientStream} (h : s.core = t.core) (taken : Bytes) : s.asEnd taken = t.asEnd taken :=
  show s.core.asEnd taken = t.core.asEnd taken from congrArg (fun s : ClientStream => s.asEnd taken) h

/-- The agent has just been told of the stream. -/
theorem new_view (id : Nat) (spec : TunnelSpec) (window : Int) (wire : Wire) :
    View (new id spec window wire) (.fresh window) where
  isEnd := rfl
  plain hp := ⟨⟨by simpa [Plain, new, imp_iff_not_or] using hp, rfl⟩, rfl⟩
  reads := ⟨by simp [new, Endpoint.new], fun _ _ => rfl, by simp [new, Endpoint.new],
    by simp [new, Endpoint.new, Socket.fresh]⟩
  dialling _ _ := ⟨rfl, rfl, rfl, rfl⟩
  attached h := by simp [new] at h

/-- A method has made `c.self` into `s`, up to its core; it is connected, or finished. -/
theorem View.of_does (hd : c.Does c' s out fs) (hv : View c.self e) (hspec : s.spec = c.self.spec)
    (hreads : s.toEndpoint.Reads) (hdial : s.connected = false → s.finished = true)
    (hatt : s.connected = true → s.queued = [] ∧ (s.queuedEof = true → s.receivedEof = true)) :
    View c'.self (s.asEnd (e.taken ++ out)) := by
  have hf : ∀ {α : Type} (g : ClientStream → α), (∀ s, g s.core = g s) → g c'.self = g s := fun g hg => hd.field g hg
  refine ⟨?_, fun hp => ?_, ?_, fun hc hfin => ?_, fun hc => ?_⟩
  · exact (asEnd_of_core hd.core _).symm
  · have hp' : c.self.Plain := by
      have := (hf (·.spec) fun _ => rfl).trans hspec
      simpa [Plain, this] using hp
    obtain ⟨hv1, ht⟩ := hv.plain hp'
    obtain ⟨hv2, hb⟩ := hd.out hv1
    exact ⟨hv2, by rw [hb, ← ht]; rfl⟩
  · have h1 : s.core.toEndpoint.Reads := ⟨hreads.sent, hreads.all, hreads.eof, hreads.ended⟩
    rw [← hd.core] at h1
    exact ⟨h1.sent, h1.all, h1.eof, h1.ended⟩
  · rw [hf (·.connected) fun _ => rfl] at hc
    rw [hf (·.finished) fun _ => rfl, hdial hc] at hfin
    cases hfin
  · rw [hf (·.connected) fun _ => rfl] at hc
    rw [hf (·.queued) fun _ => rfl, hf (·.queuedEof) fun _ => rfl, hf (·.receivedEof) fun _ => rfl]
    exact hatt hc

theorem kept_of_core {s t u : ClientStream} (h : s.core = t.core) (hk : u.toEndpoint.Kept t.toEndpoint) :
    u.toEndpoint.Kept s.toEndpoint := by
  have h1 : u.toEndpoint.Kept t.core.toEndpoint := ⟨hk.id, hk.sentBefore, hk.receivedBefore, hk.finished⟩
  rw [← h] at h1
  exact ⟨h1.id, h1.sentBefore, h1.receivedBefore, h1.finished⟩

/-- A method of `Endpoint`. A stream that still dials sends nothing and has no socket to read. -/
theorem acted_of_moved {s s' : ClientStream} {b : Endpoint} {w w' : Wire} (hs : s' = { s with toEndpoint := b })
    (hn : Names s.id fs) (hw : w.Does w' fs) (hm : s.toEndpoint.Moved b ins fs)
    (hdial : s.connected = false → b.finished = false → b.chunks = s.chunks ∧ b.sentEof = s.sentEof) :
    Acted s s' w w' ins fs := by
  subst hs
  refine ⟨hn, hw, hm.kept, hm.silent, fun e he => ?_⟩
  have he : View s e := he
  have hb : b.socket.bytesWritten = s.socket.bytesWritten := by simp [Socket.bytesWritten, hm.written]
  refine ⟨({ s with toEndpoint := b } : ClientStream).asEnd e.taken, ⟨rfl, fun hp => ?_, hm.reads he.reads,
    fun hc hf => ?_, fun hc => ?_⟩, ?_⟩
  · obtain ⟨hv, ht⟩ := he.plain hp
    exact ⟨⟨hv.headDone, hv.headBuf⟩, ht.trans hb.symm⟩
  · have hfin : s.finished = false := by
      by_contra h
      have := hm.kept.finished ((Bool.not_eq_false _).mp h)
      simp [this] at hf
    obtain ⟨h1, h2, h3, h4⟩ := he.dialling hc hfin
    obtain ⟨h5, h6⟩ := hdial hc hf
    exact ⟨hm.written.trans h1, h5.trans h2, h6.trans h3, hm.receivedEof.trans h4⟩
  · obtain ⟨h1, h2⟩ := he.attached hc
    exact ⟨h1, fun hq => hm.receivedEof.trans (h2 hq)⟩
  · have h1 := hm.run s.queued.flatten (s.queuedEof && !s.receivedEof) e.taken
    rw [he.isEnd]
    unfold asEnd
    simp only [hm.receivedEof]
    exact h1

theorem onData_acted {payload : Bytes} {flushed : Bool} (hf : c.self.finished = false)
    (h : onData env c payload flushed = .ok c') :
    ∃ fs, Acted c.self c'.self c.wire c'.wire [.data c.self.id payload] fs := by
  have hmsg : ∀ k, msgs k [.data k payload] = [.data payload] := fun k => by rw [msgs_singleton, msg?_data]; rfl
  cases he : c.self.receivedEof with
  | true =>
    have hc : c = c' := by simpa [onData, hf, he] using h
    subst hc
    refine ⟨[], .nil _, .refl _, .refl _, fun _ => rfl, fun e he' => ⟨e, he', ?_⟩⟩
    rw [he'.isEnd]
    exact (hmsg c.self.id) ▸ (End.Step.late (.data payload) he (by simp)).run hf
  | false =>
    cases hc : c.self.connected with
    | false =>
      have h' := (onData_queues hf he hc).symm.trans h
      cases h'
      let s : ClientStream := { c.self with queued := c.self.queued ++ [payload] }
      refine ⟨[], .nil _, .refl _, .refl _, fun _ => rfl, fun e he' => ⟨s.asEnd e.taken, ⟨rfl, fun hp => ?_, he'.reads,
        fun _ _ => ?_, fun h => by simp [hc] at h⟩, ?_⟩⟩
      · obtain ⟨hv, ht⟩ := he'.plain hp
        exact ⟨⟨hv.headDone, hv.headBuf⟩, ht⟩
      · exact he'.dialling hc hf
      · have h1 := End.Step.run (.hold (e := c.self.asEnd e.taken) payload he) hf
        rw [he'.isEnd]
        refine (hmsg c.self.id) ▸ ?_
        simpa [s, asEnd, Endpoint.toEnd] using h1
    | true =>
      obtain ⟨n, fs, ha, r, hr, hd⟩ := onData_does hf he hc h
      refine ⟨fs, ha.names, hd.wire, kept_of_core hd.core ⟨rfl, rfl, rfl, fun h => h⟩,
        fun h : c.self.finished = true => by simp [hf] at h,
        fun e he' => ⟨_, he'.of_does hd rfl ⟨he'.reads.sent, he'.reads.all, he'.reads.eof, he'.reads.ended⟩
          (fun h => by simp [hc] at h) he'.attached, ?_⟩⟩
      obtain ⟨ns, hns, hsum⟩ := ha.msgs
      have hq := (he'.attached hc).1
      have h1 := End.Step.run (.hold (e := c.self.asEnd e.taken) payload he) hf
      have h2 := h1.step (m := none) hf (.take payload [] ns r (by simp [asEnd, Endpoint.toEnd, hq]) he (by
        simp only [asEnd, Endpoint.toEnd]
        omega))
      rw [he'.isEnd]
      refine (hmsg c.self.id) ▸ hns ▸ ?_
      simpa [asEnd, Endpoint.toEnd, hq] using h2

theorem onEof_acted {payload : Bytes} {flushed : Bool} (hf : c.self.finished = false)
    (h : onEof env c flushed = .ok c') :
    ∃ fs, Acted c.self c'.self c.wire c'.wire [.stream FrameType.streamEof c.self.id payload] fs := by
  have hmsg : ∀ k, msgs k [.stream FrameType.streamEof k payload] = [.eof] :=
    fun k => by rw [msgs_singleton, msg?_streamEof]; rfl
  cases he : c.self.receivedEof with
  | true =>
    have hc : c = c' := by simpa [onEof, hf, he] using h
    subst hc
    refine ⟨[], .nil _, .refl _, .refl _, fun _ => rfl, fun e he' => ⟨e, he', ?_⟩⟩
    rw [he'.isEnd]
    exact (hmsg c.self.id) ▸ (End.Step.late .eof he (by simp)).run hf
  | false =>
    cases hc : c.self.connected with
    | false =>
      have h' := (onEof_queues hf he hc).symm.trans h
      cases h'
      let s : ClientStream := { c.self with queuedEof := true }
      refine ⟨[], .nil _, .refl _, .refl _, fun _ => rfl, fun e he' => ⟨s.asEnd e.taken, ⟨rfl, fun hp => ?_, he'.reads,
        fun _ _ => ?_, fun h => by simp [hc] at h⟩, ?_⟩⟩
      · obtain ⟨hv, ht⟩ := he'.plain hp
        exact ⟨⟨hv.headDone, hv.headBuf⟩, ht⟩
      · exact he'.dialling hc hf
      · have h1 := End.Step.run (.holdEof (e := c.self.asEnd e.taken) he) hf
        rw [he'.isEnd]
        refine (hmsg c.self.id) ▸ ?_
        simpa [s, asEnd, Endpoint.toEnd, he] using h1
    | true =>
      obtain ⟨fs, ha, hd⟩ := onEof_does hf he hc h
      refine ⟨fs, ha.names, hd.wire, kept_of_core hd.core ⟨rfl, rfl, rfl, fun h => by simp [hf] at h⟩,
        fun h : c.self.finished = true => by simp [hf] at h,
        fun e he' => ⟨_, he'.of_does hd rfl ⟨he'.reads.sent, fun _ => he'.reads.all hf, he'.reads.eof, fun _ => rfl⟩
          (fun h => by simp [hc] at h) (fun h => ⟨(he'.attached h).1, fun _ => rfl⟩), ?_⟩⟩
      obtain ⟨ns, hns, hsum⟩ := ha.msgs
      have hq := (he'.attached hc).1
      have h1 := End.Step.run (.holdEof (e := c.self.asEnd e.taken) he) hf
      have h2 := h1.step (m := none) hf (.takeEof ns (by simp [asEnd, Endpoint.toEnd, hq]) rfl
        (by simp [hsum, asEnd, Endpoint.toEnd]))
      rw [he'.isEnd]
      refine (hmsg c.self.id) ▸ hns ▸ ?_
      simpa [asEnd, Endpoint.toEnd, hq] using h2

/-- The dial comes through: what was queued is taken, and the end of the stream if that was. -/
theorem attach_acted {flushed : Nat → Bool} (hc : c.self.connected = false) (hv : ∃ e, View c.self e)
    (h : attach env c flushed = .ok c') : ∃ fs, Acted c.self c'.self c.wire c'.wire [] fs := by
  cases hf : c.self.finished with
  | true =>
    rw [attach_skip hf] at h
    cases h
    exact ⟨[], .nil _, .refl _, .refl _, fun _ => rfl, fun e he => ⟨e, he, .refl⟩⟩
  | false =>
    obtain ⟨e0, he0⟩ := hv
    obtain ⟨hw, hch, hse, hre⟩ := he0.dialling hc hf
    obtain ⟨n, fs, ha, r, hr, hr0, hd⟩ := attach_does hf hre hw h
    refine ⟨fs, ha.names, hd.wire, kept_of_core hd.core ⟨rfl, rfl, rfl, fun h => by simp [hf] at h⟩,
      fun h : c.self.finished = true => by simp [hf] at h, fun e he => ⟨_, he.of_does hd rfl ⟨?_, ?_, ?_, fun h => h⟩
        (fun h => by simp at h) (fun _ => ⟨rfl, fun h => h⟩), ?_⟩⟩
    · simp [hch]
    · simp [hch, Socket.bytesRead, Socket.fresh]
    · intro h
      simp [hse] at h
    · obtain ⟨ns, hns, hsum⟩ := ha.msgs
      have h1 := End.Step.run (.take (e := c.self.asEnd e.taken) c.self.queued.flatten [] ns r
        (by simp [asEnd, Endpoint.toEnd]) hre (by simp only [asEnd, Endpoint.toEnd]; omega)) hf
      rw [he.isEnd]
      refine hns ▸ ?_
      cases hq : c.self.queuedEof with
      | false => simpa [asEnd, Endpoint.toEnd, hq, hf, hre] using h1
      | true =>
        have h2 := h1.step (m := none) hf (.takeEof [] rfl (by simp [asEnd, Endpoint.toEnd, hq, hre])
          (by simp [hr0 hq]))
        simpa [asEnd, Endpoint.toEnd, hq, hr0 hq] using h2

theorem dialFailed_acted (message : String) :
    ∃ fs, Acted c.self (dialFailed env c message).self c.wire (dialFailed env c message).wire [] fs := by
  cases hf : c.self.finished with
  | true =>
    have h : dialFailed env c message = c := by simp [dialFailed, hf]
    rw [h]
    exact ⟨[], .nil _, .refl _, .refl _, fun _ => rfl, fun e he => ⟨e, he, .refl⟩⟩
  | false =>
    have hd : c.Does (dialFailed env c message) _ _ _ := dialFailed_does message hf
    refine ⟨_, .single _ (by decide), hd.wire, kept_of_core hd.core ⟨rfl, rfl, rfl, fun _ => rfl⟩,
      fun h : c.self.finished = true => by simp [hf] at h,
      fun e he => ⟨_, he.of_does hd rfl ⟨he.reads.sent, fun h => by simp at h, he.reads.eof, he.reads.ended⟩
        (fun _ => rfl) he.attached, ?_⟩⟩
    have h1 := End.Step.run (.die (e := c.self.asEnd e.taken) none [.reset] (by simp)) hf
    rw [he.isEnd, msgs_singleton]
    refine (msg?_streamReset (k := c.self.id) _) ▸ ?_
    simpa [asEnd, Endpoint.toEnd] using h1

theorem onDrain_acted (hc : c.self.connected = true) (h : onDrain env c = .ok c') :
    ∃ fs, Acted c.self c'.self c.wire c'.wire [] fs := by
  obtain ⟨b, hb, rfl⟩ := map_ok.mp h
  obtain ⟨fs, hn, hw, hm⟩ := Ctx.flushAck_moved hb
  refine ⟨fs, acted_of_moved (b := b.self) rfl hn hw ⟨hm.run, fun hr => hm.reads ⟨hr.sent, hr.all, hr.eof, hr.ended⟩,
    ⟨hm.kept.id, hm.kept.sentBefore, hm.kept.receivedBefore, hm.kept.finished⟩, hm.written, hm.receivedEof, hm.silent⟩
    fun h => by simp [hc] at h⟩

end ClientStream

end UpTunnel
