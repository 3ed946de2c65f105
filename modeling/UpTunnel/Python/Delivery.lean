import UpTunnel.Link.Stall
import UpTunnel.Python.Link

/-!
# UpTunnel.Python.Delivery

What the server and the Python agent have of each other, in every orderly run.

* `Peers`: the stream of the server for one of the agent, with all that has passed between them.
* `link_delivers`: either end has written what the other has read, as far as it has got.
* `link_conserves`: the window is the sender's credit, the bytes under way, those not acknowledged and the
  acknowledgements under way.
* `link_awaits`: a sender that is out of credit is waiting for something that returns some.
-/

namespace UpTunnel.Python

open Js Lts

namespace Sys

variable {env : SysEnv} {sys sys' : Sys} {x : Nat} {c : Stream}

/-! ## What has passed -/

theorem filterMap_of_map {α β : Type} {g : α → Option β} {l : List α} {l' : List β} (h : l.map g = l'.map some) :
    l.filterMap g = l' := by
  induction l generalizing l' with
  | nil =>
    cases l' with
    | nil => rfl
    | cons => cases h
  | cons y l ih =>
    cases l' with
    | nil => cases h
    | cons z l' =>
      obtain ⟨hz, hl⟩ := List.cons.inj h
      rw [List.filterMap_cons, hz, ih hl]

/-- What the agent has said is what has arrived and what is under way. -/
theorem Inv.voice_eq (hI : Inv env sys) (k : Nat) :
    voice k sys.agent.said = msgs k sys.server.wire.received ++ msgs k sys.up := by
  have htake : sys.agent.said.take sys.server.wire.received.length =
      sys.agent.passed.take sys.server.wire.received.length := by
    obtain ⟨t, ht⟩ := Agent.passed_prefix sys.agent
    rw [← ht, List.take_append_of_le_length hI.received_le]
  have hrec : (sys.agent.said.take sys.server.wire.received.length).filterMap Message.frame? =
      sys.server.wire.received := by
    rw [htake]
    exact filterMap_of_map hI.received
  rw [← List.take_append_drop sys.server.wire.received.length sys.agent.said, voice_append]
  congr 1
  rw [voice, hrec]

theorem Inv.plainspoken (hI : Inv env sys) (hx : sys.agent.objs[x]? = some c) : c.Plainspoken :=
  Agent.streams_invariant (P := Stream.Plainspoken) Stream.plainspoken_new (fun _ _ _ h hm => h.move hm) hI.calm x c
    hx

theorem Inv.awake (hI : Inv env sys) (hx : sys.agent.objs[x]? = some c) : c.Awake :=
  Agent.streams_invariant (P := Stream.Awake) Stream.awake_new (fun _ _ _ h hm => h.move hm) hI.calm x c hx

/-- A stream of the server, if nothing that was said to it follows an end marker. -/
theorem Inv.account (hI : Inv env sys) {a : Nat} {s : UpTunnel.Stream} (hs : sys.server.objs[a]? = some s)
    (hl : Item.EofLast (Msg.items (voice s.id sys.agent.said))) : ∃ outs,
    End.Account env.streamWindow (msgs s.id sys.server.wire.received) (UpTunnel.Stream.asEnd s) outs ∧
      msgs s.id sys.server.wire.sent <+: outs ∧
      (sys.server.wire.canSend = true → msgs s.id sys.server.wire.sent = outs) := by
  obtain ⟨outs, hL⟩ := hI.lives.lived a s hs
  refine ⟨outs, hL.run.account ?_, hL.sent, hL.all⟩
  rw [hI.voice_eq, Msg.items_append] at hl
  exact hl.of_append

/-- The stream `s` of the server for the stream `c` of the agent, and what it has sent. -/
structure Peers (env : SysEnv) (sys : Sys) (s : UpTunnel.Stream) (c : Stream) (outs : List (Msg UInt8)) : Prop where
  sameId : s.id = c.id
  linked : Linked sys c
  sound : Agent.Sound env.agent.maxStrDigits c
  reads : s.Reads
  account : End.Account env.streamWindow (msgs c.id sys.server.wire.received) (UpTunnel.Stream.asEnd s) outs
  sent : msgs c.id sys.server.wire.sent <+: outs
  all : sys.server.wire.canSend = true → msgs c.id sys.server.wire.sent = outs
  voice_eq : voice c.id sys.agent.said = msgs c.id sys.server.wire.received ++ msgs c.id sys.up
  /-- What the agent has said about the stream, but for the acknowledgements. -/
  said : ∃ tail, Msg.items (voice c.id sys.agent.said) = c.chunks.map .chunk ++ tail ∧
    (tail = [] ∨ tail = [.eof] ∧ .streamOnly STREAM_EOF c.id ∈ c.queued)

theorem elems_chunks (chunks : List Bytes) (tail : List (Item UInt8)) (h : tail = [] ∨ tail = [.eof]) :
    Item.elems (chunks.map .chunk ++ tail) = chunks.flatten ∧ Item.EofLast (chunks.map .chunk ++ tail) := by
  induction chunks with
  | nil =>
    rcases h with rfl | rfl
    · exact ⟨rfl, trivial⟩
    · exact ⟨rfl, rfl⟩
  | cons chunk chunks ih =>
    refine ⟨?_, ih.2⟩
    rw [List.map_cons, List.cons_append, List.flatten_cons, ← ih.1]
    rfl

/-- Every stream of the session at the agent has a peer at the server. -/
theorem Inv.exists_peer (hI : Inv env sys) (hc : sys.agent.Current x c) : ∃ (a : Nat) (s : UpTunnel.Stream)
    (outs : List (Msg UInt8)), sys.server.objs[a]? = some s ∧ Peers env sys s c outs := by
  have hL := hI.linked x c hc
  obtain ⟨i, payload, hi, hopen⟩ := hL.opened
  obtain ⟨⟨s, hs, hid⟩, -⟩ := hI.lives.opens i c.id payload hopen
  have hk : c.id < 2 ^ 32 := by
    have h1 := hI.lives.ids _ s hs
    have h2 := (List.getElem?_eq_some_iff.mp hs).1
    have h3 : sys.server.objs.length ≤ 0xfffffffe := hI.lives.bound
    omega
  have hsound := Agent.sound hI.calm hc.1
  obtain ⟨rs, hvoice, hrs, -⟩ := hL.said
  obtain ⟨tail, htail, ht⟩ := Stream.items_voice hk hsound.spoken (hI.plainspoken hc.1)
  have hitems : Msg.items (voice c.id sys.agent.said) = c.chunks.map .chunk ++ tail := by
    rw [hvoice, Msg.items_append, htail, Msg.items_of_resets hrs, List.append_nil]
  have hlast : Item.EofLast (Msg.items (voice s.id sys.agent.said)) := by
    rw [hid, hitems]
    exact (elems_chunks _ tail (ht.imp id And.left)).2
  obtain ⟨outs, hacc, hsent, hall⟩ := hI.account hs hlast
  rw [hid] at hacc hsent hall
  exact ⟨_, s, outs, hs, hid, hL, hsound, hI.lives.reads _ s hs, hacc, hsent, hall, hI.voice_eq c.id,
    tail, hitems, ht⟩

/-- What the agent has heard of a stream is the beginning of what its peer has sent. -/
theorem Peers.heard_prefix {s : UpTunnel.Stream} {outs : List (Msg UInt8)} (h : Peers env sys s c outs) :
    c.heardMsgs <+: outs := by
  refine h.linked.heard.trans (List.IsPrefix.trans ?_ h.sent)
  obtain ⟨t, ht⟩ := List.take_prefix sys.arrived sys.server.wire.sent
  rw [← ht, msgs_append]
  exact List.prefix_append _ _

theorem Peers.heard_eofLast {s : UpTunnel.Stream} {outs : List (Msg UInt8)} (h : Peers env sys s c outs) :
    Item.EofLast (Msg.items c.heardMsgs) := by
  obtain ⟨t, ht⟩ := h.heard_prefix
  have hl := h.account.outLast
  rw [← ht, Msg.items_append] at hl
  exact hl.of_append

/-! ## Integrity -/

/-- `c` has written what `s` has read, as far as it has got, and the other way round. -/
structure Delivers (maxStrDigits : Nat) (s : UpTunnel.Stream) (c : Stream) : Prop where
  /-- What goes to the local service is made of what the public socket has brought: of all, if it has ended. -/
  toLocal : ∃ ps eof, c.written = ((ToLocal.new c.id c.spec).pump maxStrDigits (inbox eof ps)).written ∧
    ps.flatten <+: s.socket.bytesRead ∧ (c.toLocalAt = .returned → eof = true) ∧
    (eof = true → s.socket.endSeen = true ∧ ps.flatten = s.socket.bytesRead)
  plain : c.Plain → c.written.flatten <+: s.socket.bytesRead ∧
    (c.toLocalAt = .returned → s.socket.endSeen = true ∧ c.written.flatten = s.socket.bytesRead)
  toPublic : s.socket.bytesWritten <+: c.chunks.flatten
  ended : s.socket.ended = true → .streamOnly STREAM_EOF c.id ∈ c.queued ∧ s.socket.bytesWritten = c.chunks.flatten

theorem Peers.delivers {s : UpTunnel.Stream} {outs : List (Msg UInt8)} (h : Peers env sys s c outs) :
    Delivers env.agent.maxStrDigits s c := by
  have hacc := h.account
  obtain ⟨ps, eof, hw, hps, hret, hall⟩ := h.sound.taken.exists_given h.heard_eofLast
  have hsub := Msg.items_prefix h.heard_prefix
  have hpushed : Item.elems (Msg.items outs) = s.chunks.flatten := hacc.pushed
  -- what has been heard has been read at the public socket
  have hread : ps.flatten <+: s.socket.bytesRead := by
    refine (hps.trans (Item.elems_prefix hsub)).trans ?_
    rw [hpushed]
    exact h.reads.sent
  have hend : eof = true → s.socket.endSeen = true ∧ ps.flatten = s.socket.bytesRead := by
    intro he
    obtain ⟨hmem, heq⟩ := hall he
    have hsent : s.sentEof = true := hacc.pushedEof.mp (hsub.subset hmem)
    obtain ⟨h1, h2⟩ := h.reads.eof hsent
    refine ⟨h1, ?_⟩
    rw [heq, hacc.outLast.eq_of_prefix hsub hmem, hpushed, h2]
  obtain ⟨tail, hsaid, htail⟩ := h.said
  obtain ⟨hbytes, hlast⟩ := elems_chunks c.chunks tail (htail.imp (fun h => h) And.left)
  rw [← hsaid] at hbytes hlast
  have hback : Msg.items (msgs c.id sys.server.wire.received) <+: Msg.items (voice c.id sys.agent.said) := by
    rw [h.voice_eq]
    exact Msg.items_prefix (List.prefix_append _ _)
  have htaken : s.socket.bytesWritten ++ [] <+: Item.elems (Msg.items (msgs c.id sys.server.wire.received)) :=
    hacc.taken
  rw [List.append_nil] at htaken
  refine ⟨⟨ps, eof, hw, hread, hret, hend⟩, fun hplain => ?_, ?_, fun hended => ?_⟩
  · rw [hplain.written_eq hw]
    exact ⟨hread, fun hat => hend (hret hat)⟩
  · rw [← hbytes]
    exact htaken.trans (Item.elems_prefix hback)
  · have hte : (UpTunnel.Stream.asEnd s).takenEof = true := h.reads.ended hended
    have hmem := (hacc.ended hte).2
    have hall : s.socket.bytesWritten ++ [] = Item.elems (Msg.items (msgs c.id sys.server.wire.received)) :=
      hacc.all (.inr hte)
    have heq := hlast.eq_of_prefix hback hmem
    rw [List.append_nil, heq, hbytes] at hall
    refine ⟨?_, hall⟩
    rcases htail with rfl | ⟨-, hq⟩
    · rw [heq, hsaid, List.append_nil] at hmem
      obtain ⟨chunk, -, he⟩ := List.mem_map.mp hmem
      cases he
    · exact hq

structure Delivered (env : SysEnv) (sys : Sys) : Prop where
  /-- Every stream of the agent's session has one at the server, -/
  made : ∀ (x : Nat) (c : Stream), sys.agent.Current x c → ∃ s, sys.server.objs[c.id - 1]? = some s ∧ s.id = c.id ∧
    Delivers env.agent.maxStrDigits s c
  /-- under an id that no other has. -/
  once : sys.agent.Apart
  ids : ∀ (a : Nat) (s : UpTunnel.Stream), sys.server.objs[a]? = some s → s.id = a + 1
  /-- A stream of the server without one at the agent has written nothing. -/
  unmade : ∀ (a : Nat) (s : UpTunnel.Stream), sys.server.objs[a]? = some s →
    (∀ (x : Nat) (c : Stream), sys.agent.Current x c → c.id ≠ s.id) →
      s.socket.bytesWritten = [] ∧ s.socket.ended = false

/-- In every orderly run the two ends of a stream have written what the other has read, as far as they have got. -/
theorem link_delivers (h : Reach (ofFn (step env)) Orderly (Starts env) sys) : Delivered env sys := by
  have hI := inv h
  refine ⟨fun x c hc => ?_, hI.apart, hI.lives.ids, fun a s hs hnone => ?_⟩
  · obtain ⟨a, s, outs, hs, hP⟩ := hI.exists_peer hc
    have hid := hI.lives.ids a s hs
    refine ⟨s, ?_, hP.sameId, hP.delivers⟩
    rw [← hP.sameId, hid]
    exact hs
  · have hitems : Msg.items (voice s.id sys.agent.said) = [] := Msg.items_of_resets (hI.strangers s.id hnone)
    obtain ⟨outs, hacc, -⟩ := hI.account hs (by rw [hitems]; trivial)
    have hrec : Msg.items (msgs s.id sys.server.wire.received) = [] := by
      rw [hI.voice_eq, Msg.items_append] at hitems
      exact (List.append_eq_nil_iff.mp hitems).1
    have htaken : s.socket.bytesWritten ++ [] <+: Item.elems (Msg.items (msgs s.id sys.server.wire.received)) :=
      hacc.taken
    rw [hrec, List.append_nil] at htaken
    refine ⟨List.prefix_nil.mp htaken, ?_⟩
    by_contra hended
    have hte : (UpTunnel.Stream.asEnd s).takenEof = true :=
      (hI.lives.reads a s hs).ended ((Bool.not_eq_false _).mp hended)
    have hmem := (hacc.ended hte).2
    rw [hrec] at hmem
    cases hmem

/-! ## Credit -/

/-- The windows of the two directions between `s` and `c`. -/
structure Conserves (window : Int) (sys : Sys) (s : UpTunnel.Stream) (c : Stream) : Prop where
  down : s.sendCredit + dataBytes c.id sys.down + c.unacked + ackBytes c.id sys.up = window
  up : c.sendCredit + dataBytes c.id sys.up + s.recvUnacked + ackBytes c.id sys.down = c.window

theorem Peers.conserves {s : UpTunnel.Stream} {outs : List (Msg UInt8)} (h : Peers env sys s c outs)
    (hs : s.finished = false) (hc : c.finished = false) (hopen : sys.server.wire.canSend = true) (hk : c.id < 2 ^ 32)
    (hplain : c.Plainspoken) : Conserves env.streamWindow sys s c := by
  have hacc := h.account
  -- what the server has sent has been heard, or is under way
  have houts : outs = c.heardMsgs ++ msgs c.id sys.down := by
    rw [← h.all hopen, h.linked.all hc, ← msgs_append]
    exact congrArg (msgs c.id) (List.take_append_drop _ _).symm
  have hsaid : voice c.id sys.agent.said = voice c.id c.queued := by
    obtain ⟨rs, hv, -, hlive⟩ := h.linked.said
    rw [hv, hlive hc, List.append_nil]
  obtain ⟨tail, hitems, htail⟩ := h.said
  obtain ⟨hbytes, -⟩ := elems_chunks c.chunks tail (htail.imp (fun h => h) And.left)
  have hack : Msg.acks (voice c.id sys.agent.said) = c.acked.sum := by
    rw [hsaid, acks_voice hk hplain, h.sound.spoken.acked]
  have hle := h.sound.taken.acked_le
  constructor
  · have hcredit : s.sendCredit + s.chunks.flatten.length =
        env.streamWindow + Msg.acks (msgs c.id sys.server.wire.received) := hacc.credit hs
    have hpushed : Item.elems (Msg.items outs) = s.chunks.flatten := hacc.pushed
    have hlen := congrArg List.length hpushed
    rw [houts, Msg.items_append, Item.elems_append, List.length_append, Stream.elems_heard, ← dataBytes_eq] at hlen
    rw [h.voice_eq, Msg.acks_append, ← ackBytes_eq c.id sys.up] at hack
    unfold Stream.unacked
    omega
  · have hbalance := h.sound.credited.balance
    have hacked : Msg.acks outs + s.recvUnacked = s.socket.bytesWritten.length := hacc.acked
    have hall : s.socket.bytesWritten ++ [] = Item.elems (Msg.items (msgs c.id sys.server.wire.received)) :=
      hacc.all (.inl hs)
    rw [houts, Msg.acks_append, Stream.acks_heard, ← ackBytes_eq] at hacked
    have hlen := congrArg List.length hbytes
    rw [← hitems, h.voice_eq, Msg.items_append, Item.elems_append, ← hall, List.append_nil, List.length_append,
      ← dataBytes_eq] at hlen
    omega

theorem Inv.conserves (hI : Inv env sys) (hc : sys.agent.Current x c) (hn : c.finished = false) {a : Nat}
    {s : UpTunnel.Stream} (hs : sys.server.objs[a]? = some s) (hid : s.id = c.id) (hf : s.finished = false)
    (hopen : sys.server.wire.canSend = true) :
    ∃ outs, Peers env sys s c outs ∧ Conserves env.streamWindow sys s c := by
  obtain ⟨a', s', outs, hs', hP⟩ := hI.exists_peer hc
  have h1 := hI.lives.ids a s hs
  have h2 := hI.lives.ids a' s' hs'
  have h3 := hP.sameId
  obtain rfl : a = a' := by omega
  obtain rfl : s = s' := Option.some.inj (hs.symm.trans hs')
  have hk : c.id < 2 ^ 32 := by
    have h4 := (List.getElem?_eq_some_iff.mp hs).1
    have h5 : sys.server.objs.length ≤ 0xfffffffe := hI.lives.bound
    omega
  exact ⟨outs, hP, hP.conserves hf hn hopen hk (hI.plainspoken hc.1)⟩

/-- In every orderly run, for a stream that is open at both ends: in either direction the window is the sender's
credit, the bytes under way, what the receiver has not acknowledged, and the acknowledgements under way. -/
theorem link_conserves (h : Reach (ofFn (step env)) Orderly (Starts env) sys) {a : Nat} {s : UpTunnel.Stream}
    (hc : sys.agent.Current x c) (hs : sys.server.objs[a]? = some s) (hid : s.id = c.id) (hn : c.finished = false)
    (hf : s.finished = false) (hopen : sys.server.wire.canSend = true) :
    s.sendCredit + dataBytes c.id sys.down + c.unacked + ackBytes c.id sys.up = env.streamWindow ∧
    c.sendCredit + dataBytes c.id sys.up + s.recvUnacked + ackBytes c.id sys.down = c.window := by
  obtain ⟨outs, -, hdown, hup⟩ := (inv h).conserves hc hn hs hid hf hopen
  exact ⟨hdown, hup⟩

theorem owing (h : Reach (ofFn (step env)) Orderly (Starts env) sys) : Hub.Each Endpoint.Owing sys.server.toHub := by
  refine h.invariant (I := fun sys => Hub.Each Endpoint.Owing sys.server.toHub) ?_ ?_
  · rintro _ ⟨a, -, -, rfl⟩
    refine Hub.Each.send AgentSession.owing_pause (fun a t ht => ?_) _
    simp [AgentSession.new] at ht
  · intro sys e sys' _ ih _ hs
    have server : ∀ {e : AgentSession.Event}, sys.stepServer env e = some sys' →
        Hub.Each Endpoint.Owing sys'.server.toHub := by
      intro e hs
      obtain ⟨s', hx, rfl⟩ := Option.map_eq_some_iff.mp hs
      exact AgentSession.step_owing ih hx
    have agent : sys'.server = sys.server → Hub.Each Endpoint.Owing sys'.server.toHub := fun he => he ▸ ih
    cases e with
    | server e =>
      cases e with
      | frame => cases hs
      | accept | data | «end» | drain | error | close | control | poll | notOpen | destroy => exact server hs
    | agent e =>
      cases e with
      | connect => cases hs
      | reply => cases hs
      | message => cases hs
      | unanswered | disconnect | deliver | stream | dialFailed | gathered =>
        obtain ⟨a', -, rfl⟩ := Option.map_eq_some_iff.mp hs
        exact agent rfl
    | toServer flushed =>
      obtain ⟨m, -, hs⟩ := Option.bind_eq_some_iff.mp hs
      obtain ⟨f, -, hs⟩ := Option.bind_eq_some_iff.mp hs
      exact server hs
    | toAgent data =>
      obtain ⟨f, -, hs⟩ := Option.bind_eq_some_iff.mp hs
      obtain ⟨-, hs⟩ := Option.ite_none_right_eq_some.mp hs
      obtain ⟨a', -, rfl⟩ := Option.map_eq_some_iff.mp hs
      exact agent rfl

/-- In every orderly run, for a stream that is open at both ends: a sender that is out of credit is waiting for bytes
or acknowledgements that are under way, or for a receiver that has something to do; and `_to_server` waits only without
credit. -/
theorem link_awaits (h : Reach (ofFn (step env)) Orderly (Starts env) sys) {a : Nat} {s : UpTunnel.Stream}
    (hc : sys.agent.Current x c) (hs : sys.server.objs[a]? = some s) (hid : s.id = c.id) (hn : c.finished = false)
    (hf : s.finished = false) (hopen : sys.server.wire.canSend = true) :
    (0 < env.streamWindow → s.sendCredit ≤ 0 →
      (∃ payload, payload ≠ [] ∧ .data c.id payload ∈ sys.down) ∨ c.Busy ∨
        ∃ payload, payload.length ≥ 4 ∧ 0 < readUInt32BE payload ∧ .stream FrameType.streamAck c.id payload ∈ sys.up) ∧
    (0 < c.window → c.toServerAt = .credit → c.credit = true ∨
      (∃ payload, payload ≠ [] ∧ .data c.id payload ∈ sys.up) ∨ (0 < s.recvUnacked ∧ s.socket.needDrain = true) ∨
        ∃ payload, payload.length ≥ 4 ∧ 0 < readUInt32BE payload ∧
          .stream FrameType.streamAck c.id payload ∈ sys.down) := by
  have hI := inv h
  obtain ⟨outs, hP, hdown, hup⟩ := hI.conserves hc hn hs hid hf hopen
  refine ⟨fun hw hle => ?_, fun hw hat => ?_⟩
  · by_cases hd : 0 < dataBytes c.id sys.down
    · exact .inl (UpTunnel.Sys.exists_data hd)
    · by_cases hu : 0 < c.unacked
      · exact .inr (.inl (hP.sound.taken.busy hP.sound.life hn hP.heard_eofLast hu))
      · exact .inr (.inr (UpTunnel.Sys.exists_ack (by omega)))
  · by_cases hcredit : 0 < c.sendCredit
    · exact .inl (hI.awake hc.1 hat hcredit)
    · by_cases hd : 0 < dataBytes c.id sys.up
      · exact .inr (.inl (UpTunnel.Sys.exists_data hd))
      · by_cases hu : 0 < s.recvUnacked
        · exact .inr (.inr (.inl ⟨hu, owing h a s hs hf hu⟩))
        · exact .inr (.inr (.inr (UpTunnel.Sys.exists_ack (by omega))))

/-! ## A run -/

/-- The agent of `sshEnv`, with a window of two bytes. -/
def sshLink : SysEnv where
  server := ⟨8388608, fun _ => 0⟩
  streamWindow := 2
  agentId := "a"
  heartbeatMs := 15000
  httpDomain := "localhost"
  agent := Agent.sshEnv

def tunnelOk : Obj := [("reqId", .str "0"), ("tunnelId", .str "t")]

/-- A connection is opened, and a payload goes each way: two bytes have been written to the local socket, three have
been read from it and are in flight. -/
def linkRun : List Event :=
  [.toAgent (encodeControl FrameType.helloOk [("agentId", .str "a"), ("streamWindow", .num (.fin 2))]),
    .agent .deliver, .toServer true, .server (.control FrameType.tunnelOk tunnelOk),
    .toAgent (encodeControl FrameType.tunnelOk tunnelOk), .server (.accept "t" "r" []),
    .toAgent (encodeStreamJson FrameType.streamOpen 1 [("tunnelId", .str "t"), ("remoteAddr", .str "r")]),
    .agent (.stream 0 .dialed), .agent (.stream 0 .begin), .server (.data 0 [7, 8]),
    .toAgent (encodeStreamData 1 [7, 8]), .agent (.stream 0 .item), .agent (.stream 0 (.read [1, 2, 3])),
    .agent .deliver]

def linkStart : Sys := start sshLink Agent.new

/-- Both senders have used up their windows. -/
def spent (sys : Sys) (s : UpTunnel.Stream) (c : Stream) : Bool :=
  sys.server.wire.canSend && decide (c.session + 1 = sys.agent.sent.length) && decide (s.id = c.id) && !c.finished &&
    !s.finished && decide (c.written = [[7, 8]]) && decide (s.sendCredit = 0) && decide (c.toServerAt = .credit) &&
    decide (c.window = 2)

theorem exec_linkRun : ∃ (sys : Sys) (s : UpTunnel.Stream) (c : Stream),
    Reach (ofFn (step sshLink)) Orderly (Starts sshLink) sys ∧ sys.server.objs[0]? = some s ∧
      sys.agent.objs[0]? = some c ∧ spent sys s c = true := by
  have hrun : (execOk (step sshLink) Orderly linkStart linkRun).any (fun sys => sys.server.objs[0]?.any fun s =>
      sys.agent.objs[0]?.any fun c => spent sys s c) = true := by decide +kernel
  obtain ⟨sys, hsys, hp⟩ := (Option.any_eq_true _ _).mp hrun
  obtain ⟨s, hs, hp⟩ := (Option.any_eq_true _ _).mp hp
  obtain ⟨c, hc, hp⟩ := (Option.any_eq_true _ _).mp hp
  exact ⟨sys, s, c, Reach.execOk (.start ⟨Agent.new, .start rfl, rfl, rfl⟩) hsys, hs, hc, hp⟩

theorem link_delivers_ssh : ∃ (sys : Sys) (s : UpTunnel.Stream) (c : Stream), sys.server.objs[0]? = some s ∧
    sys.agent.objs[0]? = some c ∧ spent sys s c = true ∧ Delivered sshLink sys := by
  obtain ⟨sys, s, c, h, hs, hc, hp⟩ := exec_linkRun
  exact ⟨sys, s, c, hs, hc, hp, link_delivers h⟩

/-- The parts of `spent`. -/
theorem of_spent {s : UpTunnel.Stream} (hc : sys.agent.objs[0]? = some c) (h : spent sys s c = true) :
    sys.agent.Current 0 c ∧ s.id = c.id ∧ c.finished = false ∧ s.finished = false ∧ sys.server.wire.canSend = true ∧
      s.sendCredit = 0 ∧ c.toServerAt = .credit ∧ c.window = 2 := by
  simp only [spent, Bool.and_eq_true, decide_eq_true_eq, Bool.not_eq_true'] at h
  obtain ⟨⟨⟨⟨⟨⟨⟨⟨h1, h2⟩, h3⟩, h4⟩, h5⟩, -⟩, h7⟩, h8⟩, h9⟩ := h
  exact ⟨⟨hc, h2⟩, h3, h4, h5, h1, h7, h8, h9⟩

theorem link_conserves_ssh : ∃ (sys : Sys) (s : UpTunnel.Stream) (c : Stream), spent sys s c = true ∧
    s.sendCredit + dataBytes c.id sys.down + c.unacked + ackBytes c.id sys.up = 2 ∧
    c.sendCredit + dataBytes c.id sys.up + s.recvUnacked + ackBytes c.id sys.down = 2 := by
  obtain ⟨sys, s, c, h, hs, hc, hp⟩ := exec_linkRun
  obtain ⟨hcur, hid, hn, hf, hopen, -, -, hw⟩ := of_spent hc hp
  have hcons := link_conserves h hcur hs hid hn hf hopen
  rw [hw] at hcons
  exact ⟨sys, s, c, hp, hcons⟩

theorem link_awaits_ssh : ∃ (sys : Sys) (s : UpTunnel.Stream) (c : Stream), spent sys s c = true ∧
    ((∃ payload, payload ≠ [] ∧ .data c.id payload ∈ sys.down) ∨ c.Busy ∨
      ∃ payload, payload.length ≥ 4 ∧ 0 < readUInt32BE payload ∧ .stream FrameType.streamAck c.id payload ∈ sys.up) ∧
    (c.credit = true ∨ (∃ payload, payload ≠ [] ∧ .data c.id payload ∈ sys.up) ∨
      (0 < s.recvUnacked ∧ s.socket.needDrain = true) ∨
        ∃ payload, payload.length ≥ 4 ∧ 0 < readUInt32BE payload ∧
          .stream FrameType.streamAck c.id payload ∈ sys.down) := by
  obtain ⟨sys, s, c, h, hs, hc, hp⟩ := exec_linkRun
  obtain ⟨hcur, hid, hn, hf, hopen, hcredit, hat, hw⟩ := of_spent hc hp
  obtain ⟨h1, h2⟩ := link_awaits h hcur hs hid hn hf hopen
  exact ⟨sys, s, c, hp, h1 (by decide) hcredit.le, h2 (by rw [hw]; decide) hat⟩

end Sys

end UpTunnel.Python
