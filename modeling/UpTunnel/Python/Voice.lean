import UpTunnel.Link.Life
import UpTunnel.Python.Runs

/-!
# UpTunnel.Python.Voice

What a stream of the Python agent has heard and said, as the messages of `Lib.Duplex`: what the server's
`decodeFrame` makes of what the agent's encoders write, and the other way round.

* `Message.About`: the frames that a stream sends; each is decoded as what it was made of.
* `items_voice`, `acks_voice`: what a stream has sent, from what it has read and taken.
* `items_heard`, `acks_heard`: what it was told, from the frames that the read loop has handed to it.
* `Taken.exists_given`, `Taken.busy`: what it has made of them, and where it holds back an acknowledgement.
-/

namespace UpTunnel.Python

open Js Lts

/-! ## Messages on the wire -/

/-- What the server decodes. -/
def Message.frame? (m : Message) : Option UpTunnel.Frame :=
  m.encode.toOption.bind fun data => (decodeFrame data).toOption

/-- The frames about the stream `k`. -/
inductive Message.About (k : Nat) : Message → Prop where
  | data (payload : Bytes) : About k (.streamData k payload)
  | eof : About k (.streamOnly STREAM_EOF k)
  | ack (n : Nat) : n ≤ 0xffffffff → About k (.streamAck k n)
  | reset (body : Py.Dict) : About k (.streamJson STREAM_RESET k body)

/-- What the messages mean to the server's stream `k`. -/
def voice (k : Nat) (ms : List Message) : List (Msg UInt8) := msgs k (ms.filterMap Message.frame?)

section
variable {k : Nat} {m : Message} {ms ns : List Message}

@[simp] theorem voice_nil : voice k [] = [] := rfl

@[simp] theorem voice_append : voice k (ms ++ ns) = voice k ms ++ voice k ns := by
  rw [voice, List.filterMap_append, msgs_append]
  rfl

theorem voice_cons : voice k (m :: ms) = voice k [m] ++ voice k ms := @voice_append k [m] ms

theorem frame?_data (hk : k < 2 ^ 32) (payload : Bytes) :
    (Message.streamData k payload).frame? = some (.data k payload) := by
  have he : Python.streamData k payload = .ok (UInt8.ofNat STREAM_DATA :: u32be k ++ payload) := by
    rw [Python.streamData, byte_ok (by decide), pack_ok hk]
    rfl
  have hd := @decodeFrame_stream STREAM_DATA (by decide) (by decide) k hk payload
  simp only [Message.frame?, Message.encode, he, Except.toOption, Option.bind_some, hd]
  rfl

theorem frame?_eof (hk : k < 2 ^ 32) : (Message.streamOnly STREAM_EOF k).frame? = some (.eof k) := by
  have he : Python.streamOnly STREAM_EOF k = .ok (UInt8.ofNat STREAM_EOF :: u32be k ++ []) := by
    rw [Python.streamOnly, byte_ok (by decide), pack_ok hk]
    rfl
  have hd := @decodeFrame_stream STREAM_EOF (by decide) (by decide) k hk []
  simp only [Message.frame?, Message.encode, he, Except.toOption, Option.bind_some, hd]
  rfl

theorem frame?_ack (hk : k < 2 ^ 32) {n : Nat} (hn : n ≤ 0xffffffff) :
    (Message.streamAck k n).frame? = some (.stream FrameType.streamAck k (u32be n)) := by
  have he : Python.streamAck k n = .ok (UInt8.ofNat STREAM_ACK :: u32be k ++ u32be n) := by
    rw [Python.streamAck, byte_ok (by decide), pack_ok hk, pack_ok (by omega)]
    rfl
  have hd := @decodeFrame_stream STREAM_ACK (by decide) (by decide) k hk (u32be n)
  simp only [Message.frame?, Message.encode, he, Except.toOption, Option.bind_some, hd]
  rfl

theorem frame?_reset (hk : k < 2 ^ 32) (body : Py.Dict) :
    (Message.streamJson STREAM_RESET k body).frame? = some (.stream FrameType.streamReset k (jsonBytes body)) := by
  have he : Python.streamJson STREAM_RESET k body = .ok (UInt8.ofNat STREAM_RESET :: u32be k ++ jsonBytes body) := by
    rw [Python.streamJson, byte_ok (by decide), pack_ok hk]
    rfl
  have hd := @decodeFrame_stream STREAM_RESET (by decide) (by decide) k hk (jsonBytes body)
  simp only [Message.frame?, Message.encode, he, Except.toOption, Option.bind_some, hd]
  rfl

/-- No id beyond a u32 is ever packed. -/
theorem frame?_big (h : m.About k) (hk : ¬ k < 2 ^ 32) : m.frame? = none := by
  have hp : pack k = .error .structError := if_neg (by omega)
  cases h with
  | data payload =>
    simp only [Message.frame?, Message.encode, Python.streamData, byte_ok (show STREAM_DATA < 256 by decide), hp]
    rfl
  | eof =>
    simp only [Message.frame?, Message.encode, Python.streamOnly, byte_ok (show STREAM_EOF < 256 by decide), hp]
    rfl
  | ack n hn =>
    simp only [Message.frame?, Message.encode, Python.streamAck, byte_ok (show STREAM_ACK < 256 by decide), hp]
    rfl
  | reset body =>
    simp only [Message.frame?, Message.encode, Python.streamJson, byte_ok (show STREAM_RESET < 256 by decide), hp]
    rfl

/-- A frame about a stream carries its id, and is no STREAM_OPEN. -/
theorem frame?_about (h : m.About k) {f : UpTunnel.Frame} (hf : m.frame? = some f) : f.streamId? = some k := by
  by_cases hk : k < 2 ^ 32
  · cases h with
    | data payload =>
      rw [frame?_data hk] at hf
      cases hf
      rfl
    | eof =>
      rw [frame?_eof hk] at hf
      cases hf
      rfl
    | ack n hn =>
      rw [frame?_ack hk hn] at hf
      cases hf
      rfl
    | reset body =>
      rw [frame?_reset hk] at hf
      cases hf
      rfl
  · rw [frame?_big h hk] at hf
    cases hf

theorem frame?_openTunnel {body : Py.Dict} {f : UpTunnel.Frame}
    (hf : (Message.control OPEN_TUNNEL body).frame? = some f) : f.streamId? = none := by
  have he : Python.control OPEN_TUNNEL body = .ok (UInt8.ofNat OPEN_TUNNEL :: jsonBytes body) := by
    rw [Python.control, byte_ok (by decide)]
    rfl
  simp only [Message.frame?, Message.encode, he, Except.toOption, Option.bind_some] at hf
  cases hd : decodeFrame (UInt8.ofNat OPEN_TUNNEL :: jsonBytes body) with
  | error e =>
    rw [hd] at hf
    cases hf
  | ok g =>
    rw [hd] at hf
    cases hf
    have hlt : (UInt8.ofNat OPEN_TUNNEL).toNat < UpTunnel.STREAM_FRAME_FLOOR := by decide
    simp only [decodeFrame] at hd
    rw [if_pos hlt] at hd
    split at hd
    · cases hd
    · cases hd
      rfl
    · cases hd

theorem voice_of_ne (h : ∀ m ∈ ms, ∀ f, m.frame? = some f → f.streamId? ≠ some k) : voice k ms = [] := by
  refine msgs_of_ne fun f hf => ?_
  obtain ⟨m, hm, hmf⟩ := List.mem_filterMap.mp hf
  exact h m hm f hmf

theorem voice_about (h : ∀ m ∈ ms, m.About k) {k' : Nat} (hne : k' ≠ k) : voice k' ms = [] :=
  voice_of_ne fun m hm _ hf he => hne (Option.some.inj (he.symm.trans (frame?_about (h m hm) hf)))

/-- What is sent for an id that has no stream. -/
theorem voice_resets (h : ∀ m ∈ ms, ∃ i body, m = .streamJson STREAM_RESET i body) :
    ∀ w ∈ voice k ms, w = .reset := by
  intro w hw
  obtain ⟨f, hf, hfw⟩ := List.mem_filterMap.mp hw
  obtain ⟨m, hm, hmf⟩ := List.mem_filterMap.mp hf
  obtain ⟨i, body, rfl⟩ := h m hm
  by_cases hi : i < 2 ^ 32
  · rw [frame?_reset hi] at hmf
    cases hmf
    by_cases hk : i = k
    · subst hk
      rw [msg?_streamReset] at hfw
      exact (Option.some.inj hfw).symm
    · rw [msg?_of_ne (by simpa using hk)] at hfw
      cases hfw
  · rw [frame?_big (.reset body) hi] at hmf
    cases hmf

end

/-! ## What a stream says -/

section
variable {k : Nat} {ms : List Message}

theorem voice_ack (hk : k < 2 ^ 32) {n : Nat} (hn : n ≤ 0xffffffff) : voice k [.streamAck k n] = [.ack n] := by
  have hr : readUInt32BE (u32be n) = n := by simpa using readUInt32BE_u32be (n := n) (by omega) []
  simp only [voice, List.filterMap_cons, frame?_ack hk hn, List.filterMap_nil, msgs_singleton]
  rw [msg?_streamAck (by simp), hr]
  rfl

/-- Acknowledgements carry no bytes. -/
theorem items_speech (hk : k < 2 ^ 32) (h : ∀ m ∈ ms, m.About k) :
    Msg.items (voice k ms) = Msg.items (voice k (Stream.speech ms)) := by
  induction ms with
  | nil => rfl
  | cons m ms ih =>
    have ih := ih fun m hm => h m (List.mem_cons_of_mem _ hm)
    rw [voice_cons, Msg.items_append, ih]
    cases h m List.mem_cons_self with
    | data payload =>
      rw [show Stream.speech (.streamData k payload :: ms) = .streamData k payload :: Stream.speech ms from rfl,
        @voice_cons k (.streamData k payload) (Stream.speech ms), Msg.items_append]
    | eof =>
      rw [show Stream.speech (.streamOnly STREAM_EOF k :: ms) = .streamOnly STREAM_EOF k :: Stream.speech ms from rfl,
        @voice_cons k (.streamOnly STREAM_EOF k) (Stream.speech ms), Msg.items_append]
    | ack n hn =>
      rw [show Stream.speech (.streamAck k n :: ms) = Stream.speech ms from rfl]
      rw [voice_ack hk hn]
      rfl
    | reset body =>
      rw [show Stream.speech (.streamJson STREAM_RESET k body :: ms) =
          .streamJson STREAM_RESET k body :: Stream.speech ms from rfl,
        @voice_cons k (.streamJson STREAM_RESET k body) (Stream.speech ms), Msg.items_append]

theorem acks_voice (hk : k < 2 ^ 32) (h : ∀ m ∈ ms, m.About k) :
    Msg.acks (voice k ms) = (Stream.acks ms).sum := by
  induction ms with
  | nil => rfl
  | cons m ms ih =>
    have ih := ih fun m hm => h m (List.mem_cons_of_mem _ hm)
    rw [voice_cons, Msg.acks_append, ih]
    cases h m List.mem_cons_self with
    | data payload =>
      rw [show Stream.acks (.streamData k payload :: ms) = Stream.acks ms from rfl]
      simp [voice, frame?_data hk, msgs_singleton]
    | eof =>
      rw [show Stream.acks (.streamOnly STREAM_EOF k :: ms) = Stream.acks ms from rfl]
      simp [voice, frame?_eof hk, msgs_singleton]
    | ack n hn =>
      rw [show Stream.acks (.streamAck k n :: ms) = n :: Stream.acks ms from rfl, List.sum_cons]
      rw [voice_ack hk hn]
      rfl
    | reset body =>
      rw [show Stream.acks (.streamJson STREAM_RESET k body :: ms) = Stream.acks ms from rfl]
      simp [voice, frame?_reset hk, msgs_singleton]

theorem items_chunks (hk : k < 2 ^ 32) (chunks : List Bytes) :
    Msg.items (voice k (chunks.map (.streamData k ·))) = chunks.map .chunk := by
  induction chunks with
  | nil => rfl
  | cons chunk chunks ih =>
    rw [List.map_cons, voice_cons, Msg.items_append, ih]
    simp [voice, frame?_data hk, msgs_singleton]

end

namespace Stream

variable {maxStrDigits : Nat} {s s' : Stream}

/-- Everything that it has sent is about itself. -/
def Plainspoken (s : Stream) : Prop := ∀ m ∈ s.queued, m.About s.id

theorem ack_about (s : Stream) (consumed : Nat) : ∀ m ∈ (s.ack consumed).2, m.About s.id := by
  intro m hm
  unfold ack at hm
  by_cases hn : consumed ≤ 4294967295
  · cases hx : streamAck s.id consumed with
    | error e =>
      rw [hx] at hm
      cases hm
    | ok b =>
      rw [hx] at hm
      rw [List.mem_singleton.mp hm]
      exact .ack consumed hn
  · have hx : streamAck s.id consumed = .error .structError := by
      have hp : pack consumed = .error .structError := if_neg hn
      rw [streamAck, byte_ok (by decide), hp]
      unfold pack
      split <;> rfl
    rw [hx] at hm
    cases hm

theorem takeItem_about (s : Stream) (item : Option Bytes) : ∀ m ∈ (s.takeItem maxStrDigits item).2, m.About s.id := by
  intro m hm
  cases item with
  | none =>
    simp only [takeItem] at hm
    split at hm
    · cases hm
    · split at hm <;> cases hm
  | some payload =>
    simp only [takeItem] at hm
    split at hm
    · cases hm
    · rename_i l out h
      split at hm
      · have hid : l.id = s.id := by
          split at h
          · cases h
            rfl
          · exact (bufferHead_ok h).1
        exact hid ▸ ack_about { s with toToLocal := l } payload.length m hm
      · cases hm

/-- What a step sends is about its stream. -/
theorem step_about {e : Event} {r : Stream × List Message} (h : s.step maxStrDigits e = some r) :
    ∀ m ∈ r.2, m.About s.id := by
  intro m hm
  cases e with
  | item =>
    obtain ⟨-, he⟩ := Option.ite_none_right_eq_some.mp h
    cases hin : s.inbox with
    | nil =>
      rw [hin] at he
      cases he
    | cons item inbox =>
      rw [hin] at he
      cases he
      exact takeItem_about { s with inbox := inbox } item m hm
  | drained =>
    simp only [step] at h
    cases hat : s.toLocalAt <;> rw [hat] at h <;> cases h
    · exact ack_about s _ m hm
    · cases hm
  | dialed | dialRaised | begin | credited =>
    obtain ⟨-, he⟩ := Option.ite_none_right_eq_some.mp h
    cases he
    cases hm
  | drainFailed =>
    simp only [step] at h
    cases hat : s.toLocalAt <;> rw [hat] at h <;> cases h <;> cases hm
  | read chunk =>
    obtain ⟨-, he⟩ := Option.ite_none_right_eq_some.mp h
    cases he
    rw [List.mem_singleton.mp hm]
    exact .data chunk
  | readEnd =>
    obtain ⟨-, he⟩ := Option.ite_none_right_eq_some.mp h
    cases he
    rw [List.mem_singleton.mp hm]
    exact .eof
  | readFailed =>
    obtain ⟨-, he⟩ := Option.ite_none_right_eq_some.mp h
    cases he
    rw [List.mem_singleton.mp hm]
    exact .reset _

theorem dialFailed_about (s : Stream) (message : String) : ∀ m ∈ (s.dialFailed message).2, m.About s.id := by
  intro m hm
  rw [List.mem_singleton.mp hm]
  exact .reset _

theorem plainspoken_new (id : Nat) (spec : TunnelSpec) (window : Int) (session : Nat) :
    Plainspoken (new id spec window session) := by
  intro m hm
  cases hm

theorem Plainspoken.say (h : Plainspoken s) {r : Stream × List Message} (hid : r.1.id = s.id)
    (hq : r.1.queued = s.queued) (hr : ∀ m ∈ r.2, m.About s.id) : Plainspoken (say r) := by
  intro m hm
  show m.About r.1.id
  rw [hid]
  have hm : m ∈ r.1.queued ++ r.2 := hm
  rw [hq] at hm
  exact (List.mem_append.mp hm).elim (h m) (hr m)

theorem Plainspoken.finish (h : Plainspoken s) : Plainspoken s.finish := by
  obtain ⟨h1, -, -, h4⟩ := finish_kept s
  intro m hm
  rw [h4]
  exact h m (h1 ▸ hm)

theorem Plainspoken.move {mv : Move} (h : Plainspoken s) (hm : s.move maxStrDigits mv = some s') :
    Plainspoken s' := by
  have hgathered : Plainspoken s.gathered := Plainspoken.finish (s := { s with run := .ended }) h
  refine move_cases hm (fun t p _ => ?_) (fun e r _ hs => ?_) (fun _ => h.finish) (fun m _ _ => ?_)
    fun _ _ _ => hgathered
  · by_cases ht : t = STREAM_RESET
    · subst ht
      exact Plainspoken.finish (s := { s with heard := s.heard ++ [(STREAM_RESET, p)] }) h
    · obtain ⟨b, he, -⟩ := onFrame_eq s p ht
      rw [he]
      exact h
  · have hq : r.1.queued = s.queued ∧ r.1.id = s.id := by
      have hsteps := step_cases hs
      cases hsteps with
      | dialed | dialRaised | credited | readEnd | readFailed => exact ⟨rfl, rfl⟩
      | toLocal inbox hat hof =>
        obtain ⟨⟨l, p, he, hid, -⟩, -, -⟩ := hof
        rw [he]
        exact ⟨rfl, hid⟩
      | begin hat =>
        obtain ⟨b, v, he, -⟩ := loopHead_eq s
        exact ⟨by rw [he], by rw [he]⟩
      | read chunk hat hne hlen =>
        obtain ⟨b, v, he, -⟩ := loopHead_eq
          { s with sendCredit := s.sendCredit - chunk.length, chunks := s.chunks ++ [chunk] }
        exact ⟨by rw [he], by rw [he]⟩
    exact h.say hq.2 hq.1 (step_about hs)
  · obtain ⟨h1, -, -, h4⟩ := finish_kept { s with run := .ended }
    exact h.say h4 h1 (dialFailed_about s m)

/-- What it has read goes out in chunks, and behind them at most an end marker. -/
theorem items_voice (hk : s.id < 2 ^ 32) (h : Spoken s) (hp : Plainspoken s) :
    ∃ tail, Msg.items (voice s.id s.queued) = s.chunks.map .chunk ++ tail ∧
      (tail = [] ∨ tail = [.eof] ∧ .streamOnly STREAM_EOF s.id ∈ s.queued) := by
  obtain ⟨ms, ht, hl⟩ := h.talk
  have hreset : ∀ body, Msg.items (voice s.id [.streamJson STREAM_RESET s.id body]) = [] := by
    intro body
    simp [voice, frame?_reset hk, msgs_singleton]
  have hms : ms = [] ∨ ms = [.streamOnly STREAM_EOF s.id] ∨ ∃ body, ms = [.streamJson STREAM_RESET s.id body] := by
    unfold Last at hl
    cases hat : s.toServerAt <;> simp only [hat] at hl
    · rcases hl.2 with hm | ⟨-, message, hm⟩
      · exact .inl hm
      · exact .inr (.inr ⟨_, hm⟩)
    · exact .inl hl
    · exact .inl hl
    · exact .inl hl
    · exact hl.elim (fun hm => .inr (.inl hm)) fun hm => .inr (.inr ⟨_, hm⟩)
    · exact .inl hl
  refine ⟨Msg.items (voice s.id ms), ?_, ?_⟩
  · rw [items_speech hk hp, ht, voice_append, Msg.items_append, items_chunks hk]
  · rcases hms with rfl | rfl | ⟨body, rfl⟩
    · exact .inl rfl
    · refine .inr ⟨by simp [voice, frame?_eof hk, msgs_singleton], ?_⟩
      have hmem : Message.streamOnly STREAM_EOF s.id ∈ speech s.queued := by simp [ht]
      exact (List.mem_filter.mp hmem).1
    · exact .inl (hreset body)

/-! ## What it hears -/

def heardMsgs (s : Stream) : List (Msg UInt8) := msgs s.id (s.heard.map fun f => .stream f.1 s.id f.2)

def toItem : Option Bytes → Item UInt8
  | none => .eof
  | some payload => .chunk payload

theorem items_heard (s : Stream) : Msg.items s.heardMsgs = (items s.heard).map toItem := by
  unfold heardMsgs
  induction s.heard with
  | nil => rfl
  | cons f heard ih =>
    obtain ⟨t, p⟩ := f
    rw [List.map_cons, ← List.singleton_append, msgs_append, Msg.items_append, ih,
      show items ((t, p) :: heard) = (item? (t, p)).toList ++ items heard by
        cases h : item? (t, p) <;> simp [items, h], List.map_append]
    congr 1
    rw [msgs_singleton]
    by_cases h1 : t = STREAM_DATA
    · subst h1
      rw [show msg? s.id (.stream STREAM_DATA s.id p) = some (.data p) from msg?_data p]
      rfl
    · by_cases h2 : t = STREAM_EOF
      · subst h2
        rw [show msg? s.id (.stream STREAM_EOF s.id p) = some .eof from msg?_streamEof p]
        rfl
      · rw [show item? (t, p) = none from (if_neg h1).trans (if_neg h2)]
        simp only [msg?, if_neg (not_not.mpr (rfl : s.id = s.id))]
        rw [if_neg (show t ≠ FrameType.streamData from h1), if_neg (show t ≠ FrameType.streamEof from h2)]
        split
        · split <;> rfl
        · split <;> rfl

theorem elems_toItem (l : List (Option Bytes)) : Item.elems (l.map toItem) = l.reduceOption.flatten := by
  induction l with
  | nil => rfl
  | cons i l ih =>
    cases i with
    | none => rw [List.map_cons, List.reduceOption_cons_of_none, ← ih]; rfl
    | some payload => rw [List.map_cons, List.reduceOption_cons_of_some, List.flatten_cons, ← ih]; rfl

theorem eof_mem_toItem {l : List (Option Bytes)} (h : none ∈ l) : Item.eof ∈ l.map toItem :=
  List.mem_map.mpr ⟨none, h, rfl⟩

theorem elems_heard (s : Stream) : Item.elems (Msg.items s.heardMsgs) = (payloads s.heard).flatten := by
  rw [items_heard, elems_toItem]
  rfl

/-- What has been written is made of a part of what was heard: of all of it, once `_to_local` has returned. -/
theorem Taken.exists_given (h : Taken maxStrDigits s) (hl : Item.EofLast (Msg.items s.heardMsgs)) : ∃ ps eof,
    s.written = ((ToLocal.new s.id s.spec).pump maxStrDigits (UpTunnel.inbox eof ps)).written ∧
    ps.flatten <+: Item.elems (Msg.items s.heardMsgs) ∧ (s.toLocalAt = .returned → eof = true) ∧
    (eof = true → Item.eof ∈ Msg.items s.heardMsgs ∧ ps.flatten = Item.elems (Msg.items s.heardMsgs)) := by
  obtain ⟨ps, eof, rest, hi, hw, -, hret, -⟩ := h.exists_payloads
  refine ⟨ps, eof, hw, ?_, fun hat => (hret hat).1, ?_⟩
  · rw [elems_heard, payloads_of_items hi, List.flatten_append]
    exact List.prefix_append _ _
  · rintro rfl
    have hmem : none ∈ UpTunnel.inbox true ps := by simp [UpTunnel.inbox]
    rw [items_heard, hi, List.map_append] at hl ⊢
    have hrest : rest.map toItem = [] := hl.nil_of_mem (eof_mem_toItem hmem)
    rw [hrest, List.append_nil, elems_toItem, ToLocal.reduceOption_inbox]
    exact ⟨eof_mem_toItem hmem, rfl⟩

/-- Where `_to_local` holds back an acknowledgement. -/
def Busy (s : Stream) : Prop :=
  s.toLocalAt = .unmade ∨ (s.toLocalAt = .item ∧ s.inbox ≠ []) ∨ (∃ consumed, s.toLocalAt = .drain consumed) ∨
    s.toLocalAt = .drainHead ∨ s.toLocalAt = .raised

/-- What is not acknowledged is in the hands of `_to_local`. -/
theorem Taken.busy (h : Taken maxStrDigits s) (hlife : Life s) (hf : s.finished = false)
    (hl : Item.EofLast (Msg.items s.heardMsgs)) (hu : 0 < s.unacked) : s.Busy := by
  cases hat : s.toLocalAt with
  | unmade => exact .inl hat
  | item =>
    refine .inr (.inl ⟨hat, fun hin => ?_⟩)
    rw [h.unacked_item hat hin] at hu
    exact absurd hu (Nat.lt_irrefl 0)
  | drain consumed => exact .inr (.inr (.inl ⟨consumed, hat⟩))
  | drainHead => exact .inr (.inr (.inr (.inl hat)))
  | raised => exact .inr (.inr (.inr (.inr hat)))
  | cancelled =>
    have := hlife.cancelled (.inl hat)
    rw [hf] at this
    cases this
  | returned =>
    -- behind the EOF there is nothing, and what was ahead of it is acknowledged
    obtain ⟨ps, eof, rest, hi, -, -, hret, -⟩ := h.exists_payloads
    obtain ⟨rfl, hacked⟩ := hret hat
    have hmem : none ∈ UpTunnel.inbox true ps := by simp [UpTunnel.inbox]
    rw [items_heard, hi, List.map_append] at hl
    have hrest : rest = [] := List.map_eq_nil_iff.mp (hl.nil_of_mem (eof_mem_toItem hmem))
    rw [unacked, payloads_of_items hi, hrest, hacked] at hu
    simp at hu

theorem acks_heard (s : Stream) : Msg.acks s.heardMsgs = granted s.heard := by
  unfold heardMsgs
  induction s.heard with
  | nil => rfl
  | cons f heard ih =>
    obtain ⟨t, p⟩ := f
    rw [List.map_cons, ← List.singleton_append, msgs_append, Msg.acks_append, ih,
      show granted ((t, p) :: heard) = grant (t, p) + granted heard by simp [granted]]
    congr 1
    rw [msgs_singleton]
    simp only [msg?, grant, STREAM_ACK, FrameType.streamData, FrameType.streamEof, FrameType.streamAck]
    by_cases h1 : t = 0x23
    · subst h1
      by_cases h2 : 4 ≤ p.length
      · simp [h2]
      · simp [h2]
    · simp only [ne_eq, not_true_eq_false, if_false, h1, false_and]
      split
      · rfl
      · split
        · rfl
        · split <;> rfl

end Stream

end UpTunnel.Python
