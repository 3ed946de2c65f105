import UpTunnel.HalfClose
import UpTunnel.HostLine
import UpTunnel.Lib.Search

/-!
# UpTunnel.Client.Confined

What a client stream with a Host rewrite writes to its local socket, over whole runs.

* `Head.total_eq`: the payloads may be cut and queued as they like; what counts is the bytes up to the payload that
  completes the head.
* `ClientTraced.Fed.step`: what a stream has written is what `Head.takes` makes of the payloads that have come in.
* `confined_iff`: the rewrite stays in the head exactly as long as those bytes have no `Host:` line in the body only,
  and the target has no replacement pattern.
-/

namespace UpTunnel

open Js Search

/-! ## The rewrite on bytes -/

def CRLFCRLF : Bytes := [13, 10, 13, 10]

/-- The bytes up to the end of the first CRLFCRLF; without one, all of them. -/
def headOf (input : Bytes) : Bytes :=
  match indexOf CRLFCRLF input with
  | some n => input.take (n + 4)
  | none => input

/-- `out` is `input` but for the Host line of its head; CR and LF each end a line. -/
structure Confined (target : String) (input out : Bytes) : Prop where
  rewritten : ∀ pre line post, HostLine isLineEnd true (latin1Decode (headOf input)) pre line post →
    latin1Decode out =
      pre ++ (("Host: " ++ target).toList ++ (post ++ latin1Decode (input.drop (headOf input).length)))
  untouched : (∀ pre line post, ¬ HostLine isLineEnd true (latin1Decode (headOf input)) pre line post) → out = input

/-- The first line of `buf` that starts with `Host:`, if there is one, is in the head and the target stands for itself
as a replacement; or it is behind the head and already reads as what it is replaced by. -/
def Harmless (target : String) (buf : Bytes) : Prop :=
  ∀ pre line post, HostLine isLineEnd true (latin1Decode buf) pre line post →
    if pre.length < (headOf buf).length then
      expandReplacement pre line post ("Host: " ++ target).toList = ("Host: " ++ target).toList ∧
        ∀ c ∈ target.toList, c.toNat < 256
    else latin1Encode (expandReplacement pre line post ("Host: " ++ target).toList) = latin1Encode line

section
variable {target : String} {buf rest : Bytes} {pre line post : List Char}

/-- The head ends a line, or is all there is. -/
theorem headOf_split (buf : Bytes) : ∃ body, buf = headOf buf ++ body ∧
    ((∃ c, (latin1Decode (headOf buf)).getLast? = some c ∧ isLineEnd c = true) ∨ body = []) := by
  unfold headOf
  split
  · rename_i n h
    obtain ⟨a, b, rfl, rfl⟩ := indexOf_split h
    have htake : (a ++ (CRLFCRLF ++ b)).take (a.length + 4) = a ++ CRLFCRLF := by
      rw [← List.append_assoc]
      exact List.take_left' (by simp [CRLFCRLF])
    rw [htake]
    refine ⟨b, (List.append_assoc _ _ _).symm, .inl ⟨'\n', ?_, rfl⟩⟩
    rw [latin1Decode_append, List.getLast?_append_of_ne_nil _ (by simp [CRLFCRLF, latin1Decode])]
    rfl
  · exact ⟨[], (List.append_nil _).symm, .inr rfl⟩

theorem headOf_append {n : Nat} (h : indexOf CRLFCRLF buf = some n) (rest : Bytes) : headOf (buf ++ rest) = headOf buf := by
  have hle : n + 4 ≤ buf.length := indexOf_le h
  unfold headOf
  rw [indexOf_append h, h]
  exact List.take_append_of_le_length hle

/-- A Host line of the head is the first one of the buffer. -/
theorem hostLine_of_head {body : Bytes} (h : HostLine isLineEnd true (latin1Decode (headOf buf)) pre line post)
    (hbuf : buf = headOf buf ++ body)
    (hend : (∃ c, (latin1Decode (headOf buf)).getLast? = some c ∧ isLineEnd c = true) ∨ body = []) :
    HostLine isLineEnd true (latin1Decode buf) pre line (post ++ latin1Decode body) := by
  have htext : latin1Decode buf = latin1Decode (headOf buf) ++ latin1Decode body := by
    rw [← latin1Decode_append, ← hbuf]
  rw [htext]
  refine h.append ?_
  rcases hend with ⟨c, hc, hcend⟩ | rfl
  · refine .inl ?_
    rintro rfl
    have hne : line ≠ [] := by
      rintro rfl
      exact absurd h.host (by decide)
    rw [h.split, List.append_nil, List.getLast?_append_of_ne_nil _ hne] at hc
    rw [h.whole c (List.mem_of_getLast? hc)] at hcend
    cases hcend
  · exact .inr rfl

/-- The search in a buffer, against the same search in its head. -/
theorem hostLine_head (h : HostLine isLineEnd true (latin1Decode buf) pre line post) {body : Bytes}
    (hbuf : buf = headOf buf ++ body)
    (hend : (∃ c, (latin1Decode (headOf buf)).getLast? = some c ∧ isLineEnd c = true) ∨ body = []) :
    (pre.length < (headOf buf).length ∧ ∃ post', post = post' ++ latin1Decode body ∧
        HostLine isLineEnd true (latin1Decode (headOf buf)) pre line post') ∨
      ((headOf buf).length ≤ pre.length ∧
        ∀ p l q, ¬ HostLine isLineEnd true (latin1Decode (headOf buf)) p l q) := by
  have hend' : (∃ c, (latin1Decode (headOf buf)).getLast? = some c ∧ isLineEnd c = true) ∨ latin1Decode body = [] :=
    hend.imp_right fun hb => by rw [hb]; rfl
  have htext : latin1Decode buf = latin1Decode (headOf buf) ++ latin1Decode body := by
    rw [← latin1Decode_append, ← hbuf]
  by_cases hlt : pre.length < (headOf buf).length
  · exact .inl ⟨hlt, HostLine.of_append (htext ▸ h) (by rw [length_latin1Decode]; exact hlt) hend'⟩
  · refine .inr ⟨by omega, fun p l q hl => ?_⟩
    obtain ⟨rfl, -, -⟩ := h.unique (hostLine_of_head hl hbuf hend)
    have hlen := congrArg List.length hl.split
    have h5 := hl.five_le
    rw [length_latin1Decode] at hlen
    simp only [List.length_append] at hlen
    omega

/-- An expansion that is stored as the replacement itself. -/
theorem stored_iff (hlow : ∀ c ∈ pre ++ (line ++ post), c.toNat < 256) :
    latin1Decode (latin1Encode (expandReplacement pre line post ("Host: " ++ target).toList)) =
        ("Host: " ++ target).toList ↔
      expandReplacement pre line post ("Host: " ++ target).toList = ("Host: " ++ target).toList ∧
        ∀ c ∈ target.toList, c.toNat < 256 := by
  constructor
  · intro h
    have hlowH : ∀ c ∈ ("Host: " ++ target).toList, c.toNat < 256 := fun c hc => lt_of_mem_latin1Decode (h.symm ▸ hc)
    have hlowE : ∀ c ∈ expandReplacement pre line post ("Host: " ++ target).toList, c.toNat < 256 := fun c hc =>
      (mem_expandReplacement hc).elim (hlowH c) (hlow c)
    rw [latin1Decode_latin1Encode hlowE] at h
    exact ⟨h, fun c hc => hlowH c (by rw [String.toList_append]; exact List.mem_append_right _ hc)⟩
  · rintro ⟨h, htarget⟩
    rw [h]
    exact latin1Decode_latin1Encode (low_hostText htarget)

theorem harmless_iff (h : HostLine isLineEnd true (latin1Decode buf) pre line post) :
    Harmless target buf ↔
      if pre.length < (headOf buf).length then
        expandReplacement pre line post ("Host: " ++ target).toList = ("Host: " ++ target).toList ∧
          ∀ c ∈ target.toList, c.toNat < 256
      else latin1Encode (expandReplacement pre line post ("Host: " ++ target).toList) = latin1Encode line := by
  constructor
  · intro hh
    exact hh pre line post h
  · intro hc p l q hl
    obtain ⟨rfl, rfl, rfl⟩ := h.unique hl
    exact hc

/-- `rest` comes after the buffer that was searched: the buffer has the whole head in it, or is all there is. -/
theorem confined_rewrite_iff (hrest : (∃ n, indexOf CRLFCRLF buf = some n) ∨ rest = []) :
    Confined target (buf ++ rest) (rewriteHostHeader buf target ++ rest) ↔ Harmless target buf := by
  have hhead : headOf (buf ++ rest) = headOf buf := by
    rcases hrest with ⟨n, hn⟩ | rfl
    · exact headOf_append hn rest
    · rw [List.append_nil]
  obtain ⟨body, hbuf, hend⟩ := headOf_split buf
  have hdrop : (buf ++ rest).drop (headOf buf).length = body ++ rest := by
    have hall : buf ++ rest = headOf buf ++ (body ++ rest) := by rw [← List.append_assoc, ← hbuf]
    rw [hall, List.drop_left]
  by_cases hex : ∃ pre line post, HostLine isLineEnd true (latin1Decode buf) pre line post
  · obtain ⟨pre, line, post, h⟩ := hex
    have hlow : ∀ c ∈ pre ++ (line ++ post), c.toNat < 256 := fun c hc => lt_of_mem_latin1Decode (h.split ▸ hc)
    have hpre : ∀ c ∈ pre, c.toNat < 256 := fun c hc => hlow c (List.mem_append_left _ hc)
    rw [harmless_iff h, rewriteHostHeader_of_hostLine h]
    rcases hostLine_head h hbuf hend with ⟨hlt, post', rfl, hh⟩ | ⟨hle, hno⟩
    · rw [if_pos hlt, ← stored_iff hlow]
      have hpost : ∀ c ∈ post' ++ latin1Decode body, c.toNat < 256 := fun c hc =>
        hlow c (List.mem_append_right _ (List.mem_append_right _ hc))
      have hout : ∀ E : List Char, latin1Decode (latin1Encode (pre ++ E ++ (post' ++ latin1Decode body)) ++ rest) =
          pre ++ (latin1Decode (latin1Encode E) ++ (post' ++ latin1Decode (body ++ rest))) := by
        intro E
        rw [latin1Encode_append, latin1Encode_append, latin1Decode_append, latin1Decode_append, latin1Decode_append,
          latin1Decode_latin1Encode hpre, latin1Decode_latin1Encode hpost, latin1Decode_append]
        simp only [List.append_assoc]
      constructor
      · intro hc
        have hr := hc.rewritten pre line post' (hhead ▸ hh)
        rw [hout, hhead, hdrop] at hr
        exact List.append_cancel_right (List.append_cancel_left hr)
      · intro hE
        refine ⟨fun p l q hl => ?_, fun hn => absurd (hhead ▸ hh) (hn pre line post')⟩
        rw [hhead] at hl ⊢
        obtain ⟨rfl, rfl, rfl⟩ := hh.unique hl
        rw [hout, hdrop, hE]
    · rw [if_neg (by omega)]
      have hwhole : buf = latin1Encode pre ++ (latin1Encode line ++ latin1Encode post) := by
        rw [← latin1Encode_latin1Decode buf, h.split, latin1Encode_append, latin1Encode_append]
      constructor
      · intro hc
        have hr := List.append_cancel_right (hc.untouched (by rw [hhead]; exact hno))
        rw [hwhole, latin1Encode_append, latin1Encode_append, List.append_assoc] at hr
        exact List.append_cancel_right (List.append_cancel_left hr)
      · intro hE
        refine ⟨fun p l q hl => absurd (hhead ▸ hl) (hno p l q), fun _ => ?_⟩
        rw [latin1Encode_append, latin1Encode_append, hE, List.append_assoc (latin1Encode pre), ← hwhole]
  · have hno : ∀ pre line post, ¬ HostLine isLineEnd true (latin1Decode buf) pre line post :=
      fun pre line post h => hex ⟨pre, line, post, h⟩
    rw [rewriteHostHeader_of_none hno]
    refine ⟨fun _ pre line post h => absurd h (hno pre line post), fun _ => ⟨fun p l q hl => ?_, fun _ => rfl⟩⟩
    rw [hhead] at hl
    exact absurd (hostLine_of_head hl hbuf hend) (hno _ _ _)

end

/-! ## The head buffer -/

theorem hasTerminator_iff {b : Bytes} : ClientStream.hasTerminator b = true ↔ ∃ n, indexOf CRLFCRLF b = some n := by
  rw [← Option.isSome_iff_exists]
  induction b with
  | nil => simp [ClientStream.hasTerminator, indexOf, CRLFCRLF]
  | cons x xs ih =>
    have hp : ((x :: xs).take 4 == [13, 10, 13, 10]) = true ↔ CRLFCRLF <+: x :: xs := by
      rw [List.prefix_iff_eq_take, beq_iff_eq]
      exact eq_comm
    rw [ClientStream.hasTerminator, Bool.or_eq_true, ih, hp]
    have hi : indexOf CRLFCRLF (x :: xs) =
        if CRLFCRLF <+: x :: xs then some 0 else (indexOf CRLFCRLF xs).map (· + 1) := rfl
    rw [hi]
    by_cases h : CRLFCRLF <+: x :: xs
    · simp [h]
    · simp [h]

/-- The head is held back no longer. -/
def complete (buf : Bytes) : Bool := ClientStream.hasTerminator buf || decide (MAX_HEAD_BUFFER ≤ buf.length)

/-- The bytes up to the payload that completes the head or makes it too long, and the payloads after it. -/
def buffered (acc : Bytes) : List Bytes → Bytes × List Bytes
  | [] => (acc, [])
  | payload :: rest =>
    if ClientStream.hasTerminator (acc ++ payload) || decide (MAX_HEAD_BUFFER ≤ (acc ++ payload).length) then
      (acc ++ payload, rest)
    else buffered (acc ++ payload) rest

theorem buffered_cons (acc payload : Bytes) (rest : List Bytes) :
    buffered acc (payload :: rest) =
      if complete (acc ++ payload) then (acc ++ payload, rest) else buffered (acc ++ payload) rest := rfl

theorem buffered_append (payloads : List Bytes) :
    ∀ acc, (buffered acc payloads).1 ++ (buffered acc payloads).2.flatten = acc ++ payloads.flatten := by
  induction payloads with
  | nil => intro acc; rfl
  | cons payload rest ih =>
    intro acc
    unfold buffered
    split
    · simp
    · rw [ih]
      simp

theorem buffered_stop (payloads : List Bytes) : ∀ acc,
    ClientStream.hasTerminator (buffered acc payloads).1 = true ∨ MAX_HEAD_BUFFER ≤ (buffered acc payloads).1.length ∨
      (buffered acc payloads).2 = [] := by
  induction payloads with
  | nil => intro acc; exact .inr (.inr rfl)
  | cons payload rest ih =>
    intro acc
    unfold buffered
    split
    · rename_i h
      rcases Bool.or_eq_true_iff.mp h with h | h
      · exact .inl h
      · exact .inr (.inl (of_decide_eq_true h))
    · exact ih _

namespace Head

/-- All that is to be written for these payloads, and for the EOF if it has come. -/
def total (h : Head) (eof : Bool) (payloads : List Bytes) : Bytes :=
  (h.takes payloads).2.flatten ++ if eof then (h.takes payloads).1.heldBack.flatten else []

theorem flatten_chunk (out : Bytes) : (chunk out).flatten = out := by
  unfold chunk
  split
  · rename_i h
    rw [List.length_eq_zero_iff.mp h]
    rfl
  · simp

theorem total_cons (h : Head) (eof : Bool) (payload : Bytes) (rest : List Bytes) :
    h.total eof (payload :: rest) = (h.take payload).2.flatten ++ (h.take payload).1.total eof rest := by
  simp [total, takes, List.append_assoc]

theorem take_done {h : Head} (hd : h.headDone = true) (payload : Bytes) : h.take payload = (h, chunk payload) := by
  unfold take
  rw [if_pos hd]

theorem total_done {h : Head} (hd : h.headDone = true) (hb : h.headBuf = []) (eof : Bool) (payloads : List Bytes) :
    h.total eof payloads = payloads.flatten := by
  induction payloads with
  | nil => cases eof <;> simp [total, takes, heldBack, hb]
  | cons payload rest ih => rw [total_cons, take_done hd, ih, flatten_chunk, List.flatten_cons]

theorem flatten_heldBack (h : Head) : h.heldBack.flatten = rewriteHostHeader h.headBuf.flatten (targetLabel h.spec) := by
  unfold heldBack
  split
  · simp
  · rename_i hlen
    rw [List.length_eq_zero_iff.mp (by omega : h.headBuf.length = 0)]
    rfl

/-- While the head is waited for. -/
structure Waiting (h : Head) : Prop where
  headDone : h.headDone = false
  headLen : h.headLen = h.headBuf.flatten.length
  pending : ClientStream.hasTerminator h.headBuf.flatten = false
  short : h.headBuf.flatten.length < MAX_HEAD_BUFFER

theorem total_buffered (payloads : List Bytes) : ∀ {h : Head} {eof : Bool}, h.Waiting →
    h.total eof payloads =
      if eof || complete (buffered h.headBuf.flatten payloads).1 then
        rewriteHostHeader (buffered h.headBuf.flatten payloads).1 (targetLabel h.spec) ++
          (buffered h.headBuf.flatten payloads).2.flatten
      else [] := by
  induction payloads with
  | nil =>
    intro h eof hw
    have hshort : complete h.headBuf.flatten = false := by
      simp only [complete, hw.pending, Bool.false_or, decide_eq_false_iff_not, Nat.not_le]
      exact hw.short
    show [] ++ (if eof then h.heldBack.flatten else []) = if eof || complete h.headBuf.flatten then
      rewriteHostHeader h.headBuf.flatten (targetLabel h.spec) ++ [] else []
    rw [flatten_heldBack, List.nil_append, List.append_nil, hshort, Bool.or_false]
  | cons payload rest ih =>
    intro h eof hw
    have hbuf : (h.headBuf ++ [payload]).flatten = h.headBuf.flatten ++ payload := by simp
    have hlen : h.headLen + payload.length = (h.headBuf.flatten ++ payload).length := by
      rw [hw.headLen, List.length_append]
    rw [total_cons, buffered_cons]
    unfold take
    rw [if_neg (by simp [hw.headDone])]
    simp only [hbuf, hlen]
    by_cases hcut : complete (h.headBuf.flatten ++ payload) = true
    · have hcut' : ClientStream.hasTerminator (h.headBuf.flatten ++ payload) = true ∨
          MAX_HEAD_BUFFER ≤ (h.headBuf.flatten ++ payload).length := by simpa [complete] using hcut
      rw [if_pos hcut, if_neg, flatten_chunk, total_done rfl rfl]
      · simp only [hcut, Bool.or_true, if_true]
      simp only [Bool.and_eq_true, Bool.not_eq_true', decide_eq_true_eq, not_and, Nat.not_lt]
      exact fun hno => hcut'.resolve_left (by simp [hno])
    · rw [if_neg hcut]
      have hcut' : ClientStream.hasTerminator (h.headBuf.flatten ++ payload) = false ∧
          (h.headBuf.flatten ++ payload).length < MAX_HEAD_BUFFER := by simpa [complete] using hcut
      rw [if_pos (by simpa using hcut')]
      have hih := @ih { h with headBuf := h.headBuf ++ [payload], headLen := (h.headBuf.flatten ++ payload).length } eof
        ⟨hw.headDone, by rw [hbuf], by rw [hbuf]; exact hcut'.1, by rw [hbuf]; exact hcut'.2⟩
      simpa [hbuf] using hih

theorem total_eq {payloads : List Bytes} {h : Head} {eof : Bool} (hw : h.Waiting)
    (hend : ClientStream.hasTerminator (h.headBuf.flatten ++ payloads.flatten) = true ∨ eof = true) :
    h.total eof payloads =
      rewriteHostHeader (buffered h.headBuf.flatten payloads).1 (targetLabel h.spec) ++
        (buffered h.headBuf.flatten payloads).2.flatten := by
  rw [total_buffered payloads hw, if_pos]
  rcases hend with hend | rfl
  · rw [Bool.or_eq_true]
    refine .inr ?_
    rcases buffered_stop payloads h.headBuf.flatten with hstop | hstop | hstop
    · simp [complete, hstop]
    · simp [complete, hstop]
    · have happ := buffered_append payloads h.headBuf.flatten
      rw [hstop, List.flatten_nil, List.append_nil] at happ
      simp [complete, happ, hend]
  · rfl

end Head

/-! ## Runs -/

namespace ClientView

variable {v : ClientView} {e : StreamEvent}

theorem finished_next (h : v.face.finished = true) : (v.next e).face.finished = true := by
  cases e with
  | «end» =>
    show (if v.connected then v.sourceEnd else v).face.finished = true
    unfold sourceEnd Face.sourceEnd
    split
    · simp [h]
    · exact h
  | frame type payload flushed =>
    unfold next
    dsimp only
    split
    · simp [data, h]
    · split
      · rfl
      · exact h
  | error | close | dialFailed =>
    unfold next
    dsimp only
    split
    · first | rfl | exact h
    · first | rfl | exact h
  | data | drain | preread | attach | setGlobalPause | destroy | owner => first | rfl | exact h

/-- What an event other than `attach` and the other end's EOF does to the bytes. -/
theorem flow_next (v : ClientView) (e : StreamEvent) :
    ((v.next e).queued, (v.next e).face.written, (v.next e).head) =
      match e.payload? with
      | none => (v.queued, v.face.written, v.head)
      | some payload => ((v.data payload).queued, (v.data payload).face.written, (v.data payload).head) := by
  cases e with
  | «end» =>
    show ((if v.connected then v.sourceEnd else v).queued, (if v.connected then v.sourceEnd else v).face.written,
      (if v.connected then v.sourceEnd else v).head) = (v.queued, v.face.written, v.head)
    split
    · rw [show v.sourceEnd.face.written = v.face.written from Face.written_sourceEnd]
      rfl
    · rfl
  | frame type payload flushed =>
    unfold next StreamEvent.payload?
    dsimp only
    split
    · rename_i h
      simp
    · split <;> rfl
  | error | close | dialFailed =>
    unfold next
    dsimp only
    split <;> rfl
  | data | drain | preread | attach | setGlobalPause | destroy | owner => rfl

end ClientView

namespace ClientTraced

variable {env : WireEnv} {t t' : ClientTraced}

theorem view_flushAck_ok (h : flushAck env t = .ok t') : t'.view = t.view := by
  have hv : (outcome (flushAck env t)).view = t.view := view_flushAck
  rwa [h] at hv

/-- The other end's EOF, at a connected stream. -/
theorem view_onEof_ok {flushed : Bool} (hf : t.view.face.finished = false) (hr : t.view.face.receivedEof = false)
    (hc : t.view.connected = true) (h : onEof env t flushed = .ok t') :
    t'.view.face.receivedEof = true ∧ t'.view.connected = true ∧
      t'.view.face.written = t.view.face.written ++ t.view.head.heldBack := by
  have hf' : t.self.finished = false := hf
  have hr' : t.self.receivedEof = false := hr
  have hc' : t.self.connected = true := hc
  unfold onEof at h
  simp only [hf', hr', hc', Bool.or_self, Bool.false_eq_true, if_false, Bool.not_true] at h
  obtain ⟨t1, h1, rfl⟩ := map_ok.mp h
  have hclose : ∀ t : ClientTraced, (if (t.onSocket fun k => { k with ended := true }).self.sentEof then
      finish (t.onSocket fun k => { k with ended := true }) else t.onSocket fun k => { k with ended := true }).view =
      { t.view with face := { t.view.face with
          ended := true, finished := t.view.face.finished || t.view.face.sentEof } } := by
    intro t
    split
    · rename_i hs
      have hs' : t.view.face.sentEof = true := hs
      rw [view_finish, hs', Bool.or_true]
      rfl
    · rename_i hs
      have hs' : t.view.face.sentEof = false := Bool.eq_false_iff.mpr hs
      rw [hs', Bool.or_false]
      rfl
  rw [hclose, view_flushAck_ok h1]
  by_cases hb : t.self.headBuf.length > 0
  · have hb' : t.view.head.heldBack = [rewriteHostHeader t.self.headBuf.flatten (targetLabel t.self.spec)] := if_pos hb
    rw [hb']
    simp only [hb, if_true]
    exact ⟨rfl, rfl, rfl⟩
  · have hb' : t.view.head.heldBack = [] := if_neg hb
    rw [hb', List.append_nil]
    simp only [hb, if_false]
    exact ⟨rfl, rfl, rfl⟩

/-- The dial has come through: first the queue is written, and then the EOF handled if it has come. -/
theorem view_attach_ok {flushed : Nat → Bool} (hf : t.view.face.finished = false) (hr : t.view.face.receivedEof = false)
    (h : attach env t flushed = .ok t') :
    t'.view.connected = true ∧ t'.view.face.receivedEof = t.view.queuedEof ∧
      t'.view.face.written = (t.view.head.takes t.view.queued).2 ++
        (if t.view.queuedEof then (t.view.head.takes t.view.queued).1.heldBack else []) ∧
      (t.view.queuedEof = false → t'.view.queuedEof = false ∧ t'.view.head = (t.view.head.takes t.view.queued).1) := by
  have hf' : t.self.finished = false := hf
  unfold attach at h
  rw [if_neg (by simp [hf'])] at h
  obtain ⟨t1, h1, h2⟩ := bind_ok.mp h
  have hv : t1.view = { t.view with
      face := { t.view.face with written := (t.view.head.takes t.view.queued).2, ended := false }
      connected := true
      head := (t.view.head.takes t.view.queued).1 } :=
    (view_writeQueued _ _ h1).trans (by simp [view, ClientStream.view, Endpoint.face, Socket.fresh])
  obtain ⟨t2, h3, rfl⟩ := map_ok.mp h2
  have hpause : ∀ t : ClientTraced, (if t.self.pausedGlobally then
      ({ t with self := { t.self with toEndpoint := t.self.pause } } : ClientTraced) else t).view = t.view := by
    intro t
    split <;> rfl
  have hq1 : t1.self.queuedEof = t.view.queuedEof := congrArg ClientView.queuedEof hv
  let t0 : ClientTraced := { t1 with self := { t1.self with queued := [] } }
  have hv0 : t0.view = { t1.view with queued := [] } := rfl
  rw [hpause]
  dsimp only at h3
  cases hq : t.view.queuedEof with
  | false =>
    rw [if_neg (by simp [hq1, hq])] at h3
    cases h3
    rw [show ({ t1 with self := { t1.self with queued := [] } } : ClientTraced).view = _ from hv0, hv]
    exact ⟨rfl, hr, by simp, fun _ => ⟨hq, rfl⟩⟩
  | true =>
    rw [if_pos (by simp [hq1, hq])] at h3
    obtain ⟨h4, h5, h6⟩ := view_onEof_ok (t := t0) (by rw [hv0, hv]; exact hf) (by rw [hv0, hv]; exact hr)
      (by rw [hv0, hv]) h3
    rw [hv0, hv] at h6
    exact ⟨h5, h4, h6, fun hn => by cases hn⟩

/-- What a stream has done with the payloads that have come in, and with the EOF if it has come. -/
structure Fed (spec : TunnelSpec) (payloads : List Bytes) (eof : Bool) (v : ClientView) : Prop where
  past : eof = false → v.face.receivedEof = false ∧ v.queuedEof = false
  dialling : v.face.finished = false → v.connected = false →
    v.face.receivedEof = false ∧ v.queuedEof = eof ∧ v.queued = payloads ∧ v.head = .start spec
  flowing : v.connected = true → v.face.finished = false → v.face.receivedEof = false →
    eof = false ∧ v.face.written = ((Head.start spec).takes payloads).2 ∧ v.head = ((Head.start spec).takes payloads).1
  closed : v.face.receivedEof = true → v.connected = true ∧
    v.face.written = ((Head.start spec).takes payloads).2 ++ ((Head.start spec).takes payloads).1.heldBack

section
variable {spec : TunnelSpec} {payloads : List Bytes} {eof : Bool} {e : StreamEvent}

theorem Fed.attach {flushed : Nat → Bool} (h : Fed spec payloads eof t.view)
    (hx : step env t (.attach flushed) = .ok t') : Fed spec payloads eof t'.view := by
  have hx' : (if t.self.connected then .ok t else ClientTraced.attach env t flushed) = .ok t' := hx
  by_cases hc : t.self.connected = true
  · rw [if_pos hc] at hx'
    cases hx'
    exact h
  rw [if_neg hc] at hx'
  have hc' : t.view.connected = false := Bool.eq_false_iff.mpr hc
  cases hf : t.view.face.finished with
  | true =>
    have hf' : t.self.finished = true := hf
    unfold ClientTraced.attach at hx'
    rw [if_pos hf'] at hx'
    cases hx'
    exact h
  | false =>
    obtain ⟨h1, h2, h3, h4⟩ := h.dialling hf hc'
    obtain ⟨h5, h6, h7, h8⟩ := view_attach_ok hf h1 hx'
    rw [h2] at h6 h7 h8
    rw [h3, h4] at h7 h8
    refine ⟨fun he => ⟨h6.trans he, (h8 he).1⟩, fun _ hc => ?_, fun _ _ hr => ?_, fun hr => ⟨h5, ?_⟩⟩
    · rw [h5] at hc
      cases hc
    · have he : eof = false := h6.symm.trans hr
      subst he
      exact ⟨rfl, by simpa using h7, (h8 rfl).2⟩
    · have he : eof = true := h6.symm.trans hr
      subst he
      exact h7

theorem Fed.onEof {payload : Bytes} {flushed : Bool} (h : Fed spec payloads eof t.view)
    (hx : step env t (.frame FrameType.streamEof payload flushed) = .ok t') : Fed spec payloads true t'.view := by
  have hx' : ClientTraced.onEof env t flushed = .ok t' := hx
  by_cases hg : t.view.face.finished = true ∨ t.view.face.receivedEof = true
  · have hg' : (t.self.finished || t.self.receivedEof) = true := Bool.or_eq_true_iff.mpr hg
    unfold ClientTraced.onEof at hx'
    rw [if_pos hg'] at hx'
    cases hx'
    refine ⟨fun he => (by cases he), fun hf hc => ?_, fun _ hf hr => ?_, h.closed⟩
    · have hr := (h.dialling hf hc).1
      simp [hf, hr] at hg
    · simp [hf, hr] at hg
  obtain ⟨hf, hr⟩ := not_or.mp hg
  rw [Bool.not_eq_true] at hf hr
  cases hc : t.view.connected with
  | false =>
    have hf' : t.self.finished = false := hf
    have hr' : t.self.receivedEof = false := hr
    have hc' : t.self.connected = false := hc
    unfold ClientTraced.onEof at hx'
    rw [if_neg (by simp [hf', hr']), if_pos (by simp [hc'])] at hx'
    cases hx'
    obtain ⟨-, -, h3, h4⟩ := h.dialling hf hc
    refine ⟨fun he => (by cases he), fun _ _ => ⟨hr, rfl, h3, h4⟩, fun hc2 => ?_, fun hr2 => ?_⟩
    · exact absurd (hc.symm.trans hc2) (by decide)
    · exact absurd (hr.symm.trans hr2) (by decide)
  | true =>
    obtain ⟨-, h2, h3⟩ := h.flowing hc hf hr
    obtain ⟨h4, h5, h6⟩ := view_onEof_ok hf hr hc hx'
    rw [h2, h3] at h6
    refine ⟨fun he => (by cases he), fun _ hc2 => ?_, fun _ _ hr2 => ?_, fun _ => ⟨h5, h6⟩⟩
    · exact absurd (h5.symm.trans hc2) (by decide)
    · exact absurd (h4.symm.trans hr2) (by decide)

theorem Fed.next {v : ClientView} (h : Fed spec payloads eof v) (hp : e.payload? ≠ none → eof = false) :
    Fed spec (payloads ++ e.payload?.toList) eof (v.next e) := by
  obtain ⟨hc, hq, hr, -⟩ := v.next_same e
  have hflow := v.flow_next e
  have hfin : (v.next e).face.finished = false → v.face.finished = false := by
    intro hf
    cases hv : v.face.finished with
    | false => rfl
    | true => rw [ClientView.finished_next hv] at hf; cases hf
  refine ⟨fun he => ?_, fun hf hc2 => ?_, fun hc2 hf hr2 => ?_, fun hr2 => ?_⟩
  · rw [hr, hq]
    exact h.past he
  · rw [hc] at hc2
    obtain ⟨h1, h2, h3, h4⟩ := h.dialling (hfin hf) hc2
    rw [hr, hq]
    cases hpay : e.payload? with
    | none =>
      simp only [hpay, Prod.mk.injEq] at hflow
      simp [hflow, h1, h2, h3, h4]
    | some payload =>
      simp only [hpay, ClientView.data, hfin hf, h1, hc2, Prod.mk.injEq] at hflow
      simp [hflow, h1, h2, h3, h4]
  · rw [hc] at hc2
    rw [hr] at hr2
    obtain ⟨h1, h2, h3⟩ := h.flowing hc2 (hfin hf) hr2
    cases hpay : e.payload? with
    | none =>
      simp only [hpay, Prod.mk.injEq] at hflow
      simp [hflow, h1, h2, h3]
    | some payload =>
      simp only [hpay, ClientView.data, hfin hf, hr2, hc2, Prod.mk.injEq] at hflow
      simp [hflow, ClientView.write, h1, h2, h3, Head.takes_concat]
  · rw [hr] at hr2
    obtain ⟨h1, h2⟩ := h.closed hr2
    have hpay : e.payload? = none := by
      by_contra hne
      have hpast := (h.past (hp hne)).1
      rw [hr2] at hpast
      cases hpast
    simp only [hpay, Prod.mk.injEq] at hflow
    simp [hpay, hflow, hc, h1, h2]

theorem Fed.step (h : Fed spec payloads eof t.view) (hp : e.payload? ≠ none → eof = false)
    (hx : ClientTraced.step env t e = .ok t') :
    Fed spec (payloads ++ e.payload?.toList) (eof || e.isFrame FrameType.streamEof) t'.view := by
  by_cases ha : ∃ flushed, e = .attach flushed
  · obtain ⟨flushed, rfl⟩ := ha
    simpa [StreamEvent.payload?, StreamEvent.isFrame] using h.attach hx
  · have ha' : ∀ flushed, e ≠ .attach flushed := fun flushed he => ha ⟨flushed, he⟩
    cases he : e.isFrame FrameType.streamEof with
    | false =>
      have hv : t'.view = (outcome (ClientTraced.step env t e)).view := by rw [hx, outcome_ok]
      rw [hv, view_step he ha', Bool.or_false]
      exact h.next hp
    | true =>
      cases e with
      | frame type payload flushed =>
        have ht : type = FrameType.streamEof := by simpa [StreamEvent.isFrame] using he
        subst ht
        have hpay : (StreamEvent.frame FrameType.streamEof payload flushed).payload? = none := rfl
        rw [hpay, Bool.or_true]
        simpa using h.onEof hx
      | _ => simp [StreamEvent.isFrame] at he

end

end ClientTraced

/-- The payloads of STREAM_DATA, in the order in which they come in. -/
def payloads (es : List StreamEvent) : List Bytes := es.filterMap StreamEvent.payload?

def eofIn (es : List StreamEvent) : Bool := es.any (·.isFrame FrameType.streamEof)

/-- Behind STREAM_EOF comes no STREAM_DATA. -/
def Orderly (es : List StreamEvent) : Prop :=
  ∀ pre e post, es = pre ++ e :: post → e.isFrame FrameType.streamEof = true → payloads post = []

section
variable {env : WireEnv} {id : Nat} {spec : TunnelSpec} {window : Int} {wire : Wire} {listed : Bool}
  {es : List StreamEvent} {t : ClientTraced}

theorem Orderly.before {e : StreamEvent} (h : Orderly (es ++ [e])) :
    Orderly es ∧ (e.payload? ≠ none → eofIn es = false) := by
  refine ⟨fun pre e' post he heof => ?_, fun hp => ?_⟩
  · have hpost := h pre e' (post ++ [e]) (by rw [he]; simp) heof
    simp only [payloads, List.filterMap_append, List.append_eq_nil_iff] at hpost
    exact hpost.1
  · by_contra heof
    rw [Bool.not_eq_false, eofIn, List.any_eq_true] at heof
    obtain ⟨e', hm, he'⟩ := heof
    obtain ⟨pre, post, rfl⟩ := List.append_of_mem hm
    have hpost := h pre e' (post ++ [e]) (by simp) he'
    simp only [payloads, List.filterMap_append, List.append_eq_nil_iff, List.filterMap_cons, List.filterMap_nil] at hpost
    cases hpay : e.payload? with
    | none => exact hp hpay
    | some payload => simp [hpay] at hpost

theorem fed_run (horder : Orderly es)
    (hrun : es.foldlM (ClientTraced.step env) (ClientTraced.new id spec window wire listed) = .ok t) :
    ClientTraced.Fed spec (payloads es) (eofIn es) t.view := by
  induction es using List.reverseRecOn generalizing t with
  | nil =>
    cases hrun
    exact ⟨fun _ => ⟨rfl, rfl⟩, fun _ _ => ⟨rfl, rfl, rfl, rfl⟩, fun hc => (by cases hc), fun hr => (by cases hr)⟩
  | append_singleton es e ih =>
    obtain ⟨hbefore, hp⟩ := horder.before
    rw [List.foldlM_append] at hrun
    obtain ⟨t1, h1, h2⟩ := bind_ok.mp hrun
    have h3 : ClientTraced.step env t1 e = .ok t := by simpa using h2
    have hs := (ih hbefore h1).step hp h3
    have hpay : payloads (es ++ [e]) = payloads es ++ e.payload?.toList := by
      unfold payloads
      rw [List.filterMap_append]
      cases hpay : e.payload? <;> simp [hpay]
    have heof : eofIn (es ++ [e]) = (eofIn es || e.isFrame FrameType.streamEof) := by simp [eofIn]
    rw [hpay, heof]
    exact hs

/-- A connected stream that has not been cut short has written what its payloads demand. -/
theorem written_eq (horder : Orderly es)
    (hrun : es.foldlM (ClientTraced.step env) (ClientTraced.new id spec window wire listed) = .ok t)
    (hconn : t.self.connected = true) (hlive : t.self.finished = false ∨ t.self.receivedEof = true) :
    t.self.socket.bytesWritten = (Head.start spec).total (eofIn es) (payloads es) := by
  have h := fed_run horder hrun
  have hw : t.self.socket.bytesWritten = t.view.face.written.flatten := rfl
  have hr : t.view.face.receivedEof = t.self.receivedEof := rfl
  rw [hw, Head.total]
  cases hre : t.self.receivedEof with
  | true =>
    have heof : eofIn es = true := by
      by_contra hn
      have hpast := (h.past (by simpa using hn)).1
      rw [hr, hre] at hpast
      cases hpast
    rw [(h.closed (hr.trans hre)).2, heof, if_pos rfl, List.flatten_append]
  | false =>
    have hf : t.self.finished = false := hlive.resolve_right (by simp [hre])
    obtain ⟨heof, hwr, -⟩ := h.flowing hconn hf (hr.trans hre)
    rw [hwr, heof]
    simp

/-- The first CRLFCRLF is within the bound, or the stream ends within it and has none. -/
def InBound (eof : Bool) (input : Bytes) : Prop :=
  (∃ n, indexOf CRLFCRLF input = some n ∧ n + 4 ≤ MAX_HEAD_BUFFER) ∨
    (eof = true ∧ indexOf CRLFCRLF input = none ∧ input.length ≤ MAX_HEAD_BUFFER)

/-- The buffer that is searched has the whole head in it, or is all there is. -/
theorem InBound.buffered {eof : Bool} {ps : List Bytes} (h : InBound eof ps.flatten) :
    (∃ n, indexOf CRLFCRLF (buffered [] ps).1 = some n) ∨ (buffered [] ps).2.flatten = [] := by
  have happ : (UpTunnel.buffered [] ps).1 ++ (UpTunnel.buffered [] ps).2.flatten = ps.flatten := buffered_append ps []
  rcases buffered_stop ps [] with hstop | hstop | hstop
  · exact .inl (hasTerminator_iff.mp hstop)
  · rcases h with ⟨n, hn, hle⟩ | ⟨-, hn, hle⟩
    · rw [← happ] at hn
      exact .inl ⟨n, indexOf_of_append hn (by show n + 4 ≤ _; omega)⟩
    · refine .inr (List.length_eq_zero_iff.mp ?_)
      rw [← happ, List.length_append] at hle
      omega
  · exact .inr (by rw [hstop]; rfl)

/-- What is written is the input with its Host line replaced, exactly if the buffer that is searched has no `Host:` line
in the body only and the target is not read as a pattern. -/
theorem confined_iff (hspec : spec.kind = .http ∧ spec.rewriteHost = true) (horder : Orderly es)
    (hrun : es.foldlM (ClientTraced.step env) (ClientTraced.new id spec window wire listed) = .ok t)
    (hconn : t.self.connected = true) (hlive : t.self.finished = false ∨ t.self.receivedEof = true)
    (hbound : InBound (eofIn es) (payloads es).flatten) :
    Confined (targetLabel spec) (payloads es).flatten t.self.socket.bytesWritten ↔
      Harmless (targetLabel spec) (buffered [] (payloads es)).1 := by
  have hw : (Head.start spec).Waiting := ⟨by simp [Head.start, hspec], rfl, rfl, Nat.succ_pos _⟩
  have hend : ClientStream.hasTerminator ((Head.start spec).headBuf.flatten ++ (payloads es).flatten) = true ∨
      eofIn es = true := by
    rcases hbound with ⟨n, hn, -⟩ | ⟨heof, -⟩
    · exact .inl (hasTerminator_iff.mpr ⟨n, hn⟩)
    · exact .inr heof
  have htotal := Head.total_eq hw hend
  have happ : (buffered [] (payloads es)).1 ++ (buffered [] (payloads es)).2.flatten = (payloads es).flatten :=
    buffered_append (payloads es) []
  rw [written_eq horder hrun hconn hlive, htotal, ← happ]
  exact confined_rewrite_iff hbound.buffered

end

/-! ## A body that looks like a head -/

def viteSpec : TunnelSpec where
  name := "vite"
  kind := .http
  targetHost := "127.0.0.1"
  targetPort := 3000
  subdomain := some "dev"
  remotePort := none
  rewriteHost := true

def quietWire : Wire :=
  { closed := false, readyOpen := true, congested := false, congestionTimer := false, sent := [], received := [] }

/-- The dial comes through, and these payloads come in. -/
def served (ps : List Bytes) : List StreamEvent :=
  .attach (fun _ => true) :: ps.map fun p => .frame FrameType.streamData p true

theorem orderly_served (ps : List Bytes) : Orderly (served ps) := by
  intro pre e post he heof
  have hm : e ∈ served ps := he ▸ List.mem_append_right pre List.mem_cons_self
  rcases List.mem_cons.mp hm with rfl | hm
  · cases heof
  · obtain ⟨p, -, rfl⟩ := List.mem_map.mp hm
    cases heof

theorem payloads_served (ps : List Bytes) : payloads (served ps) = ps := by
  induction ps with
  | nil => rfl
  | cons p ps ih =>
    have h : payloads (served (p :: ps)) = p :: payloads (served ps) := rfl
    rw [h, ih]

/-- What is written to the local socket. -/
def writtenFor (ps : List Bytes) : Option Bytes :=
  ((served ps).foldlM (ClientTraced.step ⟨1000, fun _ => 0⟩) (.new 1 viteSpec 16 quietWire true)).toOption.map
    (·.self.socket.bytesWritten)

def oddHead : Bytes := latin1Encode "POST / HTTP/1.1\r\nHost : dev.example.com\r\nContent-Length: 7\r\n\r\n".toList

def oddBody : Bytes := latin1Encode "Host: x".toList

theorem run_served {ps : List Bytes} {out : Bytes}
    (h : ((served ps).foldlM (ClientTraced.step ⟨1000, fun _ => 0⟩) (.new 1 viteSpec 16 quietWire true)).toOption.map
      (fun t => (t.self.connected, t.self.finished, t.self.socket.bytesWritten)) = some (true, false, out)) :
    ∃ t, (served ps).foldlM (ClientTraced.step ⟨1000, fun _ => 0⟩) (.new 1 viteSpec 16 quietWire true) = .ok t ∧
      t.self.connected = true ∧ t.self.finished = false ∧ t.self.socket.bytesWritten = out := by
  obtain ⟨t, ht, he⟩ := Option.map_eq_some_iff.mp h
  simp only [Prod.mk.injEq] at he
  exact ⟨t, toOption_eq_some.mp ht, he⟩

/-- A request as a browser sends it. -/
theorem confined_iff_get :
    Confined (targetLabel viteSpec) (latin1Encode "GET / HTTP/1.1\r\nhost: dev.example.com\r\n\r\nHost: x".toList)
      (latin1Encode "GET / HTTP/1.1\r\nHost: 127.0.0.1:3000\r\n\r\nHost: x".toList) := by
  have hout : ((served [latin1Encode "GET / HTTP/1.1\r\nhost: dev.example.com\r\n\r\nHost: x".toList]).foldlM
      (ClientTraced.step ⟨1000, fun _ => 0⟩) (.new 1 viteSpec 16 quietWire true)).toOption.map
      (fun t => (t.self.connected, t.self.finished, t.self.socket.bytesWritten)) =
      some (true, false, latin1Encode "GET / HTTP/1.1\r\nHost: 127.0.0.1:3000\r\n\r\nHost: x".toList) := by
    decide +kernel
  obtain ⟨t, hrun, hconn, hfin, hwr⟩ := run_served hout
  have hc := (confined_iff ⟨rfl, rfl⟩ (orderly_served _) hrun hconn (.inl hfin)
    (.inl ⟨37, by decide +kernel, by decide +kernel⟩)).mpr ?_
  · rwa [payloads_served, hwr, List.flatten_singleton] at hc
  · rw [payloads_served]
    intro pre line post hl
    have hfirst : hostFrom isLineEnd true (latin1Decode (buffered []
        [latin1Encode "GET / HTTP/1.1\r\nhost: dev.example.com\r\n\r\nHost: x".toList]).1) =
        some ("GET / HTTP/1.1\r\n".toList, "host: dev.example.com".toList, "\r\n\r\nHost: x".toList) := by
      decide +kernel
    rw [hostFrom_eq_some.mpr hl] at hfirst
    cases hfirst
    rw [if_pos (by decide +kernel)]
    refine ⟨by decide +kernel, fun c hc => ?_⟩
    have hall : (targetLabel viteSpec).toList.all (fun c => decide (c.toNat < 256)) = true := by decide +kernel
    exact of_decide_eq_true (List.all_eq_true.mp hall c hc)

/-- A head that the server routes, and a body that looks like a Host header: what is written depends on how the two are
cut, and in one piece the body is rewritten. -/
theorem not_confined :
    writtenFor [oddHead ++ oddBody] = some (oddHead ++ latin1Encode "Host: 127.0.0.1:3000".toList) ∧
    writtenFor [oddHead, oddBody] = some (oddHead ++ oddBody) ∧
    ¬ ∀ (env : WireEnv) (id : Nat) (spec : TunnelSpec) (window : Int) (wire : Wire) (listed : Bool)
        (es : List StreamEvent) (t : ClientTraced), spec.kind = .http ∧ spec.rewriteHost = true → Orderly es →
      es.foldlM (ClientTraced.step env) (ClientTraced.new id spec window wire listed) = .ok t →
      t.self.connected = true → (t.self.finished = false ∨ t.self.receivedEof = true) →
      InBound (eofIn es) (payloads es).flatten →
      Confined (targetLabel spec) (payloads es).flatten t.self.socket.bytesWritten := by
  refine ⟨by decide +kernel, by decide +kernel, fun h => ?_⟩
  have hout : ((served [oddHead ++ oddBody]).foldlM (ClientTraced.step ⟨1000, fun _ => 0⟩)
      (.new 1 viteSpec 16 quietWire true)).toOption.map
      (fun t => (t.self.connected, t.self.finished, t.self.socket.bytesWritten)) =
      some (true, false, oddHead ++ latin1Encode "Host: 127.0.0.1:3000".toList) := by decide +kernel
  obtain ⟨t, hrun, hconn, hfin, hwr⟩ := run_served hout
  have hc := h _ _ viteSpec _ _ _ _ t ⟨rfl, rfl⟩ (orderly_served _) hrun hconn (.inl hfin)
    (.inl ⟨oddHead.length - 4, by decide +kernel, by decide +kernel⟩)
  rw [payloads_served, hwr] at hc
  have hnone : hostFrom isLineEnd true (latin1Decode (headOf [oddHead ++ oddBody].flatten)) = none := by decide +kernel
  have hsame := hc.untouched fun pre line post hl => by
    rw [hostFrom_eq_some.mpr hl] at hnone
    cases hnone
  exact absurd hsame (by decide +kernel)

end UpTunnel
