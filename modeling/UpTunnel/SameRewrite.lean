import UpTunnel.Client.Confined
import UpTunnel.Python.HostRewrite

/-!
# UpTunnel.SameRewrite

The two agents' Host rewrites against each other.

* `Python.ToLocal.written_pump`: what the Python agent writes, over whole inboxes.
* `HostLine.later`: the lines that the two searches find, against each other.
* `rewrite_iff`: the two functions on one buffer.
* `same_rewrite_iff`: the two streams on one sequence of payloads; they write the same exactly if the first `Host:` line
  of what is searched is behind an LF and the target is plain, or the odder cases happen to come to the same.
-/

namespace UpTunnel

open Js Search

/-! ## What the Python agent writes -/

/-- A tunnel of the one configuration in the words of the other. -/
def pythonSpec (spec : TunnelSpec) : Python.TunnelSpec where
  name := spec.name
  kind := match spec.kind with
    | .http => "http"
    | .tcp => "tcp"
  targetHost := spec.targetHost
  targetPort := spec.targetPort
  subdomain := spec.subdomain.getD ""
  remotePort := spec.remotePort.getD 0
  rewriteHost := spec.rewriteHost

/-- What `feed` and `feed_eof` put into the inbox. -/
def inbox (eof : Bool) (payloads : List Bytes) : List (Option Bytes) :=
  payloads.map some ++ if eof then [none] else []

namespace Python

/-- What goes out for a head and for what is behind it. -/
def flushed (rest : Bytes) : Except RewriteError Bytes → Bytes
  | .ok out => out ++ rest
  | .error _ => []

namespace ToLocal

variable {maxStrDigits : Nat} {s : ToLocal} {eof : Bool}

theorem bufferHead_eq (s : ToLocal) (chunk : Bytes) :
    s.bufferHead maxStrDigits chunk =
      if complete (s.headBuf ++ chunk) then
        (rewriteHostHeader maxStrDigits (s.headBuf ++ chunk) s.spec.target).map fun out =>
          ({ s with headBuf := [], headDone := true }, out)
      else .ok ({ s with headBuf := s.headBuf ++ chunk }, []) := by
  have hc : ((indexOf [13, 10, 13, 10] (s.headBuf ++ chunk)).isSome ||
      decide (Python.MAX_HEAD_BUFFER ≤ (s.headBuf ++ chunk).length)) = complete (s.headBuf ++ chunk) := by
    have ht : (indexOf [13, 10, 13, 10] (s.headBuf ++ chunk)).isSome =
        ClientStream.hasTerminator (s.headBuf ++ chunk) := by
      rw [Bool.eq_iff_iff, hasTerminator_iff, Option.isSome_iff_exists]
      rfl
    rw [ht]
    rfl
  unfold bufferHead
  simp only [hc]

theorem pump_cons (item : Option Bytes) (items : List (Option Bytes)) :
    s.pump maxStrDigits (item :: items) = (s.turn maxStrDigits item true).pump maxStrDigits items := rfl

/-- A task that has ended leaves its inbox alone. -/
theorem pump_ended (h : s.running = false) (items : List (Option Bytes)) : s.pump maxStrDigits items = s := by
  induction items with
  | nil => rfl
  | cons item items ih =>
    have ht : s.turn maxStrDigits item true = s := by
      unfold turn
      rw [if_pos (by simp [h])]
    rw [pump_cons, ht, ih]

theorem inbox_cons (payload : Bytes) (rest : List Bytes) :
    inbox eof (payload :: rest) = some payload :: inbox eof rest := rfl

/-- Behind the head everything is passed on. -/
theorem written_done (payloads : List Bytes) : ∀ {s : ToLocal}, s.running = true → s.headDone = true →
    s.headBuf = [] →
    (s.pump maxStrDigits (inbox eof payloads)).written.flatten = s.written.flatten ++ payloads.flatten := by
  induction payloads with
  | nil =>
    intro s hr hd hb
    cases eof with
    | false => simp [inbox, pump]
    | true => simp [inbox, pump, turn, hr, hb]
  | cons payload rest ih =>
    intro s hr hd hb
    rw [inbox_cons, pump_cons]
    by_cases hp : payload = []
    · have ht : s.turn maxStrDigits (some payload) true = { s with acked := s.acked ++ [payload.length] } := by
        simp [turn, hr, hd, hp]
      rw [ht, hp]
      refine Eq.trans (ih hr hd hb) rfl
    · have ht : s.turn maxStrDigits (some payload) true =
          { s with written := s.written ++ [payload], acked := s.acked ++ [payload.length] } := by
        simp [turn, hr, hd, hp]
      rw [ht]
      refine Eq.trans (ih hr hd hb) ?_
      simp

/-- Up to the payload that completes the head nothing is written, and then all of it is. -/
theorem written_pump (payloads : List Bytes) : ∀ {s : ToLocal}, s.running = true → s.headDone = false →
    complete s.headBuf = false →
    (s.pump maxStrDigits (inbox eof payloads)).written.flatten = s.written.flatten ++
      if complete (buffered s.headBuf payloads).1 || (eof && (buffered s.headBuf payloads).1 ≠ []) then
        flushed (buffered s.headBuf payloads).2.flatten
          (rewriteHostHeader maxStrDigits (buffered s.headBuf payloads).1 s.spec.target)
      else [] := by
  induction payloads with
  | nil =>
    intro s hr hd hc
    show (s.pump maxStrDigits (if eof then [none] else [])).written.flatten = s.written.flatten ++
      if complete s.headBuf || (eof && s.headBuf ≠ []) then
        flushed [] (rewriteHostHeader maxStrDigits s.headBuf s.spec.target) else []
    rw [hc, Bool.false_or]
    cases eof with
    | false => simp [pump]
    | true =>
      by_cases hb : s.headBuf = []
      · simp [pump, turn, hr, hb]
      · cases hw : rewriteHostHeader maxStrDigits s.headBuf s.spec.target with
        | error e => simp [pump, turn, hr, hb, hw, raised, flushed]
        | ok out => simp [pump, turn, hr, hb, hw, flushed]
  | cons payload rest ih =>
    intro s hr hd hc
    rw [inbox_cons, pump_cons, buffered_cons]
    by_cases hcut : complete (s.headBuf ++ payload) = true
    · rw [if_pos hcut]
      simp only [hcut, Bool.true_or, if_true]
      cases hw : rewriteHostHeader maxStrDigits (s.headBuf ++ payload) s.spec.target with
      | error e =>
        have ht : s.turn maxStrDigits (some payload) true = s.raised := by
          simp [turn, hr, hd, bufferHead_eq, hcut, hw, Except.map]
        rw [ht, pump_ended rfl]
        simp [raised, flushed]
      | ok out =>
        by_cases hout : out = []
        · have ht : s.turn maxStrDigits (some payload) true =
              { s with headBuf := [], headDone := true, acked := s.acked ++ [payload.length] } := by
            simp [turn, hr, hd, bufferHead_eq, hcut, hw, Except.map, hout]
          rw [ht]
          refine Eq.trans (written_done rest hr rfl rfl) ?_
          simp [flushed, hout]
        · have ht : s.turn maxStrDigits (some payload) true =
              { s with
                headBuf := []
                headDone := true
                written := s.written ++ [out]
                acked := s.acked ++ [payload.length] } := by
            simp [turn, hr, hd, bufferHead_eq, hcut, hw, Except.map, hout]
          rw [ht]
          refine Eq.trans (written_done rest hr rfl rfl) ?_
          simp [flushed]
    · have ht : s.turn maxStrDigits (some payload) true =
          { s with headBuf := s.headBuf ++ payload, acked := s.acked ++ [payload.length] } := by
        simp [turn, hr, hd, bufferHead_eq, hcut]
      rw [ht, if_neg hcut]
      exact ih hr hd (Bool.eq_false_iff.mpr hcut)

end ToLocal

end Python

/-! ## The two searches -/

section
variable {text pre line post p l q : List Char}

theorem startsLine_of_isLF (h : startsLine Python.isLF true pre = true) : startsLine isLineEnd true pre = true := by
  unfold startsLine at h ⊢
  cases hl : pre.getLast? with
  | none => rfl
  | some c =>
    rw [hl] at h
    have hc : c = '\n' := of_decide_eq_true h
    subst hc
    rfl

/-- A line that starts behind an LF is the first one for both agents. -/
theorem HostLine.isLF (h : HostLine isLineEnd true text pre line post) (hs : startsLine Python.isLF true pre = true) :
    HostLine Python.isLF true text pre line post :=
  { h with starts := hs, first := fun p q he hlt hp => h.first p q he hlt (startsLine_of_isLF hp) }

/-- Where the Node agent finds nothing, the Python agent does not either. -/
theorem not_hostLine_isLF (h : ∀ pre line post, ¬ HostLine isLineEnd true text pre line post) :
    ∀ p l q, ¬ HostLine Python.isLF true text p l q := by
  intro p l q hl
  obtain ⟨pre, line, post, hex, -⟩ :=
    exists_hostLine hl.split (startsLine_of_isLF hl.starts) (startsHost_append hl.host q)
  exact h pre line post hex

/-- A line that starts behind a bare CR is passed over by the Python agent, and what it finds is behind that line. -/
theorem HostLine.later (h : HostLine isLineEnd true text pre line post) (hs : startsLine Python.isLF true pre = false)
    (hl : HostLine Python.isLF true text p l q) :
    ∃ c between, p = pre ++ (line ++ c :: between) ∧ post = c :: between ++ (l ++ q) ∧ isLineEnd c = true := by
  have hne : p ≠ pre := by
    rintro rfl
    rw [hl.starts] at hs
    cases hs
  have hsplit : pre ++ (line ++ post) = p ++ (l ++ q) := h.split.symm.trans hl.split
  obtain ⟨a, rfl, ha⟩ : ∃ a, p = pre ++ a ∧ line ++ post = a ++ (l ++ q) := by
    rcases List.append_eq_append_iff.mp hsplit with ⟨a, hp, ha⟩ | ⟨a, hp, ha⟩
    · exact ⟨a, hp, ha⟩
    · have hlt : p.length < pre.length := by
        have hlen := congrArg List.length hp
        rw [List.length_append] at hlen
        have hpos : a.length ≠ 0 := fun h0 => hne (by rw [hp, List.length_eq_zero_iff.mp h0, List.append_nil])
        omega
      have hno := h.first p (l ++ q) hl.split hlt (startsLine_of_isLF hl.starts)
      rw [startsHost_append hl.host] at hno
      cases hno
  have ha0 : a ≠ [] := fun h0 => hne (by rw [h0, List.append_nil])
  -- the text between the two ends in an LF, which the line does not have
  have hlast : '\n' ∈ a := by
    have hst := hl.starts
    unfold startsLine at hst
    rw [List.getLast?_append_of_ne_nil _ ha0, List.getLast?_eq_some_getLast ha0] at hst
    have hc : a.getLast ha0 = '\n' := of_decide_eq_true hst
    exact hc ▸ List.getLast_mem ha0
  have hnot : '\n' ∉ line := fun hm => absurd (h.whole _ hm) (by decide)
  rcases List.append_eq_append_iff.mp ha with ⟨b, hb, hpost⟩ | ⟨b, hb, -⟩
  · cases b with
    | nil => exact absurd (by rw [hb, List.append_nil] at hlast; exact hlast) hnot
    | cons c between => exact ⟨c, between, by rw [hb], hpost, h.stops c (by rw [hpost]; rfl)⟩
  · exact absurd (hb ▸ List.mem_append_left b hlast) hnot

end

/-! ## The two rewrites -/

/-- What the two agents put into a text come to the same, where the Node agent puts `out` in the place of its line. -/
structure Alike (pieces : List Python.Piece) (text pre line out : List Char) : Prop where
  here : startsLine Python.isLF true pre = true → out = Python.expandTemplate line pieces
  only : startsLine Python.isLF true pre = false → (∀ p l q, ¬ HostLine Python.isLF true text p l q) → out = line
  both : startsLine Python.isLF true pre = false →
    ∀ between l q, HostLine Python.isLF true text (pre ++ (line ++ between)) l q →
      out ++ (between ++ l) = line ++ (between ++ Python.expandTemplate l pieces)

/-- The target is a line of ASCII in which neither replacement has anything to substitute. -/
def plain (target : String) : Bool :=
  (target.toList.all fun c => decide (c.toNat < 128) && !isLineEnd c) && !substitutes target.toList &&
    !Python.escaped target.toList

/-- The first line that starts with `Host:` starts the text or is behind an LF, or it and the first such line behind
an LF already read as they are to. With a target that is not plain, both must take it, and put the same in. -/
def SameLine (maxStrDigits : Nat) (target : String) (buf : Bytes) : Prop :=
  if plain target then
    ∀ pre line post, HostLine isLineEnd true (latin1Decode buf) pre line post →
      startsLine Python.isLF true pre = true ∨
        (line = hostText target ∧
          ∀ p l q, HostLine Python.isLF true (latin1Decode buf) p l q → l = hostText target)
  else
    Python.isAscii target = true ∧ ∃ pieces, Python.template maxStrDigits (hostText target) = some pieces ∧
      ∀ pre line post, HostLine isLineEnd true (latin1Decode buf) pre line post →
        Alike pieces (latin1Decode buf) pre line (expandReplacement pre line post (hostText target))

section
variable {maxStrDigits : Nat} {target : String} {buf : Bytes} {pieces : List Python.Piece}
  {text pre line post between l q out a b : List Char}

theorem latin1Encode_inj (ha : ∀ c ∈ a, c.toNat < 256) (hb : ∀ c ∈ b, c.toNat < 256) :
    latin1Encode a = latin1Encode b ↔ a = b := by
  constructor
  · intro h
    rw [← latin1Decode_latin1Encode ha, h, latin1Decode_latin1Encode hb]
  · rintro rfl
    rfl

theorem alike_here (hs : startsLine Python.isLF true pre = true) :
    Alike pieces text pre line out ↔ out = Python.expandTemplate line pieces := by
  constructor
  · intro h
    exact h.here hs
  · intro h
    refine ⟨fun _ => h, fun hs' => ?_, fun hs' => ?_⟩
    · rw [hs] at hs'
      cases hs'
    · rw [hs] at hs'
      cases hs'

theorem alike_only (hs : startsLine Python.isLF true pre = false)
    (hno : ∀ p l q, ¬ HostLine Python.isLF true text p l q) :
    Alike pieces text pre line out ↔ out = line := by
  constructor
  · intro h
    exact h.only hs hno
  · intro h
    refine ⟨fun hs' => ?_, fun _ _ => h, fun _ between l q hl => absurd hl (hno _ l q)⟩
    rw [hs] at hs'
    cases hs'

theorem alike_both (hs : startsLine Python.isLF true pre = false)
    (hl : HostLine Python.isLF true text (pre ++ (line ++ between)) l q) :
    Alike pieces text pre line out ↔
      out ++ (between ++ l) = line ++ (between ++ Python.expandTemplate l pieces) := by
  constructor
  · intro h
    exact h.both hs between l q hl
  · intro h
    refine ⟨fun hs' => ?_, fun _ hno => absurd hl (hno _ l q), fun _ b' l' q' hl' => ?_⟩
    · rw [hs] at hs'
      cases hs'
    · obtain ⟨hp, rfl, rfl⟩ := hl.unique hl'
      obtain rfl := List.append_cancel_left (List.append_cancel_left hp)
      exact h

/-- The bytes that the two agents put out, for a line that the Node agent finds. -/
theorem rewrites_agree_at (ha : Python.isAscii target = true)
    (ht : Python.template maxStrDigits (hostText target) = some pieces)
    (h : HostLine isLineEnd true (latin1Decode buf) pre line post) (hout : ∀ c ∈ out, c.toNat < 256) :
    Python.rewriteHostHeader maxStrDigits buf target = .ok (latin1Encode (pre ++ (out ++ post))) ↔
      Alike pieces (latin1Decode buf) pre line out := by
  have hlow : ∀ c ∈ pre ++ (line ++ post), c.toNat < 256 := fun c hc => lt_of_mem_latin1Decode (h.split ▸ hc)
  have hhost := low_hostText (Python.low_of_isAscii ha)
  have hnode : ∀ c ∈ pre ++ (out ++ post), c.toNat < 256 := by
    simp only [List.forall_mem_append] at hlow ⊢
    exact ⟨hlow.1, hout, hlow.2.2⟩
  cases hs : startsLine Python.isLF true pre with
  | true =>
    have hpy : ∀ c ∈ pre ++ Python.expandTemplate line pieces ++ post, c.toNat < 256 := by
      simp only [List.forall_mem_append] at hlow ⊢
      exact ⟨⟨hlow.1, Python.low_expandTemplate ht hhost hlow.2.1⟩, hlow.2.2⟩
    rw [Python.rewriteHostHeader_of_hostLine ha ht (h.isLF hs), Except.ok.injEq, latin1Encode_inj hpy hnode,
      List.append_assoc, List.append_cancel_left_eq, List.append_cancel_right_eq, alike_here hs]
    exact eq_comm
  | false =>
    by_cases hex : ∃ p l q, HostLine Python.isLF true (latin1Decode buf) p l q
    · obtain ⟨p, l, q, hl⟩ := hex
      obtain ⟨c, b, rfl, rfl, -⟩ := h.later hs hl
      have hpy : ∀ d ∈ pre ++ (line ++ c :: b) ++ Python.expandTemplate l pieces ++ q, d.toNat < 256 := by
        simp only [List.forall_mem_append] at hlow ⊢
        exact ⟨⟨⟨hlow.1, hlow.2.1, hlow.2.2.1⟩, Python.low_expandTemplate ht hhost hlow.2.2.2.1⟩, hlow.2.2.2.2⟩
      have hassoc : pre ++ (out ++ (c :: b ++ (l ++ q))) = pre ++ (out ++ (c :: b ++ l)) ++ q := by
        simp only [List.append_assoc]
      rw [Python.rewriteHostHeader_of_hostLine ha ht hl, Except.ok.injEq, latin1Encode_inj hpy hnode, hassoc,
        List.append_cancel_right_eq, List.append_assoc, List.append_cancel_left_eq, List.append_assoc,
        alike_both hs hl]
      exact eq_comm
    · have hno : ∀ p l q, ¬ HostLine Python.isLF true (latin1Decode buf) p l q := fun p l q hl => hex ⟨p, l, q, hl⟩
      have hbuf : latin1Encode (pre ++ (line ++ post)) = buf := by rw [← h.split, latin1Encode_latin1Decode]
      rw [Python.rewriteHostHeader_of_none ha ht hno, Except.ok.injEq, alike_only hs hno]
      conv => lhs; lhs; rw [← hbuf]
      rw [latin1Encode_inj hlow hnode, List.append_cancel_left_eq, List.append_cancel_right_eq]
      exact eq_comm

theorem rewrites_agree_iff (ha : Python.isAscii target = true)
    (ht : Python.template maxStrDigits (hostText target) = some pieces) :
    Python.rewriteHostHeader maxStrDigits buf target = .ok (rewriteHostHeader buf target) ↔
      ∀ pre line post, HostLine isLineEnd true (latin1Decode buf) pre line post →
        Alike pieces (latin1Decode buf) pre line (expandReplacement pre line post (hostText target)) := by
  by_cases hex : ∃ pre line post, HostLine isLineEnd true (latin1Decode buf) pre line post
  · obtain ⟨pre, line, post, h⟩ := hex
    have hout : ∀ c ∈ expandReplacement pre line post (hostText target), c.toNat < 256 := fun c hc =>
      (mem_expandReplacement hc).elim (low_hostText (Python.low_of_isAscii ha) c) fun hm =>
        lt_of_mem_latin1Decode (h.split ▸ hm)
    rw [rewriteHostHeader_of_hostLine h, List.append_assoc]
    refine (rewrites_agree_at ha ht h hout).trans ⟨fun hal p l q hl => ?_, fun hall => hall pre line post h⟩
    obtain ⟨rfl, rfl, rfl⟩ := h.unique hl
    exact hal
  · have hno : ∀ pre line post, ¬ HostLine isLineEnd true (latin1Decode buf) pre line post :=
      fun pre line post h => hex ⟨pre, line, post, h⟩
    rw [rewriteHostHeader_of_none hno, Python.rewriteHostHeader_of_none ha ht (not_hostLine_isLF hno)]
    exact iff_of_true rfl fun pre line post h => absurd h (hno pre line post)

/-! ## Plain targets -/

/-- Lines without a line end in them can only change places if they are the same. -/
theorem exchange_iff {r m : List Char} {c : Char} (hc : isLineEnd c = true) (hr : ∀ d ∈ r, isLineEnd d = false)
    (hm : ∀ d ∈ m, isLineEnd d = false) :
    r ++ (c :: between ++ l) = m ++ (c :: between ++ r) ↔ m = r ∧ l = r := by
  constructor
  · intro h
    have htake : ∀ {x y : List Char}, (∀ d ∈ x, isLineEnd d = false) →
        (x ++ (c :: y)).takeWhile (!isLineEnd ·) = x := by
      intro x y hx
      rw [List.takeWhile_append_of_pos fun d hd => by simp [hx d hd], List.takeWhile_cons_of_neg (by simp [hc]),
        List.append_nil]
    have he := congrArg (List.takeWhile (!isLineEnd ·)) h
    rw [List.cons_append, List.cons_append, htake hr, htake hm] at he
    subst he
    exact ⟨rfl, List.append_cancel_left (List.append_cancel_left h)⟩
  · rintro ⟨rfl, rfl⟩
    rfl

theorem of_plain (h : plain target = true) :
    Python.isAscii target = true ∧ substitutes (hostText target) = false ∧ Python.escaped (hostText target) = false ∧
      ∀ c ∈ hostText target, isLineEnd c = false := by
  unfold plain at h
  simp only [Bool.and_eq_true, Bool.not_eq_true'] at h
  obtain ⟨⟨hline, hdollar⟩, hback⟩ := h
  have hall : ∀ c ∈ target.toList, c.toNat < 128 ∧ isLineEnd c = false := by
    intro c hc
    simpa using List.all_eq_true.mp hline c hc
  refine ⟨List.all_eq_true.mpr fun c hc => decide_eq_true (hall c hc).1, ?_, ?_, fun c hc => ?_⟩
  · simpa [hostText_eq, substitutes] using hdollar
  · simpa [hostText_eq, Python.escaped] using hback
  · rw [hostText_eq] at hc
    simp only [List.mem_cons] at hc
    rcases hc with rfl | rfl | rfl | rfl | rfl | rfl | hc
    all_goals first | decide | exact (hall c hc).2

theorem alike_plain (hp : plain target = true) (h : HostLine isLineEnd true text pre line post) :
    Alike ((hostText target).map .literal) text pre line (expandReplacement pre line post (hostText target)) ↔
      startsLine Python.isLF true pre = true ∨
        (line = hostText target ∧ ∀ p l q, HostLine Python.isLF true text p l q → l = hostText target) := by
  obtain ⟨-, hdollar, -, hend⟩ := of_plain hp
  rw [expandReplacement_of_plain hdollar]
  cases hs : startsLine Python.isLF true pre with
  | true => rw [alike_here hs, Python.expandTemplate_literal]; simp
  | false =>
    simp only [Bool.false_eq_true, false_or]
    by_cases hex : ∃ p l q, HostLine Python.isLF true text p l q
    · obtain ⟨p, l, q, hl⟩ := hex
      obtain ⟨c, between, rfl, rfl, hc⟩ := h.later hs hl
      rw [alike_both hs hl, Python.expandTemplate_literal, exchange_iff hc hend h.whole]
      refine and_congr_right fun _ => ⟨fun he p' l' q' hl' => ?_, fun hall => hall _ l q hl⟩
      rw [(hl.unique hl').2.1, he]
    · have hno : ∀ p l q, ¬ HostLine Python.isLF true text p l q := fun p l q hl => hex ⟨p, l, q, hl⟩
      rw [alike_only hs hno, eq_comm]
      exact ⟨fun he => ⟨he, fun p l q hl => absurd hl (hno p l q)⟩, fun he => he.1⟩

/-- The two functions on one buffer. -/
theorem rewrite_iff :
    Python.rewriteHostHeader maxStrDigits buf target = .ok (rewriteHostHeader buf target) ↔
      SameLine maxStrDigits target buf := by
  unfold SameLine
  by_cases hp : plain target = true
  · rw [if_pos hp]
    obtain ⟨ha, -, hback, -⟩ := of_plain hp
    rw [rewrites_agree_iff ha (Python.template_of_plain hback)]
    refine forall_congr' fun pre => forall_congr' fun line => forall_congr' fun post => ?_
    exact forall_congr' fun h => alike_plain hp h
  · rw [if_neg hp]
    constructor
    · intro h
      obtain ⟨ha, pieces, ht⟩ := Python.rewriteHostHeader_ok h
      exact ⟨ha, pieces, ht, (rewrites_agree_iff ha ht).mp h⟩
    · rintro ⟨ha, pieces, ht, h⟩
      exact (rewrites_agree_iff ha ht).mpr h

end

/-! ## The two streams -/

/-- If a head is rewritten at all and goes out, the two rewrites find the same line in it. -/
def SameOut (maxStrDigits : Nat) (spec : TunnelSpec) (eof : Bool) (payloads : List Bytes) : Prop :=
  spec.kind = .http ∧ spec.rewriteHost = true → (eof || complete (buffered [] payloads).1) = true →
    (buffered [] payloads).1 ≠ [] → SameLine maxStrDigits (targetLabel spec) (buffered [] payloads).1

section
variable {maxStrDigits : Nat} {spec : TunnelSpec} {eof : Bool} {buf rest : Bytes} {target : String}
  {payloads : List Bytes}

theorem rewriteHostHeader_ne_nil (h : buf ≠ []) : rewriteHostHeader buf target ≠ [] := by
  by_cases hex : ∃ pre line post, HostLine isLineEnd true (latin1Decode buf) pre line post
  · obtain ⟨pre, line, post, hl⟩ := hex
    have hexp : expandReplacement pre line post (hostText target) =
        'H' :: expandReplacement pre line post ("ost: ".toList ++ target.toList) := by
      rw [hostText_eq]
      rfl
    rw [rewriteHostHeader_of_hostLine hl, show ("Host: " ++ target).toList = hostText target from rfl, hexp,
      latin1Encode_append, latin1Encode_append]
    simp [latin1Encode]
  · rw [rewriteHostHeader_of_none fun pre line post hl => hex ⟨pre, line, post, hl⟩]
    exact h

theorem flushed_eq_iff (h : buf ≠ []) :
    Python.flushed rest (Python.rewriteHostHeader maxStrDigits buf target) = rewriteHostHeader buf target ++ rest ↔
      SameLine maxStrDigits target buf := by
  rw [← rewrite_iff]
  cases hw : Python.rewriteHostHeader maxStrDigits buf target with
  | error e =>
    simp only [Python.flushed, reduceCtorEq, iff_false]
    intro he
    exact rewriteHostHeader_ne_nil h (List.append_eq_nil_iff.mp he.symm).1
  | ok out => rw [Python.flushed, List.append_cancel_right_eq, Except.ok.injEq]

/-- What the two agents make of a sequence of payloads. -/
theorem total_iff (id : Nat) :
    (Head.start spec).total eof payloads =
        ((Python.ToLocal.new id (pythonSpec spec)).pump maxStrDigits (inbox eof payloads)).written.flatten ↔
      SameOut maxStrDigits spec eof payloads := by
  by_cases hspec : spec.kind = .http ∧ spec.rewriteHost = true
  · have hw : (Head.start spec).Waiting := ⟨by simp [Head.start, hspec], rfl, rfl, Nat.succ_pos _⟩
    have hdone : (Python.ToLocal.new id (pythonSpec spec)).headDone = false := by
      simp [Python.ToLocal.new, pythonSpec, hspec]
    have hnode : (Head.start spec).total eof payloads = if eof || complete (buffered [] payloads).1 then
        rewriteHostHeader (buffered [] payloads).1 (targetLabel spec) ++ (buffered [] payloads).2.flatten else [] :=
      Head.total_buffered payloads hw
    have hpy : ((Python.ToLocal.new id (pythonSpec spec)).pump maxStrDigits (inbox eof payloads)).written.flatten =
        [] ++ if complete (buffered [] payloads).1 || (eof && (buffered [] payloads).1 ≠ []) then
          Python.flushed (buffered [] payloads).2.flatten
            (Python.rewriteHostHeader maxStrDigits (buffered [] payloads).1 (targetLabel spec))
        else [] := Python.ToLocal.written_pump payloads rfl hdone rfl
    rw [hnode, hpy, List.nil_append]
    unfold SameOut
    by_cases hgo : (eof || complete (buffered [] payloads).1) = true
    · by_cases hb : (buffered [] payloads).1 = []
      · -- only empty payloads: nothing has been held back
        have hrest : (buffered [] payloads).2 = [] := by
          rcases buffered_stop payloads [] with hstop | hstop | hstop
          · rw [hb] at hstop
            cases hstop
          · rw [hb] at hstop
            cases hstop
          · exact hstop
        rw [hb, hrest]
        refine iff_of_true ?_ fun _ _ hne => absurd rfl hne
        cases eof <;> rfl
      · have hgo' : (complete (buffered [] payloads).1 || (eof && (buffered [] payloads).1 ≠ [])) = true := by
          simp only [decide_not, hb, decide_false, Bool.not_false, Bool.and_true]
          rwa [Bool.or_comm]
        rw [if_pos hgo, if_pos hgo', eq_comm, flushed_eq_iff hb]
        exact ⟨fun h _ _ _ => h, fun h => h hspec hgo hb⟩
    · have hgo' : ¬ (complete (buffered [] payloads).1 || (eof && (buffered [] payloads).1 ≠ [])) = true := by
        intro h
        refine hgo ?_
        rcases Bool.or_eq_true_iff.mp h with h | h
        · rw [h, Bool.or_true]
        · rw [(Bool.and_eq_true_iff.mp h).1, Bool.true_or]
      rw [if_neg hgo, if_neg hgo']
      exact iff_of_true rfl fun _ h => absurd h hgo
  · have hnode : (Head.start spec).headDone = true := by
      simp only [Head.start, Bool.not_eq_true', Bool.and_eq_false_iff, decide_eq_false_iff_not]
      by_cases hk : spec.kind = .http
      · exact .inr (by simpa [hk] using hspec)
      · exact .inl hk
    have hdone : (Python.ToLocal.new id (pythonSpec spec)).headDone = true := by
      have hkind : decide ((pythonSpec spec).kind = "http") = decide (spec.kind = .http) := by
        unfold pythonSpec
        cases spec.kind <;> rfl
      rw [← hnode]
      show (!(decide ((pythonSpec spec).kind = "http") && spec.rewriteHost)) = _
      rw [hkind]
      rfl
    rw [Head.total_done hnode rfl, Python.ToLocal.written_done payloads rfl hdone rfl]
    exact iff_of_true rfl fun h => absurd h hspec

end

/-- The functions and the streams of the two agents do the same exactly where the first `Host:` line is the same to
both, up to targets that one of them reads as a pattern. -/
theorem same_rewrite_iff (maxStrDigits : Nat) :
    (∀ (buf : Bytes) (target : String),
      Python.rewriteHostHeader maxStrDigits buf target = .ok (rewriteHostHeader buf target) ↔
        SameLine maxStrDigits target buf) ∧
    ∀ (env : WireEnv) (id : Nat) (spec : TunnelSpec) (window : Int) (wire : Wire) (listed : Bool)
      (es : List StreamEvent) (t : ClientTraced), Orderly es →
      es.foldlM (ClientTraced.step env) (ClientTraced.new id spec window wire listed) = .ok t →
      t.self.connected = true → (t.self.finished = false ∨ t.self.receivedEof = true) →
      (t.self.socket.bytesWritten =
          ((Python.ToLocal.new id (pythonSpec spec)).pump maxStrDigits
            (inbox (eofIn es) (payloads es))).written.flatten ↔
        SameOut maxStrDigits spec (eofIn es) (payloads es)) := by
  refine ⟨fun buf target => rewrite_iff, fun env id spec window wire listed es t horder hrun hconn hlive => ?_⟩
  rw [written_eq horder hrun hconn hlive]
  exact total_iff id

/-! ## A carriage return of its own -/

/-- A request as a browser sends it, in two pieces. -/
theorem same_rewrite_iff_get :
    latin1Encode "GET / HTTP/1.1\r\nHost: 127.0.0.1:3000\r\n\r\nHost: x".toList =
      ((Python.ToLocal.new 1 (pythonSpec viteSpec)).pump 4300
        (inbox false [latin1Encode "GET / HTTP/1.1\r\nhost: dev.ex".toList,
          latin1Encode "ample.com\r\n\r\nHost: x".toList])).written.flatten := by
  have hout : ((served [latin1Encode "GET / HTTP/1.1\r\nhost: dev.ex".toList,
      latin1Encode "ample.com\r\n\r\nHost: x".toList]).foldlM
      (ClientTraced.step ⟨1000, fun _ => 0⟩) (.new 1 viteSpec 16 quietWire true)).toOption.map
      (fun t => (t.self.connected, t.self.finished, t.self.socket.bytesWritten)) =
      some (true, false, latin1Encode "GET / HTTP/1.1\r\nHost: 127.0.0.1:3000\r\n\r\nHost: x".toList) := by
    decide +kernel
  obtain ⟨t, hrun, hconn, hfin, hwr⟩ := run_served hout
  have hc := ((same_rewrite_iff 4300).2 _ 1 viteSpec _ _ _ _ t (orderly_served _) hrun hconn (.inl hfin)).mpr ?_
  · rwa [payloads_served, hwr, show eofIn (served _) = false from rfl] at hc
  · rw [payloads_served]
    intro _ _ _
    have hplain : plain (targetLabel viteSpec) = true := by decide +kernel
    unfold SameLine
    rw [if_pos hplain]
    intro pre line post hl
    have hfirst : hostFrom isLineEnd true (latin1Decode (buffered []
        [latin1Encode "GET / HTTP/1.1\r\nhost: dev.ex".toList,
          latin1Encode "ample.com\r\n\r\nHost: x".toList]).1) =
        some ("GET / HTTP/1.1\r\n".toList, "host: dev.example.com".toList, "\r\n\r\nHost: x".toList) := by
      decide +kernel
    rw [hostFrom_eq_some.mpr hl] at hfirst
    cases hfirst
    exact .inl (by decide +kernel)

/-- A `Host:` line behind a bare CR. -/
def crHead : Bytes := latin1Encode "GET / HTTP/1.1\r\nX: a\rHost: b\r\n\r\n".toList

/-- The Node agent rewrites the line behind the CR, the Python agent does not. -/
theorem not_same_rewrite :
    rewriteHostHeader crHead (targetLabel viteSpec) =
      latin1Encode "GET / HTTP/1.1\r\nX: a\rHost: 127.0.0.1:3000\r\n\r\n".toList ∧
    Python.rewriteHostHeader 4300 crHead (targetLabel viteSpec) = .ok crHead ∧
    ¬ ∀ (env : WireEnv) (id : Nat) (spec : TunnelSpec) (window : Int) (wire : Wire) (listed : Bool)
        (es : List StreamEvent) (t : ClientTraced), spec.kind = .http ∧ spec.rewriteHost = true → Orderly es →
      es.foldlM (ClientTraced.step env) (ClientTraced.new id spec window wire listed) = .ok t →
      t.self.connected = true → (t.self.finished = false ∨ t.self.receivedEof = true) →
      t.self.socket.bytesWritten =
        ((Python.ToLocal.new id (pythonSpec spec)).pump 4300
          (inbox (eofIn es) (payloads es))).written.flatten := by
  refine ⟨by decide +kernel, by decide +kernel, fun h => ?_⟩
  have hout : ((served [crHead]).foldlM (ClientTraced.step ⟨1000, fun _ => 0⟩)
      (.new 1 viteSpec 16 quietWire true)).toOption.map
      (fun t => (t.self.connected, t.self.finished, t.self.socket.bytesWritten)) =
      some (true, false, latin1Encode "GET / HTTP/1.1\r\nX: a\rHost: 127.0.0.1:3000\r\n\r\n".toList) := by
    decide +kernel
  obtain ⟨t, hrun, hconn, hfin, hwr⟩ := run_served hout
  have hc := h _ 1 viteSpec _ _ _ _ t ⟨rfl, rfl⟩ (orderly_served _) hrun hconn (.inl hfin)
  rw [payloads_served, hwr, show eofIn (served _) = false from rfl] at hc
  exact absurd hc (by decide +kernel)

end UpTunnel
