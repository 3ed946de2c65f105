import UpTunnel.Python.Transcript
import UpTunnel.Python.Voice

/-!
# UpTunnel.Python.Session

One session of the Python agent, as the server sees it: the frames that come in and the messages that go out.

* `carries`: the bytes that come in are those of a frame of the server.
* `Agent.said`: what the session says behind its HELLO; `Agent.passed` is what of it the WebSocket has taken.
* `Agent.Turns`: what an event says, and which streams it hands the frame to that comes in.
* `turns_local`, `turns_reply`, `turns_message`: every event of a session is such a turn.
-/

namespace UpTunnel.Python

open Js Lts

/-- The agent reads the bytes as the frame. What it makes of a control frame is left open. -/
def carries (maxStrDigits : Nat) (f : UpTunnel.Frame) (data : Bytes) : Bool :=
  match f, decode maxStrDigits data with
  | .control .., .ok (.control ..) => true
  | .control .., .ok (.stream ..) => false
  | .control .., .error _ => true
  | .stream .., .ok (.control ..) => false
  | .stream type id payload, .ok (.stream t i p) => decide (t = type ∧ i = id ∧ p = payload)
  | .stream .., .error _ => false

namespace Agent

/-- What the WebSocket has taken in the last session. -/
def spoken (a : Agent) : List (Option Nat × Message) := a.sent[a.sent.length - 1]?.getD []

/-- What the session has said behind its HELLO, with what waits in `_out`. -/
def said (a : Agent) : List Message := ((a.spoken ++ a.out).drop 1).map (·.2)

/-- What of it has gone out. -/
def passed (a : Agent) : List Message := (a.spoken.drop 1).map (·.2)

/-- A stream of the last session. -/
def Current (a : Agent) (x : Nat) (c : Stream) : Prop := a.objs[x]? = some c ∧ c.session + 1 = a.sent.length

/-- No two streams of the session have one id. -/
def Apart (a : Agent) : Prop := ∀ (x y : Nat) (c d : Stream), a.Current x c → a.Current y d → c.id = d.id → x = y

/-- What becomes of a stream while `ins` come in and `new` is said. -/
structure Goes (ins : List UpTunnel.Frame) (new : List Message) (c c' : Stream) : Prop where
  later : c.Later c'
  heard : c.finished = false → c'.heardMsgs = c.heardMsgs ++ msgs c.id ins
  deaf : c.finished = true → c'.heardMsgs = c.heardMsgs
  said : ∃ own rs, c'.queued = c.queued ++ own ∧ voice c.id new = voice c.id own ++ rs ∧ (∀ w ∈ rs, w = .reset) ∧
    (c.finished = true → own = []) ∧ (c.finished = false → rs = [])

structure Turns (a a' : Agent) (ins : List UpTunnel.Frame) (new : List Message) : Prop where
  length : a'.sent.length = a.sent.length
  begun : a.spoken ≠ [] → a'.spoken ≠ []
  said : a.spoken ≠ [] → a'.said = a.said ++ new
  passed : a.passed <+: a'.passed
  goes : ∀ (x : Nat) (c : Stream), a.Current x c → ∃ c', a'.objs[x]? = some c' ∧ Goes ins new c c'
  made : ∀ (x : Nat) (c' : Stream), a'.Current x c' → (∃ c, a.Current x c) ∨
    x = a.objs.length ∧ (∃ payload, ins = [.stream STREAM_OPEN c'.id payload]) ∧ c'.heard = [] ∧
      c'.queued = [] ∧ c'.finished = false ∧ new = []
  names : ∀ m ∈ new, ∀ f, m.frame? = some f → ∀ k, f.streamId? = some k →
    (∃ x c, a.Current x c ∧ c.id = k) ∨ ∃ g ∈ ins, g.streamId? = some k
  strangers : ∀ k, (∀ (x : Nat) (c : Stream), a.Current x c → c.id ≠ k) → ∀ w ∈ voice k new, w = .reset

variable {env : Env} {a a' : Agent} {e : Event} {x : Nat} {s : Stream} {r : Stream × List Message}
variable {ins : List UpTunnel.Frame} {new : List Message}

theorem passed_prefix (a : Agent) : a.passed <+: a.said := by
  unfold passed said
  refine List.IsPrefix.map _ ?_
  rw [List.drop_append]
  exact List.prefix_append _ _

theorem passed_of (h : a'.sent = a.sent) : a'.passed = a.passed := by
  unfold passed spoken
  rw [h]

theorem said_append {ms : List (Option Nat × Message)} (h : a.spoken ≠ []) (hspoken : a'.spoken = a.spoken)
    (hout : a'.out = a.out ++ ms) : a'.said = a.said ++ ms.map (·.2) := by
  have hlen : 1 ≤ (a.spoken ++ a.out).length := by
    have := List.length_pos_of_ne_nil h
    rw [List.length_append]
    omega
  rw [said, said, hspoken, hout, ← List.append_assoc, List.drop_append_of_le_length hlen, List.map_append]

/-! ## One stream -/

theorem heardMsgs_of {c c' : Stream} (hid : c'.id = c.id) (hh : c'.heard = c.heard) : c'.heardMsgs = c.heardMsgs := by
  unfold Stream.heardMsgs
  rw [hid, hh]

theorem heard_finish (c : Stream) : c.finish.heard = c.heard := by
  obtain ⟨l, v, w, he, -⟩ := Stream.finish_eq c
  rw [he]

theorem heardMsgs_onFrame (c : Stream) (t : Nat) (p : Bytes) :
    (c.onFrame t p).heardMsgs = c.heardMsgs ++ msgs c.id [.stream t c.id p] := by
  have hh : (c.onFrame t p).heard = c.heard ++ [(t, p)] := by
    by_cases ht : t = STREAM_RESET
    · subst ht
      exact heard_finish _
    · obtain ⟨b, he, -⟩ := Stream.onFrame_eq c p ht
      rw [he]
  unfold Stream.heardMsgs
  rw [(Stream.later_onFrame c t p).1.id, hh, List.map_append, msgs_append]
  rfl

/-- A stream that is not spoken to. -/
theorem Goes.still {c : Stream} (hins : msgs c.id ins = [] ∨ c.finished = true)
    (hnew : voice c.id new = [] ∨ c.finished = true ∧ ∀ w ∈ voice c.id new, w = .reset) : Goes ins new c c where
  later := ⟨rfl, rfl, rfl, rfl, List.prefix_rfl, List.prefix_rfl, id, id⟩
  heard hf := by
    rcases hins with h | h
    · rw [h, List.append_nil]
    · rw [hf] at h
      cases h
  deaf _ := rfl
  said := by
    refine ⟨[], voice c.id new, (List.append_nil _).symm, rfl, fun w hw => ?_, fun _ => rfl, fun hf => ?_⟩
    · rcases hnew with h | h
      · rw [h] at hw
        cases hw
      · exact h.2 w hw
    · rcases hnew with h | ⟨h, -⟩
      · exact h
      · rw [hf] at h
        cases h

/-- A stream that speaks for itself. -/
theorem Goes.speak {c : Stream} (hl : c.Later (Stream.say r)) (hh : r.1.heard = c.heard) (hq : r.1.queued = c.queued)
    (hdead : c.finished = true → r.2 = []) : Goes [] r.2 c (Stream.say r) where
  later := hl
  heard _ := by
    rw [msgs_nil, List.append_nil]
    exact heardMsgs_of hl.id hh
  deaf _ := heardMsgs_of hl.id hh
  said := ⟨r.2, [], by rw [Stream.say, hq], (List.append_nil _).symm, by simp, hdead, fun _ => rfl⟩

/-! ## Events -/

/-- No stream changes. -/
theorem Turns.still {ms : List (Option Nat × Message)} (hobjs : a'.objs = a.objs) (hsent : a'.sent = a.sent)
    (hout : a'.out = a.out ++ ms)
    (hins : ∀ (x : Nat) (c : Stream), a.Current x c → msgs c.id ins = [] ∨ c.finished = true)
    (hnew : ∀ (x : Nat) (c : Stream), a.Current x c → voice c.id (ms.map (·.2)) = [] ∨
      c.finished = true ∧ ∀ w ∈ voice c.id (ms.map (·.2)), w = .reset)
    (hnames : ∀ m ∈ ms.map (·.2), ∀ f, m.frame? = some f → ∀ k, f.streamId? = some k →
      ∃ g ∈ ins, g.streamId? = some k)
    (hstrangers : ∀ k, ∀ w ∈ voice k (ms.map (·.2)), w = .reset) : Turns a a' ins (ms.map (·.2)) where
  length := by rw [hsent]
  begun h := by rw [spoken, hsent]; exact h
  said h := said_append h (by rw [spoken, spoken, hsent]) hout
  passed := by rw [passed_of hsent]
  goes x c hc := ⟨c, hobjs ▸ hc.1, .still (hins x c hc) (hnew x c hc)⟩
  made x c' hc' := .inl ⟨c', hobjs ▸ hc'.1, hsent ▸ hc'.2⟩
  names m hm f hf k hk := .inr (hnames m hm f hf k hk)
  strangers k _ := hstrangers k

/-- Nothing changes but what the model leaves to the tables. -/
theorem Turns.quiet (hobjs : a'.objs = a.objs) (hsent : a'.sent = a.sent) (hout : a'.out = a.out)
    (hins : ∀ (x : Nat) (c : Stream), a.Current x c → msgs c.id ins = [] ∨ c.finished = true) : Turns a a' ins [] :=
  .still hobjs hsent (show a'.out = a.out ++ [] by rw [hout, List.append_nil]) hins (fun _ _ _ => .inl rfl) (by simp)
    (by simp)

/-- An event of one stream, which is of the session if it says anything. -/
theorem Turns.one (hS : Settled a) (hu : a.Apart) (hx : a.objs[x]? = some s)
    (ho : ∀ z, a'.objs[z]? = if z = x then some (Stream.say r) else a.objs[z]?) (hsent : a'.sent = a.sent)
    (hout : a'.out = a.out ++ r.2.map (some x, ·)) (hgo : Goes [] r.2 s (Stream.say r))
    (habout : ∀ m ∈ r.2, m.About s.id) (hdead : s.finished = true → r.2 = []) : Turns a a' [] r.2 := by
  have hsnd : (r.2.map (some x, ·)).map (·.2) = r.2 := by simp
  -- only a stream of the session speaks
  have hcur : r.2 ≠ [] → a.Current x s := by
    intro hne
    cases hf : s.finished with
    | true => exact absurd (hdead hf) hne
    | false => exact ⟨hx, (hS.live x s hx hf).2.2⟩
  have hother : ∀ k, (∀ (x : Nat) (c : Stream), a.Current x c → c.id = k → c.id ≠ s.id ∨ r.2 = []) →
      (a.Current x s → s.id ≠ k) → voice k r.2 = [] := by
    intro k _ hk
    by_cases hne : r.2 = []
    · rw [hne]
      rfl
    · exact voice_about habout (Ne.symm (hk (hcur hne)))
  refine ⟨by rw [hsent], fun h => by rw [spoken, hsent]; exact h, fun h => ?_, ?_, fun y c hc => ?_,
    fun y c' hc' => ?_, fun m hm f hf k hk => .inl ?_, fun k hk w hw => ?_⟩
  · rw [said_append h (by rw [spoken, spoken, hsent]) hout, hsnd]
  · rw [passed_of hsent]
  · rw [ho y]
    by_cases hyx : y = x
    · subst hyx
      obtain rfl : s = c := Option.some.inj (hx.symm.trans hc.1)
      rw [if_pos rfl]
      exact ⟨_, rfl, hgo⟩
    · rw [if_neg hyx]
      refine ⟨c, hc.1, .still (.inl rfl) (.inl ?_)⟩
      by_cases hne : r.2 = []
      · rw [hne]
        rfl
      · exact voice_about habout fun hid => hyx (hu y x c s hc (hcur hne) hid)
  · left
    have hc1 := hc'.1
    rw [ho y] at hc1
    by_cases hyx : y = x
    · subst hyx
      rw [if_pos rfl] at hc1
      obtain rfl := Option.some.inj hc1
      refine ⟨s, hx, ?_⟩
      rw [← hgo.later.session, ← hsent]
      exact hc'.2
    · rw [if_neg hyx] at hc1
      exact ⟨c', hc1, hsent ▸ hc'.2⟩
  · have hid := frame?_about (habout m hm) hf
    exact ⟨x, s, hcur (List.ne_nil_of_mem hm), Option.some.inj (hid.symm.trans hk)⟩
  · by_cases hne : r.2 = []
    · rw [hne] at hw
      cases hw
    · rw [voice_about habout (Ne.symm (hk x s (hcur hne)))] at hw
      cases hw

/-- Every event of a session but for the arrival of a frame. -/
theorem turns_local (h : Reach (ofFn (step env)) (Calm env) Starts a) (hok : Calm env a e) (hu : a.Apart)
    (hs : a.step env e = some a') (hc : e ≠ .connect) (hr : ∀ data, e ≠ .reply data)
    (hm : ∀ data, e ≠ .message data) : ∃ new, Turns a a' [] new := by
  have hS := settled h
  have ht := timed h
  cases e with
  | connect => exact absurd rfl hc
  | reply data => exact absurd rfl (hr data)
  | message data => exact absurd rfl (hm data)
  | unanswered =>
    obtain ⟨-, he⟩ := Option.ite_none_right_eq_some.mp hs
    cases he
    exact ⟨[], .quiet rfl rfl rfl fun _ _ _ => .inl rfl⟩
  | disconnect =>
    obtain ⟨-, he⟩ := Option.ite_none_right_eq_some.mp hs
    cases he
    refine ⟨[], rfl, id, fun _ => (List.append_nil _).symm, List.prefix_rfl, fun x c hc => ?_,
      fun x c' hc' => .inl ?_, by simp, by simp⟩
    · rw [getElem?_disconnect, hc.1]
      split
      · have hh := heardMsgs_of (Stream.later_finish c).id (heard_finish c)
        refine ⟨c.finish, rfl, Stream.later_finish c, fun _ => ?_, fun _ => hh, [], [], ?_, rfl, by simp,
          fun _ => rfl, fun _ => rfl⟩
        · rw [msgs_nil, List.append_nil]
          exact hh
        · rw [List.append_nil]
          exact (Stream.finish_kept c).1
      · exact ⟨c, rfl, .still (.inl rfl) (.inl rfl)⟩
    · have hc1 := hc'.1
      rw [getElem?_disconnect] at hc1
      split at hc1
      · obtain ⟨c, hc, rfl⟩ := Option.map_eq_some_iff.mp hc1
        exact ⟨c, hc, (Stream.later_finish c).session ▸ hc'.2⟩
      · exact ⟨c', hc1, hc'.2⟩
  | deliver =>
    simp only [step] at hs
    split at hs
    · cases hs
    · rename_i q out hout
      obtain ⟨hup, he⟩ := Option.ite_none_right_eq_some.mp hs
      cases he
      have hlt := ht.begun (.inl hup)
      have hlen : (a.sent.modify (a.sent.length - 1) (· ++ [q])).length = a.sent.length := List.length_modify ..
      have hspoken : ({ a with out := out, sent := a.sent.modify (a.sent.length - 1) (· ++ [q]) } : Agent).spoken =
          a.spoken ++ [q] := by
        have hget := List.getElem?_eq_getElem (show a.sent.length - 1 < a.sent.length by omega)
        simp only [spoken, hlen, List.getElem?_modify, hget]
        simp
      refine ⟨[], hlen, fun hb => ?_, fun hb => ?_, ?_, fun x c hc => ?_, fun x c' hc' => .inl ?_, by simp, by simp⟩
      · rw [hspoken]
        simp
      · rw [said, said, hspoken, hout]
        simp
      · rw [passed, passed, hspoken, List.drop_append]
        exact (List.prefix_append _ _).map _
      · exact ⟨c, hc.1, .still (.inl rfl) (.inl rfl)⟩
      · exact ⟨c', hc'.1, hlen ▸ hc'.2⟩
  | stream y e =>
    obtain ⟨s, hy, hs⟩ := Option.bind_eq_some_iff.mp hs
    obtain ⟨r, hr, rfl⟩ := Option.map_eq_some_iff.mp hs
    have hst := Stream.step_cases hr
    obtain ⟨-, hh, -, -, hq⟩ := hst.same
    have hdead : s.finished = true → r.2 = [] := by
      refine fun hf => ((hS.dead y s hy hf).step hst ?_).2
      rintro rfl
      exact absurd (hf.symm.trans (hok.1 y rfl s hy)) (by simp)
    exact ⟨r.2, .one hS hu hy (getElem?_put hy) rfl rfl
      (.speak (hst.later (ht.sound y s hy).1.life) hh hq hdead) (Stream.step_about hr) hdead⟩
  | dialFailed y text =>
    obtain ⟨s, hy, hs⟩ := Option.bind_eq_some_iff.mp hs
    obtain ⟨-, he⟩ := Option.ite_none_right_eq_some.mp hs
    cases he
    obtain ⟨-, h2, -, h4⟩ := finishing_frame a y s (s.dialFailed text)
    have hdead : s.finished = true → (s.dialFailed text).2 = [] := fun hf =>
      absurd (hf.symm.trans (hok.1 y rfl s hy)) (by simp)
    exact ⟨_, .one hS hu hy (getElem?_finishing hy) h2 h4
      (.speak (Stream.later_dialFailed s text) (heard_finish _) (Stream.finish_kept _).1 hdead)
      (Stream.dialFailed_about s text) hdead⟩
  | gathered y =>
    obtain ⟨s, hy, hs⟩ := Option.bind_eq_some_iff.mp hs
    obtain ⟨-, he⟩ := Option.ite_none_right_eq_some.mp hs
    cases he
    obtain ⟨-, h2, -, h4⟩ := finishing_frame a y s (s.gathered, [])
    exact ⟨[], .one hS hu hy (getElem?_finishing hy) h2 h4
      (.speak (r := (s.gathered, [])) (Stream.later_gathered s).say (heard_finish _) (Stream.finish_kept _).1
        fun _ => rfl) (by simp) fun _ => rfl⟩

theorem openings_control (specs : List TunnelSpec) : ∀ (i : Nat), ∀ m ∈ (openings i specs).map (·.2),
    ∃ body, m = .control OPEN_TUNNEL body := by
  induction specs with
  | nil => exact fun i m hm => by cases hm
  | cons spec specs ih =>
    intro i m hm
    rcases List.mem_cons.mp hm with rfl | hm
    · exact ⟨_, rfl⟩
    · exact ih (i + 1) m hm

/-- The answer to the HELLO comes before there is a stream. -/
theorem turns_reply (h : Reach (ofFn (step env)) (Calm env) Starts a) {data : Bytes}
    (hs : a.step env (.reply data) = some a') (ins : List UpTunnel.Frame) : ∃ new, Turns a a' ins new := by
  obtain ⟨hg, he⟩ := Option.ite_none_right_eq_some.mp hs
  cases he
  have hnone : ∀ (x : Nat) (c : Stream), ¬ a.Current x c := by
    intro x c hc
    have := ((timed h).past x c hc.1).2 hg
    have := hc.2
    omega
  obtain ⟨h1, -, -, h4⟩ := onReply_objs env a data
  have hcontrol : ∀ m ∈ (if (a.onReply env data).phase = .up then openings 0 env.tunnels else []).map (·.2),
      ∃ body, m = .control OPEN_TUNNEL body := by
    split
    · exact openings_control env.tunnels 0
    · simp
  have hid : ∀ m ∈ (if (a.onReply env data).phase = .up then openings 0 env.tunnels else []).map (·.2), ∀ f,
      m.frame? = some f → f.streamId? = none := by
    intro m hm f hf
    obtain ⟨body, rfl⟩ := hcontrol m hm
    exact frame?_openTunnel hf
  refine ⟨_, .still h1 h4 (onReply_out env a data) (fun x c hc => absurd hc (hnone x c))
    (fun x c hc => absurd hc (hnone x c)) (fun m hm f hf k hk => ?_) fun k w hw => ?_⟩
  · rw [hid m hm f hf] at hk
    cases hk
  · rw [voice_of_ne fun m hm f hf he => by rw [hid m hm f hf] at he; cases he] at hw
    cases hw

/-- A STREAM_OPEN for an id that is new to the session. -/
theorem turns_onStreamOpen {id : Nat} (p : Bytes) (hfresh : ∀ (x : Nat) (c : Stream), a.Current x c → c.id ≠ id) :
    ∃ new, Turns a (a.onStreamOpen env id p) [.stream STREAM_OPEN id p] new := by
  have hins : ∀ k, msgs k [.stream STREAM_OPEN id p] = [] := by
    intro k
    rw [msgs_singleton, show msg? k (.stream STREAM_OPEN id p) = none from msg?_streamOpen id p]
    rfl
  rcases onStreamOpen_cases env a id p with hr | ⟨tunnelId, spec, -, hr⟩ <;> rw [hr]
  · have habout : ∀ m ∈ [Message.streamJson STREAM_RESET id [("code", .str "unknown_tunnel")]], m.About id := by
      intro m hm
      rw [List.mem_singleton.mp hm]
      exact .reset _
    have hout : (a.send none (.streamJson STREAM_RESET id [("code", .str "unknown_tunnel")])).out =
        a.out ++ [(none, .streamJson STREAM_RESET id [("code", .str "unknown_tunnel")])] := rfl
    refine ⟨_, .still rfl rfl hout
      (fun x c _ => .inl (hins c.id)) (fun x c hc => .inl (voice_about habout (hfresh x c hc)))
      (fun m hm f hf k hk => ⟨_, List.mem_singleton_self _, ?_⟩) fun k => voice_resets fun m hm => ?_⟩
    · exact (frame?_about (habout m hm) hf).symm.trans hk
    · exact ⟨_, _, List.mem_singleton.mp hm⟩
  · refine ⟨[], rfl, fun hb => hb, fun _ => (List.append_nil _).symm, List.prefix_rfl, fun x c hc => ⟨c, ?_, ?_⟩,
      fun x c' hc' => ?_, by simp, by simp⟩
    · exact (List.getElem?_append_left (List.getElem?_eq_some_iff.mp hc.1).1).trans hc.1
    · exact .still (.inl (hins c.id)) (.inl rfl)
    · obtain ⟨hx, hses⟩ := hc'
      rcases Nat.lt_trichotomy x a.objs.length with hlt | rfl | hgt
      · exact .inl ⟨c', (List.getElem?_append_left hlt).symm.trans hx, hses⟩
      · simp only [List.getElem?_concat_length] at hx
        cases hx
        exact .inr ⟨rfl, ⟨p, rfl⟩, rfl, rfl, rfl, rfl⟩
      · simp only at hx
        rw [List.getElem?_eq_none (by rw [List.length_append, List.length_singleton]; omega)] at hx
        cases hx

/-- Another frame of a stream. -/
theorem turns_onStream (h : Reach (ofFn (step env)) (Calm env) Starts a) {t id : Nat} (p : Bytes)
    (ht : t ≠ STREAM_OPEN) : ∃ new, Turns a (a.onStream env t id p) [.stream t id p] new := by
  have hS := settled h
  have hl := listed h
  have hother : ∀ k, k ≠ id → msgs k [.stream t id p] = [] := fun k hk =>
    msgs_of_ne fun f hf he => by
      rw [List.mem_singleton.mp hf] at he
      exact hk (Option.some.inj he).symm
  rcases onStream_cases env a p ht with ⟨hnone, ms, hms, hr⟩ | ⟨y, hy, hn, hr⟩ | ⟨y, s, hy, hs, hr⟩ <;> rw [hr]
  · -- a stream of the session with this id is not in the table, so it is finished
    have hfin : ∀ (x : Nat) (c : Stream), a.Current x c → c.id = id → c.finished = true := by
      rintro x c hc rfl
      by_contra hf
      have hlisted := (hS.live x c hc.1 (Bool.eq_false_iff.mpr hf)).2.1
      rw [hnone] at hlisted
      cases hlisted
    have habout : ∀ m ∈ ms.map (·.2), ∃ code, m = .streamJson STREAM_RESET id [("code", .str code)] := by
      intro m hm
      obtain ⟨q, hq, rfl⟩ := List.mem_map.mp hm
      obtain ⟨code, rfl⟩ := hms q hq
      exact ⟨code, rfl⟩
    have hreset : ∀ k, ∀ w ∈ voice k (ms.map (·.2)), w = .reset := fun k => voice_resets fun m hm => by
      obtain ⟨code, rfl⟩ := habout m hm
      exact ⟨_, _, rfl⟩
    have hspeak : ∀ m ∈ ms.map (·.2), m.About id := by
      intro m hm
      obtain ⟨code, rfl⟩ := habout m hm
      exact .reset _
    have hout : ({ a with out := a.out ++ ms } : Agent).out = a.out ++ ms := rfl
    refine ⟨_, .still rfl rfl hout (fun x c hc => ?_) (fun x c hc => ?_) (fun m hm f hf k hk => ?_) hreset⟩
    · by_cases hid : c.id = id
      · exact .inr (hfin x c hc hid)
      · exact .inl (hother c.id hid)
    · by_cases hid : c.id = id
      · exact .inr ⟨hfin x c hc hid, hreset c.id⟩
      · exact .inl (voice_about hspeak hid)
    · exact ⟨_, List.mem_singleton_self _, (frame?_about (hspeak m hm) hf).symm.trans hk⟩
  · obtain ⟨s, hs, -⟩ := hl id y hy
    rw [hn] at hs
    cases hs
  · obtain ⟨s', hs', rfl, hf⟩ := hl id y hy
    obtain rfl : s = s' := Option.some.inj (hs.symm.trans hs')
    generalize hb : (if t = STREAM_RESET then a.finishing y s (s.onFrame t p, [])
      else a.put y (s.onFrame t p, [])) = b
    have ho : ∀ z, b.objs[z]? = if z = y then some (Stream.say (s.onFrame t p, [])) else a.objs[z]? := by
      intro z
      rw [← hb]
      split
      · exact getElem?_finishing hs z
      · exact getElem?_put hs z
    have hframe : b.sent = a.sent ∧ b.out = a.out := by
      rw [← hb]
      split
      · exact ⟨(finishing_frame a y s _).2.1, by rw [(finishing_frame a y s _).2.2.2]; simp⟩
      · exact ⟨rfl, List.append_nil _⟩
    obtain ⟨hlater, -⟩ := Stream.later_onFrame s t p
    refine ⟨[], by rw [hframe.1], fun hb => by rw [spoken, hframe.1]; exact hb, fun hb => ?_, ?_, fun x c hc => ?_,
      fun x c' hc' => .inl ?_, by simp, by simp⟩
    · exact said_append hb (by rw [spoken, spoken, hframe.1])
        (show b.out = a.out ++ [] by rw [hframe.2, List.append_nil])
    · rw [passed_of hframe.1]
    · rw [ho x]
      by_cases hxy : x = y
      · subst hxy
        obtain rfl : s = c := Option.some.inj (hs.symm.trans hc.1)
        rw [if_pos rfl]
        refine ⟨_, rfl, hlater.say, fun _ => heardMsgs_onFrame s t p, fun hfin => ?_, [], [], ?_, rfl, by simp,
          fun _ => rfl, fun _ => rfl⟩
        · rw [hf] at hfin
          cases hfin
        show (s.onFrame t p).queued ++ [] = s.queued ++ []
        rw [Stream.queued_onFrame]
      · rw [if_neg hxy]
        refine ⟨c, hc.1, .still ?_ (.inl rfl)⟩
        by_cases hid : c.id = s.id
        · right
          by_contra hcf
          have hlisted := (hS.live x c hc.1 (Bool.eq_false_iff.mpr hcf)).2.1
          rw [hid, hy] at hlisted
          exact hxy (Option.some.inj hlisted).symm
        · exact .inl (hother c.id hid)
    · obtain ⟨hx, hses⟩ := hc'
      rw [ho x] at hx
      rw [hframe.1] at hses
      by_cases hxy : x = y
      · subst hxy
        rw [if_pos rfl] at hx
        obtain rfl := Option.some.inj hx
        exact ⟨s, hs, hlater.session ▸ hses⟩
      · rw [if_neg hxy] at hx
        exact ⟨c', hx, hses⟩

/-- The arrival of a frame. -/
theorem turns_message (h : Reach (ofFn (step env)) (Calm env) Starts a) {data : Bytes} {f : UpTunnel.Frame}
    (hs : a.step env (.message data) = some a') (hc : carries env.maxStrDigits f data = true)
    (hfresh : ∀ k payload, f = .stream STREAM_OPEN k payload → ∀ (x : Nat) (c : Stream), a.Current x c → c.id ≠ k) :
    ∃ new, Turns a a' [f] new := by
  obtain ⟨-, he⟩ := Option.ite_none_right_eq_some.mp hs
  simp only [Option.some.injEq, onMessage] at he
  rw [← he]
  cases f with
  | control type body =>
    have hins : ∀ k, msgs k [.control type body] = [] := fun _ => rfl
    cases hd : decode env.maxStrDigits data with
    | error err => exact ⟨[], .quiet rfl rfl rfl fun x c _ => .inl (hins c.id)⟩
    | ok g =>
      cases g with
      | control t b =>
        obtain ⟨h1, -, h3, -, h5, -⟩ := onControl_objs env a t b
        exact ⟨[], .quiet h1 h3 h5 fun x c _ => .inl (hins c.id)⟩
      | stream t i p =>
        simp only [carries, hd] at hc
        cases hc
  | stream type id payload =>
    cases hd : decode env.maxStrDigits data with
    | error err =>
      simp only [carries, hd] at hc
      cases hc
    | ok g =>
      cases g with
      | control t b =>
        simp only [carries, hd] at hc
        cases hc
      | stream t i p =>
        simp only [carries, hd, decide_eq_true_eq] at hc
        obtain ⟨rfl, rfl, rfl⟩ := hc
        by_cases ht : t = STREAM_OPEN
        · subst ht
          simp only [onStream, if_pos]
          exact turns_onStreamOpen p (hfresh i p rfl)
        · exact turns_onStream h p ht

end Agent

end UpTunnel.Python
