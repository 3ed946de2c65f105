import UpTunnel.Congestion
import UpTunnel.Link.System

/-!
# UpTunnel.StreamTable

The stream table of a server session, and what is counted beside it: `streams`, `streamTunnels`,
`openConns`, `totalConns` and the congestion flag are kept by callbacks of their own.

* `Tallied`: the two tables have the same keys, and `openConns` counts the entries of a tunnel.
  `Tallied.settle`: streams that finish keep it, in whatever order `onStreamFinished` is called.
* `Register`: a session with the tunnels of the streams it has ever opened.
* `reach_tabled`: the invariant of the stream table, in every state that a session reaches.
-/

namespace UpTunnel

open Js Hub

namespace AgentSession

/-! ## Stream ids -/

theorem allocFrom_range {streams : Dict Nat Nat} {id : Nat} :
    ∀ {n next : Nat}, 1 ≤ next → next ≤ MAX_STREAM_ID → (allocFrom streams n next).1 = some id →
      1 ≤ id ∧ id ≤ MAX_STREAM_ID := by
  intro n
  induction n with
  | zero => intro next _ _ h; cases h
  | succ n ih =>
    intro next h1 h2 h
    unfold allocFrom at h
    dsimp only at h
    split at h
    · refine ih ?_ ?_ h
      · split <;> omega
      · split
        · simp [MAX_STREAM_ID]
        · omega
    · cases h
      exact ⟨h1, h2⟩

theorem allocFrom_next {streams : Dict Nat Nat} :
    ∀ {n next : Nat}, 1 ≤ next → next ≤ MAX_STREAM_ID →
      1 ≤ (allocFrom streams n next).2 ∧ (allocFrom streams n next).2 ≤ MAX_STREAM_ID := by
  intro n
  induction n with
  | zero => intro next h1 h2; exact ⟨h1, h2⟩
  | succ n ih =>
    intro next h1 h2
    have hnext : 1 ≤ (if next ≥ MAX_STREAM_ID then 1 else next + 1) ∧
        (if next ≥ MAX_STREAM_ID then 1 else next + 1) ≤ MAX_STREAM_ID := by
      split
      · simp [MAX_STREAM_ID]
      · omega
    unfold allocFrom
    dsimp only
    split
    · exact ih hnext.1 hnext.2
    · exact hnext

/-! ## Counting the streams of a tunnel -/

/-- `openConns` counts the entries of every tunnel. -/
def Tallied (s : AgentSession) : Prop := ∀ t, s.openConns t = s.streamTunnels.values.count t

theorem Tallied.pos {s : AgentSession} (h : s.Tallied) {id : Nat} {t : String}
    (ht : s.streamTunnels.lookup id = some t) : 0 < s.openConns t := by
  rw [h t]
  exact List.count_pos_iff.mpr (Dict.mem_values.mpr ⟨id, ht⟩)

theorem Tallied.onStreamFinished {s : AgentSession} (h : s.Tallied) (id : Nat) :
    (s.onStreamFinished id).Tallied := by
  unfold AgentSession.onStreamFinished
  split
  · exact h
  · rename_i t ht
    intro u
    have hc := Dict.count_values_erase ht u
    have ho := h u
    dsimp only
    by_cases hu : u = t
    · subst hu
      rw [Function.update_self]
      simp only [if_true] at hc
      omega
    · rw [Function.update_of_ne hu]
      simp only [if_neg hu] at hc
      omega

theorem lookup_onStreamFinished (s : AgentSession) (id k : Nat) :
    (s.onStreamFinished id).streamTunnels.lookup k = if k = id then none else s.streamTunnels.lookup k := by
  unfold AgentSession.onStreamFinished
  split
  · rename_i hn
    split
    · rename_i hk
      rw [hk, hn]
    · rfl
  · exact Dict.lookup_erase_ite _ _ _

/-- Streams that finish, in any order. -/
theorem Tallied.finished {s : AgentSession} (h : s.Tallied) (ids : List Nat) :
    (ids.foldl AgentSession.onStreamFinished s).Tallied := by
  induction ids generalizing s with
  | nil => exact h
  | cons id ids ih => exact ih (h.onStreamFinished id)

theorem lookup_finished (ids : List Nat) (k : Nat) :
    ∀ s : AgentSession, (ids.foldl AgentSession.onStreamFinished s).streamTunnels.lookup k =
      if k ∈ ids then none else s.streamTunnels.lookup k := by
  induction ids with
  | nil => intro s; simp
  | cons id ids ih =>
    intro s
    rw [List.foldl_cons, ih, lookup_onStreamFinished]
    by_cases h1 : k = id <;> by_cases h2 : k ∈ ids <;> simp [h1, h2]

/-- What is neither counted nor entered by `onStreamFinished`. -/
theorem finished_frame (ids : List Nat) :
    ∀ s : AgentSession, (ids.foldl AgentSession.onStreamFinished s).toHub = s.toHub ∧
      (ids.foldl AgentSession.onStreamFinished s).totalConns = s.totalConns ∧
      (ids.foldl AgentSession.onStreamFinished s).nextStreamId = s.nextStreamId := by
  induction ids with
  | nil => intro s; exact ⟨rfl, rfl, rfl⟩
  | cons id ids ih =>
    intro s
    have h1 : (s.onStreamFinished id).toHub = s.toHub ∧ (s.onStreamFinished id).totalConns = s.totalConns ∧
        (s.onStreamFinished id).nextStreamId = s.nextStreamId := by
      unfold AgentSession.onStreamFinished
      split <;> exact ⟨rfl, rfl, rfl⟩
    obtain ⟨h2, h3, h4⟩ := ih (s.onStreamFinished id)
    exact ⟨h2.trans h1.1, h3.trans h1.2.1, h4.trans h1.2.2⟩

/-! ## The WebSocket

Whatever happens to a stream, all that its owner's WebSocket sees of it are calls of `send`. -/

variable {env : WireEnv} {streamWindow : Int} {s s' : AgentSession} {h h' : Hub Stream} {a : Nat}

section Wire
variable {I : Wire → Prop} (hI : ∀ w f, I w → I (w.send env f))
include hI

theorem onSourceData_wire {c : Ctx} (hc : I c.wire) (chunk : Bytes) : I (c.onSourceData env chunk).wire := by
  unfold Ctx.onSourceData
  split
  · exact hc
  · dsimp only
    split <;> exact hI _ _ hc

omit hI in
theorem finish_wire {c : Ctx} (hc : I c.wire) : I c.finish.wire := by
  unfold Ctx.finish
  split <;> exact hc

theorem onSourceEnd_wire {c : Ctx} (hc : I c.wire) : I (c.onSourceEnd env).wire := by
  unfold Ctx.onSourceEnd
  split
  · exact hc
  · dsimp only
    split
    · exact finish_wire (hI _ _ hc)
    · exact hI _ _ hc

theorem flushAck_wire {c c' : Ctx} (hs : c.flushAck env = .ok c') (hc : I c.wire) : I c'.wire := by
  unfold Ctx.flushAck at hs
  split at hs
  · cases hs
    exact hc
  · obtain ⟨f, -, rfl⟩ := map_ok.mp hs
    exact hI _ f hc

theorem destroy_wire {c : Ctx} (hc : I c.wire) (reason : String) : I (c.destroy env reason).wire := by
  unfold Ctx.destroy
  split
  · exact hc
  · dsimp only
    split
    · exact hI _ _ hc
    · exact hc

theorem onData_wire {c c' : Ctx} {payload : Bytes} {flushed : Bool}
    (hs : Stream.onData env c payload flushed = .ok c') (hc : I c.wire) : I c'.wire := by
  unfold Stream.onData at hs
  split at hs
  · cases hs
    exact hc
  · dsimp only at hs
    split at hs
    · exact flushAck_wire hI hs hc
    · cases hs
      exact hc

theorem onEof_wire {c c' : Ctx} (hs : Stream.onEof env c = .ok c') (hc : I c.wire) : I c'.wire := by
  unfold Stream.onEof at hs
  split at hs
  · cases hs
    exact hc
  · obtain ⟨c1, h1, rfl⟩ := map_ok.mp hs
    have h2 : I c1.wire := flushAck_wire hI h1 hc
    dsimp only
    split
    · exact finish_wire h2
    · exact h2

theorem setUp_wire {c : Ctx} (hc : I c.wire) (preread : Bytes) : I (setUp env preread c).wire := by
  have h1 : ∀ c1 : Ctx, I c1.wire →
      I (if preread.length > 0 then Stream.writePreread env c1 preread else c1).wire := by
    intro c1 h1
    split
    · unfold Stream.writePreread
      split
      · exact h1
      · exact onSourceData_wire hI h1 preread
    · exact h1
  exact h1 (if c.wire.congested then { c with self := c.self.setGlobalPause true } else c) (by split <;> exact hc)

omit hI in
theorem call_wire {m : Ctx → Ctx} (hm : ∀ c : Ctx, I c.wire → I (m c).wire) (hw : I h.wire) :
    I (h.call a (method m)).wire := by
  unfold Hub.call
  split
  · exact hw
  · exact hm ⟨_, h.wire, _⟩ hw

omit hI in
theorem run_wire {m : Ctx → Except JsError Ctx} (hm : ∀ c c' : Ctx, m c = .ok c' → I c.wire → I c'.wire)
    (hw : I h.wire) (hr : h.run a (methodE m) = .ok h') : I h'.wire := by
  unfold Hub.run at hr
  split at hr
  · cases hr
    exact hw
  · obtain ⟨r, hr1, rfl⟩ := map_ok.mp hr
    obtain ⟨c', hc', rfl⟩ := map_ok.mp hr1
    exact hm ⟨_, h.wire, _⟩ c' hc' hw

theorem handleStreamFrame_wire (hw : I h.wire) {type id : Nat} {payload : Bytes} {flushed : Bool}
    (hs : handleStreamFrame env h type id payload flushed = .ok h') : I h'.wire := by
  unfold handleStreamFrame at hs
  split at hs
  · cases hs
    split
    · rw [wire_send]
      exact hI _ _ hw
    · exact hw
  · split at hs
    · exact run_wire (fun c c' => onData_wire hI) hw hs
    · split at hs
      · exact run_wire (fun c c' => onEof_wire hI) hw hs
      · split at hs
        · cases hs
          split
          · exact call_wire (m := fun c => { c with self := c.self.onAck (readUInt32BE payload) }) (fun c hc => hc) hw
          · exact hw
        · split at hs <;> cases hs
          · exact call_wire (fun c hc => destroy_wire hI hc "peer_reset") hw
          · exact hw

theorem openStream_wire (hw : I s.wire) (tunnelId remoteAddr : String) (socket : Socket) (preread : Bytes) :
    I (s.openStream env streamWindow tunnelId remoteAddr socket preread).wire := by
  unfold openStream
  dsimp only
  split
  · exact hw
  · refine call_wire (fun c hc => setUp_wire hI hc preread) ?_
    simp only [Hub.insert, wire_send]
    exact hI _ _ hw

/-- What `destroy` sets before it finishes the streams. -/
theorem destroyed_wire (hclosed : s.wire.closed = true → I s.wire)
    (hset : I { s.wire with closed := true, congestionTimer := false, congested := false }) :
    I (s.destroy env).wire := by
  have hfold : ∀ (l : List Nat) (h : Hub Stream), I h.wire →
      I (l.foldl (fun h a => h.call a (method fun c => c.destroy env "agent_gone")) h).wire := by
    intro l
    induction l with
    | nil => exact fun h hw => hw
    | cons a l ih => exact fun h hw => ih _ (call_wire (fun c hc => destroy_wire hI hc _) hw)
  unfold AgentSession.destroy
  split
  · rename_i hc
    exact hclosed hc
  · refine hfold _ _ ?_
    rw [wire_clearCongestion]
    exact hset

/-- What the events of a session do to its WebSocket besides `send`. -/
theorem step_wire (hw : I s.wire) {e : Event} (hreceived : ∀ w fs, I w → I { w with received := fs })
    (hclear : ∀ w, I w → I { w with congestionTimer := false, congested := false })
    (hnotOpen : ∀ w, I w → I { w with readyOpen := false })
    (hclose : e = .destroy → ∀ w, I w → I { w with closed := true, congestionTimer := false, congested := false })
    (hs : step env streamWindow s e = some s') : I s'.wire := by
  cases e with
  | accept tunnelId remoteAddr chunks =>
    cases hs
    exact openStream_wire hI hw _ _ _ _
  | data a chunk =>
    obtain ⟨h1, hh, rfl⟩ := Option.map_eq_some_iff.mp hs
    exact call_wire (fun c hc => onSourceData_wire hI hc chunk) (onSocket_wire hh ▸ hw)
  | «end» a =>
    obtain ⟨h1, hh, rfl⟩ := Option.map_eq_some_iff.mp hs
    exact call_wire (fun c hc => onSourceEnd_wire hI hc) (onSocket_wire hh ▸ hw)
  | drain a =>
    obtain ⟨h1, hh, hs1⟩ := Option.bind_eq_some_iff.mp hs
    obtain ⟨h2, hx, rfl⟩ := Option.map_eq_some_iff.mp hs1
    have hdrain : ∀ c c' : Ctx, Stream.onDrain env c = .ok c' → I c.wire → I c'.wire :=
      fun c c' hm hc => flushAck_wire hI hm hc
    exact run_wire hdrain (onSocket_wire hh ▸ hw) (toOption_eq_some.mp hx)
  | error a =>
    cases hs
    exact call_wire (fun c hc => destroy_wire hI hc _) hw
  | close a =>
    obtain ⟨h1, hh, rfl⟩ := Option.map_eq_some_iff.mp hs
    exact call_wire (fun c hc => finish_wire hc) (onSocket_wire hh ▸ hw)
  | frame f flushed =>
    have hw1 := hreceived s.wire (s.wire.received ++ [f]) hw
    cases f with
    | control type body =>
      cases hs
      exact hw1
    | stream type id payload =>
      obtain ⟨h2, hx, rfl⟩ := Option.map_eq_some_iff.mp hs
      exact handleStreamFrame_wire hI (h := { s.toHub with wire := { s.wire with received := s.wire.received ++
        [.stream type id payload] } }) hw1 (toOption_eq_some.mp hx)
  | control type body =>
    cases hs
    show I (s.toHub.send env (.control type body)).wire
    rw [wire_send]
    exact hI _ _ hw
  | poll buffered =>
    simp only [step] at hs
    split at hs
    · cases hs
      show I (s.toHub.poll env buffered).wire
      unfold Hub.poll
      split
      · rw [wire_clearCongestion]
        exact hclear _ hw
      · exact hw
    · cases hs
  | notOpen =>
    cases hs
    exact hnotOpen _ hw
  | destroy =>
    cases hs
    exact destroyed_wire hI (fun _ => hw) (hclose rfl s.wire hw)

end Wire

/-- The timer runs while the session is congested, which a closed one never is. -/
def Timed (w : Wire) : Prop := w.congestionTimer = w.congested ∧ (w.closed = true → w.congested = false)

theorem Timed.send (w : Wire) (f : Frame) (hw : Timed w) : Timed (w.send env f) := by
  unfold Wire.send Wire.checkCongestion
  split
  · rename_i hc
    have hcl : w.closed = false := by simp_all [Wire.canSend]
    split
    · exact hw
    · exact ⟨rfl, fun h1 => absurd (hcl.symm.trans h1) (by simp)⟩
  · exact hw

theorem step_timed (hw : Timed s.wire) {e : Event} (hs : step env streamWindow s e = some s') : Timed s'.wire :=
  step_wire Timed.send hw (fun _ _ h => h) (fun _ _ => ⟨rfl, fun _ => rfl⟩) (fun _ h => h)
    (fun _ _ _ => ⟨rfl, fun _ => rfl⟩) hs

theorem destroy_closed (s : AgentSession) : (s.destroy env).wire.closed = true :=
  destroyed_wire (I := fun w => w.closed = true) (fun w f h => (Wire.send_closed env w f).trans h) (fun h => h) rfl

theorem step_open (hw : s.wire.closed = false) {e : Event} (he : e ≠ .destroy)
    (hs : step env streamWindow s e = some s') : s'.wire.closed = false :=
  step_wire (I := fun w => w.closed = false) (fun w f h => (Wire.send_closed env w f).trans h) hw (fun _ _ h => h)
    (fun _ h => h) (fun _ h => h) (fun h => absurd h he) hs

/-! ## The tables -/

/-- Where no stream has left the table. -/
theorem settle_of_streams (hs : h.streams = s.streams) : s.settle h = { s with toHub := h } := by
  have hnil : s.streams.keys.filter (· ∉ h.streams) = [] := by
    rw [hs]
    simp [List.filter_eq_nil_iff, AList.mem_keys]
  unfold settle
  rw [hnil]
  rfl

/-- Every event but two leaves the counting to `onStreamFinished`. -/
theorem step_settles {e : Event} (he : ∀ tunnelId remoteAddr chunks, e ≠ .accept tunnelId remoteAddr chunks)
    (hd : e ≠ .destroy) (hs : step env streamWindow s e = some s') : s' = s.settle s'.toHub := by
  cases e with
  | accept tunnelId remoteAddr chunks => exact absurd rfl (he _ _ _)
  | data a chunk =>
    obtain ⟨h1, -, rfl⟩ := Option.map_eq_some_iff.mp hs
    rfl
  | «end» a =>
    obtain ⟨h1, -, rfl⟩ := Option.map_eq_some_iff.mp hs
    rfl
  | drain a =>
    obtain ⟨h1, -, hs1⟩ := Option.bind_eq_some_iff.mp hs
    obtain ⟨h2, -, rfl⟩ := Option.map_eq_some_iff.mp hs1
    rfl
  | error a =>
    cases hs
    rfl
  | close a =>
    obtain ⟨h1, -, rfl⟩ := Option.map_eq_some_iff.mp hs
    rfl
  | frame f flushed =>
    cases f with
    | control type body =>
      cases hs
      refine (settle_of_streams (s := s) ?_).symm
      rfl
    | stream type id payload =>
      obtain ⟨h2, -, rfl⟩ := Option.map_eq_some_iff.mp hs
      rfl
  | control type body =>
    cases hs
    exact (settle_of_streams (streams_send _)).symm
  | poll buffered =>
    simp only [step] at hs
    split at hs
    · cases hs
      refine (settle_of_streams ?_).symm
      show (s.toHub.poll env buffered).streams = s.streams
      unfold Hub.poll
      split
      · exact streams_clearCongestion
      · rfl
    · cases hs
  | notOpen =>
    cases hs
    refine (settle_of_streams (s := s) ?_).symm
    rfl
  | destroy => exact absurd rfl hd

/-- The streams that are left are among those that were there. -/
theorem streams_turn {f : Nat → Stream → Stream} {ins fs : List Frame} (hT : s.toHub.TableOk)
    (ht : Turn s.toHub s'.toHub f ins fs) {k : Nat} (hk : k ∈ s'.streams) : k ∈ s.streams := by
  obtain ⟨a, ha⟩ := Option.isSome_iff_exists.mp (AList.lookup_isSome.mpr hk)
  obtain ⟨t', ht', hid, hf⟩ := (ht.table k a).mp ha
  rw [ht.objs] at ht'
  obtain ⟨t, htt, rfl⟩ := Option.map_eq_some_iff.mp ht'
  have hkept := ht.kept a t htt
  refine AList.lookup_isSome.mp (Option.isSome_iff_exists.mpr ⟨a, (hT k a).mpr ⟨t, htt, hkept.id.symm.trans hid, ?_⟩⟩)
  by_contra hfin
  exact absurd (hkept.finished ((Bool.not_eq_false _).mp hfin)) (by rw [hf]; simp)

theorem lookup_settle (s : AgentSession) (h : Hub Stream) (k : Nat) : (s.settle h).streamTunnels.lookup k =
    if k ∈ s.streams ∧ k ∉ h.streams then none else s.streamTunnels.lookup k := by
  show (AgentSession.streamTunnels (List.foldl _ s _)).lookup k = _
  rw [lookup_finished]
  simp only [List.mem_filter, AList.mem_keys, decide_eq_true_eq]

/-- `destroy` of every stream in the table leaves none in it. -/
theorem foldl_destroy_streams (hT : h.TableOk) (hw : h.wire.canSend = false) (k : Nat) :
    k ∉ (h.streams.values.foldl (fun h a => h.call a (method fun c => c.destroy env "agent_gone")) h).streams := by
  have hm : ∀ (t : Stream) (l : Bool), method (fun c => c.destroy env "agent_gone") t h.wire l =
      (t.aborted, h.wire) := by
    intro t l
    simp [method, Ctx.destroy_silent env (c := ⟨t, h.wire, l⟩) (.inr hw)]
  have htable : ∀ (l : List Nat) (h : Hub Stream), h.TableOk →
      (l.foldl (fun h a => h.call a (method fun c => c.destroy env "agent_gone")) h).TableOk := by
    intro l
    induction l with
    | nil => exact fun h hT => hT
    | cons a l ih =>
      intro h hT
      refine ih _ ?_
      cases ht : h.objs[a]? with
      | none => simpa only [Hub.call, ht] using hT
      | some t =>
        have hturn : ∃ f fs, Turn h (h.call a (method fun c => c.destroy env "agent_gone")) f [] fs := by
          refine Turn.call hT h ht ht (fun _ _ => rfl) rfl (by simp) rfl rfl (by simp) fun l => ?_
          obtain ⟨fs, hn, hwire, hmoved⟩ := Ctx.destroy_moved env (c := ⟨t, h.wire, l⟩) "agent_gone" []
            (fun _ => rfl) (by simp)
          exact ⟨fs, Stream.acted_of_moved hn hwire hmoved⟩
        obtain ⟨f, fs, hturn⟩ := hturn
        exact hturn.table
  obtain ⟨-, hobjs⟩ := foldl_call hm Endpoint.aborted_aborted h.streams.values rfl
  intro hk
  obtain ⟨a, ha⟩ := Option.isSome_iff_exists.mp (AList.lookup_isSome.mpr hk)
  obtain ⟨t, ht, hid, hf⟩ := (htable _ h hT k a).mp ha
  rw [hobjs] at ht
  split at ht
  · obtain ⟨u, -, rfl⟩ := Option.map_eq_some_iff.mp ht
    exact absurd hf (by rw [show (StreamObj.base u.aborted).finished = true from u.finished_aborted]; simp)
  · rename_i hna
    exact hna (Dict.mem_values.mpr ⟨k, (hT k a).mpr ⟨t, ht, hid, hf⟩⟩)

/-- The invariant of the stream table. -/
structure Tabled (s : AgentSession) : Prop where
  table : s.toHub.TableOk
  keys : ∀ id, id ∈ s.streams ↔ id ∈ s.streamTunnels
  range : ∀ id, id ∈ s.streams → 1 ≤ id ∧ id ≤ MAX_STREAM_ID
  next : 1 ≤ s.nextStreamId ∧ s.nextStreamId ≤ MAX_STREAM_ID
  paused : All (OnTable fun c g => g.pausedGlobally = c) s.toHub
  tallied : s.Tallied
  timed : Timed s.wire
  closed : s.wire.closed = true → ∀ id, id ∉ s.streams

theorem tabled_new : new.Tabled where
  table k a := by simp [new]
  keys id := by simp [new]
  range id h := by simp [new] at h
  next := by simp [new, MAX_STREAM_ID]
  paused a t h := by simp [new] at h
  tallied t := by simp [new, Dict.values]
  timed := ⟨rfl, nofun⟩
  closed h := by simp [new] at h

theorem step_paused (hA : All (OnTable fun c g => g.pausedGlobally = c) s.toHub) {e : Event}
    (hs : step env streamWindow s e = some s') : All (OnTable fun c g => g.pausedGlobally = c) s'.toHub := by
  have hset : ∀ (b : Bool) (g : Gate), (g.setGlobalPause b).pausedGlobally = b := by
    intro b g
    unfold Gate.setGlobalPause Gate.maybeResume
    split
    · assumption
    · dsimp only
      split
      · simp_all
      · split <;> (try split) <;> simp_all
  refine step_keeps (fun g _ => hset true g) (fun c g n hg => ?_) (fun c g chunk _ hg => ?_) hA
    (fun tunnelId remoteAddr chunks id _ _ => ?_) (fun a st _ _ _ _ _ _ => hset false _) hs
  · unfold Gate.onAck Gate.maybeResume
    split <;> (try split) <;> exact hg
  · have hdata : ∀ g : Gate, (g.onSourceData chunk).pausedGlobally = g.pausedGlobally := by
      intro g
      unfold Gate.onSourceData
      dsimp only
      split <;> rfl
    exact ⟨(hdata g).trans hg, fun _ => (hdata _).trans (hset true g)⟩
  · exact (setUp_caused rfl rfl rfl rfl rfl).global rfl

/-- An event that leaves the counting to `onStreamFinished`. -/
theorem Tabled.settles (hI : s.Tabled) {f : Nat → Stream → Stream} {ins fs : List Frame}
    (ht : Turn s.toHub s'.toHub f ins fs) (hset : s' = s.settle s'.toHub)
    (hp : All (OnTable fun c g => g.pausedGlobally = c) s'.toHub) (htime : Timed s'.wire)
    (hopen : s'.wire.closed = true → s.wire.closed = true) : s'.Tabled := by
  have hsub : ∀ {k : Nat}, k ∈ s'.streams → k ∈ s.streams := streams_turn hI.table ht
  obtain ⟨-, -, hnext⟩ := finished_frame (s.streams.keys.filter (· ∉ s'.streams)) s
  refine ⟨ht.table, fun k => ?_, fun k hk => hI.range k (hsub hk), ?_, hp, ?_, htime,
    fun hc k hk => hI.closed (hopen hc) k (hsub hk)⟩
  · rw [← AList.lookup_isSome (s := s'.streamTunnels), hset, lookup_settle]
    constructor
    · intro hk
      have hk' : k ∈ s'.streams := hk
      rw [if_neg fun h1 => h1.2 hk']
      exact AList.lookup_isSome.mpr ((hI.keys k).mp (hsub hk'))
    · intro hk
      by_contra hn
      split at hk
      · simp at hk
      · rename_i hns
        exact hns ⟨(hI.keys k).mpr (AList.lookup_isSome.mp hk), hn⟩
  · rw [hset]
    exact hnext ▸ hI.next
  · rw [hset]
    exact hI.tallied.finished (s.streams.keys.filter (· ∉ s'.streams))

theorem Tabled.accept (hI : s.Tabled) (ho : s.wire.closed = false) {tunnelId remoteAddr : String}
    {chunks : List Bytes} (hs : step env streamWindow s (.accept tunnelId remoteAddr chunks) = some s') : s'.Tabled := by
  have hp := step_paused hI.paused hs
  have htime := step_timed hI.timed hs
  have hopen := step_open ho (by simp) hs
  cases hs
  cases hid : s.allocStreamId.1 with
  | none =>
    have hs' : s.openStream env streamWindow tunnelId remoteAddr (accepted chunks) chunks.flatten =
        { s with nextStreamId := s.allocStreamId.2 } := by
      simp [openStream, hid]
    rw [hs'] at hp htime hopen ⊢
    exact ⟨hI.table, hI.keys, hI.range, allocFrom_next hI.next.1 hI.next.2, hp, hI.tallied, htime, hI.closed⟩
  | some id =>
    obtain ⟨f, r, fs, hobjs, hsame, hstreams, -, -, hrid, -, hrf, -⟩ :=
      Sys.openStream_opens env streamWindow tunnelId remoteAddr chunks hid
    have hnone := Sys.allocFrom_lookup hid
    have hnew : id ∉ s.streamTunnels := fun h => absurd ((hI.keys id).mpr h) (AList.lookup_eq_none.mp hnone)
    have htunnels : (s.openStream env streamWindow tunnelId remoteAddr (accepted chunks)
        chunks.flatten).streamTunnels = s.streamTunnels.insert id tunnelId := by
      simp [openStream, hid]
    have hconns : (s.openStream env streamWindow tunnelId remoteAddr (accepted chunks) chunks.flatten).openConns =
        Function.update s.openConns tunnelId (s.openConns tunnelId + 1) := by
      simp [openStream, hid]
    have hnext : (s.openStream env streamWindow tunnelId remoteAddr (accepted chunks) chunks.flatten).nextStreamId =
        s.allocStreamId.2 := by
      simp [openStream, hid]
    refine ⟨TableOk.insert hI.table (fun b t ht hk => ?_) hstreams hobjs hsame hrid hrf, fun k => ?_, fun k hk => ?_,
      ?_, hp, fun u => ?_, htime, fun hc => absurd (hopen.symm.trans hc) (by simp)⟩
    · by_contra hf
      have h1 := (hI.table id b).mpr ⟨t, ht, hk, (Bool.not_eq_true _).mp hf⟩
      exact absurd (hnone.symm.trans h1) (by simp)
    · rw [hstreams, htunnels, AList.mem_insert, AList.mem_insert, hI.keys k]
    · rw [hstreams, AList.mem_insert] at hk
      rcases hk with rfl | hk
      · exact allocFrom_range hI.next.1 hI.next.2 hid
      · exact hI.range k hk
    · rw [hnext]
      exact allocFrom_next hI.next.1 hI.next.2
    · have hu := hI.tallied u
      rw [hconns, htunnels, Dict.values_insert tunnelId hnew, List.count_cons]
      by_cases h1 : u = tunnelId
      · subst h1
        rw [Function.update_self]
        simpa using hu
      · rw [Function.update_of_ne h1]
        simpa [Ne.symm h1] using hu

/-- All that was counted has finished. -/
theorem Tallied.settle_none (h : s.Tallied) (hkeys : ∀ id, id ∈ s.streams ↔ id ∈ s.streamTunnels) {g : Hub Stream}
    (hg : ∀ k, k ∉ g.streams) (u : String) : (s.settle g).openConns u = 0 := by
  have h1 : (s.settle g).Tallied := h.finished (s.streams.keys.filter (· ∉ g.streams))
  rw [h1 u, List.count_eq_zero]
  intro hu
  obtain ⟨k, hk⟩ := Dict.mem_values.mp hu
  rw [lookup_settle] at hk
  split at hk
  · cases hk
  · rename_i hn
    have hmem : k ∈ s.streams := (hkeys k).mpr (AList.lookup_isSome.mp (by rw [hk]; rfl))
    exact hn ⟨hmem, hg k⟩

theorem Tabled.destroy (hI : s.Tabled) (hs : step env streamWindow s .destroy = some s') : s'.Tabled := by
  have hp := step_paused hI.paused hs
  have htime := step_timed hI.timed hs
  cases hs
  have hturn : ∃ f fs, Turn s.toHub (s.destroy env).toHub f [] fs := destroy_turn hI.table
  unfold AgentSession.destroy at hp htime hturn ⊢
  split
  · exact hI
  · rename_i hc
    rw [if_neg hc] at hp htime hturn
    obtain ⟨f, fs, hturn⟩ := hturn
    let h0 : Hub Stream := { s.toHub with wire := { s.wire with closed := true } }.clearCongestion
    have hstill := Still.clearCongestion { s.toHub with wire := { s.wire with closed := true } }
    have hT : h0.TableOk := hstill.table hI.table
    have hw : h0.wire.canSend = false := by simp [h0, wire_clearCongestion, Wire.canSend]
    obtain ⟨-, -, hnext⟩ := finished_frame (s.streams.keys.filter (· ∉ (h0.streams.values.foldl
      (fun h a => h.call a (method fun c => c.destroy env "agent_gone")) h0).streams)) s
    have hnone : ∀ k, k ∉ (h0.streams.values.foldl
        (fun h a => h.call a (method fun c => c.destroy env "agent_gone")) h0).streams := foldl_destroy_streams hT hw
    have hzero := hI.tallied.settle_none hI.keys hnone
    refine ⟨hturn.table, fun k => by simp, fun k hk => by simp at hk, ?_, hp, fun u => ?_, htime, fun _ k => by simp⟩
    · exact hnext ▸ hI.next
    · exact hzero u

theorem Tabled.step (hI : s.Tabled) {e : Event}
    (ho : ∀ tunnelId remoteAddr chunks, e = .accept tunnelId remoteAddr chunks → s.wire.closed = false)
    (hs : step env streamWindow s e = some s') : s'.Tabled := by
  by_cases he : ∃ tunnelId remoteAddr chunks, e = .accept tunnelId remoteAddr chunks
  · obtain ⟨tunnelId, remoteAddr, chunks, rfl⟩ := he
    exact hI.accept (ho _ _ _ rfl) hs
  · have he' : ∀ tunnelId remoteAddr chunks, e ≠ .accept tunnelId remoteAddr chunks :=
      fun t r c h => he ⟨t, r, c, h⟩
    by_cases hd : e = .destroy
    · subst hd
      exact hI.destroy hs
    · obtain ⟨f, ins, fs, hturn, -, -⟩ := step_turn hI.table he' hs
      refine hI.settles hturn (step_settles he' hd hs) (step_paused hI.paused hs) (step_timed hI.timed hs) ?_
      intro hc
      by_contra ho
      exact absurd ((step_open ((Bool.not_eq_true _).mp ho) hd hs).symm.trans hc) (by simp)

end AgentSession

/-! ## Runs -/

/-- A session, and the tunnel of every stream it has opened. -/
structure Register where
  session : AgentSession
  opened : List String

namespace Register

open AgentSession

variable {env : WireEnv} {streamWindow : Int} {r r' : Register}

def new : Register := ⟨AgentSession.new, []⟩

/-- The tunnel of the stream that the event opens. -/
def opens (s : AgentSession) : Event → List String
  | .accept tunnelId _ _ => if s.allocStreamId.1.isSome then [tunnelId] else []
  | _ => []

def step (env : WireEnv) (streamWindow : Int) (r : Register) (e : Event) : Option Register :=
  (AgentSession.step env streamWindow r.session e).map fun s => ⟨s, r.opened ++ opens r.session e⟩

/-- The frontends open no stream on a session that is gone. -/
def BeforeDestroy (r : Register) : Event → Prop
  | .accept .. => r.session.wire.closed = false
  | _ => True

theorem step_totalConns {s s' : AgentSession} {e : Event} (hs : AgentSession.step env streamWindow s e = some s')
    (t : String) : s'.totalConns t = s.totalConns t + (opens s e).count t := by
  by_cases he : ∃ tunnelId remoteAddr chunks, e = .accept tunnelId remoteAddr chunks
  · obtain ⟨tunnelId, remoteAddr, chunks, rfl⟩ := he
    cases hs
    cases hid : s.allocStreamId.1 with
    | none => simp [openStream, opens, hid]
    | some id =>
      by_cases ht : t = tunnelId
      · simp [openStream, opens, hid, ht]
      · simp [openStream, opens, hid, ht, Ne.symm ht]
  · have hnil : opens s e = [] := by
      cases e with
      | accept t r c => exact absurd ⟨t, r, c, rfl⟩ he
      | _ => rfl
    rw [hnil]
    by_cases hd : e = .destroy
    · subst hd
      cases hs
      unfold AgentSession.destroy
      split
      · rfl
      · exact congrFun (finished_frame _ s).2.1 t
    · rw [step_settles (fun t r c h => he ⟨t, r, c, h⟩) hd hs]
      exact congrFun (finished_frame _ s).2.1 t

theorem reach_inv (hr : Lts.Reach (Lts.ofFn (step env streamWindow)) BeforeDestroy (· = new) r) :
    r.session.Tabled ∧ ∀ t, r.session.totalConns t = r.opened.count t := by
  refine hr.invariant (I := fun r => r.session.Tabled ∧ ∀ t, r.session.totalConns t = r.opened.count t) ?_ ?_
  · rintro r rfl
    exact ⟨tabled_new, fun t => rfl⟩
  · rintro r e r' _ ⟨hI, ht⟩ hok hs
    obtain ⟨s', hs', rfl⟩ := Option.map_eq_some_iff.mp hs
    refine ⟨hI.step (fun tunnelId remoteAddr chunks he => ?_) hs', fun t => ?_⟩
    · subst he
      exact hok
    · rw [step_totalConns hs' t, ht t, List.count_append]

/-- The stream table of a session, whatever it has been through: the tables are about the same
streams, an id is used once, the flags and counters are in step, and a teardown closes it and leaves
nothing. -/
theorem reach_tabled (hr : Lts.Reach (Lts.ofFn (step env streamWindow)) BeforeDestroy (· = new) r) :
    (∀ id, id ∈ r.session.streams ↔ id ∈ r.session.streamTunnels) ∧
      (∀ id, id ∈ r.session.streams → 1 ≤ id ∧ id ≤ 0xfffffffe) ∧
      (∀ id a, r.session.streams.lookup id = some a → ∃ st : Stream, r.session.objs[a]? = some st ∧ st.id = id ∧
        st.finished = false ∧ st.pausedGlobally = r.session.wire.congested) ∧
      (∀ (a a' : Nat) (st st' : Stream), r.session.objs[a]? = some st → r.session.objs[a']? = some st' →
        st.finished = false → st'.finished = false → st.id = st'.id → a = a') ∧
      (∀ t, r.session.openConns t = r.session.streamTunnels.values.count t) ∧
      (∀ (ids : List Nat) (id : Nat) (t : String),
        (ids.foldl onStreamFinished r.session).streamTunnels.lookup id = some t →
          0 < (ids.foldl onStreamFinished r.session).openConns t) ∧
      (∀ t, r.session.totalConns t = r.opened.count t) ∧
      (∀ r', step env streamWindow r .destroy = some r' → r'.session.wire.closed = true) ∧
      (r.session.wire.closed = true → r.session.streams = ∅ ∧ r.session.streamTunnels = ∅ ∧
        (∀ t, r.session.openConns t = 0) ∧ r.session.wire.congestionTimer = false) := by
  obtain ⟨hI, ht⟩ := reach_inv hr
  refine ⟨hI.keys, hI.range, fun id a ha => ?_, fun a a' st st' hs hs' hf hf' hid => ?_, hI.tallied,
    fun ids id t => (hI.tallied.finished ids).pos, ht, fun r' hs => ?_, fun hc => ?_⟩
  · obtain ⟨st, hst, hid, hf⟩ := (hI.table id a).mp ha
    exact ⟨st, hst, hid, hf, hI.paused a st hst (listed_iff.mpr ⟨id, ha⟩) hf⟩
  · have h1 := (hI.table st.id a).mpr ⟨st, hs, rfl, hf⟩
    have h2 := (hI.table st.id a').mpr ⟨st', hs', hid.symm, hf'⟩
    exact Option.some.inj (h1.symm.trans h2)
  · obtain ⟨s', hs', rfl⟩ := Option.map_eq_some_iff.mp hs
    cases hs'
    exact destroy_closed r.session
  · have h1 := hI.closed hc
    have h2 : r.session.streamTunnels = ∅ := Dict.eq_empty fun k hk => h1 k ((hI.keys k).mpr hk)
    refine ⟨Dict.eq_empty h1, h2, fun t => ?_, hI.timed.1.trans (hI.timed.2 hc)⟩
    rw [hI.tallied t, h2]
    rfl

instance (r : Register) (e : Event) : Decidable (BeforeDestroy r e) :=
  match e with
  | .accept .. => instDecidableEqBool r.session.wire.closed false
  | .data .. | .end _ | .drain _ | .error _ | .close _ | .frame .. | .control .. | .poll _ | .notOpen | .destroy =>
    isTrue trivial

/-- An owner whose WebSocket is full after the third frame. -/
def filling : WireEnv := ⟨8388608, fun n => if n < 3 then 0 else 16777216⟩

/-- Three visitors, of whom one leaves; then the WebSocket goes. -/
theorem reach_tabled_torn : ∃ r, Lts.Reach (Lts.ofFn (step filling 4)) BeforeDestroy (· = new) r ∧
    r.opened = ["t", "u", "t"] ∧ r.session.totalConns "t" = 2 ∧ r.session.openConns "t" = 0 ∧
    r.session.streamTunnels = ∅ := by
  let es : List Event := [.accept "t" "a" [[1]], .accept "u" "b" [[2]], .accept "t" "c" [], .close 0, .destroy]
  let check : Register → Bool := fun r => r.opened == ["t", "u", "t"] && r.session.wire.closed
  have hx : ((Lts.execOk (step filling 4) BeforeDestroy new es).map check) = some true := by decide +kernel
  obtain ⟨r, hr, hv⟩ := Option.map_eq_some_iff.mp hx
  simp only [check, Bool.and_eq_true, beq_iff_eq] at hv
  have hreach : Lts.Reach (Lts.ofFn (step filling 4)) BeforeDestroy (· = new) r := .execOk (.start rfl) hr
  obtain ⟨-, -, -, -, -, -, htotal, -, hclosed⟩ := reach_tabled hreach
  obtain ⟨-, htunnels, hopen, -⟩ := hclosed hv.2
  refine ⟨r, hreach, hv.1, ?_, hopen "t", htunnels⟩
  rw [htotal, hv.1]
  rfl

end Register

end UpTunnel
