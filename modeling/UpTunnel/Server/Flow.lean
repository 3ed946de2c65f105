import UpTunnel.Server.Session
import UpTunnel.Lib.Reach

/-!
# UpTunnel.Server.Flow

When the public sockets of a session are paused.

* `step_keeps`: a property of the gates of the streams in the table that the four operations of
  `Gate` keep is kept by every step of the session. What opening a stream and clearing congestion
  do is left to the property.
* `blocked_paused`: a stream that is out of credit, or whose session is congested, is not read, as
  long as `openStream` never resumes such a stream.
* `not_blocked_paused`: `openStream` does resume one whose pre-read head uses up the window.
-/

namespace UpTunnel

open Js Hub

namespace AgentSession

/-- `L` holds of the gate of every unfinished stream in the table. -/
def OnTable (L : Bool → Gate → Prop) (c l : Bool) (s : Stream) : Prop :=
  l = true → s.finished = false → L c s.gate

variable {L : Bool → Gate → Prop}

theorem law_onTable (hc : ∀ g, L false g → L true (g.setGlobalPause true)) : Law (OnTable L) where
  congest s hs hl hf := by
    have hf' : s.finished = false := (Endpoint.finished_setGlobalPause s true).symm.trans hf
    show L true (s.setGlobalPause true).gate
    rw [Endpoint.gate_setGlobalPause hf']
    exact hc _ (hs hl hf')
  congestUnlisted s hs hl := nomatch hl
  unlist c s hs hl := nomatch hl

/-- What a quiet method may do, for a property of gates that congestion starting keeps. -/
theorem onTable_quiet (hc : ∀ g, L false g → L true (g.setGlobalPause true)) {c c' : Ctx} (h : c.Quiet c')
    (hp : OnTable L c.wire.congested c.listed c.self) : OnTable L c'.wire.congested c.listed c'.self := by
  intro hl hf
  have hg := h.gate hf
  have hp := hp hl (h.finished hf)
  have hmono := h.congested
  rw [hg]
  cases h1 : c.wire.congested <;> cases h2 : c'.wire.congested <;> simp_all [Ctx.started]

section Steps
variable {env : WireEnv} {streamWindow : Int} {h h' : Hub Stream} {a : Nat}

theorem all_quiet (hc : ∀ g, L false g → L true (g.setGlobalPause true)) (hA : All (OnTable L) h)
    {m : Ctx → Ctx} (hm : ∀ c : Ctx, c.Quiet (m c)) : All (OnTable L) (h.call a (method m)) :=
  hA.call (law_onTable hc) fun s _ hp =>
    ⟨(hm ⟨s, h.wire, h.listed a⟩).congested, onTable_quiet hc (hm ⟨s, h.wire, h.listed a⟩) hp⟩

theorem all_quietE (hc : ∀ g, L false g → L true (g.setGlobalPause true)) (hA : All (OnTable L) h)
    {m : Ctx → Except JsError Ctx} (hm : ∀ c c' : Ctx, m c = .ok c' → c.Quiet c')
    (hr : h.run a (methodE m) = .ok h') : All (OnTable L) h' := by
  refine hA.run (law_onTable hc) hr fun s r _ hr hp => ?_
  obtain ⟨c', hc', rfl⟩ := map_ok.mp hr
  exact ⟨(hm _ c' hc').congested, onTable_quiet hc (hm _ c' hc') hp⟩

/-- An event that changes only what the socket has read, or whether it is open. -/
theorem all_onSocket (hA : All (OnTable L) h) {p : Socket → Option Socket}
    (hp : ∀ k k', p k = some k' → k'.paused = k.paused)
    (hs : AgentSession.onSocket h a p = some h') : All (OnTable L) h' := by
  unfold AgentSession.onSocket at hs
  split at hs
  · cases hs
  · rename_i s hs0
    obtain ⟨k, hk, rfl⟩ := Option.map_eq_some_iff.mp hs
    intro a' t ht
    have ha : a < h.objs.length := (List.getElem?_eq_some_iff.mp hs0).1
    by_cases hne : a' = a
    · subst hne
      simp only [List.getElem?_set_self ha] at ht
      cases ht
      have hg : Endpoint.gate { s with socket := k } = s.gate := by simp [Endpoint.gate, hp _ _ hk]
      intro hl hf
      rw [hg]
      exact hA a' s hs0 hl hf
    · exact hA a' t (by simpa [List.getElem?_set_ne (Ne.symm hne)] using ht)

theorem handleStreamFrame_keeps (hc : ∀ g, L false g → L true (g.setGlobalPause true))
    (hack : ∀ c g n, L c g → L c (g.onAck n)) (hA : All (OnTable L) h) {type id : Nat} {payload : Bytes}
    {flushed : Bool} (hs : handleStreamFrame env h type id payload flushed = .ok h') : All (OnTable L) h' := by
  unfold handleStreamFrame at hs
  split at hs
  · cases hs
    split
    · exact hA.send (law_onTable hc) _
    · exact hA
  · split at hs
    · exact all_quietE hc hA (fun _ _ => Stream.onData_quiet) hs
    · split at hs
      · exact all_quietE hc hA (fun _ _ => Stream.onEof_quiet) hs
      · split at hs
        · cases hs
          split
          · refine hA.call (law_onTable hc) fun s _ hp => ⟨fun h1 => h1, fun hl hf => ?_⟩
            have hf' : s.finished = false := (Endpoint.finished_onAck s _).symm.trans hf
            show L _ (s.onAck _).gate
            rw [Endpoint.gate_onAck hf']
            exact hack _ _ _ (hp hl hf')
          · exact hA
        · split at hs <;> cases hs
          · exact all_quiet hc hA fun c => Ctx.destroy_quiet env "peer_reset" c
          · exact hA

theorem setUp_congested (preread : Bytes) (c : Ctx) :
    c.wire.congested = true → (setUp env preread c).wire.congested = true := by
  intro h
  have hd : ∀ c1 : Ctx, c1.wire.congested = true → (c1.onSourceData env preread).wire.congested = true := by
    intro c1 h1
    unfold Ctx.onSourceData
    split
    · exact h1
    · dsimp only
      split <;> exact Wire.send_congested_of env _ _ h1
  let c1 : Ctx := if c.wire.congested then { c with self := c.self.setGlobalPause true } else c
  have h1 : c1.wire.congested = true := by
    simp only [c1]
    split <;> exact h
  show (if preread.length > 0 then Stream.writePreread env c1 preread else c1).wire.congested = true
  split
  · unfold Stream.writePreread
    split
    · exact h1
    · exact hd _ h1
  · exact h1

/-- The context in which `openStream` sets up a new stream. -/
def fresh (env : WireEnv) (streamWindow : Int) (w : Wire) (id : Nat) (tunnelId remoteAddr : String)
    (chunks : List Bytes) : Ctx :=
  let w' := w.send env (.streamJson FrameType.streamOpen id
    [("tunnelId", .str tunnelId), ("remoteAddr", .str remoteAddr)])
  ⟨Endpoint.new id (accepted chunks) streamWindow w, w', true⟩

theorem openStream_keeps (hc : ∀ g, L false g → L true (g.setGlobalPause true)) {s : AgentSession}
    (hA : All (OnTable L) s.toHub) {tunnelId remoteAddr : String} {chunks : List Bytes}
    (hopen : ∀ id, s.allocStreamId.1 = some id →
      let c := setUp env chunks.flatten (fresh env streamWindow s.wire id tunnelId remoteAddr chunks)
      L c.wire.congested c.self.gate) :
    All (OnTable L) (s.openStream env streamWindow tunnelId remoteAddr (accepted chunks) chunks.flatten).toHub := by
  unfold openStream
  dsimp only
  split
  · exact hA
  · rename_i id hid
    have hA1 : All (OnTable L) (s.toHub.send env (.streamJson FrameType.streamOpen id
      [("tunnelId", .str tunnelId), ("remoteAddr", .str remoteAddr)])) := hA.send (law_onTable hc) _
    refine AllBut.call (law_onTable hc) (hA1.insert_but (law_onTable hc) id _) fun st hst => ?_
    rw [getElem?_insert_self] at hst
    cases hst
    rw [listed_insert_self]
    let c := fresh env streamWindow s.wire id tunnelId remoteAddr chunks
    simp only [wire_send, Hub.insert]
    exact ⟨setUp_congested chunks.flatten c, fun _ _ => hopen id hid⟩

end Steps

/-- A step keeps `L` on the table. Opening a stream has to establish it, clearing congestion to
re-establish it; a socket that is paused has no data. -/
theorem step_keeps {env : WireEnv} {streamWindow : Int}
    (hc : ∀ g, L false g → L true (g.setGlobalPause true))
    (hack : ∀ c g n, L c g → L c (g.onAck n))
    (hdata : ∀ c g chunk, g.paused = false → L c g → L c (g.onSourceData chunk) ∧
      (c = false → L true ((g.setGlobalPause true).onSourceData chunk)))
    {s s' : AgentSession} {e : Event} (hA : All (OnTable L) s.toHub)
    (hopen : ∀ tunnelId remoteAddr chunks id, e = .accept tunnelId remoteAddr chunks →
      s.allocStreamId.1 = some id →
      let c := setUp env chunks.flatten (fresh env streamWindow s.wire id tunnelId remoteAddr chunks)
      L c.wire.congested c.self.gate)
    (hclear : ∀ a st, (∃ buffered, e = .poll buffered ∧
        (s.wire.closed = true ∨ (buffered : Int) ≤ env.wsMaxBuffered / 2)) →
      s.wire.congested = true → s.objs[a]? = some st → s.listed a = true → st.finished = false →
      L true st.gate → L false (st.gate.setGlobalPause false))
    (hs : step env streamWindow s e = some s') : All (OnTable L) s'.toHub := by
  cases e with
  | accept tunnelId remoteAddr chunks =>
    cases hs
    exact openStream_keeps hc hA fun id hid => hopen tunnelId remoteAddr chunks id rfl hid
  | data a chunk =>
    obtain ⟨h1, hh, rfl⟩ := Option.map_eq_some_iff.mp hs
    have hsock : ∀ k k' : Socket, (if k.canRead then some { k with read := k.read ++ [chunk] } else none) = some k' →
        k'.paused = k.paused := by
      intro k k' hk
      split at hk <;> cases hk
      rfl
    have hA1 := all_onSocket hA hsock hh
    have hopen1 : ∀ t, h1.objs[a]? = some t → t.socket.paused = false := by
      intro t ht
      unfold AgentSession.onSocket at hh
      split at hh
      · cases hh
      · rename_i st hst
        obtain ⟨k, hk, rfl⟩ := Option.map_eq_some_iff.mp hh
        have ha : a < s.objs.length := (List.getElem?_eq_some_iff.mp hst).1
        simp only [List.getElem?_set_self ha] at ht
        cases ht
        have hr : st.socket.canRead = true := by
          by_contra hr
          simp [hr] at hk
        have hpk : k.paused = st.socket.paused := hsock _ _ hk
        simp only [Socket.canRead, Bool.and_eq_true, Bool.not_eq_true'] at hr
        exact hpk.trans hr.1.1
    rw [toHub_settle]
    refine hA1.call (law_onTable hc) fun t ht hp => ?_
    show (_ → (Stream.onSocketData env ⟨t, h1.wire, h1.listed a⟩ chunk).wire.congested = true) ∧
      OnTable L (Stream.onSocketData env ⟨t, h1.wire, h1.listed a⟩ chunk).wire.congested (h1.listed a)
        (Stream.onSocketData env ⟨t, h1.wire, h1.listed a⟩ chunk).self
    generalize hcx : (⟨t, h1.wire, h1.listed a⟩ : Ctx) = c
    have e1 : t = c.self := by rw [← hcx]
    have e2 : h1.wire = c.wire := by rw [← hcx]
    have e3 : h1.listed a = c.listed := by rw [← hcx]
    rw [e2, e3, e1] at hp
    rw [e2, e3]
    have hpaused : c.self.socket.paused = false := e1 ▸ hopen1 t ht
    unfold Stream.onSocketData
    by_cases hskip : (c.self.finished || c.self.sentEof) = true
    · rw [Ctx.onSourceData_skip env hskip]
      exact ⟨id, hp⟩
    · have hf : c.self.finished = false := by simp_all
      have he : c.self.sentEof = false := by simp_all
      obtain ⟨c1, hq, hw, hf1, hg⟩ := Ctx.onSourceData_gate env chunk hf he
      rw [← hw]
      refine ⟨hq.congested, fun hl _ => ?_⟩
      have hd := hdata c.wire.congested c.self.gate chunk hpaused (hp hl hf)
      rw [hg, hq.gate hf1]
      have hmono := hq.congested
      cases h3 : c.wire.congested <;> cases h4 : c1.wire.congested <;> simp_all [Ctx.started]
  | «end» a =>
    obtain ⟨h1, hh, rfl⟩ := Option.map_eq_some_iff.mp hs
    have hA1 := all_onSocket hA (fun k k' hk => by split at hk <;> cases hk; rfl) hh
    exact all_quiet hc hA1 (Ctx.onSourceEnd_quiet env)
  | drain a =>
    obtain ⟨h1, hh, hs1⟩ := Option.bind_eq_some_iff.mp hs
    have hA1 := all_onSocket hA (fun k k' hk => by split at hk <;> cases hk; rfl) hh
    obtain ⟨h2, hx, rfl⟩ := Option.map_eq_some_iff.mp hs1
    exact all_quietE hc hA1 (fun _ _ => Stream.onDrain_quiet) (toOption_eq_some.mp hx)
  | error a =>
    cases hs
    exact all_quiet hc hA fun c => Ctx.destroy_quiet env "socket_error" c
  | close a =>
    obtain ⟨h1, hh, rfl⟩ := Option.map_eq_some_iff.mp hs
    have hA1 := all_onSocket hA (fun k k' hk => by cases hk; rfl) hh
    exact all_quiet hc hA1 Ctx.finish_quiet
  | frame f flushed =>
    have hA1 : All (OnTable L) { s.toHub with wire := { s.wire with received := s.wire.received ++ [f] } } := hA
    cases f with
    | control type body =>
      cases hs
      exact hA1
    | stream type id payload =>
      obtain ⟨h2, hx, rfl⟩ := Option.map_eq_some_iff.mp hs
      exact handleStreamFrame_keeps hc hack hA1 (toOption_eq_some.mp hx)
  | control type body =>
    cases hs
    exact hA.send (law_onTable hc) _
  | poll buffered =>
    simp only [step] at hs
    split at hs
    · cases hs
      show All (OnTable L) (s.toHub.poll env buffered)
      unfold Hub.poll
      split
      · rename_i hb
        refine hA.clearCongestion fun a st hst hcong hp => ?_
        intro hl hf
        rw [if_pos hl] at hf ⊢
        have hf' : st.finished = false := (Endpoint.finished_setGlobalPause st false).symm.trans hf
        show L false (st.setGlobalPause false).gate
        rw [Endpoint.gate_setGlobalPause hf']
        exact hclear a st ⟨buffered, rfl, by simpa using hb⟩ hcong hst hl hf' (hp hl hf')
      · exact hA
    · cases hs
  | notOpen =>
    cases hs
    exact hA
  | destroy =>
    cases hs
    show All (OnTable L) (s.destroy env).toHub
    unfold AgentSession.destroy
    split
    · exact hA
    · intro a t _ hl
      obtain ⟨id, hid⟩ := listed_iff.mp hl
      simp at hid

/-! ## Blocked streams -/

/-- A stream that is out of credit, or whose session is congested, is paused; what it has
outstanding is what the window lacks, and was in bounds when it was last read from. -/
structure Held (streamWindow : Int) (c : Bool) (g : Gate) : Prop where
  global : g.pausedGlobally = c
  pausedGlobally : g.pausedGlobally = true → g.paused = true
  pausedForCredit : g.pausedForCredit = true → g.paused = true
  credit : g.sendCredit ≤ 0 → g.pausedForCredit = true
  balance : g.sendCredit + g.outstanding = streamWindow
  bound : g.outstanding ≤ 0 ∨ ∃ chunk ∈ g.chunks, g.outstanding ≤ streamWindow + chunk.length - 1

section
variable {streamWindow : Int} {c : Bool} {g : Gate}

theorem Held.setGlobalPause (h : Held streamWindow false g) : Held streamWindow true (g.setGlobalPause true) := by
  have hg := h.global
  simp only [Gate.setGlobalPause, hg, Bool.false_eq_true, if_false, if_true]
  exact ⟨rfl, fun _ => rfl, fun _ => rfl, h.credit, h.balance, h.bound⟩

theorem Held.maybeResume (h : Held streamWindow c g) : Held streamWindow c g.maybeResume := by
  unfold Gate.maybeResume
  split
  · exact h
  · rename_i h1
    simp only [Bool.or_eq_true, decide_eq_true_eq, not_or, not_le, Bool.not_eq_true] at h1
    split
    · exact h
    · exact ⟨h.global, by simp [h1.1], nofun, fun h2 => by simp only at h2; omega, h.balance, h.bound⟩

theorem Held.onAck (h : Held streamWindow c g) (n : Nat) : Held streamWindow c (g.onAck n) := by
  have hbal := h.balance
  have hb := h.bound
  refine Held.maybeResume ⟨h.global, h.pausedGlobally, h.pausedForCredit, fun h1 => h.credit ?_, ?_, ?_⟩
  · simp only at h1
    omega
  · simp only [Gate.outstanding] at hbal ⊢
    omega
  · simp only [Gate.outstanding] at hb ⊢
    rcases hb with hb | ⟨chunk, hc, hb⟩
    · exact .inl (by omega)
    · exact .inr ⟨chunk, hc, by omega⟩

/-- Source data while there is credit; the gate may have been paused in between. -/
theorem Held.onSourceData (h : Held streamWindow c g) (hpos : 0 < g.sendCredit) (chunk : Bytes) :
    Held streamWindow c (g.onSourceData chunk) := by
  have hbal := h.balance
  have hout : ({ g with sendCredit := g.sendCredit - chunk.length, chunks := g.chunks ++ [chunk] } : Gate).outstanding
      = g.outstanding + chunk.length := by
    simp only [Gate.outstanding, List.flatten_append, List.length_append, List.flatten_cons, List.flatten_nil,
      List.append_nil]
    omega
  have hnew : g.outstanding + (chunk.length : Int) ≤ streamWindow + chunk.length - 1 := by omega
  unfold Gate.onSourceData
  dsimp only
  split
  · refine ⟨h.global, fun _ => rfl, fun _ => rfl, fun _ => rfl, ?_, .inr ⟨chunk, by simp, ?_⟩⟩
    · simp only [Gate.outstanding] at hout hbal ⊢
      omega
    · simp only [Gate.outstanding] at hout hnew ⊢
      omega
  · rename_i h1
    simp only [Bool.and_eq_true, decide_eq_true_eq, Bool.not_eq_true', not_and, Bool.not_eq_false] at h1
    refine ⟨h.global, h.pausedGlobally, h.pausedForCredit, h1, ?_, .inr ⟨chunk, by simp, ?_⟩⟩
    · simp only [hout]
      omega
    · rw [hout]
      exact hnew

theorem Held.clear (h : Held streamWindow true g) : Held streamWindow false (g.setGlobalPause false) := by
  have hg := h.global
  simp only [Gate.setGlobalPause, hg, Bool.true_eq_false, if_false]
  exact Held.maybeResume ⟨rfl, nofun, h.pausedForCredit, h.credit, h.balance, h.bound⟩

end

/-- `openStream`'s `socket.resume()` lets go of no stream that has to wait: the session is not
congested, what it sends does not congest it, and the pre-read leaves some of the window. -/
def Admits (env : WireEnv) (streamWindow : Int) (s : AgentSession) : Event → Prop
  | .accept _ _ chunks => s.allocStreamId.1.isSome = true →
      s.wire.congested = false ∧
      (s.wire.canSend = true → env.bufferedAmount (s.wire.sent.length + 1) ≤ env.wsMaxBuffered ∧
        (chunks.flatten ≠ [] → env.bufferedAmount (s.wire.sent.length + 2) ≤ env.wsMaxBuffered)) ∧
      chunks.flatten.length < streamWindow
  | _ => True

variable {env : WireEnv} {streamWindow : Int}

theorem send_not_congested {w : Wire} {f : Frame} (hc : w.congested = false)
    (hb : w.canSend = true → env.bufferedAmount (w.sent.length + 1) ≤ env.wsMaxBuffered) :
    (w.send env f).congested = false := by
  unfold Wire.send Wire.checkCongestion
  split
  · rename_i h1
    have := hb h1
    simp [hc, this]
  · exact hc

theorem setUp_held {c : Ctx} {preread : Bytes} (hc : c.wire.congested = false)
    (hb : c.wire.canSend = true → preread ≠ [] →
      env.bufferedAmount (c.wire.sent.length + 1) ≤ env.wsMaxBuffered)
    (hf : c.self.finished = false) (he : c.self.sentEof = false) (hg : c.self.pausedGlobally = false)
    (hp : c.self.pausedForCredit = false) (hcr : c.self.sendCredit = streamWindow)
    (hch : c.self.chunks = []) (hack : c.self.acked = 0) (hlen : preread.length < streamWindow) :
    Held streamWindow (setUp env preread c).wire.congested (setUp env preread c).self.gate := by
  unfold setUp
  simp only [hc, Bool.false_eq_true, if_false]
  split
  · rename_i hne
    have hne' : preread ≠ [] := List.ne_nil_of_length_pos hne
    have hw : (c.wire.send env (.data c.self.id preread)).congested = false :=
      send_not_congested hc fun h => hb h hne'
    have hsend : c.send env (.data c.self.id preread) =
        { c with wire := c.wire.send env (.data c.self.id preread) } := by
      simp [Ctx.send, hw]
    have hsd : Stream.writePreread env c preread =
        { c with
          self := { c.self with sendCredit := c.self.sendCredit - preread.length, chunks := c.self.chunks ++ [preread] }
          wire := c.wire.send env (.data c.self.id preread) } := by
      unfold Stream.writePreread
      rw [if_neg (by omega), Stream.onSocketData, Ctx.onSourceData, if_neg (by simp [hf, he]), hsend]
      dsimp only
      rw [if_neg (by simp only [hcr, hp]; simp; omega)]
    simp only [hsd, hw]
    refine ⟨hg, by simp [Endpoint.gate, Endpoint.resume, hg], by simp [Endpoint.gate, Endpoint.resume, hp], ?_, ?_, ?_⟩
    · simp only [Endpoint.gate, Endpoint.resume, hcr]
      omega
    · simp only [Endpoint.gate, Endpoint.resume, Gate.outstanding, hcr, hch, hack]
      simp
    · right
      refine ⟨preread, by simp [Endpoint.gate, Endpoint.resume], ?_⟩
      simp only [Endpoint.gate, Endpoint.resume, Gate.outstanding, hch, hack]
      simp
      omega
  · simp only [hc]
    refine ⟨hg, by simp [Endpoint.gate, Endpoint.resume, hg], by simp [Endpoint.gate, Endpoint.resume, hp], ?_, ?_, ?_⟩
    · simp only [Endpoint.gate, Endpoint.resume, hcr]
      omega
    · simp [Endpoint.gate, Endpoint.resume, Gate.outstanding, hcr, hch, hack]
    · left
      simp [Endpoint.gate, Endpoint.resume, Gate.outstanding, hch, hack]

theorem step_held {s s' : AgentSession} {e : Event} (hA : All (OnTable (Held streamWindow)) s.toHub)
    (hok : Admits env streamWindow s e) (hs : step env streamWindow s e = some s') :
    All (OnTable (Held streamWindow)) s'.toHub := by
  refine step_keeps (fun g hg => hg.setGlobalPause) (fun c g n hg => hg.onAck n) (fun c g chunk hp hg => ?_)
    hA (fun tunnelId remoteAddr chunks id he hid => ?_) (fun a st _ _ _ _ _ hg => hg.clear) hs
  · have hpos : 0 < g.sendCredit := by
      by_contra hle
      have h1 := hg.pausedForCredit (hg.credit (by omega))
      simp [hp] at h1
    refine ⟨hg.onSourceData hpos chunk, fun hc => ?_⟩
    subst hc
    refine hg.setGlobalPause.onSourceData ?_ chunk
    simpa [Gate.setGlobalPause, hg.global] using hpos
  · subst he
    obtain ⟨hc, hb, hlen⟩ := hok (by simp [hid])
    have hw : (fresh env streamWindow s.wire id tunnelId remoteAddr chunks).wire.congested = false :=
      send_not_congested hc fun h => (hb h).1
    refine setUp_held hw (fun hcs hne => ?_) rfl rfl rfl rfl rfl rfl rfl hlen
    have hcs' : s.wire.canSend = true := by simpa [fresh] using hcs
    have hlen' : (fresh env streamWindow s.wire id tunnelId remoteAddr chunks).wire.sent.length =
        s.wire.sent.length + 1 := by
      simp [fresh, Wire.send_sent, Wire.passed, hcs']
    rw [hlen']
    exact (hb hcs').2 hne

/-- As long as `openStream` resumes no stream that has to wait, a stream that is out of credit or
whose session is congested is paused: it has credit whenever it can be read from, and never has more
outstanding than the window and one chunk less one byte. -/
theorem blocked_paused {s : AgentSession}
    (hr : Lts.Reach (Lts.ofFn (step env streamWindow)) (Admits env streamWindow) (· = new) s)
    {a : Nat} {st : Stream} (hst : s.objs[a]? = some st) (hl : s.listed a = true) (hf : st.finished = false) :
    (s.wire.congested = true ∨ st.sendCredit ≤ 0 → st.socket.paused = true) ∧
      (st.socket.canRead = true → 0 < st.sendCredit) ∧
      (st.gate.outstanding ≤ 0 ∨
        ∃ chunk ∈ st.chunks, st.gate.outstanding ≤ streamWindow + chunk.length - 1) := by
  have hA : All (OnTable (Held streamWindow)) s.toHub := by
    refine hr.invariant (I := fun s => All (OnTable (Held streamWindow)) s.toHub) ?_ ?_
    · rintro s rfl a t ht
      simp [new] at ht
    · intro s e s' _ hA hok hs
      exact step_held hA hok hs
  have hh := hA a st hst hl hf
  have hpaused : s.wire.congested = true ∨ st.sendCredit ≤ 0 → st.socket.paused = true := by
    rintro (h1 | h1)
    · exact hh.pausedGlobally (hh.global.trans h1)
    · exact hh.pausedForCredit (hh.credit h1)
  refine ⟨hpaused, fun hcr => ?_, hh.bound⟩
  by_contra hle
  have h1 := hpaused (.inr (by omega))
  simp [Socket.canRead, h1] at hcr

/-- An owner that never sees its WebSocket fill up. -/
def calm : WireEnv := ⟨8388608, fun _ => 0⟩

/-- A request head of two bytes and a chunk of three, over a window of four. -/
theorem blocked_paused_spent : ∃ (s : AgentSession) (st : Stream),
    Lts.Reach (Lts.ofFn (step calm 4)) (Admits calm 4) (· = new) s ∧ s.objs[0]? = some st ∧
      st.sendCredit = -1 ∧ st.socket.paused = true := by
  let s1 := new.openStream calm 4 "t" "r" (accepted [[1], [2]]) [1, 2]
  have h1 : Lts.Reach (Lts.ofFn (step calm 4)) (Admits calm 4) (· = new) s1 :=
    .next (.start rfl) (e := .accept "t" "r" [[1], [2]])
      (fun _ => ⟨rfl, fun _ => ⟨by decide, fun _ => by decide⟩, by decide⟩) rfl
  have hq : (((step calm 4 s1 (.data 0 [3, 4, 5])).bind fun s => if s.listed 0 then s.objs[0]? else none).map
      fun st => (st.finished, st.sendCredit)) = some (false, -1) := by decide
  obtain ⟨st, hst, hv⟩ := Option.map_eq_some_iff.mp hq
  obtain ⟨s, hs, hst⟩ := Option.bind_eq_some_iff.mp hst
  rw [Option.ite_none_right_eq_some] at hst
  simp only [Prod.mk.injEq] at hv
  have hr := h1.next (show Admits calm 4 s1 (.data 0 [3, 4, 5]) from trivial) hs
  exact ⟨s, st, hr, hst.2, hv.2, (blocked_paused hr hst.2 hst.1 hv.1).1 (.inr (by omega))⟩

/-- A pre-read head that uses up the window leaves the socket flowing. -/
theorem not_blocked_paused :
    ¬ ∀ (env : WireEnv) (streamWindow : Int), 0 < streamWindow → ∀ s : AgentSession,
      Lts.Reachable (Lts.ofFn (step env streamWindow)) (· = new) s →
      ∀ (a : Nat) (st : Stream), s.objs[a]? = some st → s.listed a = true → st.finished = false →
        s.wire.congested = true ∨ st.sendCredit ≤ 0 → st.socket.paused = true := by
  intro h
  have hr : Lts.Reachable (Lts.ofFn (step calm 4)) (· = new)
      (new.openStream calm 4 "t" "r" (accepted [[1, 2, 3, 4]]) [1, 2, 3, 4]) :=
    .next (.start rfl) (e := .accept "t" "r" [[1, 2, 3, 4]]) trivial rfl
  have hp := h calm 4 (by decide) _ hr 0 _ rfl (by decide) rfl (.inr (by decide))
  revert hp
  decide

end AgentSession

end UpTunnel
