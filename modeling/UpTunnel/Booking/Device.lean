import UpTunnel.Booking.Books

/-!
# UpTunnel.Booking.Device

What the device has of its tunnels, and what arrives at it.

* `Booking.Inv`: which request made which tunnel, and what has been said about it, at both ends.
* `Inv.step`: every step keeps it.
* `Inv.dials`: a STREAM_OPEN that arrives names a tunnel that the device has, under the spec whose
  request made it.
-/

namespace UpTunnel

open Js Relay

namespace Booking

section
variable {σ : Type} {env : BookingEnv σ} {fs : List Frame} {f : Frame} {k : Nat}

theorem controls_append (fs gs : List Frame) : controls (fs ++ gs) = controls fs ++ controls gs :=
  List.filterMap_append

theorem controls_prefix {gs : List Frame} (h : fs <+: gs) : controls fs <+: controls gs := by
  obtain ⟨t, rfl⟩ := h
  rw [controls_append]
  exact List.prefix_append _ _

/-- The frame after a prefix, if it is a control frame. -/
theorem controls_next {gs : List Frame} {type : Nat} {body : Obj} (h : fs <+: gs)
    (hnext : gs[fs.length]? = some (.control type body)) : (controls gs)[(controls fs).length]? = some (type, body) := by
  obtain ⟨t, rfl⟩ := h
  rw [List.getElem?_append_right (Nat.le_refl _), Nat.sub_self] at hnext
  cases t with
  | nil => cases hnext
  | cons g t =>
    cases hnext
    rw [controls_append, List.getElem?_append_right (Nat.le_refl _), Nat.sub_self]
    rfl

/-- The two ends of the WebSocket, and what the device has to say of its own. -/
structure Lines (env : BookingEnv σ) (b : Booking σ) : Prop where
  down : b.device.received <+: b.server.sent
  up : b.server.received <+: b.device.sent
  hello : b.server.sent[0]? = some (.control FrameType.helloOk env.hello)
  unwelcome : b.welcomed = false → b.device.received = [] ∧ controls b.device.sent = []
  welcome : b.welcomed = true → b.device.received ≠ []
  asked : controls b.device.sent <+: env.requests

/-- What the device has of its tunnels, as long as its session is not over. -/
structure Known (env : BookingEnv σ) (b : Booking σ) : Prop where
  pending : b.welcomed = true → b.device.ended = false → ∀ (k : Nat) spec, env.specs[k]? = some spec →
    (∀ f ∈ b.device.received, ¬ Answers f k) → b.pending.lookup (toString k) = some spec
  tunnels : b.welcomed = true → b.device.ended = false → ∀ f ∈ b.device.received, ∀ k id, Announces f k id →
    ∃ spec, env.specs[k]? = some spec ∧ b.tunnels.lookup id = some spec

structure Inv (env : BookingEnv σ) (b : Booking σ) : Prop where
  books : Books env b.toLedger b.came b.server.sent b.server.up (controls b.server.received).length
  lines : Lines env b
  known : Known env b

theorem prefix_next {α : Type} {xs ys zs : List α} (h : xs <+: zs) (hy : ys <+: zs.drop xs.length) : xs ++ ys <+: zs := by
  obtain ⟨t, rfl⟩ := h
  rw [List.drop_left] at hy
  exact List.prefix_append_right_inj xs |>.mpr hy

theorem prefix_drop {α : Type} {zs : List α} {i : Nat} {x : α} (h : zs[i]? = some x) : [x] <+: zs.drop i := by
  obtain ⟨hi, rfl⟩ := List.getElem?_eq_some_iff.mp h
  rw [List.drop_eq_getElem_cons hi]
  exact ⟨_, rfl⟩

section
variable {b b' : Booking σ}

/-- Only the session has done something. -/
theorem Lines.of_server (h : Lines env b) (hd : b'.device = b.device) (hw : b'.welcomed = b.welcomed)
    (hs : b.server.sent <+: b'.server.sent) (hr : b'.server.received <+: b.device.sent) : Lines env b' where
  down := by
    rw [hd]
    exact h.down.trans hs
  up := by rwa [hd]
  hello := by
    obtain ⟨t, ht⟩ := hs
    rw [← ht]
    exact getElem?_append_some h.hello
  unwelcome := by
    rw [hd, hw]
    exact h.unwelcome
  welcome := by
    rw [hd, hw]
    exact h.welcome
  asked := by
    rw [hd]
    exact h.asked

theorem Known.of_server (h : Known env b) (hd : b'.device = b.device) (hw : b'.welcomed = b.welcomed)
    (ht : b'.tunnels = b.tunnels) (hp : b'.pending = b.pending) : Known env b' where
  pending := by
    rw [hd, hw, hp]
    exact h.pending
  tunnels := by
    rw [hd, hw, ht]
    exact h.tunnels

/-- The first frame to arrive is HELLO_OK. -/
theorem Lines.nothing (h : Lines env b) (hw : b.welcomed = false) {ins : List Frame}
    (hins : ins <+: b.server.sent.drop b.device.received.length) (hc : controls ins = []) : ins = [] := by
  rw [(h.unwelcome hw).1, List.length_nil, List.drop_zero] at hins
  cases ins with
  | nil => rfl
  | cons f ins =>
    obtain ⟨t, ht⟩ := hins
    have h0 := h.hello
    rw [← ht] at h0
    cases h0
    cases hc

/-- Only frames of streams have come and gone. -/
theorem Lines.turns (h : Lines env b) {device : Side} {ins : List Frame} (ht : b.device.Turns device ins fs)
    (hfs : Mild fs) (hins : ins <+: b.server.sent.drop b.device.received.length) (hc : controls ins = []) :
    Lines env { b with device } where
  down := by
    rw [ht.received]
    exact prefix_next h.down hins
  up := by
    rw [ht.sent]
    exact h.up.trans (List.prefix_append _ _)
  hello := h.hello
  unwelcome hw := by
    obtain ⟨h1, h2⟩ := h.unwelcome hw
    rw [ht.received, ht.sent, h1, h.nothing hw hins hc, controls_append, h2, (hfs.ite _).controls]
    exact ⟨rfl, rfl⟩
  welcome hw := by
    rw [ht.received]
    exact fun he => h.welcome hw (List.append_eq_nil_iff.mp he).1
  asked := by
    rw [ht.sent, controls_append, (hfs.ite _).controls, List.append_nil]
    exact h.asked

theorem not_answers_of_controls {ins : List Frame} (hc : controls ins = []) (hf : f ∈ ins) : ¬ Answers f k := by
  rintro ⟨type, body, rfl, -⟩
  have := List.filterMap_eq_nil_iff.mp hc _ hf
  cases this

theorem Known.turns (h : Known env b) {device : Side} {ins : List Frame} (ht : b.device.Turns device ins fs)
    (hc : controls ins = []) : Known env { b with device } where
  pending hw ho k spec hspec hno := by
    refine h.pending hw (ht.not_ended ho) k spec hspec fun f hf => hno f ?_
    rw [ht.received]
    exact List.mem_append_left _ hf
  tunnels hw ho f hf k id hann := by
    rw [ht.received] at hf
    rcases List.mem_append.mp hf with hf | hf
    · exact h.tunnels hw (ht.not_ended ho) f hf k id hann
    · exact absurd hann.answers (not_answers_of_controls hc hf)

/-- A control frame arrives after HELLO_OK. -/
theorem Lines.hears (h : Lines env b) (hnext : b.server.sent[b.device.received.length]? = some f) (hw : b.welcomed = true)
    {tunnels pending : Dict String σ} :
    Lines env { b with device := b.device.hears [f], tunnels, pending } where
  down := prefix_next h.down (prefix_drop hnext)
  up := h.up
  hello := h.hello
  unwelcome hw' := by
    simp [hw] at hw'
  welcome _ := by simp [Side.hears]
  asked := h.asked

/-- It is the only reply to its request. -/
theorem Inv.no_reply (h : Inv env b) (hnext : b.server.sent[b.device.received.length]? = some f) (ha : Answers f k) :
    ∀ g ∈ b.device.received, ¬ Answers g k := by
  intro g hg ha'
  obtain ⟨j, hj⟩ := List.mem_iff_getElem?.mp hg
  have hlt := (List.getElem?_eq_some_iff.mp hj).1
  obtain ⟨t, ht⟩ := h.lines.down
  have hj' : b.server.sent[j]? = some g := ht ▸ getElem?_append_some hj
  have := h.books.said.once j _ g f k hj' hnext ha' ha
  omega

/-- The request that a TUNNEL_OK is about, and the tunnel. -/
theorem Inv.of_announced (h : Inv env b) {body : Obj} (hm : .control FrameType.tunnelOk body ∈ b.server.sent) :
    ∃ k t tid place, body.get "reqId" = some (.str (toString k)) ∧ body.get "tunnelId" = some (.str tid) ∧
      b.made.lookup t = some k ∧ Own b.relay env.self t tid place := by
  rcases h.books.said.replies _ _ hm with ⟨he, -⟩ | ⟨k, -, hid, he | ⟨-, t, tid, place, hmade, hown, htid⟩⟩
  · cases he
  · cases he
  · exact ⟨k, t, tid, place, hid, htid, hmade, hown⟩

end

/-! ## Steps -/

theorem destroy_closes (s : Relay) (a : Nat) (r : Registrant) : SameTunnels s (s.destroy a r) ∧
    (s.destroy a r).opening = s.opening ∧
      ∀ (b : Nat) r', s.agents[b]? = some r' → ∃ r'', (s.destroy a r).agents[b]? = some r'' := by
  unfold Relay.destroy
  split
  · exact ⟨fun _ => rfl, rfl, fun b r' h => ⟨r', h⟩⟩
  · have hc : Closes { s with agents := s.agents.modify a fun r => { r with closed := true } } _ := .closeAll _ r.tunnels.values
    refine ⟨hc.same, hc.opening, fun b r' h => ?_⟩
    have hb : ∃ r1, (s.agents.modify a fun r => { r with closed := true })[b]? = some r1 := by
      rw [List.getElem?_modify, h]
      exact ⟨_, rfl⟩
    obtain ⟨r1, hr1⟩ := hb
    obtain ⟨r2, hr2, -⟩ := hc.agent_of hr1
    exact ⟨r2, hr2⟩

variable {b b' : Booking σ}

theorem Inv.elsewhere (h : Inv env b) {relay : Relay} {e : Relay.Event} (hid : b.relay.FreshId e)
    (hf : b.relay.Foreign env.self e) (hs : Relay.step env.cfg b.relay e = some relay) : Inv env { b with relay } := by
  obtain ⟨hA, hS, hD⟩ := h.books
  have hap : Apart env.self b.relay relay := .step hA.inv hid hf hs
  have hg : Grows env.self b.toLedger { b.toLedger with relay } := .apart hap
  have hself : ∃ r, relay.agents[env.self]? = some r := by
    obtain ⟨r, hr⟩ := hA.self
    exact ⟨_, List.getElem?_eq_getElem (Nat.lt_of_lt_of_le (List.getElem?_eq_some_iff.mp hr).1 hap.agents)⟩
  exact ⟨⟨hA.grows hg (hA.inv.step hid hs) hself rfl (Nat.le_refl _), hS.grows hg (Nat.le_refl _), hD.apart hA hap⟩,
    h.lines.of_server rfl rfl (List.prefix_refl _) h.lines.up, h.known.of_server rfl rfl rfl rfl⟩

theorem Inv.gone (h : Inv env b) {r : Registrant} (hr : b.relay.agents[env.self]? = some r) :
    Inv env { b with relay := b.relay.destroy env.self r, server := { b.server with up := false } } := by
  obtain ⟨hA, hS, hD⟩ := h.books
  obtain ⟨hsame, hopening, hagents⟩ := destroy_closes b.relay env.self r
  have hg : Grows env.self b.toLedger { b.toLedger with relay := b.relay.destroy env.self r } :=
    ⟨fun _ _ h => h, fun _ _ _ h => h.same hsame⟩
  have hd : Relay.step env.cfg b.relay (.destroy env.self) = some (b.relay.destroy env.self r) := by
    simp [Relay.step, hr]
  have hI : (b.relay.destroy env.self r).Inv := hA.inv.step (e := .destroy env.self) trivial hd
  exact ⟨⟨hA.grows hg hI (hagents _ r hr) rfl (Nat.le_refl _), hS.grows hg (Nat.le_refl _), hD.gone hopening⟩,
    h.lines.of_server rfl rfl (List.prefix_refl _) h.lines.up, h.known.of_server rfl rfl rfl rfl⟩

theorem Inv.serverTalks (h : Inv env b) {server : Side} {ins fs : List Frame} (ht : b.server.Turns server ins fs)
    (hfs : Mild fs) (hc : controls ins = []) (hins : ins <+: b.device.sent.drop b.server.received.length) :
    Inv env { b with server } := by
  refine ⟨?_, h.lines.of_server rfl rfl ?_ ?_, h.known.of_server rfl rfl rfl rfl⟩
  · have hn : controls server.received = controls b.server.received := by
      rw [ht.received, controls_append, hc, List.append_nil]
    simp only [hn, ht.sent]
    exact h.books.talk (hfs.ite _) ht.up
  · rw [ht.sent]
    exact List.prefix_append _ _
  · rw [ht.received]
    exact prefix_next h.lines.up hins

theorem Inv.request (h : Inv env b) {r : Registrant} {body : Obj} {id : String} {l : Ledger} {reply : Option Frame}
    (hr : b.relay.agents[env.self]? = some r)
    (hnext : b.device.sent[b.server.received.length]? = some (.control FrameType.openTunnel body))
    (hid : ∀ tn ∈ b.relay.tunnels, tn.id ≠ id) (hne : id ≠ "")
    (hl : b.toLedger.request env.cfg env.toEngine env.self r (controls b.server.received).length body id = (l, reply)) :
    Inv env { b with
      toLedger := l
      server := (b.server.hears [.control FrameType.openTunnel body]).sends reply.toList } := by
  -- it is the request after those that have been heard
  have hctl := controls_next h.lines.up hnext
  obtain ⟨t, ht⟩ := h.lines.asked
  have hreq : env.requests[(controls b.server.received).length]? = some (FrameType.openTunnel, body) := by
    rw [← ht]
    exact getElem?_append_some hctl
  rw [env.getElem?_requests] at hreq
  obtain ⟨spec, hspec, he⟩ := Option.map_eq_some_iff.mp hreq
  cases he
  refine ⟨?_, h.lines.of_server rfl rfl (List.prefix_append _ _) (prefix_next h.lines.up (prefix_drop hnext)),
    h.known.of_server rfl rfl rfl rfl⟩
  have hn : (controls (b.server.received ++ [.control FrameType.openTunnel (env.ask (toString
      (controls b.server.received).length) spec)])).length = (controls b.server.received).length + 1 := by
    rw [controls_append, List.length_append]
    rfl
  show Books env l b.came _ _ (controls (b.server.received ++ _)).length
  rw [hn]
  exact h.books.request hr hid hne hspec hl

theorem Inv.settled (h : Inv env b) {t : Nat} {failure : Option String} {l : Ledger}
    (hl : b.toLedger.settle env.cfg t failure = some (l, f)) :
    Inv env { b with toLedger := l, server := b.server.sends [f] } :=
  ⟨h.books.settle hl, h.lines.of_server rfl rfl (List.prefix_append _ _) h.lines.up, h.known.of_server rfl rfl rfl rfl⟩

theorem Inv.visitor (h : Inv env b) {t id : Nat} {tn : Tunnel} {payload : Bytes} {fs : List Frame}
    (ht : b.relay.tunnels[t]? = some tn) (ha : tn.agent = env.self) (hr : Reachable b.relay t)
    (hp : (streamFrameJson payload).get "tunnelId" = some (.str tn.id)) (hfs : Mild fs) :
    Inv env { b with
      server := b.server.sends (.stream FrameType.streamOpen id payload :: fs)
      came := if b.server.up then b.came.insert b.server.sent.length t else b.came } :=
  ⟨h.books.visit ht ha hr hp hfs, h.lines.of_server rfl rfl (List.prefix_append _ _) h.lines.up,
    h.known.of_server rfl rfl rfl rfl⟩

theorem Inv.welcomed (h : Inv env b) {pending : Dict String σ} (hw : b.welcomed = false)
    (hnext : b.server.sent[b.device.received.length]? = some (.control FrameType.helloOk env.hello))
    (hp : ∀ (k : Nat) (spec : σ), env.specs[k]? = some spec → pending.lookup (toString k) = some spec) :
    Inv env { b with
      welcomed := true
      pending
      device := (b.device.hears [.control FrameType.helloOk env.hello]).sends env.asks } := by
  obtain ⟨hrec, hsent⟩ := h.lines.unwelcome hw
  have hasks : ∀ up : Bool, controls (if up then env.asks else []) <+: env.requests := by
    intro up
    cases up with
    | true => simp [env.controls_asks]
    | false => exact List.nil_prefix
  refine ⟨h.books, ⟨prefix_next h.lines.down (prefix_drop hnext), h.lines.up.trans (List.prefix_append _ _),
    h.lines.hello, fun hw => (by cases hw), fun _ => by simp [Side.sends, Side.hears], ?_⟩,
    ⟨fun _ _ k spec hs _ => hp k spec hs, fun _ _ f hf k id hann => ?_⟩⟩
  · simp only [Side.sends, Side.hears, controls_append, hsent, List.nil_append]
    exact hasks b.device.up
  · simp only [Side.sends, Side.hears, hrec, List.nil_append, List.mem_singleton] at hf
    obtain ⟨body, rfl, -⟩ := hann
    cases hf

theorem Inv.greeted (h : Inv env b) (hw : b.welcomed = true)
    (hnext : b.server.sent[b.device.received.length]? = some (.control FrameType.helloOk env.hello)) :
    Inv env { b with device := b.device.hears [.control FrameType.helloOk env.hello] } := by
  refine ⟨h.books, h.lines.hears hnext hw, ⟨fun _ ho k spec hs hno => ?_, fun _ ho f hf k id hann => ?_⟩⟩
  · exact h.known.pending hw ho k spec hs fun f hf => hno f (List.mem_append_left _ hf)
  · rcases List.mem_append.mp hf with hold | hnew
    · exact h.known.tunnels hw ho f hold k id hann
    · cases List.mem_singleton.mp hnew
      obtain ⟨_, he, -⟩ := hann
      cases he

theorem Inv.announced (h : Inv env b) {body : Obj} {reqId id : String} (hw : b.welcomed = true)
    (hnext : b.server.sent[b.device.received.length]? = some (.control FrameType.tunnelOk body))
    (hk : body.get "reqId" = some (.str reqId)) (hid : body.get "tunnelId" = some (.str id)) :
    Inv env { b with
      device := b.device.hears [.control FrameType.tunnelOk body]
      tunnels := match b.pending.lookup reqId with
        | some spec => if id = "" then b.tunnels else b.tunnels.insert id spec
        | none => b.tunnels
      pending := b.pending.erase reqId } := by
  obtain ⟨k, t, tid, place, hk', hid', hmade, hown⟩ := h.of_announced (List.mem_of_getElem? hnext)
  rw [hk] at hk'
  rw [hid] at hid'
  cases hk'
  cases hid'
  obtain ⟨-, _, _, hown', hne, spec, req, hspec, -⟩ := h.books.accounts.made t k hmade
  have hne : id ≠ "" := by
    rw [Own] at hown hown'
    rw [hown] at hown'
    cases hown'
    exact hne
  have hans : Answers (.control FrameType.tunnelOk body) k := ⟨_, body, rfl, hk⟩
  refine ⟨h.books, h.lines.hears hnext hw, ⟨fun _ ho k' spec' hs hno => ?_, fun _ ho f hf k' id' hann => ?_⟩⟩
  · have hne' : toString k' ≠ toString k := fun he => by
      rw [toString_injective he] at hno
      exact hno _ (List.mem_append_right _ (List.mem_singleton_self _)) hans
    rw [AList.lookup_erase_ne hne']
    exact h.known.pending hw ho k' spec' hs fun f hf => hno f (List.mem_append_left _ hf)
  · rw [h.known.pending hw ho k spec hspec (h.no_reply hnext hans)]
    simp only [if_neg hne, Dict.lookup_insert_ite]
    rcases List.mem_append.mp hf with hold | hnew
    · split
      · -- the tunnel has been announced before: by the same request
        rename_i he
        subst he
        obtain ⟨body', rfl, hk', hid'⟩ := hann
        obtain ⟨k1, t1, tid1, place1, hk1, hid1, hmade1, hown1⟩ := h.of_announced (h.lines.down.subset hold)
        rw [hk'] at hk1
        rw [hid'] at hid1
        cases toString_injective (Json.str.inj (Option.some.inj hk1))
        cases hid1
        cases hown1.ids h.books.accounts.inv hown
        rw [hmade] at hmade1
        cases hmade1
        exact ⟨spec, hspec, rfl⟩
      · exact h.known.tunnels hw ho f hold k' id' hann
    · cases List.mem_singleton.mp hnew
      obtain ⟨body', he, hk', hid'⟩ := hann
      cases he
      rw [hk] at hk'
      rw [hid] at hid'
      cases toString_injective (Json.str.inj (Option.some.inj hk'))
      cases hid'
      exact ⟨spec, hspec, by rw [if_pos rfl]⟩

theorem Inv.refused (h : Inv env b) {body : Obj} {reqId : String} (hw : b.welcomed = true)
    (hnext : b.server.sent[b.device.received.length]? = some (.control FrameType.error body))
    (hk : body.get "reqId" = some (.str reqId)) :
    Inv env { b with device := b.device.hears [.control FrameType.error body], pending := b.pending.erase reqId } := by
  refine ⟨h.books, h.lines.hears hnext hw, ⟨fun _ ho k spec hs hno => ?_, fun _ ho f hf k id hann => ?_⟩⟩
  · have hne : toString k ≠ reqId := by
      rintro rfl
      exact hno _ (List.mem_append_right _ (List.mem_singleton_self _)) ⟨_, body, rfl, hk⟩
    rw [AList.lookup_erase_ne hne]
    exact h.known.pending hw ho k spec hs fun f hf => hno f (List.mem_append_left _ hf)
  · rcases List.mem_append.mp hf with hold | hnew
    · exact h.known.tunnels hw ho f hold k id hann
    · cases List.mem_singleton.mp hnew
      obtain ⟨_, he, -⟩ := hann
      cases he

theorem Inv.hangup (h : Inv env b) {device : Side} (ht : b.device.Turns device [] fs) (hfs : Mild fs)
    (ho : device.ended = true) : Inv env { b with device, tunnels := ∅, pending := ∅ } := by
  have hl := h.lines.turns ht hfs List.nil_prefix rfl
  refine ⟨h.books, ⟨hl.down, hl.up, hl.hello, hl.unwelcome, hl.welcome, hl.asked⟩, ⟨fun _ ho' => ?_, fun _ ho' => ?_⟩⟩
  all_goals
    rw [show ({ b with device, tunnels := ∅, pending := ∅ } : Booking σ).device.ended = device.ended from rfl, ho] at ho'
    cases ho'

theorem Inv.step {e : Event} (h : Inv env b) (hs : Step env b e b') : Inv env b' := by
  cases hs with
  | elsewhere hid hf hs => exact h.elsewhere hid hf hs
  | gone hr => exact h.gone hr
  | serverTalks ht hfs hc hins => exact h.serverTalks ht hfs hc hins
  | request hr hnext hid hne hl => exact h.request hr hnext hid hne hl
  | settled hl => exact h.settled hl
  | visitor id ht ha hr hp hfs => exact h.visitor ht ha hr hp hfs
  | deviceTalks ht hfs hc hins => exact ⟨h.books, h.lines.turns ht hfs hins hc, h.known.turns ht hc⟩
  | welcomed hw hnext hp => exact h.welcomed hw hnext hp
  | greeted hw hnext => exact h.greeted hw hnext
  | announced hw hnext hk hid => exact h.announced hw hnext hk hid
  | refused hw hnext hk => exact h.refused hw hnext hk
  | hangup ht hfs ho => exact h.hangup ht hfs ho

/-- A session that has only said HELLO_OK. -/
theorem Inv.start {relay : Relay} {r : Registrant} (up ended up' ended' : Bool) (hI : relay.Inv)
    (hself : relay.agents[env.self]? = some r) (hnone : ∀ t, relay.agentOf t ≠ some env.self) :
    Inv env
      { relay, waiting := ∅, made := ∅
        server := ⟨[.control FrameType.helloOk env.hello], [], up, ended⟩, device := ⟨[], [], up', ended'⟩
        welcomed := false, tunnels := ∅, pending := ∅, came := ∅ } := by
  have hsent : ∀ (j : Nat) f, [Frame.control FrameType.helloOk env.hello][j]? = some f →
      f = .control FrameType.helloOk env.hello := fun j f hj => List.mem_singleton.mp (List.mem_of_getElem? hj)
  refine ⟨⟨⟨hI, ⟨r, hself⟩, fun t k h => by simp at h, fun t t' k h => by simp at h⟩,
    ⟨fun type body hm => ?_, fun j j' f f' k hj _ ha _ => ?_, fun j id payload hj => ?_⟩,
    ⟨fun t q h => by simp at h, fun _ t tn ht ha _ => absurd (agentOf_eq_some.mpr ⟨tn, ht, ha⟩) (hnone t)⟩⟩,
    ⟨List.nil_prefix, List.nil_prefix, rfl, fun _ => ⟨rfl, rfl⟩, fun h => (by cases h), List.nil_prefix⟩,
    ⟨fun h => (by cases h), fun h => (by cases h)⟩⟩
  · cases List.mem_singleton.mp hm
    exact .inl ⟨rfl, rfl⟩
  · cases hsent j f hj
    obtain ⟨type, body, he, hk⟩ := ha
    cases he
    rw [env.hello_reqId] at hk
    cases hk
  · cases hsent j _ hj

/-! ## What the device dials -/

/-- The STREAM_OPEN that arrives next: the tunnel that its visitor came by, the request that made the
tunnel, and the spec that the device has under the tunnel's id. -/
theorem Inv.dials (h : Inv env b) (ho : b.device.ended = false) {id : Nat} {payload : Bytes}
    (hnext : b.server.sent[b.device.received.length]? = some (.stream FrameType.streamOpen id payload)) :
    ∃ t k tid place spec req, b.came.lookup b.device.received.length = some t ∧ b.made.lookup t = some k ∧
      Own b.relay env.self t tid place ∧ (streamFrameJson payload).get "tunnelId" = some (.str tid) ∧
      env.specs[k]? = some spec ∧ b.tunnels.lookup tid = some spec ∧
      parseRequest env.toEngine (env.ask (toString k) spec) = .ok req ∧ Fits req.ask place := by
  obtain ⟨t, k, tid, place, hc, hmade, hown, hp, i, f, hi, hf, hann⟩ := h.books.said.opens _ id payload hnext
  obtain ⟨-, tid', place', hown', -, spec, req, hspec, hparse, hfits⟩ := h.books.accounts.made t k hmade
  have he := hown'
  rw [Own] at hown he
  rw [hown] at he
  cases he
  have hrec : f ∈ b.device.received := by
    obtain ⟨rest, hrest⟩ := h.lines.down
    rw [← hrest, List.getElem?_append_left hi] at hf
    exact List.mem_of_getElem? hf
  have hw : b.welcomed = true := by
    cases hw : b.welcomed with
    | true => rfl
    | false =>
      rw [(h.lines.unwelcome hw).1] at hrec
      cases hrec
  obtain ⟨spec', hspec', hlook⟩ := h.known.tunnels hw ho f hrec k tid hann
  rw [hspec] at hspec'
  cases hspec'
  exact ⟨t, k, tid, place, spec, req, hc, hmade, hown', hp, hspec, hlook, hparse, hfits⟩

end

end Booking

end UpTunnel
