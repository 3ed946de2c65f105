import UpTunnel.Server.Tenure

/-!
# UpTunnel.Server.WellKept

What follows for the registry from its maps agreeing.

* `Spent.step`: a tunnel that is neither registered nor pending does not come back.
* `reach_wellKept`: in every state of every run the maps agree, no two tunnels share a name, closing
  takes out exactly the tunnel's own entries and does nothing the second time, and an `open` that
  fails leaves no entry.
-/

namespace UpTunnel

namespace Relay

/-! ## Closing -/

/-- What closing tunnels leaves as it is, and what it can only take away. -/
structure Closes (s s' : Relay) : Prop where
  same : SameTunnels s s'
  agents : ∀ b : Nat, s'.agents[b]?.map (fun r => (r.token, r.closed)) =
    s.agents[b]?.map fun r => (r.token, r.closed)
  byId : ∀ id u, s'.byId.lookup id = some u → s.byId.lookup id = some u
  values : s'.byId.values.Sublist s.byId.values
  byPort : ∀ port u, s'.byPort.lookup port = some u → s.byPort.lookup port = some u
  opening : s'.opening = s.opening

theorem lookup_eraseKey {κ : Type} [DecidableEq κ] {m : Dict κ Nat} {k? : Option κ} {k : κ} {t : Nat}
    (h : (m.eraseKey k?).lookup k = some t) : m.lookup k = some t := by
  cases k? with
  | none => exact h
  | some k' =>
    simp only [Dict.eraseKey, Dict.lookup_erase_ite] at h
    split at h
    · cases h
    · exact h

namespace Closes

variable {s s' s'' : Relay}

theorem refl (s : Relay) : Closes s s :=
  ⟨fun _ => rfl, fun _ => rfl, fun _ _ h => h, .refl _, fun _ _ h => h, rfl⟩

theorem trans (h : Closes s s') (h' : Closes s' s'') : Closes s s'' where
  same := fun u => (h'.same u).trans (h.same u)
  agents := fun b => (h'.agents b).trans (h.agents b)
  byId := fun id u hu => h.byId id u (h'.byId id u hu)
  values := h'.values.trans h.values
  byPort := fun port u hu => h.byPort port u (h'.byPort port u hu)
  opening := h'.opening.trans h.opening

theorem close (s : Relay) (t : Nat) : Closes s (s.close t) := by
  unfold Relay.close
  split
  · exact refl s
  rename_i tn _
  split
  · refine ⟨fun u => fixed_modify s.tunnels t u false, fun b => ?_,
      fun id u h => ?_, (List.kerase_sublist _ _).map _,
      fun _ _ h => lookup_eraseKey h, rfl⟩
    · simp only [remove, List.getElem?_modify]
      cases s.agents[b]? with
      | none => rfl
      | some r =>
        by_cases hb : tn.agent = b <;> simp [hb]
    · simp only [remove, Dict.lookup_erase_ite] at h
      split at h
      · cases h
      · exact h
  · exact refl s

theorem closeAll (s : Relay) (ts : List Nat) : Closes s (ts.foldl Relay.close s) := by
  induction ts generalizing s with
  | nil => exact refl s
  | cons t ts ih => exact (close s t).trans (ih _)

theorem live (h : Closes s s') {u : Nat} (hu : s'.Live u) : s.Live u := by
  obtain ⟨id, hid⟩ := hu
  exact ⟨id, h.byId id u hid⟩

/-- A session after closing, with what it was before. -/
theorem agent_back (h : Closes s s') {b : Nat} {r' : Registrant} (hr' : s'.agents[b]? = some r') :
    ∃ r, s.agents[b]? = some r ∧ r.token = r'.token ∧ r.closed = r'.closed := by
  have hb := h.agents b
  rw [hr', Option.map_some, eq_comm, Option.map_eq_some_iff] at hb
  obtain ⟨r, hr, he⟩ := hb
  exact ⟨r, hr, congrArg (·.1) he, congrArg (·.2) he⟩

theorem agent_of (h : Closes s s') {b : Nat} {r : Registrant} (hr : s.agents[b]? = some r) :
    ∃ r', s'.agents[b]? = some r' ∧ r'.token = r.token ∧ r'.closed = r.closed := by
  have hb := h.agents b
  rw [hr, Option.map_some, Option.map_eq_some_iff] at hb
  obtain ⟨r', hr', he⟩ := hb
  exact ⟨r', hr', congrArg (·.1) he, congrArg (·.2) he⟩

end Closes

/-! ## Recording -/

theorem not_mem_of_fresh {s : Relay} {id : String} (hI : s.Inv) (hid : ∀ tn ∈ s.tunnels, tn.id ≠ id) :
    s.byId.lookup id = none := by
  rw [Option.eq_none_iff_forall_ne_some]
  intro u hu
  obtain ⟨tn, htn, he⟩ := Option.map_eq_some_iff.mp (hI.byId.key_of_lookup hu)
  exact hid tn (List.mem_of_getElem? htn) he

/-- The tunnel that an event records, and where. -/
theorem step_records {cfg : Config} {s s' : Relay} {e : Event} {r : Registrant} (hI : s.Inv) (hid : s.FreshId e)
    (hs : step cfg s e = some s') (hrec : s.records e = some r) :
    ∃ t tn, s.agents[tn.agent]? = some r ∧ s'.tunnels[t]? = some tn ∧ s.byId.lookup tn.id = none ∧
      s'.byId = s.byId.insert tn.id t ∧
      s'.agents = s.agents.modify tn.agent fun r => { r with tunnels := r.tunnels.insert tn.id t } := by
  cases e with
  | openTunnel a req id =>
    obtain ⟨r0, hr0, rfl⟩ := Option.map_eq_some_iff.mp hs
    obtain ⟨reqId, ask, target⟩ := req
    cases ask with
    | tcp remotePort => simp [records, hr0] at hrec
    | http sub =>
      simp only [records, hr0, Option.ite_none_right_eq_some, Option.some.injEq] at hrec
      obtain ⟨⟨hcap, hall, hfree⟩, rfl⟩ := hrec
      refine ⟨s.tunnels.length, ⟨id, .http sub, a, target, false⟩, hr0, ?_, not_mem_of_fresh hI hid, ?_, ?_⟩ <;>
        simp [Relay.begin, show numLe _ _ = false from hcap, hall, hfree, register]
  | resume t =>
    simp only [records, Option.ite_none_right_eq_some, Option.bind_eq_some_iff] at hrec
    obtain ⟨ho, tn, ht, hr⟩ := hrec
    have hp : s.Pending t := AList.lookup_isSome.mp (by rw [ho]; rfl)
    simp only [step, ho, ht, resume, Option.map_some, Option.some.injEq] at hs
    subst hs
    exact ⟨t, tn, hr, ht, hI.id_free ht (hI.binding t hp).1, rfl, rfl⟩
  | _ => cases hrec

/-! ## Tunnels that are over -/

/-- `t` has been entered, and it is neither registered nor pending. -/
structure Spent (s : Relay) (t : Nat) : Prop where
  lt : t < s.tunnels.length
  notLive : ¬ s.Live t
  notPending : ¬ s.Pending t

section
variable {s s' : Relay} {t u : Nat}

theorem not_live_close (h : s.Inv) : ¬ (s.close t).Live t := by
  by_cases hl : s.Live t
  · obtain ⟨tn, ht, he⟩ := close_of_live h.toRep hl
    rw [he]
    exact fun hu => ((live_remove h.toRep hl ht).mp hu).2 rfl
  · rwa [close_of_not_live h hl]

theorem length_close : (s.close t).tunnels.length = s.tunnels.length := by
  unfold close
  split
  · rfl
  · split
    · simp [remove]
    · rfl

theorem Spent.close (h : s.Spent u) (t : Nat) : (s.close t).Spent u where
  lt := by rw [length_close]; exact h.lt
  notLive := fun hl => h.notLive ((Closes.close s t).live hl)
  notPending := by rw [Pending, (Closes.close s t).opening]; exact h.notPending

theorem Spent.closeAll (hI : s.Inv) (h : s.Spent u) (ts : List Nat) : (ts.foldl Relay.close s).Spent u :=
  (hI.closeAll_keeps (P := (·.Spent u)) (fun _ t _ h => Spent.close h t) h ts).2

/-- A tunnel that is over does not come back. -/
theorem Spent.step {cfg : Config} {e : Event} (hI : s.Inv) (hok : s.FreshId e) (h : s.Spent u)
    (hs : Relay.step cfg s e = some s') : s'.Spent u := by
  cases e with
  | connect token clientName =>
    cases hs
    exact ⟨h.lt, h.notLive, h.notPending⟩
  | openTunnel a req id =>
    obtain ⟨r, hr, rfl⟩ := Option.map_eq_some_iff.mp hs
    have hne : u ≠ s.tunnels.length := by
      have := h.lt
      omega
    cases hb : s.begin cfg a r req id with
    | error e => exact h
    | ok s' =>
      obtain ⟨_, ⟨sub, tn, _, _, _, _, rfl⟩ | ⟨remotePort, port, hint, tn, _, _, _, rfl⟩⟩ := begin_cases hb
      · refine ⟨?_, fun hl => ?_, h.notPending⟩
        · have := h.lt
          simp only [register, List.length_append]
          omega
        · obtain ⟨id', hid'⟩ := hl
          simp only [register, Dict.lookup_insert_ite] at hid'
          split at hid'
          · exact hne (Option.some.inj hid').symm
          · exact h.notLive ⟨id', hid'⟩
      · refine ⟨?_, h.notLive, fun hp => ?_⟩
        · have := h.lt
          simp only [List.length_append]
          omega
        · rcases (AList.mem_insert _).mp hp with he | hp
          · exact hne he
          · exact h.notPending hp
  | listening t =>
    simp only [Relay.step] at hs
    split at hs
    · rename_i ho
      cases hs
      refine ⟨by simpa [Relay.listening] using h.lt, h.notLive, fun hp => ?_⟩
      rcases (AList.mem_insert _).mp hp with rfl | hp
      · exact h.notPending (AList.lookup_isSome.mp (by rw [ho]; rfl))
      · exact h.notPending hp
    · cases hs
  | listenError t message =>
    simp only [Relay.step] at hs
    split at hs
    · rename_i ho
      cases hs
      refine ⟨h.lt, h.notLive, fun hp => ?_⟩
      rcases (AList.mem_insert _).mp hp with rfl | hp
      · exact h.notPending (AList.lookup_isSome.mp (by rw [ho]; rfl))
      · exact h.notPending hp
    · cases hs
  | resume t =>
    simp only [Relay.step] at hs
    split at hs
    · rename_i b tn ho ht
      obtain ⟨⟨s1, e⟩, hr, rfl⟩ := Option.map_eq_some_iff.mp hs
      have hne : u ≠ t := fun he => h.notPending (he ▸ AList.lookup_isSome.mp (by rw [ho]; rfl))
      have hnp : u ∉ s.opening.erase t := fun hp => h.notPending (AList.mem_erase.mp hp).2
      cases b with
      | waiting => cases hr
      | listening =>
        cases hr
        refine ⟨h.lt, fun hl => ?_, hnp⟩
        obtain ⟨id, hid⟩ := hl
        simp only [register, Dict.lookup_insert_ite] at hid
        split at hid
        · exact hne (Option.some.inj hid).symm
        · exact h.notLive ⟨id, hid⟩
      | failed message =>
        cases hr
        exact ⟨h.lt, h.notLive, hnp⟩
    · cases hs
  | closeTunnel a id =>
    obtain ⟨r, hr, rfl⟩ := Option.map_eq_some_iff.mp hs
    simp only [Relay.closeTunnel]
    split
    · exact h
    · exact h.close _
  | close t =>
    cases hs
    exact h.close t
  | closeAllFor a =>
    obtain ⟨r, hr, rfl⟩ := Option.map_eq_some_iff.mp hs
    exact h.closeAll hI _
  | destroy a =>
    obtain ⟨r, hr, rfl⟩ := Option.map_eq_some_iff.mp hs
    simp only [Relay.destroy]
    split
    · exact h
    · exact Spent.closeAll (hI.hangUp a) ⟨h.lt, h.notLive, h.notPending⟩ _

/-! ## The registry is well kept -/

/-- No map has an entry for `t`. -/
structure NoEntry (s : Relay) (t : Nat) : Prop where
  byId : ∀ id, s.byId.lookup id ≠ some t
  bySubdomain : ∀ sub, s.bySubdomain.lookup sub ≠ some t
  byPort : ∀ port, s.byPort.lookup port ≠ some t
  agents : ∀ (a : Nat) (r : Registrant), s.agents[a]? = some r → ∀ id, r.tunnels.lookup id ≠ some t

/-- `s'` has the entries of `s` that are not for `t`, and no other. -/
structure Without (s s' : Relay) (t : Nat) : Prop where
  byId : ∀ id u, s'.byId.lookup id = some u ↔ s.byId.lookup id = some u ∧ u ≠ t
  bySubdomain : ∀ sub u, s'.bySubdomain.lookup sub = some u ↔ s.bySubdomain.lookup sub = some u ∧ u ≠ t
  byPort : ∀ port u, s'.byPort.lookup port = some u ↔ s.byPort.lookup port = some u ∧ u ≠ t
  agents : ∀ a : Nat, (s'.agents[a]?).isSome = (s.agents[a]?).isSome ∧
    ∀ r r' : Registrant, s.agents[a]? = some r → s'.agents[a]? = some r' →
      ∀ id u, r'.tunnels.lookup id = some u ↔ r.tunnels.lookup id = some u ∧ u ≠ t

theorem Rep.noEntry (h : s.Rep) (hl : ¬ s.Live t) (hp : ¬ s.Pending t) : s.NoEntry t where
  byId := fun _ hk => hl (h.byId.mem_of_lookup hk)
  bySubdomain := fun _ hk => hl (h.bySubdomain.mem_of_lookup hk)
  byPort := fun _ hk => (h.byPort.mem_of_lookup hk).elim hl hp
  agents := fun a r hr _ hk => hl ((h.agents a r hr).mem_of_lookup hk).1

theorem Inv.without_close (h : s.Inv) (hl : s.Live t) : s.Without (s.close t) t := by
  have h' := h.close t
  obtain ⟨tn, ht, he⟩ := close_of_live h.toRep hl
  have hlive : ∀ u, (s.close t).Live u ↔ s.Live u ∧ u ≠ t := fun u => by
    rw [he]
    exact live_remove h.toRep hl ht
  have htn : SameTunnels s (s.close t) := (Closes.close s t).same
  have hpend : ∀ u, (s.close t).Pending u ↔ s.Pending u ∧ u ≠ t := fun u => by
    rw [Pending, (Closes.close s t).opening]
    exact ⟨fun hu => ⟨hu, fun hut => (h.binding u hu).1 (hut ▸ hl)⟩, fun hu => hu.1⟩
  constructor
  · intro id u
    rw [h'.byId, h.byId, hlive, htn.idOf]
    tauto
  · intro sub u
    rw [h'.bySubdomain, h.bySubdomain, hlive, htn.subdomainOf]
    tauto
  · intro port u
    rw [h'.byPort, h.byPort, htn.portOf]
    simp only [hlive, hpend]
    tauto
  · intro a
    constructor
    · simp [he, Relay.remove, List.getElem?_modify]
    · intro r r' hr hr' id u
      rw [h'.agents a r' hr', h.agents a r hr, htn.idOf, htn.agentOf]
      simp only [hlive]
      tauto

/-- What holds of a registry whose tunnels have had fresh ids. -/
structure WellKept (cfg : Config) (s : Relay) : Prop where
  rep : s.Rep
  subdomains : ∀ t u sub, s.Live t ∨ s.Pending t → s.Live u ∨ s.Pending u →
    s.subdomainOf t = some sub → s.subdomainOf u = some sub → t = u
  ports : ∀ t u port, s.Live t ∨ s.Pending t → s.Live u ∨ s.Pending u →
    s.portOf t = some port → s.portOf u = some port → t = u
  close : ∀ t, s.Live t → s.Without (s.close t) t
  /-- Also when other things have happened in between. -/
  closeTwice : ∀ t, s.Live t → ∀ s', Run cfg (· = s.close t) s' → s'.close t = s'
  refused : ∀ a r req id e, s.agents[a]? = some r → s.FreshId (.openTunnel a req id) →
    s.begin cfg a r req id = .error e → step cfg s (.openTunnel a req id) = some s ∧
      s.byId.lookup id = none ∧ ∀ (a' : Nat) (r' : Registrant), s.agents[a']? = some r' → r'.tunnels.lookup id = none
  failed : ∀ t tn b s' e, s.opening.lookup t = some b → s.tunnels[t]? = some tn →
    s.resume t tn b = some (s', some e) → s'.NoEntry t

theorem Inv.wellKept (cfg : Config) (h : s.Inv) : s.WellKept cfg where
  rep := h.toRep
  subdomains := by
    intro t u sub ht hu hst hsu
    have hlive : ∀ v, s.Live v ∨ s.Pending v → s.subdomainOf v = some sub → s.Live v := by
      rintro v (hv | hv) hsv
      · exact hv
      · rw [(h.binding v hv).2] at hsv
        cases hsv
    exact h.bySubdomain.unique (hlive t ht hst) (hlive u hu hsu) hst hsu
  ports := fun t u port ht hu hpt hpu => h.byPort.unique ht hu hpt hpu
  close := fun t hl => h.without_close hl
  closeTwice := by
    intro t hl s' hr
    have hsp : (s.close t).Spent t :=
      ⟨by rw [length_close]; exact known_lt h (.inl hl), not_live_close h,
        by rw [Pending, (Closes.close s t).opening]; exact fun hp => (h.binding t hp).1 hl⟩
    have hboth : s'.Inv ∧ s'.Spent t :=
      hr.invariant (I := fun s => s.Inv ∧ s.Spent t) (by rintro _ rfl; exact ⟨h.close t, hsp⟩)
        fun s1 e s2 _ hI hok hs => ⟨hI.1.step hok hs, hI.2.step hI.1 hok hs⟩
    exact close_of_not_live hboth.1 hboth.2.notLive
  refused := by
    intro a r req id e hr hid hb
    have hnone : ∀ t, s.idOf t ≠ some id := by
      intro t ht
      obtain ⟨tn, htn, he⟩ := Option.map_eq_some_iff.mp ht
      exact hid tn (List.mem_of_getElem? htn) he
    refine ⟨by simp [Relay.step, hr, hb], ?_, fun a' r' hr' => ?_⟩
    · rw [Option.eq_none_iff_forall_ne_some]
      exact fun t ht => hnone t (h.byId.key_of_lookup ht)
    · rw [Option.eq_none_iff_forall_ne_some]
      exact fun t ht => hnone t ((h.agents a' r' hr').key_of_lookup ht)
  failed := by
    intro t tn b s' e ho ht hr
    have hp : s.Pending t := AList.lookup_isSome.mp (by rw [ho]; rfl)
    have h' := h.resume hp ht hr
    cases b with
    | waiting => cases hr
    | listening => cases hr
    | failed message =>
      cases hr
      exact h'.toRep.noEntry (h.binding t hp).1 fun hp' => (AList.mem_erase.mp hp').1 rfl

/-- In every state that a relay reaches with fresh tunnel ids the registry is well kept. -/
theorem reach_wellKept {cfg : Config} (h : Run cfg (· = Relay.new cfg) s) : s.WellKept cfg :=
  (reach_inv h).wellKept cfg

end

def smallToken : TokenEntry where
  token := "0123456789abcdef"
  name := "laptop"
  subdomains := none
  ports := none
  maxTunnels := none

def smallConfig : Config where
  httpDomain := "tun.localhost"
  publicScheme := "https"
  publicTcpHost := "tun.localhost"
  tcpPortMin := 20000
  tcpPortMax := 20099
  streamWindow := 262144
  heartbeatMs := 30000
  tokens := [smallToken]

def smallTarget : Target := ⟨"127.0.0.1", 3000⟩

/-- An http tunnel, two tcp tunnels of which one cannot listen, and the end of the http tunnel. -/
def smallRun : List Event :=
  [.connect smallToken "laptop",
    .openTunnel 0 ⟨some "r1", .http ⟨"dev", by decide⟩, smallTarget⟩ "tn_1",
    .openTunnel 0 ⟨some "r2", .tcp none, smallTarget⟩ "tn_2",
    .openTunnel 0 ⟨some "r3", .tcp (some 20050), smallTarget⟩ "tn_3",
    .listening 1, .listenError 2 "listen EADDRINUSE", .resume 2, .resume 1, .close 0]

theorem smallRun_ends : ∃ s, Lts.execOk (step smallConfig) FreshId (Relay.new smallConfig) smallRun = some s ∧
    s.byId.lookup "tn_2" = some 1 ∧ s.byId.lookup "tn_1" = none ∧ s.byId.lookup "tn_3" = none := by
  have hx : (Lts.execOk (step smallConfig) FreshId (Relay.new smallConfig) smallRun).map (fun s =>
      s.byId.lookup "tn_2" == some 1 && s.byId.lookup "tn_1" == none && s.byId.lookup "tn_3" == none) =
      some true := by decide +kernel
  obtain ⟨s, hs, hc⟩ := Option.map_eq_some_iff.mp hx
  simp only [Bool.and_eq_true, beq_iff_eq] at hc
  exact ⟨s, hs, hc.1.1, hc.1.2, hc.2⟩

theorem wellKept_smallRun : ∃ s : Relay, s.WellKept smallConfig ∧
    s.byId.lookup "tn_2" = some 1 ∧ s.byId.lookup "tn_1" = none ∧ s.byId.lookup "tn_3" = none := by
  obtain ⟨s, hx, hs⟩ := smallRun_ends
  have h0 : Run smallConfig (· = Relay.new smallConfig) (Relay.new smallConfig) := .start rfl
  exact ⟨s, reach_wellKept (h0.execOk hx), hs⟩

end Relay

end UpTunnel
