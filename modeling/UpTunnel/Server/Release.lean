import UpTunnel.Server.WellKept

/-!
# UpTunnel.Server.Release

What is left of a session's tunnels once its WebSocket is gone. `destroy` closes the tunnels that the
session has at that moment; an `open` that is at its `await` records its tunnel afterwards all the
same.

* `Clear.step`: as long as nothing is registered for a closed session, a closed session has no
  registered tunnel, and every listener belongs to a tunnel that is registered or about to be.
* `released_run`: then nothing is left of a closed session whose binds are settled; and a step that
  does register for a closed session leaves it with a registered tunnel.
* `not_released`: a bind that ends after `destroy`.
-/

namespace UpTunnel

namespace Relay

/-! ## Registering for a closed session -/

/-- The tunnel that an event records, if it does, is not for a closed session. -/
def NotLate (s : Relay) (e : Event) : Prop := ∀ r, s.records e = some r → r.closed = false

/-- The steps of a run with fresh ids in which nothing is registered late. -/
def InTime (s : Relay) (e : Event) : Prop := s.FreshId e ∧ s.NotLate e

/-- Nothing is left of the tunnels of the session at `a`. -/
def Released (s : Relay) (a : Nat) : Prop :=
  ∀ (t : Nat) (tn : Tunnel), s.tunnels[t]? = some tn → tn.agent = a →
    (∀ id, s.byId.lookup id ≠ some t) ∧ (∀ sub, s.bySubdomain.lookup sub ≠ some t) ∧
      (∀ port, s.byPort.lookup port ≠ some t) ∧ tn.listener = false

/-- Nothing is left of any closed session that waits for no bind. -/
def AllReleased (s : Relay) : Prop :=
  ∀ (a : Nat) (r : Registrant), s.agents[a]? = some r → r.closed = true →
    (∀ t, s.Pending t → s.agentOf t ≠ some a) → s.Released a

/-- A closed session has no registered tunnel. -/
def Hushed (s : Relay) : Prop :=
  ∀ (a : Nat) (r : Registrant), s.agents[a]? = some r → r.closed = true → ∀ t, s.Live t → s.agentOf t ≠ some a

/-- A listener is open for a tunnel that is registered or about to be. -/
def Listens (s : Relay) : Prop :=
  ∀ (t : Nat) (tn : Tunnel), s.tunnels[t]? = some tn → tn.listener = true →
    s.Live t ∨ s.opening.lookup t = some .listening

structure Clear (s : Relay) : Prop where
  hushed : s.Hushed
  listens : s.Listens

theorem Clear.allReleased {s : Relay} (hI : s.Inv) (h : s.Clear) : s.AllReleased := by
  intro a r hr hc hp t tn ht hag
  have hagent : s.agentOf t = some a := by simp [agentOf, ht, hag]
  have hl : ¬ s.Live t := fun hl => h.hushed a r hr hc t hl hagent
  have hnp : ¬ s.Pending t := fun hp' => hp t hp' hagent
  obtain ⟨hid, hsub, hport, _⟩ := hI.toRep.noEntry hl hnp
  refine ⟨hid, hsub, hport, ?_⟩
  rw [Bool.eq_false_iff]
  intro hlis
  rcases h.listens t tn ht hlis with hl' | hlook
  · exact hl hl'
  · exact hnp (AList.lookup_isSome.mp (by rw [hlook]; rfl))

section
variable {cfg : Config} {s s' : Relay} {t : Nat} {tn : Tunnel}

/-- A session is changed, but not whether it is closed. -/
theorem closed_modify {f : Registrant → Registrant} {a b : Nat} {r' : Registrant}
    (ha : s'.agents = s.agents.modify a f) (hf : ∀ r, (f r).closed = r.closed) (hr' : s'.agents[b]? = some r') :
    ∃ r, s.agents[b]? = some r ∧ r.closed = r'.closed := by
  rw [ha, List.getElem?_modify] at hr'
  obtain ⟨r, hr, he⟩ := Option.map_eq_some_iff.mp hr'
  refine ⟨r, hr, ?_⟩
  subst he
  split
  · exact (hf r).symm
  · rfl

theorem Listens.close (hI : s.Inv) (h : s.Listens) (t : Nat) : (s.close t).Listens := by
  by_cases hl : s.Live t
  · obtain ⟨tn, ht, he⟩ := close_of_live hI.toRep hl
    intro u tn' hu hlis
    rw [he] at hu ⊢
    rw [live_remove hI.toRep hl ht]
    by_cases hut : t = u
    · simp only [remove, List.getElem?_modify, if_pos hut] at hu
      obtain ⟨tn0, _, rfl⟩ := Option.map_eq_some_iff.mp hu
      cases hlis
    · simp only [remove, List.getElem?_modify_ne _ _ hut] at hu
      rcases h u tn' hu hlis with hlu | hlook
      · exact .inl ⟨hlu, fun he => hut he.symm⟩
      · exact .inr hlook
  · rw [close_of_not_live hI hl]
    exact h

theorem Listens.closeAll (hI : s.Inv) (h : s.Listens) (ts : List Nat) : (ts.foldl Relay.close s).Listens :=
  (hI.closeAll_keeps (fun _ t hI h => Listens.close hI h t) h ts).2

theorem Hushed.closes (h : s.Hushed) (hc : Closes s s') : s'.Hushed := by
  intro a r' hr' hcl t hl
  obtain ⟨r, hr, _, hrc⟩ := hc.agent_back hr'
  rw [hc.same.agentOf]
  exact h a r hr (hrc.trans hcl) t (hc.live hl)

theorem not_live_closeAll (hI : s.Inv) {ts : List Nat} (ht : t ∈ ts) : ¬ (ts.foldl Relay.close s).Live t := by
  induction ts generalizing s with
  | nil => cases ht
  | cons u ts ih =>
    rcases List.mem_cons.mp ht with rfl | ht
    · exact fun hl => not_live_close hI ((Closes.closeAll (s.close t) ts).live hl)
    · exact ih (hI.close u) ht

/-- Recording a tunnel for a session that is not closed. -/
theorem Clear.register {s1 : Relay} (h : s.Clear) (hb : s1.byId = s.byId) (ha : s1.agents = s.agents)
    (hf : s.byId.lookup tn.id = none) (hag : s1.agentOf t = some tn.agent)
    (hopen : ∀ r, s.agents[tn.agent]? = some r → r.closed = false)
    (hold : ∀ u, s.Live u → s1.agentOf u = s.agentOf u)
    (hlis : ∀ (u : Nat) (tn' : Tunnel), s1.tunnels[u]? = some tn' → tn'.listener = true →
      u = t ∨ s.Live u ∨ s1.opening.lookup u = some .listening) : (s1.register t tn).Clear := by
  have hlive : ∀ u, (s1.register t tn).Live u ↔ u = t ∨ s.Live u := fun u => by
    rw [live_register (hb ▸ hf)]
    simp only [Live, hb]
  constructor
  · intro a r' hr' hc u hu hau
    have hmod : (s1.register t tn).agents =
        s1.agents.modify tn.agent fun r => { r with tunnels := r.tunnels.insert tn.id t } := rfl
    obtain ⟨r, hr, hrc⟩ := closed_modify hmod (fun _ => rfl) hr'
    rw [ha] at hr
    rw [← hrc] at hc
    rcases (hlive u).mp hu with rfl | hl
    · obtain rfl : tn.agent = a := Option.some.inj (hag.symm.trans hau)
      rw [hopen r hr] at hc
      cases hc
    · exact h.hushed a r hr hc u hl (hold u hl ▸ hau)
  · intro u tn' hu hl
    rw [hlive, or_assoc]
    exact hlis u tn' hu hl

theorem Clear.begin {a : Nat} {r : Registrant} {req : OpenTunnelRequest} {id : String} (hI : s.Inv)
    (h : s.Clear) (hr : s.agents[a]? = some r) (hok : s.InTime (.openTunnel a req id))
    (hb : s.begin cfg a r req id = .ok s') : s'.Clear := by
  have hlt : ∀ u, s.Live u → u ≠ s.tunnels.length := fun u hu => by
    have := known_lt hI (.inl hu)
    omega
  obtain ⟨hcap, ⟨sub, tn, hask, rfl, hall, hfree, rfl⟩ | ⟨remotePort, port, hint, tn, _, _, rfl, rfl⟩⟩ := begin_cases hb
  · refine h.register rfl rfl ?_ ?_ ?_ ?_ ?_
    · exact not_mem_of_fresh hI hok.1
    · simp [agentOf]
    · intro r' hr'
      rw [hr] at hr'
      cases hr'
      exact hok.2 r (by simp [records, hr, hask, hcap, hall, hfree])
    · intro u hu
      simp only [agentOf, getElem?_concat, if_neg (hlt u hu)]
    · intro u tn' hu hl
      rw [getElem?_concat] at hu
      split at hu
      · exact .inl ‹_›
      · exact .inr (h.listens u tn' hu hl)
  · constructor
    · intro b r' hr' hc u hu
      simp only [agentOf, getElem?_concat, if_neg (hlt u hu)]
      exact h.hushed b r' hr' hc u hu
    · intro u tn' hu hl
      rw [getElem?_concat] at hu
      split at hu
      · cases hu
        cases hl
      · rename_i hne
        rcases h.listens u tn' hu hl with hlu | hlook
        · exact .inl hlu
        · exact .inr (by rw [Dict.lookup_insert_ite, if_neg hne]; exact hlook)

theorem Clear.step {e : Event} (hI : s.Inv) (h : s.Clear) (hok : s.InTime e)
    (hs : Relay.step cfg s e = some s') : s'.Clear := by
  cases e with
  | connect token clientName =>
    cases hs
    refine ⟨fun a r hr hc t hl => ?_, h.listens⟩
    by_cases ha : a < s.agents.length
    · exact h.hushed a r (by simpa [List.getElem?_append_left ha] using hr) hc t hl
    · rw [List.getElem?_append_right (by omega), List.getElem?_singleton] at hr
      split at hr
      · cases hr
        cases hc
      · cases hr
  | openTunnel a req id =>
    obtain ⟨r, hr, rfl⟩ := Option.map_eq_some_iff.mp hs
    cases hb : s.begin cfg a r req id with
    | error e => exact h
    | ok s' => exact h.begin hI hr hok hb
  | listening t =>
    simp only [Relay.step] at hs
    split at hs
    · rename_i ho
      cases hs
      have hsame : SameTunnels s (s.listening t) := fun u => fixed_modify s.tunnels t u true
      refine ⟨fun a r hr hc u hl => hsame.agentOf ▸ h.hushed a r hr hc u hl, fun u tn' hu hlis => ?_⟩
      simp only [Relay.listening, Dict.lookup_insert_ite] at hu ⊢
      by_cases hut : t = u
      · exact .inr (if_pos hut.symm)
      · rw [List.getElem?_modify_ne _ _ hut] at hu
        rw [if_neg fun he => hut he.symm]
        exact h.listens u tn' hu hlis
    · cases hs
  | listenError t message =>
    simp only [Relay.step] at hs
    split at hs
    · rename_i ho
      cases hs
      refine ⟨h.hushed, fun u tn' hu hlis => ?_⟩
      simp only [Relay.listenError, Dict.lookup_insert_ite]
      rcases h.listens u tn' hu hlis with hl | hlook
      · exact .inl hl
      · refine .inr ?_
        rw [if_neg, hlook]
        rintro rfl
        rw [ho] at hlook
        cases hlook
    · cases hs
  | resume t =>
    simp only [Relay.step] at hs
    split at hs
    · rename_i b tn ho ht
      obtain ⟨⟨s1, e⟩, hr, rfl⟩ := Option.map_eq_some_iff.mp hs
      have hp : s.Pending t := AList.lookup_isSome.mp (by rw [ho]; rfl)
      have hnl := (hI.binding t hp).1
      cases b with
      | waiting => cases hr
      | listening =>
        cases hr
        refine h.register rfl rfl (hI.id_free ht hnl) (by simp [agentOf, ht])
          (fun r hr => hok.2 r (by simp [records, ho, ht, hr])) (fun _ _ => rfl) fun u tn' hu hlis => ?_
        by_cases hut : u = t
        · exact .inl hut
        · rw [Dict.lookup_erase_ite, if_neg hut]
          exact .inr (h.listens u tn' hu hlis)
      | failed message =>
        cases hr
        refine ⟨h.hushed, fun u tn' hu hlis => ?_⟩
        rcases h.listens u tn' hu hlis with hl | hlook
        · exact .inl hl
        · refine .inr ?_
          rw [Dict.lookup_erase_ite, if_neg, hlook]
          rintro rfl
          rw [ho] at hlook
          cases hlook
    · cases hs
  | closeTunnel a id =>
    obtain ⟨r, hr, rfl⟩ := Option.map_eq_some_iff.mp hs
    simp only [Relay.closeTunnel]
    split
    · exact h
    · exact ⟨h.hushed.closes (.close s _), h.listens.close hI _⟩
  | close t =>
    cases hs
    exact ⟨h.hushed.closes (.close s t), h.listens.close hI t⟩
  | closeAllFor a =>
    obtain ⟨r, hr, rfl⟩ := Option.map_eq_some_iff.mp hs
    exact ⟨h.hushed.closes (.closeAll s _), h.listens.closeAll hI _⟩
  | destroy a =>
    obtain ⟨r, hr, rfl⟩ := Option.map_eq_some_iff.mp hs
    simp only [Relay.destroy]
    split
    · exact h
    obtain ⟨s1, hs1⟩ : ∃ s1, s1 = { s with agents := s.agents.modify a fun r => { r with closed := true } } :=
      ⟨_, rfl⟩
    have hI1 : s1.Inv := hs1 ▸ hI.hangUp a
    have hc : Closes s1 (s1.closeAllFor r) := .closeAll s1 _
    rw [← hs1]
    refine ⟨fun b r' hr' hcl t hl hag => ?_, Listens.closeAll hI1 (hs1 ▸ h.listens) _⟩
    obtain ⟨r1, hr1, _, hrc⟩ := hc.agent_back hr'
    have hl0 : s.Live t := by
      have := hc.live hl
      rwa [hs1] at this
    have hag0 : s.agentOf t = some b := by
      rw [hc.same.agentOf, hs1] at hag
      exact hag
    by_cases hab : a = b
    · -- the session's own tunnels have all been closed
      subst hab
      obtain ⟨id, hid⟩ := hl0
      have ht : t ∈ r.tunnels.values :=
        Dict.mem_values.mpr ⟨id, (hI.agents a r hr).lookup_of_mem ⟨⟨id, hid⟩, hag0⟩ (hI.byId.key_of_lookup hid)⟩
      exact not_live_closeAll hI1 ht hl
    · rw [hs1] at hr1
      simp only [List.getElem?_modify_ne _ _ hab] at hr1
      exact h.hushed b r1 hr1 (hrc.trans hcl) t hl0 hag0

theorem Clear.start (cfg : Config) : (Relay.new cfg).Clear where
  hushed := by intro a r h; simp [Relay.new] at h
  listens := by intro t tn h; simp [Relay.new] at h

/-- A step that registers late leaves a closed session with a registered tunnel. -/
theorem late_live {e : Event} (hI : s.Inv) (hid : s.FreshId e) (hok : ¬ s.NotLate e)
    (hs : Relay.step cfg s e = some s') : ¬ s'.Hushed := by
  simp only [NotLate, not_forall, Bool.not_eq_false] at hok
  obtain ⟨r, hrec, hc⟩ := hok
  obtain ⟨t, tn, hr, ht, _, hby, hmod⟩ := step_records hI hid hs hrec
  intro h
  refine h tn.agent { r with tunnels := r.tunnels.insert tn.id t } ?_ hc t ?_ (by simp [agentOf, ht])
  · simp [hmod, hr]
  · exact ⟨tn.id, by rw [hby, Dict.lookup_insert_ite, if_pos rfl]⟩

/-- In every run in which nothing is registered for a closed session, nothing is left of a closed
session once its binds are settled; and whatever is registered late is left. -/
theorem released_run (cfg : Config) :
    (∀ s, Lts.Reach (Lts.ofFn (step cfg)) InTime (· = Relay.new cfg) s → s.AllReleased) ∧
    ∀ s e s', Run cfg (· = Relay.new cfg) s → s.FreshId e → ¬ s.NotLate e → step cfg s e = some s' →
      ¬ s'.Hushed := by
  constructor
  · intro s h
    have hboth : s.Inv ∧ s.Clear := by
      refine h.invariant (I := fun s => s.Inv ∧ s.Clear) ?_ fun s e s' _ hI hok hs =>
        ⟨hI.1.step hok.1 hs, hI.2.step hI.1 hok hs⟩
      rintro _ rfl
      exact ⟨Inv.start cfg, Clear.start cfg⟩
    exact hboth.2.allReleased hboth.1
  · exact fun s e s' h hid hok hs => late_live (reach_inv h) hid hok hs

instance (s : Relay) (e : Event) : Decidable (s.InTime e) :=
  haveI : Decidable (s.NotLate e) :=
    decidable_of_iff (∀ r ∈ s.records e, r.closed = false) Iff.rfl
  inferInstanceAs (Decidable (_ ∧ _))

/-- The end of a session with one registered tunnel and one whose bind then fails. -/
def releaseRun : List Event :=
  [.connect smallToken "laptop",
    .openTunnel 0 ⟨some "r1", .tcp none, smallTarget⟩ "tn_1",
    .openTunnel 0 ⟨some "r2", .tcp none, smallTarget⟩ "tn_2",
    .listening 0, .resume 0, .destroy 0, .listenError 1 "listen EADDRINUSE", .resume 1]

theorem released_releaseRun : ∃ s : Relay, s.AllReleased ∧ s.tunnels.length = 2 ∧ s.byPort.size = 0 := by
  have hx : (Lts.execOk (step smallConfig) InTime (Relay.new smallConfig) releaseRun).map
      (fun s => s.tunnels.length == 2 && s.byPort.size == 0) = some true := by decide +kernel
  obtain ⟨s, hs, hc⟩ := Option.map_eq_some_iff.mp hx
  simp only [Bool.and_eq_true, beq_iff_eq] at hc
  have h0 : Lts.Reach (Lts.ofFn (step smallConfig)) InTime (· = Relay.new smallConfig)
      (Relay.new smallConfig) := .start rfl
  exact ⟨s, (released_run smallConfig).1 s (h0.execOk hs), hc⟩

/-! ## A bind that ends after `destroy` -/

def lateRun : List Event :=
  [.connect smallToken "laptop",
    .openTunnel 0 ⟨some "r1", .tcp none, smallTarget⟩ "tn_1",
    .destroy 0, .listening 0, .resume 0]

theorem lateRun_ends : ∃ s, Lts.execOk (step smallConfig) FreshId (Relay.new smallConfig) lateRun = some s ∧
    s.byPort.lookup 20000 = some 0 ∧ s.agents.map (·.closed) = [true] ∧ s.opening.keys = [] ∧
    s.tunnels.map (·.agent) = [0] := by
  have hx : (Lts.execOk (step smallConfig) FreshId (Relay.new smallConfig) lateRun).map (fun s =>
      s.byPort.lookup 20000 == some 0 && (s.agents.map (·.closed) == [true] &&
        (s.opening.keys == [] && s.tunnels.map (·.agent) == [0]))) = some true := by decide +kernel
  obtain ⟨s, hs, hc⟩ := Option.map_eq_some_iff.mp hx
  simp only [Bool.and_eq_true, beq_iff_eq] at hc
  exact ⟨s, hs, hc⟩

/-- A closed session that waits for no bind can keep a port. -/
theorem not_released : ¬ ∀ (cfg : Config) (s : Relay), Run cfg (· = Relay.new cfg) s → s.AllReleased := by
  intro h
  obtain ⟨s, hx, hport, hcl, hop, hag⟩ := lateRun_ends
  have h0 : Run smallConfig (· = Relay.new smallConfig) (Relay.new smallConfig) := .start rfl
  have hr0 : (s.agents.map (·.closed))[0]? = some true := by rw [hcl]; rfl
  have ht0 : (s.tunnels.map (·.agent))[0]? = some 0 := by rw [hag]; rfl
  rw [List.getElem?_map, Option.map_eq_some_iff] at hr0 ht0
  obtain ⟨r, hr, hc⟩ := hr0
  obtain ⟨tn, ht, hta⟩ := ht0
  have hp : ∀ t, s.Pending t → s.agentOf t ≠ some 0 := by
    intro t hp
    rw [Pending, AList.mem_keys, hop] at hp
    cases hp
  exact (h smallConfig s (h0.execOk hx) 0 r hr hc hp 0 tn ht hta).2.2.1 20000 hport

end

end Relay

end UpTunnel
