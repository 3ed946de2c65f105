import UpTunnel.Server.HttpFrontend
import UpTunnel.Server.Ports

/-!
# UpTunnel.Server.Routing

What `HttpFrontend` finds by a Host header is what `Registry.open` has registered.

* `NamesGranted.step`: an http tunnel has a name that is not reserved and that its token grants.
* `route_live`: a request is routed to a registered tunnel where its Host header names the host of
  the tunnel's `publicUrl`.
* `reach_routed`: so it is in every reachable registry, however the request is cut into chunks.
-/

namespace UpTunnel

open Js Search

/-! ## The names of http tunnels -/

namespace Relay

/-- The request of an `open` is one that `parseRequest` has made. -/
def Parsed (engine : Engine) : Event → Prop
  | .openTunnel _ req _ => ∃ body, parseRequest engine body = .ok req
  | _ => True

/-- A run with fresh ids in which requests are what `parseRequest` makes of a message. -/
abbrev ParsedRun (cfg : Config) (engine : Engine) : Relay → Prop :=
  Lts.Reach (Lts.ofFn (step cfg)) (fun s e => s.FreshId e ∧ Parsed engine e) (· = Relay.new cfg)

/-- Every http tunnel has a name that is not reserved and that the token of its session grants. -/
def NamesGranted (s : Relay) : Prop :=
  ∀ (t : Nat) (tn : Tunnel) sub, s.tunnels[t]? = some tn → tn.place = .http sub →
    sub.val ∉ RESERVED_SUBDOMAINS ∧
      ∃ r, s.agents[tn.agent]? = some r ∧ subdomainAllowed r.token.subdomains sub.val = true

variable {cfg : Config} {engine : Engine} {s s' : Relay}

theorem NamesGranted.frame (h : s.NamesGranted) (hf : Frame s s') : s'.NamesGranted := by
  intro t tn' sub ht hp
  have hsame := hf.same t
  rw [ht, Option.map_some, eq_comm, Option.map_eq_some_iff] at hsame
  obtain ⟨tn, htn, he⟩ := hsame
  have hplace : tn.place = tn'.place := congrArg (·.2.1) he
  have hagent : tn.agent = tn'.agent := congrArg (·.2.2) he
  obtain ⟨hr, r, hag, hall⟩ := h t tn sub htn (hplace.trans hp)
  obtain ⟨r', hag', htok⟩ := hf.agents _ r hag
  exact ⟨hr, r', hagent ▸ hag', htok ▸ hall⟩

/-- A new tunnel, whose name, if it has one, is free to take. -/
theorem NamesGranted.concat {r : Registrant} {tn : Tunnel} (h : s.NamesGranted)
    (htn : s'.tunnels = s.tunnels ++ [tn]) (hr : s.agents[tn.agent]? = some r)
    (hag : ∀ (b : Nat) (r : Registrant), s.agents[b]? = some r →
      ∃ r', s'.agents[b]? = some r' ∧ r'.token = r.token)
    (hname : ∀ sub, tn.place = .http sub →
      sub.val ∉ RESERVED_SUBDOMAINS ∧ subdomainAllowed r.token.subdomains sub.val = true) :
    s'.NamesGranted := by
  intro t tn' sub ht hp
  rw [htn, getElem?_concat] at ht
  split at ht
  · cases ht
    obtain ⟨hres, hall⟩ := hname sub hp
    obtain ⟨r', hr', htok⟩ := hag _ r hr
    exact ⟨hres, r', hr', htok ▸ hall⟩
  · obtain ⟨hres, r0, hr0, hall⟩ := h t tn' sub ht hp
    obtain ⟨r', hr', htok⟩ := hag _ r0 hr0
    exact ⟨hres, r', hr', htok ▸ hall⟩

theorem NamesGranted.step {e : Event} (h : s.NamesGranted) (hok : Parsed engine e)
    (hs : Relay.step cfg s e = some s') : s'.NamesGranted := by
  rcases step_frame hs with ⟨a, req, id, r, rfl, hr, hb⟩ | hf
  · obtain ⟨body, hbody⟩ := hok
    obtain ⟨-, ⟨sub, tn, hask, rfl, hall, -, rfl⟩ | ⟨remotePort, port, hint, tn, -, -, rfl, rfl⟩⟩ := begin_cases hb
    · refine h.concat rfl hr (token_modify rfl fun _ => rfl) fun sub' hp => ?_
      cases hp
      exact ⟨(parseRequest_reserved hbody hask).2, hall⟩
    · exact h.concat rfl hr (fun _ r hr => ⟨r, hr, rfl⟩) fun _ hp => by cases hp
  · exact h.frame hf

theorem reach_namesGranted (h : ParsedRun cfg engine s) : s.NamesGranted := by
  refine h.invariant ?_ fun s e s' _ hI hok hs => hI.step hok.2 hs
  rintro _ rfl t tn sub ht
  simp [Relay.new] at ht

/-- A registered http tunnel is what the registry has for its name, and for no other. -/
theorem Inv.lookupHttp_iff (hI : s.Inv) {t : Nat} {tn : Tunnel} {sub : Label} (hl : s.Live t)
    (ht : s.tunnels[t]? = some tn) (hp : tn.place = .http sub) (name : String) :
    s.lookupHttp name = some t ↔ name = sub.val := by
  have hkey : s.subdomainOf t = some sub.val := by simp [subdomainOf, ht, Tunnel.subdomain, hp]
  constructor
  · intro hn
    exact Option.some.inj ((hI.bySubdomain.key_of_lookup hn).symm.trans hkey)
  · rintro rfl
    exact hI.bySubdomain.lookup_of_mem hl hkey

/-- What the registry has for a name is a registered http tunnel of that name. -/
theorem Inv.lookupHttp_live (hI : s.Inv) {t : Nat} {name : String} (hn : s.lookupHttp name = some t) :
    s.Live t ∧ ∃ tn sub, s.tunnels[t]? = some tn ∧ tn.place = .http sub ∧ sub.val = name := by
  refine ⟨hI.bySubdomain.mem_of_lookup hn, ?_⟩
  obtain ⟨tn, ht, hs⟩ := Option.bind_eq_some_iff.mp (hI.bySubdomain.key_of_lookup hn)
  cases hp : tn.place with
  | http sub =>
    rw [Tunnel.subdomain, hp] at hs
    exact ⟨tn, sub, ht, hp, Option.some.inj hs⟩
  | tcp port =>
    rw [Tunnel.subdomain, hp] at hs
    cases hs

end Relay

/-! ## The host of a public URL -/

/-- The host in `publicUrl`. -/
def publicHost (cfg : Config) (tn : Tunnel) : List Char :=
  (publicUrl cfg tn).toList.drop (cfg.publicScheme ++ "://").toList.length

/-- `toLowerCase` leaves it as it is. -/
def LowerCased (s : String) : Prop := s.toList.map lowerLatin1 = s.toList

instance (s : String) : Decidable (LowerCased s) := inferInstanceAs (Decidable (_ = _))

theorem publicHost_http {cfg : Config} {tn : Tunnel} {sub : Label} (h : tn.place = .http sub) :
    publicHost cfg tn = sub.val.toList ++ hostSuffix cfg := by
  have hsub : tn.subdomain = some sub.val := by rw [Tunnel.subdomain, h]
  simp [publicHost, publicUrl, hsub, hostSuffix, String.toList_append, List.append_assoc]

theorem Label.chars (sub : Label) : (∃ c l, sub.val.toList = c :: l ∧ isAlnum c = true) ∧
    ∀ c ∈ sub.val.toList, isAlnum c = true ∨ c = '-' := by
  have h := sub.valid
  unfold isLabel at h
  split at h
  · cases h
  · rename_i c cs hc
    simp only [Bool.and_eq_true, List.all_eq_true, Bool.or_eq_true, decide_eq_true_eq] at h
    rw [hc]
    refine ⟨⟨c, cs, rfl, h.1.1.1⟩, fun d hd => ?_⟩
    rcases List.mem_cons.mp hd with rfl | hd
    · exact .inl h.1.1.1
    · exact h.1.1.2 d hd

theorem Label.notMem (sub : Label) {c : Char} (h : isAlnum c = false) (hc : c ≠ '-') : c ∉ sub.val.toList := by
  intro hm
  rcases sub.chars.2 c hm with ha | ha
  · rw [h] at ha
    cases ha
  · exact hc ha

theorem Label.lower (sub : Label) : sub.val.toList.map lowerLatin1 = sub.val.toList := by
  have h : ∀ c ∈ sub.val.toList, lowerLatin1 c = id c := fun c hc => by
    rcases sub.chars.2 c hc with ha | rfl
    · exact lowerLatin1_of_isAlnum ha
    · decide
  rw [List.map_congr_left h, List.map_id]

section
variable {cfg : Config} (sub : Label)

theorem hostname_of_label (hcolon : ':' ∉ cfg.httpDomain.toList) (hlower : LowerCased cfg.httpDomain)
    (hblank : ∀ c ∈ cfg.httpDomain.toList.getLast?, isSpace c = false) :
    Hostname (sub.val.toList ++ hostSuffix cfg) where
  first := by
    obtain ⟨⟨c, l, hcl, hc⟩, -⟩ := sub.chars
    exact ⟨c, l ++ hostSuffix cfg, by rw [hcl, List.cons_append], hc⟩
  last := by
    intro c hc
    rw [hostSuffix, List.getLast?_append, List.getLast?_cons, Option.some_or] at hc
    cases hd : cfg.httpDomain.toList.getLast? with
    | none =>
      rw [hd] at hc
      cases hc
      decide
    | some d =>
      rw [hd] at hc
      cases hc
      exact hblank _ hd
  colonFree := by
    intro hm
    rcases List.mem_append.mp hm with hm | hm
    · exact sub.notMem (by decide) (by decide) hm
    · rcases List.mem_cons.mp hm with he | hm
      · exact absurd he (by decide)
      · exact hcolon hm
  lower := by
    have hdot : lowerLatin1 '.' = '.' := by decide
    rw [List.map_append, sub.lower, hostSuffix, List.map_cons, hlower, hdot]

end

/-! ## Routing to a tunnel -/

/-- How a request with the head `requestHead` is answered by the registry `s` when `read` has been
read; `fold` is what letters are compared by. -/
structure RoutedBy (fold : Char → Char) (cfg : Config) (s : Relay) (requestHead read : Bytes) (answer : Answer) :
    Prop where
  bridged : ∀ (t : Nat) (tn : Tunnel) sub, s.Live t → s.tunnels[t]? = some tn → tn.place = .http sub →
    (answer = .openStream t read ↔
      ∃ value, FirstHost fold requestHead value ∧ NamesHost fold (publicHost cfg tn) value)
  only : ∀ t preread, answer = .openStream t preread → preread = read ∧ s.Live t ∧
    ∃ (tn : Tunnel) (sub : Label) (r : Registrant), s.tunnels[t]? = some tn ∧ tn.place = .http sub ∧
      sub.val ∉ RESERVED_SUBDOMAINS ∧ s.agents[tn.agent]? = some r ∧
      subdomainAllowed r.token.subdomains sub.val = true

section
variable {cfg : Config} {s : Relay} {requestHead read : Bytes} {t : Nat} {tn : Tunnel} {sub : Label}

theorem route_live (hcolon : ':' ∉ cfg.httpDomain.toList) (hlower : LowerCased cfg.httpDomain)
    (hblank : ∀ c ∈ cfg.httpDomain.toList.getLast?, isSpace c = false) (hI : s.Inv) (hl : s.Live t)
    (ht : s.tunnels[t]? = some tn) (hp : tn.place = .http sub) :
    route cfg s (parseHostHeader requestHead) read = .openStream t read ↔
      ∃ value, FirstHost lowerLatin1 requestHead value ∧ NamesHost lowerLatin1 (publicHost cfg tn) value := by
  have hname := hostname_of_label sub hcolon hlower hblank
  rw [route_openStream, publicHost_http hp]
  constructor
  · rintro ⟨-, v, name, hv, hbare, -, -, hlook⟩
    obtain ⟨value, hfirst, rfl⟩ := parseHostHeader_eq_some.mp hv
    have hsub := (hI.lookupHttp_iff hl ht hp _).mp hlook
    have hn : name = sub.val.toList := by rw [← hsub, String.toList_ofList]
    exact ⟨value, hfirst, hname.names_iff.mpr (hn ▸ hbare)⟩
  · rintro ⟨value, hfirst, hnames⟩
    refine ⟨rfl, trimChars value, sub.val.toList, parseHostHeader_eq_some.mpr ⟨value, hfirst, rfl⟩,
      hname.names_iff.mp hnames, ?_, sub.notMem (by decide) (by decide), ?_⟩
    · obtain ⟨⟨c, l, hcl, -⟩, -⟩ := sub.chars
      rw [hcl]
      exact List.cons_ne_nil c l
    · rw [String.ofList_toList]
      exact (hI.lookupHttp_iff hl ht hp _).mpr rfl

theorem routedBy_route (hcolon : ':' ∉ cfg.httpDomain.toList) (hlower : LowerCased cfg.httpDomain)
    (hblank : ∀ c ∈ cfg.httpDomain.toList.getLast?, isSpace c = false) (hI : s.Inv) (hg : s.NamesGranted) :
    RoutedBy lowerLatin1 cfg s requestHead read (route cfg s (parseHostHeader requestHead) read) where
  bridged := fun _ _ _ hl ht hp => route_live hcolon hlower hblank hI hl ht hp
  only := by
    intro t preread h
    obtain ⟨rfl, v, name, -, -, -, -, hlook⟩ := route_openStream.mp h
    obtain ⟨hl, tn, sub, ht, hp, -⟩ := hI.lookupHttp_live hlook
    obtain ⟨hres, r, hr, hall⟩ := hg t tn sub ht hp
    exact ⟨rfl, hl, tn, sub, r, ht, hp, hres, hr, hall⟩

end

/-! ## Whole visits -/

/-- The same answer when other bytes have been read. -/
def Answer.withRead (read : Bytes) : Answer → Answer
  | .openStream t _ => .openStream t read
  | a => a

theorem route_withRead (cfg : Config) (s : Relay) (host : Option (List Char)) (read read' : Bytes) :
    (route cfg s host read).withRead read' = route cfg s host read' := by
  unfold route
  split
  · rfl
  · rfl
  dsimp only
  split
  · rfl
  split
  · rfl
  split <;> rfl

/-- What was read before a chunk counts what the earlier chunks brought. -/
theorem Visit.length_le_sent (before : Bytes) (visit rest : Visit) (s : Relay) (chunk : Bytes) :
    (before ++ (sent visit ++ chunk)).length ≤ (before ++ sent (visit ++ (s, chunk) :: rest)).length := by
  simp only [sent, List.map_append, List.map_cons, List.flatten_append, List.flatten_cons, List.length_append]
  omega

/-- One chunk completes the head. -/
theorem Visit.Completes.unique {before : Bytes} {visit : Visit} {m : Nat} {s s' : Relay} {read read' : Bytes}
    (h : visit.Completes before m s read) (h' : visit.Completes before m s' read') : s = s' ∧ read = read' := by
  obtain ⟨l, c, r, rfl, rfl, h1, h2⟩ := h
  obtain ⟨l', c', r', he, rfl, h1', h2'⟩ := h'
  rcases List.append_eq_append_iff.mp he with ⟨k, rfl, hk⟩ | ⟨k, rfl, hk⟩
  · cases k with
    | nil =>
      cases hk
      simp
    | cons x k =>
      cases hk
      have hle := Visit.length_le_sent before l k s c
      omega
  · cases k with
    | nil =>
      cases hk
      simp
    | cons x k =>
      cases hk
      have hle := Visit.length_le_sent before l' k s' c'
      omega

/-- Requests get where their Host header says, over every registry that is reached while they come in. -/
def RoutesAsRegistered (fold : Char → Char) (cfg : Config) (engine : Engine) (maxHttpHeadBytes : Int) :
    Prop :=
  (∀ es, (Incoming.start.answers cfg maxHttpHeadBytes es).length ≤ 1) ∧
  ∀ (visit : Visit) (n : Nat), (∀ v ∈ visit, Relay.ParsedRun cfg engine v.1) →
    indexOf HEAD_TERMINATOR visit.sent = some n → (n + 4 : Int) ≤ maxHttpHeadBytes →
    ∃ s read answer, visit.Completes [] (n + 4) s read ∧
      Incoming.start.answers cfg maxHttpHeadBytes visit.events = [answer] ∧
      RoutedBy fold cfg s (visit.sent.take n) read answer ∧
      ∀ (visit' : Visit) read', visit'.sent = visit.sent → visit'.Completes [] (n + 4) s read' →
        Incoming.start.answers cfg maxHttpHeadBytes visit'.events = [answer.withRead read']

theorem reach_routed {cfg : Config} (engine : Engine) (maxHttpHeadBytes : Int)
    (hcolon : ':' ∉ cfg.httpDomain.toList) (hlower : LowerCased cfg.httpDomain)
    (hblank : ∀ c ∈ cfg.httpDomain.toList.getLast?, isSpace c = false) :
    RoutesAsRegistered lowerLatin1 cfg engine maxHttpHeadBytes := by
  refine ⟨fun es => Incoming.length_answers_le Incoming.start es, fun visit n hrun hn hmax => ?_⟩
  have hstart : ∀ visit' : Visit, visit'.sent = visit.sent → ∃ s read, visit'.Completes [] (n + 4) s read ∧
      Incoming.start.answers cfg maxHttpHeadBytes visit'.events =
        [route cfg s (parseHostHeader (visit.sent.take n)) read] := by
    intro visit' he
    rw [← he] at hn ⊢
    exact Incoming.answers_of_head (p := Incoming.start) rfl rfl hn (by simp [Incoming.start]) hmax
  obtain ⟨s, read, hc, ha⟩ := hstart visit rfl
  have hs : Relay.ParsedRun cfg engine s := by
    obtain ⟨before, chunk, after, rfl, -⟩ := hc
    exact hrun (s, chunk) (by simp)
  refine ⟨s, read, _, hc, ha, routedBy_route hcolon hlower hblank (Relay.reach_inv (hs.mono fun _ _ h => h.1))
    (Relay.reach_namesGranted hs), fun visit' read' he hc' => ?_⟩
  obtain ⟨s', read'', hc'', ha'⟩ := hstart visit' he
  obtain ⟨rfl, rfl⟩ := hc'.unique hc''
  rw [route_withRead, ha']

/-! ## A device that serves `dev` -/

def asciiEngine : Engine where
  lower s := String.ofList (s.toList.map Char.toLower)
  maxJoins := 1000

def devBody : Obj :=
  [("reqId", .str "0"), ("kind", .str "http"), ("subdomain", .str " Dev"),
    ("target", .obj [("host", .str "127.0.0.1"), ("port", .num (.fin 3000))])]

def devRequest : OpenTunnelRequest := ⟨some "0", .http ⟨"dev", rfl⟩, Relay.smallTarget⟩

def devTunnel : Tunnel := ⟨"tn_1", .http ⟨"dev", rfl⟩, 0, Relay.smallTarget, false⟩

def devRelay (cfg : Config) : Relay :=
  let s := { Relay.new cfg with
    tunnels := [devTunnel]
    bySubdomain := (∅ : Dict String Nat).insert "dev" 0
    agents := [⟨Relay.smallToken, "laptop", ∅, false⟩] }
  s.register 0 devTunnel

theorem parseRequest_devBody : parseRequest asciiEngine devBody = .ok devRequest := by rfl

theorem devRelay_run (cfg : Config) : Relay.ParsedRun cfg asciiEngine (devRelay cfg) := by
  have h1 : Relay.ParsedRun cfg asciiEngine
      { Relay.new cfg with agents := [⟨Relay.smallToken, "laptop", ∅, false⟩] } :=
    .next (e := .connect Relay.smallToken "laptop") (.start rfl) ⟨trivial, trivial⟩ rfl
  refine .next (e := .openTunnel 0 devRequest "tn_1") h1 ⟨?_, devBody, parseRequest_devBody⟩ rfl
  simp [Relay.FreshId, Relay.new]

def requestTo (host : String) : Bytes :=
  ("GET / HTTP/1.1\r\nHost: " ++ host ++ "\r\n\r\nxy").toList.map fun c => UInt8.ofNat c.toNat

/-- A request in two chunks, the first of which ends within the terminator. -/
def devVisit (cfg : Config) (host : String) : Visit :=
  [(devRelay cfg, (requestTo host).take (24 + host.length)), (devRelay cfg, (requestTo host).drop (24 + host.length))]

theorem devVisit_run {cfg : Config} {host : String} :
    ∀ v ∈ devVisit cfg host, Relay.ParsedRun cfg asciiEngine v.1 := by
  intro v hv
  simp only [devVisit, List.mem_cons, List.not_mem_nil, or_false] at hv
  rcases hv with rfl | rfl <;> exact devRelay_run cfg

theorem completes_devVisit {cfg : Config} {host : String} {m : Nat} {s : Relay} {read : Bytes}
    (h : (devVisit cfg host).Completes [] m s read) : s = devRelay cfg := by
  obtain ⟨before, chunk, after, he, -⟩ := h
  have hm : (s, chunk) ∈ devVisit cfg host := by
    rw [he]
    simp
  simp only [devVisit, List.mem_cons, Prod.mk.injEq, List.not_mem_nil, or_false] at hm
  rcases hm with ⟨hs, -⟩ | ⟨hs, -⟩ <;> exact hs

/-- The answer to a visit of the device. -/
theorem answer_devVisit {fold : Char → Char} {cfg : Config} (host : String) (n : Nat)
    (h : RoutesAsRegistered fold cfg asciiEngine 65536)
    (hn : indexOf HEAD_TERMINATOR (devVisit cfg host).sent = some n) (hle : n + 4 ≤ 65536) :
    ∃ read answer, Incoming.start.answers cfg 65536 (devVisit cfg host).events = [answer] ∧
      RoutedBy fold cfg (devRelay cfg) ((devVisit cfg host).sent.take n) read answer := by
  obtain ⟨s, read, answer, hc, ha, hr, -⟩ := h.2 (devVisit cfg host) n devVisit_run hn (by omega)
  obtain rfl := completes_devVisit hc
  exact ⟨read, answer, ha, hr⟩

theorem routed_devVisit : ∃ read answer,
    Incoming.start.answers Relay.smallConfig 65536 (devVisit Relay.smallConfig " DEV.tun.LOCALHOST:443 ").events =
      [answer] ∧
    RoutedBy lowerLatin1 Relay.smallConfig (devRelay Relay.smallConfig)
      ((devVisit Relay.smallConfig " DEV.tun.LOCALHOST:443 ").sent.take 45) read answer := by
  have hlast : Relay.smallConfig.httpDomain.toList.getLast? = some 't' := by decide
  have h : RoutesAsRegistered lowerLatin1 Relay.smallConfig asciiEngine 65536 := by
    refine reach_routed _ _ (by decide) (by decide) fun c hc => ?_
    rw [hlast] at hc
    cases hc
    decide
  exact answer_devVisit _ 45 h (by decide +kernel) (by decide)

theorem live_devRelay (cfg : Config) : (devRelay cfg).Live 0 :=
  ⟨"tn_1", by simp [devRelay, Relay.register, devTunnel]⟩

def accentConfig : Config := { Relay.smallConfig with httpDomain := "é" }

def blankConfig : Config := { Relay.smallConfig with httpDomain := "x " }

/-- A Host header that ends in `É` is routed although that is no letter case of ASCII. -/
theorem not_routes_accent : ¬ RoutesAsRegistered Char.toLower accentConfig asciiEngine 65536 := by
  intro h
  obtain ⟨read, answer, ha, hr⟩ := answer_devVisit "dev.É" 27 h (by decide +kernel) (by decide)
  have hx : Incoming.start.answers accentConfig 65536 (devVisit accentConfig "dev.É").events =
      [.openStream 0 (requestTo "dev.É")] := by decide +kernel
  rw [hx] at ha
  cases ha
  have hread := (hr.only _ _ rfl).1
  obtain ⟨value, ⟨before, line, after, hlines, ⟨name, rfl, -⟩, -⟩, pre, w, port, post, rfl, -, hw, -⟩ :=
    (hr.bridged 0 devTunnel _ (live_devRelay _) rfl rfl).mp (by rw [hread])
  have hno : ((splitLines (latin1 ((devVisit accentConfig "dev.É").sent.take 27))).drop 1).all
      (fun l => l.all fun c => c.toLower != 'é') = true := by decide +kernel
  have hin : 'é' ∈ w.map Char.toLower := by
    rw [hw]
    decide +kernel
  obtain ⟨c, hc, hce⟩ := List.mem_map.mp hin
  rw [hlines, List.all_eq_true] at hno
  have hc' := List.all_eq_true.mp (hno _ (List.mem_append_right _ List.mem_cons_self)) c (by simp [hc])
  simp [hce] at hc'

/-- The blank at the end of the domain is trimmed from the Host header. -/
theorem not_routes_blank : ¬ RoutesAsRegistered lowerLatin1 blankConfig asciiEngine 65536 := by
  intro h
  obtain ⟨read, answer, ha, hr⟩ := answer_devVisit "dev.x " 28 h (by decide +kernel) (by decide)
  have hx : Incoming.start.answers blankConfig 65536 (devVisit blankConfig "dev.x ").events =
      [.respond 404 "Not Found" "dev.x is not a tunnel hostname"] := by decide +kernel
  rw [hx] at ha
  cases ha
  have hb := (hr.bridged 0 devTunnel _ (live_devRelay _) rfl rfl).mpr
    ⟨" dev.x ".toList, ⟨[], "Host: dev.x ".toList, [], by decide +kernel,
        ⟨"Host".toList, by decide, by decide, by decide⟩, by simp⟩,
      [' '], "dev.x ".toList, [], [], by decide, by simp [isSpace], by decide, .inl rfl⟩
  cases hb

theorem not_routes :
    (¬ ∀ cfg : Config, ':' ∉ cfg.httpDomain.toList → LowerCased cfg.httpDomain →
      RoutesAsRegistered Char.toLower cfg asciiEngine 65536) ∧
    ¬ ∀ cfg : Config, ':' ∉ cfg.httpDomain.toList → LowerCased cfg.httpDomain →
      RoutesAsRegistered lowerLatin1 cfg asciiEngine 65536 :=
  ⟨fun h => not_routes_accent (h accentConfig (by decide) (by decide)),
    fun h => not_routes_blank (h blankConfig (by decide) (by decide))⟩

end UpTunnel
