import UpTunnel.Lib.Index
import UpTunnel.Protocol

/-!
# UpTunnel.Server.Registry

`Registry` of `server/src/registry.ts`: which tunnels exist and what they are reachable at, with
what it reads and writes of a session (`server/src/agent.ts`, here `Registrant`), the result of
`TcpFrontend.bind` (`server/src/tcp-frontend.ts`) and `ControlPlane.closeTunnel`.

`open` is cut at its `await`. `begin` is what runs before it; for an http tunnel there is no `await`,
and `begin` also registers the tunnel. `resume` is the rest, once the bind has been settled.

* `step`: one event of a relay. Between two events nothing else runs.
-/

namespace UpTunnel

open Js

/-! ## Configuration -/

structure TokenEntry where
  token : String
  name : String
  subdomains : Option (List String)
  ports : Option (Int × Int)
  maxTunnels : Option Js.Num
  deriving DecidableEq

structure Config where
  httpDomain : String
  publicScheme : String
  publicTcpHost : String
  tcpPortMin : Int
  tcpPortMax : Int
  streamWindow : Int
  heartbeatMs : Int
  tokens : List TokenEntry

/-- `*` matches one label; a trailing `*` matches a prefix. -/
def subdomainAllowed (patterns : Option (List String)) (subdomain : String) : Bool :=
  match patterns with
  | none | some [] => true
  | some ps => ps.any fun p =>
    if p = "*" then true
    else if p.toList.getLast? = some '*' then p.toList.dropLast.isPrefixOf subdomain.toList
    else p = subdomain

/-! ## Tunnels -/

/-- The characters of `SUBDOMAIN_RE`. -/
def isAlnum (c : Char) : Bool := ('a' ≤ c ∧ c ≤ 'z') ∨ isDigit c

/-- `SUBDOMAIN_RE.test(s)` -/
def isLabel (s : String) : Bool :=
  match s.toList with
  | [] => false
  | c :: cs =>
    isAlnum c && cs.all (fun c => isAlnum c || c = '-') && cs.length ≤ 62 && isAlnum (cs.getLast?.getD c)

/-- A subdomain that a request may ask for. -/
structure Label where
  val : String
  valid : isLabel val = true
  deriving DecidableEq

structure Target where
  host : String
  port : Nat
  deriving DecidableEq

/-- What a request asks for, by its `kind`. -/
inductive Ask where
  | http (subdomain : Label)
  | tcp (remotePort : Option Int)
  deriving DecidableEq

structure OpenTunnelRequest where
  reqId : Option String
  ask : Ask
  target : Target
  deriving DecidableEq

structure TunnelError where
  code : String
  message : String
  deriving DecidableEq

/-- What a tunnel is reachable at, by its `kind`. -/
inductive Place where
  | http (subdomain : Label)
  | tcp (publicPort : Int)
  deriving DecidableEq

structure Tunnel where
  id : String
  place : Place
  /-- The address of its session. -/
  agent : Nat
  target : Target
  /-- `listener` is set. -/
  listener : Bool
  deriving DecidableEq

namespace Tunnel

def kind (tn : Tunnel) : TunnelKind :=
  match tn.place with
  | .http _ => .http
  | .tcp _ => .tcp

def subdomain (tn : Tunnel) : Option String :=
  match tn.place with
  | .http sub => some sub.val
  | .tcp _ => none

def publicPort (tn : Tunnel) : Option Int :=
  match tn.place with
  | .http _ => none
  | .tcp port => some port

end Tunnel

def publicUrl (cfg : Config) (tn : Tunnel) : String :=
  cfg.publicScheme ++ "://" ++ tn.subdomain.getD "undefined" ++ "." ++ cfg.httpDomain

/-! ## State -/

/-- A session, as far as the registry is concerned. -/
structure Registrant where
  token : TokenEntry
  clientName : String
  tunnels : Dict String Nat
  closed : Bool

/-- Where the `bindTcp` of an `open` that is at its `await` has got to. -/
inductive Bind where
  | waiting
  | listening
  | failed (message : String)
  deriving DecidableEq

structure Registry where
  byId : Dict String Nat
  bySubdomain : Dict String Nat
  byPort : Dict Int Nat
  nextPortHint : Int

/-- The registry with the tunnels and sessions it points to, at their addresses, and the calls of
`open` that are at their `await`, by the address of the tunnel. -/
structure Relay extends Registry where
  tunnels : List Tunnel
  agents : List Registrant
  opening : Dict Nat Bind

def Relay.new (cfg : Config) : Relay where
  byId := ∅
  bySubdomain := ∅
  byPort := ∅
  nextPortHint := cfg.tcpPortMin
  tunnels := []
  agents := []
  opening := ∅

/-! ## Ports -/

/-- `min` and `max` of `claimPort`. -/
def portRange (cfg : Config) (token : TokenEntry) : Int × Int :=
  let (lo, hi) := token.ports.getD (cfg.tcpPortMin, cfg.tcpPortMax)
  (max lo cfg.tcpPortMin, min hi cfg.tcpPortMax)

/-- The port that the scan of `claimPort` tries in round `i`; `%` keeps the sign of its dividend. -/
def candidate (min span hint : Int) (i : Nat) : Int := min + Int.tmod (hint - min + i + span) span

/-- The rounds of the scan from `i` on; `n` are left. -/
def scan (taken : Int → Bool) (min span hint : Int) : Nat → Nat → Option Int
  | 0, _ => none
  | n + 1, i =>
    let port := candidate min span hint i
    if taken port then scan taken min span hint n (i + 1) else some port

/-- The second component is the new `nextPortHint`. -/
def Registry.claimPort (cfg : Config) (s : Registry) (token : TokenEntry) (requested : Option Int) :
    Except TunnelError (Int × Int) :=
  let (min, max) := portRange cfg token
  match requested with
  | some port =>
    if port < min ∨ port > max then
      .error ⟨"port_forbidden", s!"port {port} is outside the allowed range {min}-{max}"⟩
    else if port ∈ s.byPort then .error ⟨"port_taken", s!"port {port} is already in use"⟩
    else .ok (port, s.nextPortHint)
  | none =>
    let span := max - min + 1
    match scan (fun port => port ∈ s.byPort) min span s.nextPortHint span.toNat 0 with
    | some port => .ok (port, if port + 1 > max then min else port + 1)
    | none => .error ⟨"no_ports_available", s!"all ports in {min}-{max} are in use"⟩

/-- The scan ends at the first candidate that is free. -/
theorem scan_eq_some {taken : Int → Bool} {min span hint port : Int} :
    ∀ {n i : Nat}, scan taken min span hint n i = some port ↔
      ∃ j, i ≤ j ∧ j < i + n ∧ candidate min span hint j = port ∧ taken port = false ∧
        ∀ k, i ≤ k → k < j → taken (candidate min span hint k) = true
  | 0, i => by
    simp only [scan, Nat.add_zero, reduceCtorEq, false_iff]
    rintro ⟨j, h1, h2, _⟩
    omega
  | n + 1, i => by
    simp only [scan]
    cases ht : taken (candidate min span hint i) with
    | true =>
      rw [if_pos rfl, scan_eq_some]
      constructor
      · rintro ⟨j, h1, h2, hj, hfree, hk⟩
        refine ⟨j, by omega, by omega, hj, hfree, fun k h3 h4 => ?_⟩
        rcases Nat.eq_or_lt_of_le h3 with rfl | h3
        · exact ht
        · exact hk k h3 h4
      · rintro ⟨j, h1, h2, hj, hfree, hk⟩
        rcases Nat.eq_or_lt_of_le h1 with rfl | h1
        · rw [hj, hfree] at ht
          cases ht
        · exact ⟨j, h1, by omega, hj, hfree, fun k h3 h4 => hk k (by omega) h4⟩
    | false =>
      rw [if_neg (by simp)]
      constructor
      · intro h
        cases h
        exact ⟨i, by omega, by omega, rfl, ht, fun k h1 h2 => absurd h1 (by omega)⟩
      · rintro ⟨j, h1, h2, hj, hfree, hk⟩
        rcases Nat.eq_or_lt_of_le h1 with rfl | h1
        · rw [hj]
        · rw [hk i (by omega) h1] at ht
          cases ht

theorem claimPort_free {cfg : Config} {s : Registry} {token : TokenEntry} {requested : Option Int}
    {port hint : Int} (h : s.claimPort cfg token requested = .ok (port, hint)) : s.byPort.lookup port = none := by
  rw [AList.lookup_eq_none]
  cases requested with
  | some p =>
    simp only [Registry.claimPort] at h
    split at h
    · cases h
    split at h
    · cases h
    · rename_i hf
      cases h
      exact hf
  | none =>
    simp only [Registry.claimPort] at h
    split at h
    · rename_i p hp
      cases h
      obtain ⟨j, _, _, _, hfree, _⟩ := scan_eq_some.mp hp
      simpa using hfree
    · cases h

/-! ## Opening -/

def DEFAULT_MAX_TUNNELS : Nat := 32

/-- `n >= x` -/
def numLe (x : Js.Num) (n : Nat) : Bool :=
  match x with
  | .nan => false
  | .inf negative => negative
  | .fin q => decide (q ≤ n)

namespace Relay

/-- The end of `open`: the tunnel is recorded, also under its agent. -/
def register (s : Relay) (t : Nat) (tn : Tunnel) : Relay :=
  { s with
    byId := s.byId.insert tn.id t
    agents := s.agents.modify tn.agent fun r => { r with tunnels := r.tunnels.insert tn.id t } }

/-- `open` up to its `await`, for the session `r` at `agent`; `id` is what `randomBytes` gives. -/
def begin (cfg : Config) (s : Relay) (agent : Nat) (r : Registrant) (req : OpenTunnelRequest)
    (id : String) : Except TunnelError Relay :=
  let maxTunnels := r.token.maxTunnels.getD (.fin DEFAULT_MAX_TUNNELS)
  if numLe maxTunnels r.tunnels.size then
    .error ⟨"too_many_tunnels", "this token is limited to " ++ maxTunnels.toStr ++ " tunnels"⟩
  else
    let t := s.tunnels.length
    match req.ask with
    | .http sub =>
      if !subdomainAllowed r.token.subdomains sub.val then
        .error ⟨"subdomain_forbidden", s!"token {r.token.name} may not claim {sub.val}"⟩
      else match s.bySubdomain.lookup sub.val with
        | some existing =>
          let heldBy := ((s.tunnels[existing]?.bind fun tn => s.agents[tn.agent]?).map (·.clientName)).getD ""
          .error ⟨"subdomain_taken", s!"{sub.val} is already served by {heldBy}"⟩
        | none =>
          let tn : Tunnel :=
            { id, place := .http sub, agent, target := req.target, listener := false }
          .ok ({ s with
            tunnels := s.tunnels ++ [tn]
            bySubdomain := s.bySubdomain.insert sub.val t }.register t tn)
    | .tcp remotePort =>
      match s.claimPort cfg r.token remotePort with
      | .error e => .error e
      | .ok (port, hint) =>
        let tn : Tunnel := { id, place := .tcp port, agent, target := req.target, listener := false }
        .ok { s with
          tunnels := s.tunnels ++ [tn]
          nextPortHint := hint
          byPort := s.byPort.insert port t
          opening := s.opening.insert t .waiting }

/-- The callback of `server.listen` -/
def listening (s : Relay) (t : Nat) : Relay :=
  { s with
    tunnels := s.tunnels.modify t fun tn => { tn with listener := true }
    opening := s.opening.insert t .listening }

/-- The `error` event of a server that could not listen. -/
def listenError (s : Relay) (t : Nat) (message : String) : Relay :=
  { s with opening := s.opening.insert t (.failed message) }

/-- `open` after its `await`, which is over once the bind is settled; with what it throws. -/
def resume (s : Relay) (t : Nat) (tn : Tunnel) : Bind → Option (Relay × Option TunnelError)
  | .waiting => none
  | .listening => some ({ s with opening := s.opening.erase t }.register t tn, none)
  | .failed message =>
    some ({ s with opening := s.opening.erase t, byPort := s.byPort.eraseKey tn.publicPort },
      some ⟨"port_taken", s!"cannot listen on {tn.publicPort.getD 0}: {message}"⟩)

/-! ## Closing -/

/-- `close` once `byId` turns out to have the tunnel's id. -/
def remove (s : Relay) (t : Nat) (tn : Tunnel) : Relay :=
  { s with
    byId := s.byId.erase tn.id
    bySubdomain := s.bySubdomain.eraseKey tn.subdomain
    byPort := s.byPort.eraseKey tn.publicPort
    agents := s.agents.modify tn.agent fun r => { r with tunnels := r.tunnels.erase tn.id }
    tunnels := s.tunnels.modify t fun tn => { tn with listener := false } }

def close (s : Relay) (t : Nat) : Relay :=
  match s.tunnels[t]? with
  | none => s
  | some tn => if tn.id ∈ s.byId then s.remove t tn else s

def closeAllFor (s : Relay) (r : Registrant) : Relay := r.tunnels.values.foldl close s

/-- What `AgentSession.destroy` does here: `onClosed` is `closeAllFor`. -/
def destroy (s : Relay) (agent : Nat) (r : Registrant) : Relay :=
  if r.closed then s
  else { s with agents := s.agents.modify agent fun r => { r with closed := true } }.closeAllFor r

/-- The tunnel of a CLOSE_TUNNEL, by its id; the ERROR for an id that the agent does not have is not
shown here. -/
def closeTunnel (s : Relay) (r : Registrant) (id : String) : Relay :=
  match r.tunnels.lookup id with
  | none => s
  | some t => s.close t

/-! ## Events -/

inductive Event where
  | connect (token : TokenEntry) (clientName : String)
  | openTunnel (agent : Nat) (req : OpenTunnelRequest) (id : String)
  | listening (t : Nat)
  | listenError (t : Nat) (message : String)
  | resume (t : Nat)
  | closeTunnel (agent : Nat) (id : String)
  | close (t : Nat)
  | closeAllFor (agent : Nat)
  | destroy (agent : Nat)

def step (cfg : Config) (s : Relay) : Event → Option Relay
  | .connect token clientName =>
    some { s with agents := s.agents ++ [{ token, clientName, tunnels := ∅, closed := false }] }
  | .openTunnel agent req id =>
    s.agents[agent]?.map fun r =>
      match s.begin cfg agent r req id with
      | .ok s' => s'
      | .error _ => s
  | .listening t => if s.opening.lookup t = some .waiting then some (s.listening t) else none
  | .listenError t message =>
    if s.opening.lookup t = some .waiting then some (s.listenError t message) else none
  | .resume t =>
    match s.opening.lookup t, s.tunnels[t]? with
    | some bind, some tn => (s.resume t tn bind).map (·.1)
    | _, _ => none
  | .closeTunnel agent id => s.agents[agent]?.map (s.closeTunnel · id)
  | .close t => some (s.close t)
  | .closeAllFor agent => s.agents[agent]?.map s.closeAllFor
  | .destroy agent => s.agents[agent]?.map (s.destroy agent)

/-! ## What an `open` that goes through has found -/

/-- The cap on the session's registered tunnels is not reached. -/
def BelowCap (r : Registrant) : Prop :=
  numLe (r.token.maxTunnels.getD (.fin DEFAULT_MAX_TUNNELS)) r.tunnels.size = false

instance (r : Registrant) : Decidable (BelowCap r) := inferInstanceAs (Decidable (_ = false))

/-- The session for which an event records a tunnel: a request for a name that is granted and free,
or the end of a bind that listens. -/
def records (s : Relay) : Event → Option Registrant
  | .openTunnel agent req _ =>
    match s.agents[agent]?, req.ask with
    | some r, .http sub =>
      if BelowCap r ∧ subdomainAllowed r.token.subdomains sub.val = true ∧ s.bySubdomain.lookup sub.val = none then
        some r
      else none
    | _, _ => none
  | .resume t =>
    if s.opening.lookup t = some .listening then s.tunnels[t]?.bind fun tn => s.agents[tn.agent]? else none
  | _ => none

/-- An http tunnel is registered at once, a tcp tunnel is left at its bind. -/
theorem begin_cases {cfg : Config} {s s' : Relay} {agent : Nat} {r : Registrant} {req : OpenTunnelRequest}
    {id : String} (h : s.begin cfg agent r req id = .ok s') :
    BelowCap r ∧
    ((∃ (sub : Label) (tn : Tunnel), req.ask = .http sub ∧
        tn = { id, place := .http sub, agent, target := req.target, listener := false } ∧
        subdomainAllowed r.token.subdomains sub.val = true ∧ s.bySubdomain.lookup sub.val = none ∧
        s' = { s with
          tunnels := s.tunnels ++ [tn]
          bySubdomain := s.bySubdomain.insert sub.val s.tunnels.length }.register s.tunnels.length tn) ∨
      ∃ (remotePort : Option Int) (port hint : Int) (tn : Tunnel), req.ask = .tcp remotePort ∧
        s.claimPort cfg r.token remotePort = .ok (port, hint) ∧
        tn = { id, place := .tcp port, agent, target := req.target, listener := false } ∧
        s' = { s with
          tunnels := s.tunnels ++ [tn]
          nextPortHint := hint
          byPort := s.byPort.insert port s.tunnels.length
          opening := s.opening.insert s.tunnels.length .waiting }) := by
  simp only [Relay.begin] at h
  split at h
  · cases h
  rename_i hcap
  refine ⟨by simpa [BelowCap] using hcap, ?_⟩
  split at h
  · rename_i sub hask
    split at h
    · cases h
    rename_i hallowed
    split at h
    · cases h
    · rename_i hfree
      cases h
      exact .inl ⟨sub, _, hask, rfl, by simpa using hallowed, hfree, rfl⟩
  · rename_i remotePort hask
    split at h
    · cases h
    · rename_i port hint hc
      cases h
      exact .inr ⟨remotePort, port, hint, _, hask, hc, rfl, rfl⟩

end Relay

end UpTunnel
