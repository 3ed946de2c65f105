import UpTunnel.Server.Apart
import UpTunnel.Server.Request

/-!
# UpTunnel.Server.Ledger

The requests of one session: `ControlPlane.openTunnel` (`server/src/control.ts`), run to its `await` and
from there to its end, with the registry it works on.

Promise continuations run before the next I/O event. So the bind that settles, `open` that goes on and
the reply that is sent are one event, `settle`.

* `request_cases`, `settle_cases`: what the two do to the tunnels, and what they reply.
-/

namespace UpTunnel

open Js Relay

structure Ledger where
  relay : Relay
  /-- The calls of `openTunnel` that are at their `await`: the `reqId`, by the address of the tunnel. -/
  waiting : Dict Nat (Option String)
  /-- Ghost: which of the session's requests has made a tunnel, by the tunnel's address. -/
  made : Dict Nat Nat

namespace Ledger

variable (cfg : Config) (engine : Engine)

/-- The `n`-th request of the session `self`. -/
def request (l : Ledger) (self : Nat) (r : Registrant) (n : Nat) (body : Obj) (id : String) : Ledger × Option Frame :=
  let t := l.relay.tunnels.length
  let (relay, reply) := openTunnel cfg engine l.relay self r body id
  ({ relay
     waiting := if reply.isNone then l.waiting.insert t (str? (body.get "reqId")) else l.waiting
     made := if relay.tunnels.length = t then l.made else l.made.insert t n }, reply)

/-- The relay once the server of `t` listens or, with a message, has failed to. -/
def outcome (s : Relay) (t : Nat) : Option String → Relay × Bind
  | none => (s.listening t, .listening)
  | some message => (s.listenError t message, .failed message)

/-- The bind of `t` is settled; the reply. -/
def settle (l : Ledger) (t : Nat) (failure : Option String) : Option (Ledger × Frame) :=
  match l.waiting.lookup t with
  | none => none
  | some reqId =>
    if l.relay.opening.lookup t = some .waiting then
      let (relay, bind) := outcome l.relay t failure
      relay.tunnels[t]?.bind fun tn =>
        (finishTunnel cfg relay t tn reqId bind).map fun (relay, f) => ({ l with relay, waiting := l.waiting.erase t }, f)
    else none

/-- What the session of `l` and the tunnels in it have become. -/
structure Enters (l l' : Ledger) (n : Nat) (tn : Tunnel) : Prop where
  inv : l'.relay.Inv
  tunnels : l'.relay.tunnels = l.relay.tunnels ++ [tn]
  made : l'.made = l.made.insert l.relay.tunnels.length n
  agents : l'.relay.agents.length = l.relay.agents.length

variable {cfg engine} {l l' : Ledger}

theorem request_cases {self n : Nat} {r : Registrant} {body : Obj} {id : String} {reply : Option Frame}
    (hI : l.relay.Inv) (hr : l.relay.agents[self]? = some r) (hid : ∀ tn ∈ l.relay.tunnels, tn.id ≠ id)
    (h : l.request cfg engine self r n body id = (l', reply)) :
    (l' = l ∧ ∃ code message, reply = some (tunnelError (str? (body.get "reqId")) code message)) ∨
    ∃ req tn, parseRequest engine body = .ok req ∧ tn.id = id ∧ tn.agent = self ∧ tn.listener = false ∧ Enters l l' n tn ∧
      ((∃ sub, req.ask = .http sub ∧ tn.place = .http sub ∧ reply = some (tunnelOk cfg (str? (body.get "reqId")) tn) ∧
          l'.waiting = l.waiting ∧ l'.relay.opening = l.relay.opening ∧
          ∀ u, l'.relay.Live u ↔ u = l.relay.tunnels.length ∨ l.relay.Live u) ∨
        ∃ remotePort port, req.ask = .tcp remotePort ∧ tn.place = .tcp port ∧ reply = none ∧
          l'.waiting = l.waiting.insert l.relay.tunnels.length (str? (body.get "reqId")) ∧
          l'.relay.opening = l.relay.opening.insert l.relay.tunnels.length .waiting ∧
          ∀ u, l'.relay.Live u ↔ l.relay.Live u) := by
  cases hreq : parseRequest engine body with
  | error e =>
    simp only [request, openTunnel, hreq] at h
    cases h
    exact .inl ⟨by simp, _, _, rfl⟩
  | ok req =>
  cases hb : l.relay.begin cfg self r req id with
  | error e =>
    simp only [request, openTunnel, hreq, hb] at h
    cases h
    exact .inl ⟨by simp, _, _, rfl⟩
  | ok relay =>
  simp only [request, openTunnel, hreq, hb] at h
  have hinv : relay.Inv := hI.begin hr hid hb
  right
  obtain ⟨-, ⟨sub, tn, hask, rfl, -, -, rfl⟩ | ⟨remotePort, port, hint, tn, hask, -, rfl, rfl⟩⟩ := begin_cases hb
  · simp only [hask] at h
    cases h
    have hfree : l.relay.byId.lookup id = none := not_mem_of_fresh hI hid
    refine ⟨req, _, rfl, rfl, rfl, rfl, ⟨hinv, rfl, by simp [register], by simp [register]⟩,
      .inl ⟨sub, hask, rfl, by simp [register], by simp [register], rfl, fun u => live_register hfree⟩⟩
  · simp only [hask] at h
    cases h
    exact ⟨req, _, rfl, rfl, rfl, rfl, ⟨hinv, rfl, by simp, rfl⟩,
      .inr ⟨remotePort, port, hask, rfl, rfl, rfl, rfl, fun _ => Iff.rfl⟩⟩

/-- The bind of `t` is over. -/
structure Settles (l l' : Ledger) (t : Nat) : Prop where
  inv : l'.relay.Inv
  bound : l.relay.opening.lookup t = some .waiting
  waiting : l'.waiting = l.waiting.erase t
  made : l'.made = l.made
  opening : ∀ u, l'.relay.opening.lookup u = if u = t then none else l.relay.opening.lookup u
  agents : l'.relay.agents.length = l.relay.agents.length

theorem settle_cases {t : Nat} {failure : Option String} {f : Frame} (hI : l.relay.Inv)
    (h : l.settle cfg t failure = some (l', f)) : ∃ reqId tn, l.waiting.lookup t = some reqId ∧
      l.relay.tunnels[t]? = some tn ∧ Settles l l' t ∧
      ((f = tunnelOk cfg reqId tn ∧ l'.relay.tunnels = l.relay.tunnels.modify t (fun tn => { tn with listener := true }) ∧
          ∀ u, l'.relay.Live u ↔ u = t ∨ l.relay.Live u) ∨
        (∃ code message, f = tunnelError reqId code message) ∧ l'.relay.tunnels = l.relay.tunnels ∧
          ∀ u, l'.relay.Live u ↔ l.relay.Live u) := by
  unfold settle at h
  split at h
  · cases h
  rename_i reqId hw
  split at h
  case isFalse => cases h
  rename_i ho
  have hp : l.relay.Pending t := AList.lookup_isSome.mp (by rw [ho]; rfl)
  have herase : ∀ (b : Bind) u, ((l.relay.opening.insert t b).erase t).lookup u =
      if u = t then none else l.relay.opening.lookup u := by
    intro b u
    rw [Dict.lookup_erase_ite]
    split
    · rfl
    · rw [AList.lookup_insert_ne ‹_›]
  cases failure with
  | none =>
    obtain ⟨tn', htn', h⟩ := Option.bind_eq_some_iff.mp h
    obtain ⟨tn, htn, rfl⟩ : ∃ tn, l.relay.tunnels[t]? = some tn ∧ { tn with listener := true } = tn' := by
      simpa [outcome, listening, List.getElem?_modify_eq] using htn'
    obtain ⟨⟨relay, f'⟩, hfin, he⟩ := Option.map_eq_some_iff.mp h
    cases he
    obtain ⟨⟨s', e⟩, hres, he⟩ := Option.map_eq_some_iff.mp hfin
    have hinv : s'.Inv := (hI.listening hp).resume (by simp [Relay.listening, Pending]) htn' hres
    cases hres
    cases he
    have hfree : (l.relay.listening t).byId.lookup tn.id = none := hI.id_free htn (hI.binding t hp).1
    exact ⟨reqId, tn, hw, htn, ⟨hinv, ho, rfl, rfl, herase _, by simp [Relay.listening, register]⟩,
      .inl ⟨rfl, rfl, fun u => live_register hfree⟩⟩
  | some message =>
    obtain ⟨tn, htn, h⟩ := Option.bind_eq_some_iff.mp h
    obtain ⟨⟨relay, f'⟩, hfin, he⟩ := Option.map_eq_some_iff.mp h
    cases he
    obtain ⟨⟨s', e⟩, hres, he⟩ := Option.map_eq_some_iff.mp hfin
    have hinv : s'.Inv := (hI.listenError hp message).resume (by simp [listenError, Pending]) htn hres
    cases hres
    cases he
    exact ⟨reqId, tn, hw, htn, ⟨hinv, ho, rfl, rfl, herase _, rfl⟩, .inr ⟨⟨_, _, rfl⟩, rfl, fun _ => Iff.rfl⟩⟩

end Ledger

end UpTunnel
