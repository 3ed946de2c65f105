import UpTunnel.Lib.Search
import UpTunnel.Lib.Text
import UpTunnel.Server.Request
import UpTunnel.Server.Tenure

/-!
# UpTunnel.Server.HttpFrontend

`HttpFrontend` of `server/src/http-frontend.ts`: it reads a public connection up to the end of the
request head, and routes it by its Host header to the tunnel that the registry has for it.

Text is a list of characters: what `head.toString("latin1")` makes of the bytes, one character each.
-/

namespace UpTunnel

open Js Search

/-- `\r\n\r\n` -/
def HEAD_TERMINATOR : Bytes := [13, 10, 13, 10]

/-- What a line says of the host, if it is a Host header. -/
def hostValue (line : List Char) : Option (List Char) :=
  match line.span (· ≠ ':') with
  | (_, []) => none
  | (name, _ :: value) => if (trimChars name).map lowerLatin1 = "host".toList then some (trimChars value) else none

def parseHostHeader (head : Bytes) : Option (List Char) := ((splitLines (latin1 head)).drop 1).findSome? hostValue

def stripPort (host : List Char) : List Char :=
  if host.head? = some '[' then
    match host.span (· ≠ ']') with
    | (_, []) => host
    | (before, close :: _) => before ++ [close]
  else
    -- up to the last colon
    match host.reverse.dropWhile (· ≠ ':') with
    | [] => host
    | _ :: before => before.reverse

/-- How a connection ends up. -/
inductive Answer where
  | respond (status : Nat) (statusText detail : String)
  /-- `tunnel.agent.openStream(tunnel, socket, head)`, for the tunnel at `t`. -/
  | openStream (t : Nat) (head : Bytes)
  deriving DecidableEq

variable (cfg : Config) (maxHttpHeadBytes : Int)

def Relay.lookupHttp (s : Relay) (subdomain : String) : Option Nat := s.bySubdomain.lookup subdomain

def hostSuffix : List Char := '.' :: cfg.httpDomain.toList

def route (s : Relay) (host : Option (List Char)) (head : Bytes) : Answer :=
  match host with
  | none | some [] => .respond 400 "Bad Request" "no Host header in the request"
  | some host =>
    let bare := (stripPort host).map lowerLatin1
    if ¬ hostSuffix cfg <:+ bare then
      .respond 404 "Not Found" (String.ofList bare ++ " is not a tunnel hostname")
    else
      let subdomain := bare.take (bare.length - (hostSuffix cfg).length)
      if subdomain = [] ∨ '.' ∈ subdomain then
        .respond 404 "Not Found" (String.ofList bare ++ " is not a tunnel hostname")
      else
        match s.lookupHttp (String.ofList subdomain) with
        | none =>
          .respond 502 "Bad Gateway"
            ("No device is serving " ++ String.ofList subdomain ++ "." ++ cfg.httpDomain ++ " right now.")
        | some t => .openStream t head

/-- The variables of `onConnection`. -/
structure Incoming where
  chunks : List Bytes
  total : Nat
  settled : Bool
  deriving DecidableEq

namespace Incoming

def start : Incoming := ⟨[], 0, false⟩

/-- What happens to a public connection until it is bridged. -/
inductive Event where
  | data (chunk : Bytes)
  | close

/-- Once it is settled, the connection has no `data` listener any more. -/
def onData (s : Relay) (p : Incoming) (chunk : Bytes) : Incoming × Option Answer :=
  if p.settled then (p, none)
  else
    let p := { p with chunks := p.chunks ++ [chunk], total := p.total + chunk.length }
    let head := p.chunks.flatten
    match indexOf HEAD_TERMINATOR head with
    | none =>
      if (p.total : Int) > maxHttpHeadBytes then
        ({ p with settled := true },
          some (.respond 431 "Request Header Fields Too Large" "request head exceeded the limit"))
      else (p, none)
    | some «end» =>
      ({ p with settled := true }, some (route cfg s (parseHostHeader (head.take «end»)) head))

def step (s : Relay) (p : Incoming) : Event → Incoming × Option Answer
  | .data chunk => p.onData cfg maxHttpHeadBytes s chunk
  | .close => ({ p with settled := true }, none)

/-- The answers to a connection; each event comes with the registry at that time. -/
def answers : Incoming → List (Relay × Event) → List Answer
  | _, [] => []
  | p, (s, e) :: es =>
    (p.step cfg maxHttpHeadBytes s e).2.toList ++ answers (p.step cfg maxHttpHeadBytes s e).1 es

end Incoming

/-! ## Labels -/

theorem isAlnum_range {c : Char} (h : isAlnum c = true) :
    (97 ≤ c.toNat ∧ c.toNat ≤ 122) ∨ (48 ≤ c.toNat ∧ c.toNat ≤ 57) := by
  simp only [isAlnum, isDigit, decide_eq_true_eq] at h
  exact h

theorem lowerLatin1_of_isAlnum {c : Char} (h : isAlnum c = true) : lowerLatin1 c = c := by
  have hr := isAlnum_range h
  refine lowerLatin1_of_not ?_
  rintro (⟨h1, h2⟩ | ⟨h1, h2, -⟩)
  · have h1 : 65 ≤ c.toNat := h1
    have h2 : c.toNat ≤ 90 := h2
    omega
  · have h1 : 192 ≤ c.toNat := h1
    omega

theorem isSpace_of_isAlnum {c : Char} (h : isAlnum c = true) : isSpace c = false := by
  have hr := isAlnum_range h
  refine Bool.eq_false_iff.mpr fun hs => ?_
  have hs := isSpace_range hs
  omega

/-! ## Host names -/

/-- `value` is `host` in some letter case, where `fold` is what letters are compared by, with an
optional port, between blanks. -/
def NamesHost (fold : Char → Char) (host value : List Char) : Prop :=
  ∃ before w port after, value = before ++ (w ++ port) ++ after ∧ (∀ b ∈ before ++ after, isSpace b = true) ∧
    w.map fold = host.map fold ∧ (port = [] ∨ ∃ text, port = ':' :: text ∧ ':' ∉ text)

/-- What makes the frontend find a host name again. -/
structure Hostname (host : List Char) : Prop where
  first : ∃ c l, host = c :: l ∧ isAlnum c = true
  last : ∀ c ∈ host.getLast?, isSpace c = false
  colonFree : ':' ∉ host
  lower : host.map lowerLatin1 = host

section
variable {host value a b : List Char}

theorem head_stripPort (h : host.head? = some '[') : (stripPort host).head? = some '[' := by
  unfold stripPort
  rw [if_pos h]
  by_cases hm : ']' ∈ host
  · obtain ⟨a, b, rfl, ha⟩ := List.eq_append_cons_of_mem hm
    rw [span_of_split ha]
    cases a with
    | nil => simp at h
    | cons c a => simpa using h
  · rw [span_of_notMem hm]
    exact h

theorem stripPort_of_notMem (h : host.head? ≠ some '[') (hc : ':' ∉ host) : stripPort host = host := by
  unfold stripPort
  rw [if_neg h, dropWhile_reverse_of_notMem hc]

theorem stripPort_of_split (h : (a ++ ':' :: b).head? ≠ some '[') (hb : ':' ∉ b) :
    stripPort (a ++ ':' :: b) = a := by
  unfold stripPort
  rw [if_neg h, dropWhile_reverse_of_split hb]
  exact List.reverse_reverse a

/-- The text of a Host header, where it is the host name with an optional port. -/
theorem Hostname.strip_trim (hh : Hostname host) {before w port after : List Char}
    (hb : ∀ b ∈ before, isSpace b = true) (ha : ∀ b ∈ after, isSpace b = true) (hw : w.map lowerLatin1 = host)
    (hport : port = [] ∨ ∃ text, port = ':' :: text ∧ ':' ∉ text) :
    stripPort (trimChars (before ++ (w ++ port) ++ after)) = w := by
  obtain ⟨c, l, rfl, hc⟩ := hh.first
  obtain ⟨d, w', rfl, hd, -⟩ := List.map_eq_cons_iff.mp hw
  have hspace : isSpace d = false := isSpace_of_lower (by rw [hd]; exact isSpace_of_isAlnum hc)
  have hbracket : d ≠ '[' := by
    rintro rfl
    rw [← hd] at hc
    exact absurd hc (by decide)
  have hcolon : ':' ∉ d :: w' := fun hm => hh.colonFree (hw ▸ List.mem_map_of_mem (f := lowerLatin1) hm)
  rw [List.append_assoc, List.cons_append, List.cons_append, trimChars_append hb hspace]
  rcases hport with rfl | ⟨text, rfl, htext⟩
  · -- the last character of the name is no blank: `after` goes, and nothing else
    obtain ⟨w0, e, he⟩ := List.eq_nil_or_concat' (d :: w') |>.resolve_left (by simp)
    have hlast : isSpace e = false := by
      refine isSpace_of_lower (hh.last _ ?_)
      rw [← hw, he]
      simp
    have hx : (d :: (w' ++ [] ++ after)).rdropWhile isSpace = d :: w' := by
      rw [List.append_nil, ← List.cons_append, he, List.append_assoc, List.singleton_append,
        rdropWhile_append hlast, List.rdropWhile_eq_nil_iff.mpr ha]
    rw [hx]
    exact stripPort_of_notMem (by simpa using hbracket) hcolon
  · have hx : (d :: (w' ++ ':' :: text ++ after)).rdropWhile isSpace =
        d :: w' ++ ':' :: (text ++ after).rdropWhile isSpace := by
      rw [List.append_assoc, List.cons_append, ← List.cons_append, rdropWhile_append (by decide)]
    rw [hx]
    refine stripPort_of_split (by simpa using hbracket) fun hm => ?_
    rcases List.mem_append.mp ((List.rdropWhile_prefix isSpace _).subset hm) with hm | hm
    · exact htext hm
    · exact absurd (ha _ hm) (by decide)

theorem Hostname.names_iff (hh : Hostname host) :
    NamesHost lowerLatin1 host value ↔ (stripPort (trimChars value)).map lowerLatin1 = host := by
  constructor
  · rintro ⟨before, w, port, after, rfl, hblank, hw, hport⟩
    rw [hh.lower] at hw
    rw [hh.strip_trim (fun b hb => hblank b (List.mem_append_left _ hb))
      (fun b hb => hblank b (List.mem_append_right _ hb)) hw hport]
    exact hw
  · intro hs
    have hb : (trimChars value).head? ≠ some '[' := by
      intro hb
      obtain ⟨c, l, rfl, hc⟩ := hh.first
      have h1 := congrArg List.head? hs
      rw [List.head?_map, head_stripPort hb] at h1
      cases h1
      exact absurd hc (by decide)
    obtain ⟨before, after, hblank, he⟩ := exists_trim value
    by_cases hm : ':' ∈ trimChars value
    · obtain ⟨a, b, hab, hcb⟩ := exists_last hm
      rw [hab] at hs hb he
      rw [stripPort_of_split hb hcb] at hs
      exact ⟨before, a, ':' :: b, after, he, hblank, by rw [hs, hh.lower], .inr ⟨b, rfl, hcb⟩⟩
    · rw [stripPort_of_notMem hb hm] at hs
      refine ⟨before, trimChars value, [], after, ?_, hblank, by rw [hs, hh.lower], .inl rfl⟩
      rw [List.append_nil, ← he]

end

/-! ## The Host header -/

/-- `line` is a Host header that says `value`. -/
def IsHostLine (fold : Char → Char) (line value : List Char) : Prop :=
  ∃ name, line = name ++ ':' :: value ∧ ':' ∉ name ∧ (trimChars name).map fold = "host".toList

/-- The first Host header after the request line says `value`. -/
def FirstHost (fold : Char → Char) (head : Bytes) (value : List Char) : Prop :=
  ∃ before line after, (splitLines (latin1 head)).drop 1 = before ++ line :: after ∧ IsHostLine fold line value ∧
    ∀ l ∈ before, ∀ v, ¬ IsHostLine fold l v

theorem hostValue_eq_some {line v : List Char} :
    hostValue line = some v ↔ ∃ value, IsHostLine lowerLatin1 line value ∧ v = trimChars value := by
  by_cases hm : ':' ∈ line
  · obtain ⟨name, value, rfl, hn⟩ := List.eq_append_cons_of_mem hm
    have huniq : ∀ name' value', name ++ ':' :: value = name' ++ ':' :: value' → ':' ∉ name' →
        name' = name ∧ value' = value := by
      intro name' value' he hn'
      have h1 := span_of_split (b := value) hn
      rw [he, span_of_split hn'] at h1
      simpa using h1
    simp only [hostValue, span_of_split hn, Option.ite_none_right_eq_some, Option.some.injEq]
    constructor
    · rintro ⟨hname, rfl⟩
      exact ⟨value, ⟨name, rfl, hn, hname⟩, rfl⟩
    · rintro ⟨value', ⟨name', he, hn', hname⟩, rfl⟩
      obtain ⟨rfl, rfl⟩ := huniq name' value' he hn'
      exact ⟨hname, rfl⟩
  · simp only [hostValue, span_of_notMem hm, reduceCtorEq, false_iff]
    rintro ⟨value, ⟨name, rfl, -, -⟩, -⟩
    exact hm (by simp)

theorem hostValue_eq_none {line : List Char} :
    hostValue line = none ↔ ∀ value, ¬ IsHostLine lowerLatin1 line value := by
  rw [Option.eq_none_iff_forall_ne_some]
  constructor
  · intro h value hv
    exact h _ (hostValue_eq_some.mpr ⟨value, hv, rfl⟩)
  · intro h v hv
    obtain ⟨value, hval, -⟩ := hostValue_eq_some.mp hv
    exact h value hval

theorem parseHostHeader_eq_some {head : Bytes} {v : List Char} :
    parseHostHeader head = some v ↔ ∃ value, FirstHost lowerLatin1 head value ∧ v = trimChars value := by
  simp only [parseHostHeader, List.findSome?_eq_some_iff, hostValue_eq_none, hostValue_eq_some]
  constructor
  · rintro ⟨before, line, after, he, ⟨value, hval, rfl⟩, hb⟩
    exact ⟨value, ⟨before, line, after, he, hval, hb⟩, rfl⟩
  · rintro ⟨value, ⟨before, line, after, he, hval, hb⟩, rfl⟩
    exact ⟨before, line, after, he, ⟨value, hval, rfl⟩, hb⟩

/-! ## Routing -/

variable {cfg} in
theorem route_openStream {s : Relay} {host : Option (List Char)} {head preread : Bytes} {t : Nat} :
    route cfg s host head = .openStream t preread ↔ preread = head ∧ ∃ value sub, host = some value ∧
      (stripPort value).map lowerLatin1 = sub ++ hostSuffix cfg ∧ sub ≠ [] ∧ '.' ∉ sub ∧
      s.lookupHttp (String.ofList sub) = some t := by
  unfold route
  split
  · simp
  · simp [stripPort, hostSuffix]
  rename_i host hne
  dsimp only
  split
  · rename_i hs
    simp only [reduceCtorEq, false_iff]
    rintro ⟨-, value, sub, he, hbare, -⟩
    cases he
    exact hs ⟨sub, hbare.symm⟩
  rename_i hs
  obtain ⟨sub, hsub⟩ := not_not.mp hs
  have htake : ((stripPort host).map lowerLatin1).take
      (((stripPort host).map lowerLatin1).length - (hostSuffix cfg).length) = sub := by
    rw [← hsub]
    simp
  have huniq : ∀ sub', (stripPort host).map lowerLatin1 = sub' ++ hostSuffix cfg → sub' = sub := fun sub' h =>
    List.append_cancel_right (h.symm.trans hsub.symm)
  simp only [htake]
  split
  · rename_i hbad
    simp only [reduceCtorEq, false_iff]
    rintro ⟨-, value, sub', he, hbare, hne', hdot, -⟩
    cases he
    cases huniq sub' hbare
    exact hbad.elim hne' hdot
  rename_i hgood
  have hgood := not_or.mp hgood
  have hiff : (∃ value sub', some host = some value ∧ (stripPort value).map lowerLatin1 = sub' ++ hostSuffix cfg ∧
      sub' ≠ [] ∧ '.' ∉ sub' ∧ s.lookupHttp (String.ofList sub') = some t) ↔
      s.lookupHttp (String.ofList sub) = some t := by
    constructor
    · rintro ⟨value, sub', he, hbare, -, -, hl⟩
      cases he
      cases huniq sub' hbare
      exact hl
    · exact fun hl => ⟨host, sub, rfl, hsub.symm, hgood.1, hgood.2, hl⟩
  rw [hiff]
  cases s.lookupHttp (String.ofList sub) with
  | none => simp
  | some t' =>
    simp only [Answer.openStream.injEq, Option.some.injEq]
    exact ⟨fun h => ⟨h.2.symm, h.1⟩, fun h => ⟨h.2, h.1.symm⟩⟩

/-! ## Reading the head -/

/-- What a visitor sends: the chunks, each with the registry at the time it is read. -/
abbrev Visit := List (Relay × Bytes)

namespace Visit

def sent (visit : Visit) : Bytes := (visit.map (·.2)).flatten

def events (visit : Visit) : List (Relay × Incoming.Event) := visit.map fun v => (v.1, .data v.2)

/-- When the chunk is read with which `m` bytes have been read, the registry is `s` and `head` has
been read; before the visit, `read` had been. -/
def Completes (read : Bytes) (visit : Visit) (m : Nat) (s : Relay) (head : Bytes) : Prop :=
  ∃ before chunk after, visit = before ++ (s, chunk) :: after ∧ head = read ++ (sent before ++ chunk) ∧
    (read ++ sent before).length < m ∧ m ≤ head.length

end Visit

namespace Incoming

variable {cfg : Config} {maxHttpHeadBytes : Int} {s : Relay} {p : Incoming}

theorem answers_settled (h : p.settled = true) (es : List (Relay × Event)) :
    p.answers cfg maxHttpHeadBytes es = [] := by
  induction es generalizing p with
  | nil => rfl
  | cons x es ih =>
    obtain ⟨s, e⟩ := x
    cases e with
    | data chunk => simpa [answers, step, onData, h] using ih h
    | close => simpa [answers, step] using ih (p := { p with settled := true }) rfl

/-- An event with an answer settles the connection. -/
theorem settled_of_answer {e : Event} {a : Answer} (h : (p.step cfg maxHttpHeadBytes s e).2 = some a) :
    (p.step cfg maxHttpHeadBytes s e).1.settled = true := by
  cases e with
  | close => cases h
  | data chunk =>
    simp only [step, onData] at h ⊢
    split at h
    · cases h
    rename_i hs
    simp only [if_neg hs]
    cases hx : indexOf HEAD_TERMINATOR (p.chunks ++ [chunk]).flatten with
    | none =>
      simp only [hx] at h ⊢
      split at h
      · rename_i hm
        rw [if_pos hm]
      · cases h
    | some n => rfl

theorem length_answers_le (p : Incoming) (es : List (Relay × Event)) :
    (p.answers cfg maxHttpHeadBytes es).length ≤ 1 := by
  induction es generalizing p with
  | nil => simp [answers]
  | cons x es ih =>
    obtain ⟨s, e⟩ := x
    cases ha : (p.step cfg maxHttpHeadBytes s e).2 with
    | none => simpa [answers, ha] using ih _
    | some a => simp [answers, ha, answers_settled (settled_of_answer ha)]

/-- As long as the head is not complete nothing happens, and the chunk that completes it is routed. -/
theorem onData_of_head {chunk rest : Bytes} {n : Nat} (hp : p.settled = false)
    (ht : p.total = p.chunks.flatten.length)
    (hn : indexOf HEAD_TERMINATOR (p.chunks.flatten ++ chunk ++ rest) = some n)
    (hmax : (n + 4 : Int) ≤ maxHttpHeadBytes) :
    p.onData cfg maxHttpHeadBytes s chunk =
      if n + 4 ≤ (p.chunks.flatten ++ chunk).length then
        (⟨p.chunks ++ [chunk], p.total + chunk.length, true⟩, some (route cfg s
          (parseHostHeader ((p.chunks.flatten ++ chunk).take n)) (p.chunks.flatten ++ chunk)))
      else (⟨p.chunks ++ [chunk], p.total + chunk.length, false⟩, none) := by
  have hflat : (p.chunks ++ [chunk]).flatten = p.chunks.flatten ++ chunk := by simp
  simp only [onData, hp, Bool.false_eq_true, if_false, hflat]
  by_cases hlen : n + 4 ≤ (p.chunks.flatten ++ chunk).length
  · rw [if_pos hlen, indexOf_of_append hn hlen]
  · rw [if_neg hlen, indexOf_eq_none_of_append hn (Nat.lt_of_not_le hlen)]
    have hle : ¬ ((p.total + chunk.length : Nat) : Int) > maxHttpHeadBytes := by
      rw [List.length_append, ← ht] at hlen
      omega
    simp only [if_neg hle]

theorem answers_of_head {visit : Visit} {n : Nat} (hp : p.settled = false) (ht : p.total = p.chunks.flatten.length)
    (hn : indexOf HEAD_TERMINATOR (p.chunks.flatten ++ visit.sent) = some n) (hlt : p.chunks.flatten.length < n + 4)
    (hmax : (n + 4 : Int) ≤ maxHttpHeadBytes) :
    ∃ s head, visit.Completes p.chunks.flatten (n + 4) s head ∧ p.answers cfg maxHttpHeadBytes visit.events =
      [route cfg s (parseHostHeader ((p.chunks.flatten ++ visit.sent).take n)) head] := by
  induction visit generalizing p with
  | nil =>
    have hle := indexOf_le hn
    simp only [Visit.sent, List.map_nil, List.flatten_nil, List.append_nil] at hle
    exact absurd (show n + 4 ≤ _ from hle) (by omega)
  | cons v visit ih =>
    obtain ⟨s, chunk⟩ := v
    have hsent : Visit.sent ((s, chunk) :: visit) = chunk ++ Visit.sent visit := by simp [Visit.sent]
    rw [hsent, ← List.append_assoc] at hn ⊢
    have hd : p.onData cfg maxHttpHeadBytes s chunk = _ := onData_of_head hp ht hn hmax
    have hans : p.answers cfg maxHttpHeadBytes (Visit.events ((s, chunk) :: visit)) =
        (p.onData cfg maxHttpHeadBytes s chunk).2.toList ++
          answers cfg maxHttpHeadBytes (p.onData cfg maxHttpHeadBytes s chunk).1 (Visit.events visit) := rfl
    rw [hans, hd]
    by_cases hlen : n + 4 ≤ (p.chunks.flatten ++ chunk).length
    · have htake : (p.chunks.flatten ++ chunk ++ Visit.sent visit).take n = (p.chunks.flatten ++ chunk).take n :=
        List.take_append_of_le_length (by omega)
      rw [if_pos hlen, htake, answers_settled rfl]
      exact ⟨s, _, ⟨[], chunk, visit, rfl, rfl, by simpa [Visit.sent] using hlt, hlen⟩, rfl⟩
    · have hflat : (p.chunks ++ [chunk]).flatten = p.chunks.flatten ++ chunk := by simp
      have hrest := ih (p := ⟨p.chunks ++ [chunk], p.total + chunk.length, false⟩) rfl (by simp [ht])
        (by rw [hflat]; exact hn) (by rw [hflat]; omega)
      rw [hflat] at hrest
      obtain ⟨s', head, ⟨before, chunk', after, rfl, rfl, h1, h2⟩, ha⟩ := hrest
      rw [if_neg hlen, ha]
      refine ⟨s', _, ⟨(s, chunk) :: before, chunk', after, rfl, ?_, ?_, h2⟩, rfl⟩
      · simp [Visit.sent]
      · simpa [Visit.sent] using h1

end Incoming

end UpTunnel
