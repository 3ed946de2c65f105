import UpTunnel.HostLine
import UpTunnel.Server.HttpFrontend

/-!
# UpTunnel.HostAgreed

The Host header that the server routes by, and the line that an agent's rewrite takes for it.

* `parse_replaced`: what the server reads once a line of the head has been put in place of its Host header.
* `sameHost_iff`: the rewrite meets that header, and the server then reads the target, exactly if the header's line is
  `Host:` with no more than blank lines around it and no line before it starts so.
-/

namespace UpTunnel

open Js

/-- `pre` is the request line and the headers before, `line` the first Host header, `post` the rest of the head. -/
structure Decides (head : Bytes) (pre line post : List Char) : Prop where
  lines : ∃ first before after, splitLines (latin1 head) = first :: before ++ line :: after ∧
    pre = (first :: before).flatMap (· ++ CRLF) ∧ post = after.flatMap (CRLF ++ ·) ∧
    ∀ l ∈ before, ∀ value, ¬ IsHostLine lowerLatin1 l value
  host : ∃ value, IsHostLine lowerLatin1 line value

/-- `host:port` of printable characters without `$`. -/
def TargetLabel (target : String) : Prop :=
  (∃ (host : String) (port : Nat), target = host ++ ":" ++ toString port) ∧
    ∀ c ∈ target.toList, ' ' ≤ c ∧ c ≠ '\x7f' ∧ c ≠ '$'

/-- The match of the rewrite is within the line that decides, and with it replaced the server reads the target. -/
def SameHost (head : Bytes) (target : String) : Prop :=
  parseHostHeader (rewriteHostHeader head target) = some target.toList ∧
    ∃ pre line post p m q, Decides head pre line post ∧ HostLine isLineEnd true (latin1Decode head) p m q ∧
      pre.length ≤ p.length ∧ p.length + m.length ≤ pre.length + line.length

/-- The line that decides is `Host:`, alone or behind blanks that end in a CR or an LF; no line start before it is
followed by `Host:`; behind the first CR or LF after it, it has blanks only. The target is latin1 and has no blank at
either end. -/
def PlainHost (head : Bytes) (target : String) : Prop :=
  (∃ pre lead m tail post, Decides head pre (lead ++ (m ++ tail)) post ∧
    HostLine isLineEnd true (latin1Decode head) (pre ++ lead) m (tail ++ post) ∧
    (∀ c ∈ lead, isSpace c = true) ∧ ∀ c ∈ tail, isSpace c = true) ∧
  (∀ c ∈ target.toList, c.toNat < 256) ∧ Trimmed target.toList

/-! ## The target -/

section
variable {target : String} {pre line post : List Char}

theorem TargetLabel.mem_hostText (h : TargetLabel target) {c : Char} (hc : c ∈ hostText target) :
    ' ' ≤ c ∧ c ≠ '$' := by
  rw [hostText_eq] at hc
  simp only [List.mem_cons] at hc
  rcases hc with rfl | rfl | rfl | rfl | rfl | rfl | hc
  · decide
  · decide
  · decide
  · decide
  · decide
  · decide
  · exact ⟨(h.2 c hc).1, (h.2 c hc).2.2⟩

theorem TargetLabel.ne_nil (h : TargetLabel target) : target.toList ≠ [] := by
  obtain ⟨host, port, rfl⟩ := h.1
  simp

/-- Neither a CR nor an LF is printable. -/
theorem TargetLabel.not_lineEnd (h : TargetLabel target) {c : Char} (hc : c ∈ hostText target) : isLineEnd c = false := by
  have hle := (h.mem_hostText hc).1
  unfold isLineEnd
  refine decide_eq_false ?_
  rintro (rfl | rfl)
  · exact absurd hle (by decide)
  · exact absurd hle (by decide)

theorem latin1_eq (b : Bytes) : latin1 b = latin1Decode b := rfl

/-- The rewrite, for a target without `$`. -/
theorem latin1_rewriteHostHeader {head : Bytes} (ht : TargetLabel target) (hlow : ∀ c ∈ target.toList, c.toNat < 256)
    (h : HostLine isLineEnd true (latin1Decode head) pre line post) :
    latin1 (rewriteHostHeader head target) = pre ++ (hostText target ++ post) :=
  latin1Decode_rewriteHostHeader h (expandReplacement_of_plain <| substitutes_of_not fun hm => (ht.mem_hostText hm).2 rfl) hlow

end

/-! ## The line that decides -/

section
variable {head : Bytes} {target : String} {pre line post lead m tail p q : List Char}

theorem Decides.split (h : Decides head pre line post) : latin1 head = pre ++ (line ++ post) := by
  obtain ⟨first, before, after, hlines, rfl, rfl, -⟩ := h.lines
  rw [← joinLines_splitLines (latin1 head), hlines, joinLines_append]

theorem Decides.unbroken (h : Decides head pre line post) : ¬ CRLF <:+: line := by
  obtain ⟨first, before, after, hlines, -⟩ := h.lines
  exact crlf_of_mem_splitLines (hlines ▸ List.mem_append_right _ List.mem_cons_self)

theorem crlf_append {a b : List Char} (ha : ¬ CRLF <:+: a) (hb : ¬ CRLF <:+: b)
    (hjoin : '\r' ∉ a.getLast? ∨ '\n' ∉ b.head?) : ¬ CRLF <:+: a ++ b := by
  intro h
  rcases List.infix_append_iff_ne_nil.mp h with h | h | ⟨u, v, hu, hv, he, hua, hvb⟩
  · exact ha h
  · exact hb h
  · -- one character of the two is on each side
    match u, v, hu, hv, he with
    | [c], [d], _, _, he =>
      simp only [CRLF, List.cons_append, List.nil_append, List.cons.injEq, and_true] at he
      obtain ⟨rfl, rfl⟩ := he
      obtain ⟨a', rfl⟩ := hua
      obtain ⟨b', rfl⟩ := hvb
      simp at hjoin
    | c :: d :: u, v, _, hv, he =>
      have hlen := congrArg List.length he
      have hpos := List.length_pos_iff.mpr hv
      simp only [CRLF, List.length_cons, List.length_nil, List.length_append] at hlen
      omega
    | [c], d :: e :: v, _, _, he =>
      have hlen := congrArg List.length he
      simp only [CRLF, List.length_cons, List.length_nil, List.length_append] at hlen
      omega

/-- With another Host header in the place of the one that decides, that one decides. -/
theorem parse_replaced (h : Decides head pre line post) {head' : Bytes} {line' value : List Char}
    (hsplit : latin1 head' = pre ++ (line' ++ post)) (hunbroken : ¬ CRLF <:+: line')
    (hvalue : hostValue line' = some value) : parseHostHeader head' = some value := by
  obtain ⟨first, before, after, hlines, rfl, rfl, hbefore⟩ := h.lines
  have hsplit' : splitLines (latin1 head') = first :: before ++ line' :: after := by
    rw [hsplit, ← joinLines_append]
    refine splitLines_joinLines (by simp) fun l hl => ?_
    have hmem : l ∈ splitLines (latin1 head) ∨ l = line' := by
      rw [hlines]
      rcases List.mem_append.mp hl with hl | hl
      · exact .inl (List.mem_append_left _ hl)
      · rcases List.mem_cons.mp hl with rfl | hl
        · exact .inr rfl
        · exact .inl (List.mem_append_right _ (List.mem_cons_of_mem _ hl))
    rcases hmem with hmem | rfl
    · exact crlf_of_mem_splitLines hmem
    · exact hunbroken
  have hnone : before.findSome? hostValue = none := by
    rw [List.findSome?_eq_none_iff]
    exact fun l hl => hostValue_eq_none.mpr (hbefore l hl)
  rw [parseHostHeader, hsplit', List.cons_append, List.drop_one, List.tail_cons, List.findSome?_append, hnone,
    List.findSome?_cons, hvalue]
  rfl

/-- A match within the line that decides. -/
theorem Decides.within (h : Decides head pre line post) (hm : HostLine isLineEnd true (latin1Decode head) p m q)
    (hp : pre.length ≤ p.length) (hend : p.length + m.length ≤ pre.length + line.length) :
    ∃ lead tail, p = pre ++ lead ∧ line = lead ++ (m ++ tail) ∧ q = tail ++ post := by
  have hs : pre ++ (line ++ post) = p ++ (m ++ q) := h.split.symm.trans hm.split
  obtain ⟨lead, rfl⟩ : ∃ lead, p = pre ++ lead := by
    rcases List.append_eq_append_iff.mp hs with ⟨k, hk, -⟩ | ⟨k, hk, -⟩
    · exact ⟨k, hk⟩
    · have hlen := congrArg List.length hk
      rw [List.length_append] at hlen
      obtain rfl : k = [] := List.length_eq_zero_iff.mp (by omega)
      exact ⟨[], by rw [hk, List.append_nil, List.append_nil]⟩
  rw [List.append_assoc] at hs
  have hs1 : line ++ post = (lead ++ m) ++ q := by
    rw [List.append_cancel_left hs, List.append_assoc]
  rw [List.length_append] at hend
  rcases List.append_eq_append_iff.mp hs1 with ⟨k, hk, hq⟩ | ⟨k, hk, hq⟩
  · have hlen := congrArg List.length hk
    simp only [List.length_append] at hlen
    obtain rfl : k = [] := List.length_eq_zero_iff.mp (by omega)
    exact ⟨lead, [], rfl, by rw [List.append_nil] at hk; rw [← hk, List.append_nil], by rw [hq]; rfl⟩
  · exact ⟨lead, k, rfl, by rw [hk, List.append_assoc], hq⟩

theorem isSpace_of_toLower {c : Char} (h : isSpace c.toLower = false) : isSpace c = false := by
  by_contra hs
  rw [Bool.not_eq_false] at hs
  have hr := isSpace_range hs
  have hc : c.toLower = c := by
    unfold Char.toLower
    refine dif_neg ?_
    rintro ⟨h1, h2⟩
    have h1 : 65 ≤ c.toNat := h1
    have h2 : c.toNat ≤ 90 := h2
    omega
  rw [hc, hs] at h
  cases h

theorem splits_at_colon {a b a' b' : List Char} (h : a ++ ':' :: b = a' ++ ':' :: b') (ha : ':' ∉ a) (ha' : ':' ∉ a') :
    a' = a ∧ b' = b := by
  have h1 := Search.span_of_split (b := b) ha
  rw [h, Search.span_of_split ha'] at h1
  simpa using h1

/-- Before a match that has the line's first colon, there are blanks only. -/
theorem blank_of_isHostLine {value : List Char} (h : IsHostLine lowerLatin1 (lead ++ (m ++ tail)) value)
    (hm : startsHost m = true) (hlead : ':' ∉ lead) : ∀ c ∈ lead, isSpace c = true := by
  obtain ⟨h1, o, s, t, rest, rfl, hname⟩ := startsHost_iff.mp hm
  obtain ⟨name, he, hcolon, hhost⟩ := h
  have hletters : ':' ∉ [h1, o, s, t] := by
    intro hmem
    have hl := List.mem_map_of_mem (f := Char.toLower) hmem
    rw [hname] at hl
    exact absurd hl (by decide)
  have hsame : (lead ++ [h1, o, s, t]) ++ ':' :: (rest ++ tail) = name ++ ':' :: value := by simpa using he
  obtain ⟨rfl, -⟩ := splits_at_colon hsame (by simp only [List.mem_append, not_or]; exact ⟨hlead, hletters⟩) hcolon
  have ht : isSpace t = false := by
    simp only [List.map_cons, List.map_nil, List.cons.injEq, and_true] at hname
    exact isSpace_of_toLower (by rw [hname.2.2.2]; decide)
  obtain ⟨b, a, hblank, hsplit⟩ := exists_trim (lead ++ [h1, o, s, t])
  have ha : a.length ≤ ([] : List Char).length :=
    length_le_of_blank_right (t := b ++ trimChars (lead ++ [h1, o, s, t])) (l := lead ++ [h1, o, s])
      (fun d hd => hblank d (List.mem_append_right _ hd)) ht (by rw [← hsplit]; simp)
  obtain rfl : a = [] := List.length_eq_zero_iff.mp (by simpa using ha)
  have hfour := congrArg List.length hhost
  rw [List.length_map] at hfour
  have hlen := congrArg List.length hsplit
  simp only [List.length_append, List.length_cons, List.length_nil, hfour] at hlen
  rw [List.append_nil] at hsplit
  obtain ⟨rfl, -⟩ := List.append_inj hsplit (by simpa using hlen)
  exact fun c hc => hblank c (List.mem_append_left _ hc)

/-- What the server reads in a line that has been rewritten behind blanks. -/
theorem hostValue_rewritten (hblank : ∀ c ∈ lead, isSpace c = true) :
    hostValue (lead ++ (hostText target ++ tail)) = some (trimChars (' ' :: (target.toList ++ tail))) := by
  have hlead : ':' ∉ lead := fun hm => absurd (hblank ':' hm) (by decide)
  refine hostValue_eq_some.mpr ⟨' ' :: (target.toList ++ tail), ⟨lead ++ ['H', 'o', 's', 't'], ?_, ?_, ?_⟩, rfl⟩
  · rw [hostText_eq]
    simp
  · simp only [List.mem_append, not_or]
    exact ⟨hlead, by decide⟩
  · have htrim : Trimmed ['H', 'o', 's', 't'] := ⟨by simp, by rintro c ⟨⟩; rfl, by rintro c ⟨⟩; rfl⟩
    have hpad := htrim.trim_pad hblank (a := []) (by simp)
    rw [List.append_nil] at hpad
    rw [hpad]
    decide

/-- What it reads where the match is in the header's value. -/
theorem hostValue_in_value (hline : ∃ value, IsHostLine lowerLatin1 (lead ++ (m ++ tail)) value) (hlead : ':' ∈ lead) :
    ∃ l, hostValue (lead ++ (hostText target ++ tail)) = some (trimChars (l ++ (hostText target ++ tail))) := by
  obtain ⟨value, name, he, hcolon, hhost⟩ := hline
  obtain ⟨name', l, rfl, hcolon'⟩ := List.eq_append_cons_of_mem hlead
  obtain ⟨rfl, -⟩ := splits_at_colon (a := name') (b := l ++ (m ++ tail)) (by simpa using he) hcolon' hcolon
  refine ⟨l, ?_⟩
  rw [List.append_assoc, List.cons_append]
  exact hostValue_eq_some.mpr ⟨_, ⟨name, rfl, hcolon, hhost⟩, rfl⟩

/-- A rewritten line has no CRLF, as the line had none. -/
theorem Decides.unbroken_rewritten (h : Decides head pre (lead ++ (m ++ tail)) post) (ht : TargetLabel target) :
    ¬ CRLF <:+: lead ++ (hostText target ++ tail) := by
  have hline := h.unbroken
  have hlead : ¬ CRLF <:+: lead := fun hin => hline (hin.trans List.infix_append_left)
  have htail : ¬ CRLF <:+: tail := fun hin =>
    hline (hin.trans (List.infix_append_right.trans List.infix_append_right))
  have hcr : '\r' ∉ hostText target := fun hm => absurd (ht.not_lineEnd hm) (by decide)
  have htext : ¬ CRLF <:+: hostText target := fun hin => hcr (hin.subset (by simp [CRLF]))
  refine crlf_append hlead (crlf_append htext htail (.inl fun hm => hcr (List.mem_of_getLast? hm))) (.inr ?_)
  rw [hostText_eq]
  simp

/-- What the server reads behind the blank is the target with what follows it in the line. -/
theorem trim_target_iff (ht : TargetLabel target) :
    trimChars (' ' :: (target.toList ++ tail)) = target.toList ↔
      (∀ c ∈ tail, isSpace c = true) ∧ Trimmed target.toList := by
  have hb : ∀ d ∈ [' '], isSpace d = true := fun d hd => by rw [List.mem_singleton.mp hd]; rfl
  constructor
  · intro he
    have htrim : Trimmed target.toList := by
      have h := trimmed_trimChars (l := ' ' :: (target.toList ++ tail)) (by rw [he]; exact ht.ne_nil)
      rwa [he] at h
    exact ⟨(htrim.trim_pad_iff hb).mp he, htrim⟩
  · rintro ⟨htail, htrim⟩
    exact htrim.trim_pad hb htail

theorem low_of_parse {head : Bytes} {v : List Char} (h : parseHostHeader head = some v) : ∀ c ∈ v, c.toNat < 256 := by
  obtain ⟨value, ⟨before, line, after, hlines, ⟨name, hline, -⟩, -⟩, rfl⟩ := parseHostHeader_eq_some.mp h
  intro c hc
  obtain ⟨b, a, -, hsplit⟩ := exists_trim value
  have hmem : c ∈ line := by
    rw [hline, hsplit]
    simp [hc]
  have hin : line ∈ splitLines (latin1 head) := List.mem_of_mem_drop (hlines ▸ List.mem_append_right _ List.mem_cons_self)
  obtain ⟨u, v, huv⟩ := List.append_of_mem hin
  have htext : c ∈ latin1Decode head := by
    rw [← latin1_eq, ← joinLines_splitLines (latin1 head), huv, joinLines_append]
    simp [hmem]
  exact lt_of_mem_latin1Decode htext

end

/-- The rewrite meets the header that the server routes by, and the server then reads the target, exactly if that header
is one the search takes for what it is. -/
theorem sameHost_iff (head : Bytes) {target : String} (ht : TargetLabel target) :
    SameHost head target ↔ PlainHost head target := by
  have hparse : ∀ {pre lead m tail post : List Char} {value : List Char},
      Decides head pre (lead ++ (m ++ tail)) post →
      HostLine isLineEnd true (latin1Decode head) (pre ++ lead) m (tail ++ post) →
      (∀ c ∈ target.toList, c.toNat < 256) → hostValue (lead ++ (hostText target ++ tail)) = some value →
      parseHostHeader (rewriteHostHeader head target) = some value := by
    intro pre lead m tail post value hd hm hlow hvalue
    refine parse_replaced hd ?_ (hd.unbroken_rewritten ht) hvalue
    rw [latin1_rewriteHostHeader ht hlow hm]
    simp
  constructor
  · rintro ⟨hread, pre, line, post, p, m, q, hd, hm, hp, hend⟩
    have hlow := low_of_parse hread
    obtain ⟨lead, tail, rfl, rfl, rfl⟩ := hd.within hm hp hend
    by_cases hlead : ':' ∈ lead
    · obtain ⟨l, hvalue⟩ : ∃ l, hostValue (lead ++ (hostText target ++ tail)) = some (trimChars (l ++ _)) :=
        hostValue_in_value hd.host hlead
      have he := (hparse hd hm hlow hvalue).symm.trans hread
      have htrim : Trimmed target.toList := by
        have h := trimmed_trimChars (l := l ++ (hostText target ++ tail)) (by
          rw [Option.some.inj he]
          exact ht.ne_nil)
        rwa [Option.some.inj he] at h
      rw [hostText_eq] at he
      exact absurd (Option.some.inj he)
        (htrim.trim_ne (l := l) (c := 'H') (r := ['o', 's', 't', ':', ' ']) (a := tail) (by decide))
    · have hblank : ∀ c ∈ lead, isSpace c = true := by
        obtain ⟨value, hv⟩ := hd.host
        exact blank_of_isHostLine hv hm.host hlead
      have he := (hparse hd hm hlow (hostValue_rewritten hblank)).symm.trans hread
      obtain ⟨htail, htrim⟩ := (trim_target_iff ht).mp (Option.some.inj he)
      exact ⟨⟨pre, lead, m, tail, post, hd, hm, hblank, htail⟩, hlow, htrim⟩
  · rintro ⟨⟨pre, lead, m, tail, post, hd, hm, hblank, htail⟩, hlow, htrim⟩
    have hread := hparse hd hm hlow (hostValue_rewritten hblank)
    rw [(trim_target_iff ht).mpr ⟨htail, htrim⟩] at hread
    refine ⟨hread, pre, _, post, pre ++ lead, m, tail ++ post, hd, hm, ?_, ?_⟩
    · simp
    · simp only [List.length_append]
      omega

theorem targetLabel_local : TargetLabel "127.0.0.1:3000" := by
  refine ⟨⟨"127.0.0.1", 3000, by decide +kernel⟩, fun c hc => ?_⟩
  have hall : "127.0.0.1:3000".toList.all (fun c => decide (' ' ≤ c ∧ c ≠ '\x7f' ∧ c ≠ '$')) = true := by decide +kernel
  exact of_decide_eq_true (List.all_eq_true.mp hall c hc)

theorem sameHost_iff_get :
    SameHost (latin1Encode "GET / HTTP/1.1\r\nHost: a.example.com\r\n\r\n".toList) "127.0.0.1:3000" := by
  refine (sameHost_iff _ targetLabel_local).mpr ⟨⟨"GET / HTTP/1.1\r\n".toList, [], "Host: a.example.com".toList, [],
    "\r\n\r\n".toList, ⟨⟨"GET / HTTP/1.1".toList, [], [[], []], ?_, ?_, ?_, by simp⟩, ?_⟩,
    hostFrom_eq_some.mp ?_, by simp, by simp⟩, ?_, ?_⟩
  · decide +kernel
  · decide +kernel
  · decide +kernel
  · exact ⟨" a.example.com".toList, "Host".toList, by decide +kernel, by decide +kernel, by decide +kernel⟩
  · decide +kernel
  · intro c hc
    have hall : "127.0.0.1:3000".toList.all (fun c => decide (c.toNat < 256)) = true := by decide +kernel
    exact of_decide_eq_true (List.all_eq_true.mp hall c hc)
  · have hlist : "127.0.0.1:3000".toList = ['1', '2', '7', '.', '0', '.', '0', '.', '1', ':', '3', '0', '0', '0'] := by
      decide +kernel
    rw [hlist]
    exact ⟨by simp, by rintro c ⟨⟩; rfl, by rintro c ⟨⟩; rfl⟩

/-- The server trims the name, the search does not. -/
theorem not_sameHost : ¬ ∀ (head : Bytes) (target : String), [13, 10, 13, 10] <:+ head →
    (∃ v, parseHostHeader head = some v) → TargetLabel target → SameHost head target := by
  intro h
  have hs := h (latin1Encode "GET / HTTP/1.1\r\nHost : a.example.com\r\n\r\n".toList) "127.0.0.1:3000"
    (by decide +kernel) ⟨"a.example.com".toList, by decide +kernel⟩ targetLabel_local
  exact absurd hs.1 (by decide +kernel)

end UpTunnel
