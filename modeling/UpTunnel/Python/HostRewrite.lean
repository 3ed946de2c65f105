import UpTunnel.HostLine
import UpTunnel.Lib.Py
import UpTunnel.Lib.Search

/-!
# UpTunnel.Python.HostRewrite

`_rewrite_host_header` of `client/uptunnel/client.py`, and `Stream._to_local` with the head it holds back.

* `template_of_plain`: a replacement in which no backslash escapes anything stands for itself.
* `low_expandTemplate`: what a template in ASCII expands to has no character from 256 on.
* `rewriteHostHeader_of_hostLine`, `rewriteHostHeader_of_none`: the rewrite, by the line it finds.
-/

namespace UpTunnel.Python

open Js

/-! ## The replacement of `re.sub` -/

/-- What `re._parser.parse_template` makes of a replacement, for a pattern without groups. -/
inductive Piece where
  | literal (c : Char)
  /-- `\g<0>` -/
  | wholeMatch
  deriving DecidableEq, Repr

def isOctal (c : Char) : Bool := decide ('0' ≤ c ∧ c ≤ '7')

/-- `int(text, 8)` -/
def octal (text : List Char) : Nat := text.foldl (fun n c => 8 * n + (c.toNat - '0'.toNat)) 0

def asciiLetter (c : Char) : Bool := decide (('a' ≤ c ∧ c ≤ 'z') ∨ ('A' ≤ c ∧ c ≤ 'Z'))

/-- The escapes that are a character of their own. -/
def escapes : List (Char × Char) :=
  [('a', '\x07'), ('b', '\x08'), ('f', '\x0c'), ('n', '\n'), ('r', '\r'), ('t', '\t'), ('v', '\x0b'), ('\\', '\\')]

/-- What follows a backslash: its pieces, and the text behind them. `none` is an `re.error` or an IndexError. -/
def escape (maxStrDigits : Nat) : List Char → Option (List Piece × List Char)
  | [] => none
  | 'g' :: '<' :: rest =>
    match rest.span (· ≠ '>') with
    | (name, _ :: rest) => if Py.int maxStrDigits name = some 0 then some ([.wholeMatch], rest) else none
    | (_, []) => none
  | 'g' :: _ => none
  | '0' :: rest =>
    let digits := (rest.take 2).takeWhile isOctal
    some ([.literal (Char.ofNat (octal digits))], rest.drop digits.length)
  | c :: rest =>
    if '1' ≤ c ∧ c ≤ '9' then
      -- three octal digits are a character; all else would be a group
      match rest with
      | d :: e :: rest =>
        if isOctal c && isOctal d && isOctal e && decide (octal [c, d, e] ≤ 0o377) then
          some ([.literal (Char.ofNat (octal [c, d, e]))], rest)
        else none
      | _ => none
    else
      match escapes.lookup c with
      | some e => some ([.literal e], rest)
      | none => if asciiLetter c then none else some ([.literal '\\', .literal c], rest)

/-- `fuel` bounds the number of pieces. -/
def parseTemplate (maxStrDigits : Nat) : Nat → List Char → Option (List Piece)
  | 0, _ => none
  | _ + 1, [] => some []
  | fuel + 1, '\\' :: rest =>
    (escape maxStrDigits rest).bind fun (pieces, rest) => (parseTemplate maxStrDigits fuel rest).map (pieces ++ ·)
  | fuel + 1, c :: rest => (parseTemplate maxStrDigits fuel rest).map (.literal c :: ·)

def template (maxStrDigits : Nat) (repl : List Char) : Option (List Piece) :=
  parseTemplate maxStrDigits (repl.length + 1) repl

def Piece.expand (matched : List Char) : Piece → List Char
  | .literal c => [c]
  | .wholeMatch => matched

def expandTemplate (matched : List Char) (pieces : List Piece) : List Char := pieces.flatMap (·.expand matched)

/-! ## Rewriting the head -/

/-- What leaves `_rewrite_host_header`. -/
inductive RewriteError where
  /-- UnicodeEncodeError -/
  | notAscii
  /-- The replacement is no template. -/
  | badTemplate
  deriving DecidableEq, Repr

def isAscii (text : String) : Bool := text.toList.all fun c => decide (c.toNat < 128)

/-- In bytes, `^` matches at the start and behind an LF. -/
def isLF (c : Char) : Bool := decide (c = '\n')

/-- `_HOST_HEADER_RE.search` -/
def searchHost (text : List Char) : Option (List Char × List Char × List Char) := hostFrom isLF true text

def rewriteHostHeader (maxStrDigits : Nat) (head : Bytes) (target : String) : Except RewriteError Bytes :=
  if isAscii target then
    match template maxStrDigits (hostText target) with
    | none => .error .badTemplate
    | some pieces =>
      match searchHost (latin1Decode head) with
      | none => .ok head
      | some (pre, matched, post) => .ok (latin1Encode (pre ++ expandTemplate matched pieces ++ post))
  else .error .notAscii

/-! ## `_to_local` -/

structure TunnelSpec where
  name : String
  kind : String
  targetHost : String
  targetPort : Int
  subdomain : String
  remotePort : Int
  rewriteHost : Bool
  deriving DecidableEq, Repr

def TunnelSpec.target (spec : TunnelSpec) : String := spec.targetHost ++ ":" ++ toString spec.targetPort

def MAX_HEAD_BUFFER : Nat := 32 * 1024

/-- A `Stream`, as far as `_to_local` uses it. -/
structure ToLocal where
  id : Nat
  spec : TunnelSpec
  headBuf : Bytes
  headDone : Bool
  /-- What has been passed to `writer.write`, oldest first. -/
  written : List Bytes
  /-- `writer.write_eof` has been called. -/
  eofWritten : Bool
  /-- The amounts of the STREAM_ACKs that have been sent. -/
  acked : List Nat
  /-- The task has neither returned nor raised. -/
  running : Bool
  deriving DecidableEq, Repr

namespace ToLocal

variable (maxStrDigits : Nat)

def new (id : Nat) (spec : TunnelSpec) : ToLocal where
  id := id
  spec := spec
  headBuf := []
  headDone := !(spec.kind = "http" && spec.rewriteHost)
  written := []
  eofWritten := false
  acked := []
  running := true

def bufferHead (s : ToLocal) (chunk : Bytes) : Except RewriteError (ToLocal × Bytes) :=
  let s := { s with headBuf := s.headBuf ++ chunk }
  if (Search.indexOf [13, 10, 13, 10] s.headBuf).isSome || decide (MAX_HEAD_BUFFER ≤ s.headBuf.length) then
    (rewriteHostHeader maxStrDigits s.headBuf s.spec.target).map fun out =>
      ({ s with headBuf := [], headDone := true }, out)
  else .ok (s, [])

/-- The task ends with an exception. -/
def raised (s : ToLocal) : ToLocal := { s with running := false }

/-- One turn of the loop with the next item of the inbox, where `none` is the EOF. `drained` is whether `drain`, if
it is called, comes back without an error. -/
def turn (s : ToLocal) (item : Option Bytes) (drained : Bool) : ToLocal :=
  if !s.running then s
  else
    match item with
    | none =>
      if s.headBuf = [] then { s with eofWritten := true, running := false }
      else
        match rewriteHostHeader maxStrDigits s.headBuf s.spec.target with
        | .error _ => s.raised
        | .ok out =>
          let s := { s with written := s.written ++ [out], headBuf := [], headDone := true }
          if drained then { s with eofWritten := true, running := false } else s.raised
    | some payload =>
      match if s.headDone then .ok (s, payload) else s.bufferHead maxStrDigits payload with
      | .error _ => s.raised
      | .ok (s, out) =>
        if out = [] then { s with acked := s.acked ++ [payload.length] }
        else
          let s := { s with written := s.written ++ [out] }
          if drained then { s with acked := s.acked ++ [payload.length] } else s.raised

/-- The loop over what `feed` and `feed_eof` have put into the inbox, while the local service takes what is
written. -/
def pump (s : ToLocal) (items : List (Option Bytes)) : ToLocal :=
  items.foldl (fun s item => s.turn maxStrDigits item true) s

end ToLocal

/-! ## Templates -/

section
variable {maxStrDigits : Nat} {repl matched : List Char} {pieces : List Piece}

theorem parseTemplate_cons {c : Char} (h : c ≠ '\\') (fuel : Nat) :
    parseTemplate maxStrDigits (fuel + 1) (c :: repl) =
      (parseTemplate maxStrDigits fuel repl).map (.literal c :: ·) := by
  conv => lhs; unfold parseTemplate
  split <;> simp_all

/-- A backslash in front of what `re.sub` takes for an escape, or of nothing. -/
def escaped : List Char → Bool
  | [] => false
  | c :: r => (c = '\\' && r.head?.all fun d => d = '\\' || d.isAlphanum) || escaped r

/-- What is no escape stays as it is, the backslash included. -/
theorem escape_plain {c : Char} (hc : c ≠ '\\') (ha : c.isAlphanum = false) :
    escape maxStrDigits (c :: repl) = some ([.literal '\\', .literal c], repl) := by
  have hne : ∀ d : Char, d.isAlphanum = true → c ≠ d := by
    rintro d hd rfl
    rw [ha] at hd
    cases hd
  obtain ⟨hcase, hdigit⟩ := Bool.or_eq_false_iff.mp (show ((c.isUpper || c.isLower) || c.isDigit) = false from ha)
  obtain ⟨hupper, hlower⟩ := Bool.or_eq_false_iff.mp hcase
  have hone : ¬ ('1' ≤ c ∧ c ≤ '9') := by
    rintro ⟨h1, h2⟩
    have h0 : '0' ≤ c := Char.le_trans (by decide) h1
    exact absurd hdigit (by simpa [Char.isDigit] using ⟨h0, h2⟩)
  have hletter : asciiLetter c = false := by
    refine decide_eq_false ?_
    rintro (⟨ha, hz⟩ | ⟨hA, hZ⟩)
    · exact absurd hlower (Bool.ne_false_iff.mpr (Bool.and_eq_true_iff.mpr ⟨decide_eq_true ha, decide_eq_true hz⟩))
    · exact absurd hupper (Bool.ne_false_iff.mpr (decide_eq_true ⟨hA, hZ⟩))
  have hlookup : escapes.lookup c = none := by
    have hkeys : ∀ p ∈ escapes, p.1 = '\\' ∨ p.1.isAlphanum = true := by decide
    refine List.lookup_eq_none_iff.mpr fun p hp => bne_iff_ne.mpr ?_
    rcases hkeys p hp with he | he
    · exact he ▸ hc
    · exact hne p.1 he
  unfold escape
  split
  · rename_i he
    cases he
  · rename_i he
    exact absurd (List.cons.inj he).1 (hne 'g' rfl)
  · rename_i he
    exact absurd (List.cons.inj he).1 (hne 'g' rfl)
  · rename_i he
    exact absurd (List.cons.inj he).1 (hne '0' rfl)
  · rename_i he
    obtain ⟨rfl, rfl⟩ := List.cons.inj he
    rw [if_neg hone, hlookup, hletter]
    rfl

theorem parseTemplate_of_plain (fuel : Nat) : ∀ {repl : List Char}, escaped repl = false → repl.length < fuel →
    parseTemplate maxStrDigits fuel repl = some (repl.map .literal) := by
  induction fuel with
  | zero => intro repl _ hf; simp at hf
  | succ fuel ih =>
    intro repl h hf
    cases repl with
    | nil => rfl
    | cons c repl =>
      have hrest := (Bool.or_eq_false_iff.mp h).2
      by_cases hc : c = '\\'
      · subst hc
        cases repl with
        | nil => simp [escaped] at h
        | cons d repl =>
          obtain ⟨hd, ha⟩ : d ≠ '\\' ∧ d.isAlphanum = false := by simpa [escaped] using (Bool.or_eq_false_iff.mp h).1
          have hlt : repl.length < fuel := by
            simp only [List.length_cons] at hf
            omega
          rw [parseTemplate, escape_plain hd ha, Option.bind_some]
          dsimp only
          rw [ih (Bool.or_eq_false_iff.mp hrest).2 hlt]
          rfl
      · have hlt : repl.length < fuel := by simpa using hf
        rw [parseTemplate_cons hc, ih hrest hlt]
        rfl

theorem template_of_plain (h : escaped repl = false) : template maxStrDigits repl = some (repl.map .literal) :=
  parseTemplate_of_plain _ h (Nat.lt_succ_self _)

theorem expandTemplate_literal (matched repl : List Char) : expandTemplate matched (repl.map .literal) = repl := by
  induction repl with
  | nil => rfl
  | cons c repl ih =>
    show c :: expandTemplate matched (repl.map .literal) = c :: repl
    rw [ih]

theorem octal_lt {digits : List Char} (h : ∀ c ∈ digits, isOctal c = true) : octal digits < 8 ^ digits.length := by
  induction digits using List.reverseRecOn with
  | nil => exact Nat.one_pos
  | append_singleton digits c ih =>
    have hc := of_decide_eq_true (h c (by simp))
    have hle : c.toNat ≤ 0x37 := hc.2
    have hlt := ih fun d hd => h d (by simp [hd])
    have he : octal (digits ++ [c]) = 8 * octal digits + (c.toNat - 0x30) := by
      unfold octal
      rw [List.foldl_append]
      rfl
    rw [he, List.length_append, List.length_singleton, Nat.pow_succ]
    omega

theorem toNat_ofNat_lt {n m : Nat} (h : n < m) (hm : m ≤ 256) : (Char.ofNat n).toNat < 256 := by
  have hv : n.isValidChar := .inl (by omega)
  rw [Char.ofNat, dif_pos hv]
  show n < 256
  omega

theorem low_escapes {c e : Char} (h : escapes.lookup c = some e) : e.toNat < 256 := by
  have hall : escapes.all (fun p => decide (p.2.toNat < 256)) = true := by decide
  obtain ⟨l₁, l₂, hl, -⟩ := List.lookup_eq_some_iff.mp h
  have hm : (c, e) ∈ escapes := hl ▸ List.mem_append_right l₁ List.mem_cons_self
  exact of_decide_eq_true (List.all_eq_true.mp hall (c, e) hm)

/-- Every piece is from the escape itself or below 256, and the rest is from the text. -/
theorem low_escape {text rest : List Char} (h : escape maxStrDigits text = some (pieces, rest))
    (hlow : ∀ c ∈ text, c.toNat < 256) :
    (∀ c, .literal c ∈ pieces → c.toNat < 256) ∧ ∀ c ∈ rest, c.toNat < 256 := by
  unfold escape at h
  split at h
  · cases h
  · rename_i text
    split at h
    · rename_i name b rest hspan
      split at h
      · cases h
        refine ⟨by simp, fun c hc => hlow c ?_⟩
        rw [List.span_eq_takeWhile_dropWhile, Prod.mk.injEq] at hspan
        have hm : c ∈ text.dropWhile (· ≠ '>') := hspan.2 ▸ List.mem_cons_of_mem b hc
        exact List.mem_cons_of_mem _ (List.mem_cons_of_mem _ (List.dropWhile_sublist _ |>.subset hm))
      · cases h
    · cases h
  · cases h
  · rename_i text
    cases h
    refine ⟨fun c hc => ?_, fun c hc => hlow c (List.mem_cons_of_mem _ (List.mem_of_mem_drop hc))⟩
    simp only [List.mem_singleton, Piece.literal.injEq] at hc
    subst hc
    have ho : octal ((text.take 2).takeWhile isOctal) < 8 ^ ((text.take 2).takeWhile isOctal).length :=
      octal_lt fun c hc => List.mem_takeWhile_imp hc
    have hlen : ((text.take 2).takeWhile isOctal).length ≤ 2 :=
      (List.takeWhile_sublist _).length_le.trans (List.length_take_le 2 text)
    exact toNat_ofNat_lt ho ((Nat.pow_le_pow_right (by omega) hlen).trans (by decide))
  · rename_i c text _ _ _
    split at h
    · split at h
      · rename_i d e rest
        split at h
        · rename_i ho
          cases h
          refine ⟨fun c hc => ?_, fun c hc => hlow c (by simp [hc])⟩
          simp only [List.mem_singleton, Piece.literal.injEq] at hc
          subst hc
          simp only [Bool.and_eq_true, decide_eq_true_eq] at ho
          exact toNat_ofNat_lt (Nat.lt_succ_of_le ho.2) (by decide)
        · cases h
      · cases h
    · split at h
      · rename_i e he
        cases h
        refine ⟨fun c hc => ?_, fun c hc => hlow c (List.mem_cons_of_mem _ hc)⟩
        simp only [List.mem_singleton, Piece.literal.injEq] at hc
        subst hc
        exact low_escapes he
      · split at h
        · cases h
        · cases h
          refine ⟨fun d hd => ?_, fun d hd => hlow d (List.mem_cons_of_mem _ hd)⟩
          simp only [List.mem_cons, Piece.literal.injEq, List.not_mem_nil, or_false] at hd
          rcases hd with rfl | rfl
          · decide
          · exact hlow d List.mem_cons_self

theorem low_parseTemplate {fuel : Nat} {text : List Char}
    (h : parseTemplate maxStrDigits fuel text = some pieces) (hlow : ∀ c ∈ text, c.toNat < 256) :
    ∀ c, .literal c ∈ pieces → c.toNat < 256 := by
  induction fuel generalizing text pieces with
  | zero => cases h
  | succ fuel ih =>
    unfold parseTemplate at h
    split at h
    · cases h
    · cases h
      simp
    · rename_i n text heq
      obtain rfl := Nat.succ.inj heq
      obtain ⟨⟨ps, rest⟩, he, h⟩ := Option.bind_eq_some_iff.mp h
      obtain ⟨qs, hq, rfl⟩ := Option.map_eq_some_iff.mp h
      obtain ⟨hps, hrest⟩ := low_escape he fun c hc => hlow c (List.mem_cons_of_mem _ hc)
      intro c hc
      rcases List.mem_append.mp hc with hc | hc
      · exact hps c hc
      · exact ih hq hrest c hc
    · rename_i n b text _ heq
      obtain rfl : fuel = n := Nat.succ.inj heq
      obtain ⟨qs, hq, rfl⟩ := Option.map_eq_some_iff.mp h
      intro c hc
      rcases List.mem_cons.mp hc with hc | hc
      · cases hc
        exact hlow b List.mem_cons_self
      · exact ih hq (fun d hd => hlow d (List.mem_cons_of_mem _ hd)) c hc

theorem low_expandTemplate (h : template maxStrDigits repl = some pieces) (hlow : ∀ c ∈ repl, c.toNat < 256)
    (hm : ∀ c ∈ matched, c.toNat < 256) : ∀ c ∈ expandTemplate matched pieces, c.toNat < 256 := by
  intro c hc
  obtain ⟨p, hp, hc⟩ := List.mem_flatMap.mp hc
  cases p with
  | literal d =>
    obtain rfl := List.mem_singleton.mp hc
    exact low_parseTemplate h hlow c hp
  | wholeMatch => exact hm c hc

end

/-! ## The rewrite -/

section
variable {maxStrDigits : Nat} {target : String} {buf : Bytes} {pieces : List Piece} {pre line post : List Char}

theorem low_of_isAscii (h : isAscii target = true) : ∀ c ∈ target.toList, c.toNat < 256 := by
  intro c hc
  have hlt := of_decide_eq_true (List.all_eq_true.mp h c hc)
  omega

theorem rewriteHostHeader_of_hostLine (ha : isAscii target = true)
    (ht : template maxStrDigits (hostText target) = some pieces)
    (h : HostLine isLF true (latin1Decode buf) pre line post) :
    rewriteHostHeader maxStrDigits buf target =
      .ok (latin1Encode (pre ++ expandTemplate line pieces ++ post)) := by
  have hs : searchHost (latin1Decode buf) = some (pre, line, post) := hostFrom_eq_some.mpr h
  unfold rewriteHostHeader
  rw [if_pos ha, ht]
  simp only [hs]

theorem rewriteHostHeader_of_none (ha : isAscii target = true)
    (ht : template maxStrDigits (hostText target) = some pieces)
    (h : ∀ pre line post, ¬ HostLine isLF true (latin1Decode buf) pre line post) :
    rewriteHostHeader maxStrDigits buf target = .ok buf := by
  have hs : searchHost (latin1Decode buf) = none := by
    rw [Option.eq_none_iff_forall_ne_some]
    rintro ⟨pre, line, post⟩ he
    exact h _ _ _ (hostFrom_eq_some.mp he)
  unfold rewriteHostHeader
  rw [if_pos ha, ht]
  simp only [hs]

theorem rewriteHostHeader_ok {out : Bytes} (h : rewriteHostHeader maxStrDigits buf target = .ok out) :
    isAscii target = true ∧ ∃ pieces, template maxStrDigits (hostText target) = some pieces := by
  unfold rewriteHostHeader at h
  split at h
  · rename_i ha
    refine ⟨ha, ?_⟩
    cases ht : template maxStrDigits (hostText target) with
    | none =>
      rw [ht] at h
      cases h
    | some pieces => exact ⟨pieces, rfl⟩
  · cases h

end

end UpTunnel.Python
