import UpTunnel.Client.HostRewrite
import UpTunnel.Lib.Text

/-!
# UpTunnel.HostLine

The line that a search for `^Host:[^\r\n]*` finds, by what it is instead of how it is found.

* `hostFrom_eq_some`, `hostFrom_eq_none`: the search, for any notion of where a line starts.
* `rewriteHostHeader_of_hostLine`, `rewriteHostHeader_of_none`: the rewrite, by the line it finds.
* `findHost_eq`: the client's search is the one in which lines start behind a CR or an LF.
* `HostLine.append`, `HostLine.of_append`: the line does not depend on the text behind it.
* `latin1Encode_latin1Decode`, `latin1Decode_latin1Encode`: latin1 keeps every byte, and every character below 256.
-/

namespace UpTunnel

open Js

/-! ## latin1 -/

section
variable {text : List Char} {c : Char}

theorem latin1Decode_append (a b : Bytes) : latin1Decode (a ++ b) = latin1Decode a ++ latin1Decode b := List.map_append

theorem latin1Encode_append (a b : List Char) : latin1Encode (a ++ b) = latin1Encode a ++ latin1Encode b :=
  List.flatMap_append

theorem length_latin1Decode (b : Bytes) : (latin1Decode b).length = b.length := List.length_map _

theorem toNat_ofByte (b : UInt8) : (Char.ofNat b.toNat).toNat = b.toNat := by
  have h := b.toNat_lt
  have hv : b.toNat.isValidChar := .inl (by omega)
  rw [Char.ofNat, dif_pos hv]
  rfl

theorem lt_of_mem_latin1Decode {b : Bytes} (h : c ∈ latin1Decode b) : c.toNat < 256 := by
  obtain ⟨n, -, rfl⟩ := List.mem_map.mp h
  rw [toNat_ofByte]
  exact n.toNat_lt

theorem latin1Encode_latin1Decode (b : Bytes) : latin1Encode (latin1Decode b) = b := by
  induction b with
  | nil => rfl
  | cons n b ih =>
    have h := n.toNat_lt
    have hc : latin1Encode (latin1Decode (n :: b)) =
        latin1Encode [Char.ofNat n.toNat] ++ latin1Encode (latin1Decode b) := latin1Encode_append [_] _
    rw [hc, ih]
    simp only [latin1Encode, List.flatMap_cons, toNat_ofByte, List.flatMap_nil, List.append_nil]
    rw [if_pos (by omega)]
    simp

theorem latin1Decode_latin1Encode (h : ∀ c ∈ text, c.toNat < 256) : latin1Decode (latin1Encode text) = text := by
  induction text with
  | nil => rfl
  | cons c text ih =>
    have hc := h c List.mem_cons_self
    have he : latin1Encode (c :: text) = UInt8.ofNat c.toNat :: latin1Encode text := by
      simp only [latin1Encode, List.flatMap_cons]
      rw [if_pos (by omega)]
      rfl
    rw [he]
    show Char.ofNat (UInt8.ofNat c.toNat).toNat :: latin1Decode _ = _
    rw [ih fun d hd => h d (List.mem_cons_of_mem c hd), UInt8.toNat_ofNat', Nat.mod_eq_of_lt hc, Char.ofNat_toNat]

end

/-! ## The first line -/

/-- `/Host:/i` at the head of `cs`. -/
def startsHost (cs : List Char) : Bool := (hostPrefix cs).isSome

/-- Whether a line starts behind `pre`, if `b` says so of the empty text and `ends` of a last character. -/
def startsLine (ends : Char → Bool) (b : Bool) (pre : List Char) : Bool :=
  match pre.getLast? with
  | none => b
  | some c => ends c

/-- The first line of `text` that starts with `Host:`. It runs to the next CR or LF, whatever starts a line. -/
structure HostLine (ends : Char → Bool) (b : Bool) (text pre line post : List Char) : Prop where
  split : text = pre ++ (line ++ post)
  starts : startsLine ends b pre = true
  host : startsHost line = true
  whole : ∀ c ∈ line, isLineEnd c = false
  stops : ∀ c ∈ post.head?, isLineEnd c = true
  first : ∀ p q, text = p ++ q → p.length < pre.length → startsLine ends b p = true → startsHost q = false

/-- The text before the match, the match, the text after it. -/
def hostFrom (ends : Char → Bool) (b : Bool) : List Char → Option (List Char × List Char × List Char)
  | [] => none
  | c :: cs =>
    if b && startsHost (c :: cs) then
      some ([], (c :: cs).takeWhile (!isLineEnd ·), (c :: cs).dropWhile (!isLineEnd ·))
    else (hostFrom ends (ends c) cs).map fun r => (c :: r.1, r.2)

/-! ## Searching -/

section
variable {ends : Char → Bool} {b : Bool} {text pre line post cs : List Char} {c : Char}

theorem startsLine_cons (c : Char) (pre : List Char) : startsLine ends b (c :: pre) = startsLine ends (ends c) pre := by
  unfold startsLine
  cases h : pre.getLast? with
  | none =>
    obtain rfl := List.getLast?_eq_none_iff.mp h
    rfl
  | some d => rw [List.getLast?_cons, h]; rfl

theorem startsHost_iff : startsHost cs = true ↔
    ∃ h o s t rest, cs = h :: o :: s :: t :: ':' :: rest ∧ [h, o, s, t].map Char.toLower = ['h', 'o', 's', 't'] := by
  unfold startsHost hostPrefix
  constructor
  · intro hs
    split at hs
    · rename_i h o s t rest
      split at hs
      · exact ⟨h, o, s, t, rest, rfl, by assumption⟩
      · simp at hs
    · simp at hs
  · rintro ⟨h, o, s, t, rest, rfl, hname⟩
    simp [hname]

theorem startsHost_append (h : startsHost line = true) (post : List Char) : startsHost (line ++ post) = true := by
  obtain ⟨h1, o, s, t, rest, rfl, hname⟩ := startsHost_iff.mp h
  exact startsHost_iff.mpr ⟨h1, o, s, t, rest ++ post, rfl, hname⟩

theorem isLineEnd_of_toLower (hl : isLineEnd c.toLower = false) : isLineEnd c = false := by
  cases hc : isLineEnd c with
  | false => rfl
  | true =>
    have hc' : c = '\r' ∨ c = '\n' := of_decide_eq_true hc
    rcases hc' with rfl | rfl <;> cases hl

/-- The five characters of `Host:` end no line. -/
theorem hostPrefix_split {p rest : List Char} (h : hostPrefix cs = some (p, rest)) :
    cs = p ++ rest ∧ startsHost p = true ∧ ∀ c ∈ p, isLineEnd c = false := by
  have hs : startsHost cs = true := by simp [startsHost, h]
  obtain ⟨h1, o, s, t, rest', rfl, hname⟩ := startsHost_iff.mp hs
  simp only [hostPrefix, hname, if_true, Option.some.injEq, Prod.mk.injEq] at h
  obtain ⟨rfl, rfl⟩ := h
  refine ⟨rfl, startsHost_iff.mpr ⟨h1, o, s, t, [], rfl, hname⟩, ?_⟩
  simp only [List.map_cons, List.map_nil, List.cons.injEq, and_true] at hname
  obtain ⟨e1, e2, e3, e4⟩ := hname
  simp only [List.forall_mem_cons]
  exact ⟨isLineEnd_of_toLower (e1 ▸ by decide), isLineEnd_of_toLower (e2 ▸ by decide),
    isLineEnd_of_toLower (e3 ▸ by decide), isLineEnd_of_toLower (e4 ▸ by decide), by decide, by simp⟩

theorem startsHost_takeWhile (h : startsHost cs = true) : startsHost (cs.takeWhile (!isLineEnd ·)) = true := by
  obtain ⟨r, hr⟩ := Option.isSome_iff_exists.mp h
  obtain ⟨rfl, hp, hnot⟩ := hostPrefix_split hr
  rw [List.takeWhile_append_of_pos fun c hc => by simp [hnot c hc]]
  exact startsHost_append hp _

theorem while_of_stops (h : ∀ c ∈ post.head?, isLineEnd c = true) :
    post.takeWhile (!isLineEnd ·) = [] ∧ post.dropWhile (!isLineEnd ·) = post := by
  cases post with
  | nil => exact ⟨rfl, rfl⟩
  | cons c post =>
    have hc := h c rfl
    simp [hc]

theorem hostFrom_eq_none : hostFrom ends b text = none ↔
    ∀ p q, text = p ++ q → startsLine ends b p = true → startsHost q = false := by
  induction text generalizing b with
  | nil =>
    simp only [hostFrom, true_iff]
    intro p q he _
    obtain ⟨-, rfl⟩ := List.append_eq_nil_iff.mp he.symm
    rfl
  | cons c cs ih =>
    unfold hostFrom
    by_cases hs : b = true ∧ startsHost (c :: cs) = true
    · rw [if_pos (by simpa using hs)]
      simp only [reduceCtorEq, false_iff]
      intro h
      have hq := h [] (c :: cs) rfl hs.1
      rw [hs.2] at hq
      cases hq
    · rw [if_neg (by simpa using hs), Option.map_eq_none_iff, ih]
      constructor
      · intro h p q he hp
        cases p with
        | nil =>
          have he' : c :: cs = q := he
          cases hq : startsHost q with
          | false => rfl
          | true => exact absurd ⟨hp, he' ▸ hq⟩ hs
        | cons d p =>
          obtain ⟨rfl, he'⟩ := List.cons.inj he
          exact h p q he' (startsLine_cons c p ▸ hp)
      · intro h p q he hp
        exact h (c :: p) q (by rw [he]; rfl) ((startsLine_cons c p).trans hp)

theorem hostFrom_eq_some :
    hostFrom ends b text = some (pre, line, post) ↔ HostLine ends b text pre line post := by
  induction text generalizing b pre with
  | nil =>
    simp only [hostFrom, reduceCtorEq, false_iff]
    intro h
    have hline := h.host
    have hnil := h.split
    simp only [List.nil_eq, List.append_eq_nil_iff] at hnil
    rw [hnil.2.1] at hline
    cases hline
  | cons c cs ih =>
    unfold hostFrom
    by_cases hs : b = true ∧ startsHost (c :: cs) = true
    · rw [if_pos (by simpa using hs)]
      simp only [Option.some.injEq, Prod.mk.injEq]
      constructor
      · rintro ⟨rfl, rfl, rfl⟩
        refine ⟨List.takeWhile_append_dropWhile.symm, hs.1, startsHost_takeWhile hs.2, ?_, ?_, ?_⟩
        · intro d hd
          simpa using List.mem_takeWhile_imp hd
        · intro d hd
          have hnot := List.head?_dropWhile_not (!isLineEnd ·) (c :: cs)
          rw [hd] at hnot
          simpa using hnot
        · intro p q _ hp
          simp at hp
      · intro h
        cases pre with
        | nil =>
          have hw : ∀ d ∈ line, (!isLineEnd d) = true := fun d hd => by simp [h.whole d hd]
          obtain ⟨htake, hdrop⟩ := while_of_stops h.stops
          rw [h.split, List.nil_append, List.takeWhile_append_of_pos hw, List.dropWhile_append_of_pos hw, htake, hdrop]
          exact ⟨rfl, List.append_nil line, rfl⟩
        | cons d pre =>
          have hf := h.first [] (c :: cs) rfl (by simp) hs.1
          rw [hs.2] at hf
          cases hf
    · rw [if_neg (by simpa using hs)]
      have hmap : (hostFrom ends (ends c) cs).map (fun r => (c :: r.1, r.2)) = some (pre, line, post) ↔
          ∃ p, pre = c :: p ∧ hostFrom ends (ends c) cs = some (p, line, post) := by
        simp only [Option.map_eq_some_iff, Prod.exists, Prod.mk.injEq]
        constructor
        · rintro ⟨p, l, q, h, rfl, rfl, rfl⟩
          exact ⟨p, rfl, h⟩
        · rintro ⟨p, rfl, h⟩
          exact ⟨p, line, post, h, rfl, rfl, rfl⟩
      rw [hmap]
      constructor
      · rintro ⟨p, rfl, h⟩
        have h := ih.mp h
        refine ⟨by rw [h.split]; rfl, (startsLine_cons c p).trans h.starts, h.host, h.whole, h.stops, ?_⟩
        intro p' q he hlt hp
        cases p' with
        | nil =>
          have he' : c :: cs = q := he
          cases hq : startsHost q with
          | false => rfl
          | true => exact absurd ⟨hp, he' ▸ hq⟩ hs
        | cons d p' =>
          obtain ⟨rfl, he'⟩ := List.cons.inj he
          exact h.first p' q he' (by simpa using hlt) (startsLine_cons c p' ▸ hp)
      · intro h
        cases pre with
        | nil =>
          have hhost := startsHost_append h.host post
          rw [← List.nil_append (line ++ post), ← h.split] at hhost
          exact absurd ⟨h.starts, hhost⟩ hs
        | cons d p =>
          obtain ⟨rfl, he⟩ := List.cons.inj h.split
          refine ⟨p, rfl, ih.mpr ⟨he, startsLine_cons c p ▸ h.starts, h.host, h.whole, h.stops, ?_⟩⟩
          intro p' q he' hlt hp
          exact h.first (c :: p') q (by rw [he']; rfl) (by simpa using hlt) ((startsLine_cons c p').trans hp)

theorem HostLine.unique {pre' line' post' : List Char} (h : HostLine ends b text pre line post)
    (h' : HostLine ends b text pre' line' post') : pre' = pre ∧ line' = line ∧ post' = post := by
  have he := (hostFrom_eq_some.mpr h').symm.trans (hostFrom_eq_some.mpr h)
  simpa using he

/-- Where a line starts with `Host:`, there is a first one. -/
theorem exists_hostLine {p q : List Char} (he : text = p ++ q) (hp : startsLine ends b p = true)
    (hq : startsHost q = true) : ∃ pre line post, HostLine ends b text pre line post ∧ pre.length ≤ p.length := by
  cases h : hostFrom ends b text with
  | none =>
    have hn := hostFrom_eq_none.mp h p q he hp
    rw [hq] at hn
    cases hn
  | some r =>
    have hl := hostFrom_eq_some.mp h
    refine ⟨r.1, r.2.1, r.2.2, hl, ?_⟩
    by_contra hlt
    have hn := hl.first p q he (by omega) hp
    rw [hq] at hn
    cases hn

/-- The client's search. -/
theorem findHost_eq (b : Bool) (text : List Char) : findHost b text = hostFrom isLineEnd b text := by
  induction text generalizing b with
  | nil => rfl
  | cons c cs ih =>
    unfold findHost hostFrom
    cases b with
    | false => simp [ih]
    | true =>
      simp only [if_true, Bool.true_and, ih]
      cases hh : hostPrefix (c :: cs) with
      | none => simp [startsHost, hh]
      | some r =>
        have hs : startsHost (c :: cs) = true := by simp [startsHost, hh]
        obtain ⟨he, -, hnot⟩ := hostPrefix_split hh
        have hpos : ∀ d ∈ r.1, (!isLineEnd d) = true := fun d hd => by simp [hnot d hd]
        rw [if_pos hs, he, List.takeWhile_append_of_pos hpos, List.dropWhile_append_of_pos hpos]
        simp only [List.span_eq_takeWhile_dropWhile]

/-! ## The text behind it -/

theorem startsHost_append_of_le (h : 5 ≤ cs.length) (more : List Char) : startsHost (cs ++ more) = startsHost cs := by
  cases hs : startsHost cs with
  | true => exact startsHost_append hs more
  | false =>
    by_contra ht
    rw [Bool.not_eq_false] at ht
    obtain ⟨h1, o, s, t, rest, he, hname⟩ := startsHost_iff.mp ht
    match cs, h with
    | c1 :: c2 :: c3 :: c4 :: c5 :: cs, _ =>
      simp only [List.cons_append, List.cons.injEq] at he
      obtain ⟨rfl, rfl, rfl, rfl, rfl, -⟩ := he
      rw [startsHost_iff.mpr ⟨c1, c2, c3, c4, cs, rfl, hname⟩] at hs
      cases hs

theorem HostLine.five_le (h : HostLine ends b text pre line post) : 5 ≤ line.length := by
  obtain ⟨h1, o, s, t, rest, rfl, -⟩ := startsHost_iff.mp h.host
  simp

theorem HostLine.append (h : HostLine ends b text pre line post) {more : List Char} (hpost : post ≠ [] ∨ more = []) :
    HostLine ends b (text ++ more) pre line (post ++ more) where
  split := by simp [h.split]
  starts := h.starts
  host := h.host
  whole := h.whole
  stops c hc := by
    rcases hpost with hpost | rfl
    · rw [List.head?_append_of_ne_nil _ hpost] at hc
      exact h.stops c hc
    · rw [List.append_nil] at hc
      exact h.stops c hc
  first p q he hlt hp := by
    have hlen := h.five_le
    have htext := congrArg List.length h.split
    simp only [List.length_append] at htext
    obtain ⟨q', hq', rfl⟩ : ∃ q', text = p ++ q' ∧ q = q' ++ more := by
      rcases List.append_eq_append_iff.mp he with ⟨r, rfl, hr⟩ | ⟨r, hr, rfl⟩
      · simp only [List.length_append] at hlt
        omega
      · exact ⟨r, hr, rfl⟩
    have hq := congrArg List.length hq'
    simp only [List.length_append] at hq
    rw [startsHost_append_of_le (by omega)]
    exact h.first p q' hq' hlt hp

/-- In a text that ends a line, or has nothing behind it, a line that starts there ends there. -/
theorem HostLine.of_append {more : List Char} (h : HostLine ends b (text ++ more) pre line post)
    (hlt : pre.length < text.length) (hend : (∃ c, text.getLast? = some c ∧ isLineEnd c = true) ∨ more = []) :
    ∃ post', post = post' ++ more ∧ HostLine ends b text pre line post' := by
  have hsplit : ∃ post', post = post' ++ more ∧ text = pre ++ (line ++ post') := by
    have hs : text ++ more = pre ++ line ++ post := by rw [h.split, List.append_assoc]
    rcases List.append_eq_append_iff.mp hs with ⟨r, hr, hmore⟩ | ⟨r, hr, hpost⟩
    · rcases hend with ⟨c, hc, hcend⟩ | rfl
      · -- the last character of the text would be one of the line
        rcases List.append_eq_append_iff.mp hr with ⟨l, hl, hline⟩ | ⟨l, hl, -⟩
        · have hne : l ≠ [] := by
            rintro rfl
            simp [hl] at hlt
          rw [hl, List.getLast?_append_of_ne_nil _ hne] at hc
          have hmem : c ∈ line := hline ▸ List.mem_append_left r (List.mem_of_getLast? hc)
          rw [h.whole c hmem] at hcend
          cases hcend
        · have hlen := congrArg List.length hl
          simp only [List.length_append] at hlen
          omega
      · obtain ⟨rfl, rfl⟩ := List.append_eq_nil_iff.mp hmore.symm
        exact ⟨[], rfl, by simpa using hr.symm⟩
    · exact ⟨r, hpost, by rw [hr, List.append_assoc]⟩
  obtain ⟨post', rfl, htext⟩ := hsplit
  refine ⟨post', rfl, htext, h.starts, h.host, h.whole, ?_, ?_⟩
  · intro c hc
    cases post' with
    | nil => cases hc
    | cons d post' => exact h.stops c hc
  · intro p q he hp hs
    have hf := h.first p (q ++ more) (by rw [he, List.append_assoc]) hp hs
    by_contra hq
    rw [Bool.not_eq_false] at hq
    rw [startsHost_append hq] at hf
    cases hf

end

/-! ## The rewrite -/

section
variable {target : String} {buf : Bytes} {pre line post : List Char}

theorem rewriteHostHeader_of_hostLine (h : HostLine isLineEnd true (latin1Decode buf) pre line post) :
    rewriteHostHeader buf target =
      latin1Encode (pre ++ expandReplacement pre line post ("Host: " ++ target).toList ++ post) := by
  have hf : findHost true (latin1Decode buf) = some (pre, line, post) := by
    rw [findHost_eq]
    exact hostFrom_eq_some.mpr h
  unfold rewriteHostHeader
  rw [hf]

theorem rewriteHostHeader_of_none (h : ∀ pre line post, ¬ HostLine isLineEnd true (latin1Decode buf) pre line post) :
    rewriteHostHeader buf target = buf := by
  have hf : findHost true (latin1Decode buf) = none := by
    rw [findHost_eq, Option.eq_none_iff_forall_ne_some]
    rintro ⟨pre, line, post⟩ he
    exact h _ _ _ (hostFrom_eq_some.mp he)
  unfold rewriteHostHeader
  rw [hf]

/-- An expansion is made of the replacement and the text it is put into. -/
theorem mem_expandReplacement {c : Char} {r : List Char} (h : c ∈ expandReplacement pre line post r) :
    c ∈ r ∨ c ∈ pre ++ (line ++ post) := by
  fun_induction expandReplacement pre line post r with
  | case1 r ih => simp_all; grind
  | case2 r ih => simp_all; grind
  | case3 r ih => simp_all; grind
  | case4 r ih => simp_all; grind
  | case5 c r _ _ _ _ ih => simp_all; grind
  | case6 => simp at h

/-- A `$` in front of what `String.replace` puts something in for. -/
def substitutes : List Char → Bool
  | [] => false
  | c :: r => (c = '$' && r.head?.any fun d => d = '$' || d = '&' || d = '`' || d = '\'') || substitutes r

theorem expandReplacement_of_plain {r : List Char} (h : substitutes r = false) :
    expandReplacement pre line post r = r := by
  fun_induction expandReplacement pre line post r with
  | case1 r => simp [substitutes] at h
  | case2 r => simp [substitutes] at h
  | case3 r => simp [substitutes] at h
  | case4 r => simp [substitutes] at h
  | case5 c r _ _ _ _ ih => rw [ih (Bool.or_eq_false_iff.mp h).2]
  | case6 => rfl

theorem substitutes_of_not {r : List Char} (h : '$' ∉ r) : substitutes r = false := by
  induction r with
  | nil => rfl
  | cons c r ih =>
    have hc : c ≠ '$' := fun he => h (he ▸ List.mem_cons_self)
    simp [substitutes, hc, ih fun hm => h (List.mem_cons_of_mem c hm)]

def hostText (target : String) : List Char := ("Host: " ++ target).toList

theorem hostText_eq (target : String) : hostText target = 'H' :: 'o' :: 's' :: 't' :: ':' :: ' ' :: target.toList := by
  simp [hostText]

theorem low_hostText (hlow : ∀ c ∈ target.toList, c.toNat < 256) : ∀ c ∈ hostText target, c.toNat < 256 := by
  intro c hc
  rw [hostText_eq] at hc
  simp only [List.mem_cons] at hc
  rcases hc with rfl | rfl | rfl | rfl | rfl | rfl | hc
  all_goals first | decide | exact hlow c hc

/-- The rewrite where the target stands for itself. -/
theorem latin1Decode_rewriteHostHeader (h : HostLine isLineEnd true (latin1Decode buf) pre line post)
    (hexp : expandReplacement pre line post (hostText target) = hostText target)
    (hlow : ∀ c ∈ target.toList, c.toNat < 256) :
    latin1Decode (rewriteHostHeader buf target) = pre ++ (hostText target ++ post) := by
  have htext : ∀ c ∈ pre ++ (line ++ post), c.toNat < 256 := fun c hc => lt_of_mem_latin1Decode (h.split ▸ hc)
  have hhost := low_hostText hlow
  rw [rewriteHostHeader_of_hostLine h, show ("Host: " ++ target).toList = hostText target from rfl, hexp,
    List.append_assoc]
  refine latin1Decode_latin1Encode fun c hc => ?_
  rcases List.mem_append.mp hc with hc | hc
  · exact htext c (List.mem_append_left _ hc)
  rcases List.mem_append.mp hc with hc | hc
  · exact hhost c hc
  · exact htext c (List.mem_append_right _ (List.mem_append_right _ hc))

end

end UpTunnel
