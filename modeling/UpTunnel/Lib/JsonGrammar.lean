import Mathlib.Data.List.TakeWhile
import UpTunnel.Lib.JsonTree

/-!
# UpTunnel.Lib.JsonGrammar

The grammar of RFC 8259, and that of the readers which also take `NaN`, `Infinity` and `-Infinity`.

* `reads_of_scan`: what the scanner takes, the grammar derives.
* `Reads.scan_eq`: what the grammar derives, the scanner takes, up to a number that could go on.
* `parseTree_iff`: so a text has the tree that the parser makes of it and no other.
-/

namespace Js

/-! ## The grammar -/

/-- `cs` is white space, and then `r`. -/
def Spaces (cs r : List Char) : Prop := ∃ w, cs = w ++ r ∧ ∀ c ∈ w, isJsonSpace c = true

def Digits (ds : List Char) : Prop := ds ≠ [] ∧ ∀ c ∈ ds, isDigit c = true

/-- No digit follows a leading zero. -/
def IntText (ds : List Char) : Prop := ds = ['0'] ∨ (Digits ds ∧ ds.head? ≠ some '0')

inductive FracText : List Char → List Char → Prop
  | none : FracText [] []
  | some {ds : List Char} : Digits ds → FracText ds ('.' :: ds)

inductive SignText : Bool → List Char → Prop
  | none : SignText false []
  | plus : SignText false ['+']
  | minus : SignText true ['-']

inductive ExpText : Option Int → List Char → Prop
  | none : ExpText none []
  | some {e : Char} {neg : Bool} {sign ds : List Char} : e = 'e' ∨ e = 'E' → SignText neg sign → Digits ds →
      ExpText (some (if neg then -(digitsVal ds : Int) else digitsVal ds)) (e :: (sign ++ ds))

/-- `text` is the number `l`. -/
def NumText (l : NumLit) (text : List Char) : Prop :=
  ∃ frac e, text = (if l.neg then ['-'] else []) ++ (l.int ++ (frac ++ e)) ∧
    IntText l.int ∧ FracText l.frac frac ∧ ExpText l.exp e

/-- The escapes that are one character, and that character. -/
def escapes : List (Char × Char) :=
  [('"', '"'), ('\\', '\\'), ('/', '/'), ('b', '\x08'), ('f', '\x0c'), ('n', '\n'), ('r', '\r'), ('t', '\t')]

/-- The pieces of a string from behind its opening quote, and the text behind its closing one. -/
inductive CharsText : List Piece → List Char → List Char → Prop
  | close {r : List Char} : CharsText [] ('"' :: r) r
  | char {c : Char} {ps : List Piece} {cs r : List Char} : 0x20 ≤ c.toNat → c ≠ '"' → c ≠ '\\' →
      CharsText ps cs r → CharsText (.char c :: ps) (c :: cs) r
  | escape {c e : Char} {ps : List Piece} {cs r : List Char} : (c, e) ∈ escapes →
      CharsText ps cs r → CharsText (.char e :: ps) ('\\' :: c :: cs) r
  | unit {a b c d : Char} {u : Nat} {ps : List Piece} {cs r : List Char} : hexVal [a, b, c, d] = some u →
      CharsText ps cs r → CharsText (.unit u :: ps) ('\\' :: 'u' :: a :: b :: c :: d :: cs) r

/-- `cs` is a string literal that denotes `s`, and then `r`. -/
def StringText (s : Points) (cs r : List Char) : Prop :=
  ∃ ps rest, cs = '"' :: rest ∧ CharsText ps rest r ∧ s = points ps

/-- What a piece of text can be. -/
inductive Part where
  | value (x : JTree)
  | elements (xs : List JTree)
  | members (ms : List (Points × JTree))

/-- `cs` is a part, and then `r`. `ext` is whether constants are values. -/
inductive Reads (ext : Bool) : Part → List Char → List Char → Prop
  | null {r : List Char} : Reads ext (.value .null) ('n' :: 'u' :: 'l' :: 'l' :: r) r
  | yes {r : List Char} : Reads ext (.value (.bool true)) ('t' :: 'r' :: 'u' :: 'e' :: r) r
  | no {r : List Char} : Reads ext (.value (.bool false)) ('f' :: 'a' :: 'l' :: 's' :: 'e' :: r) r
  | num {l : NumLit} {text r : List Char} : NumText l text → Reads ext (.value (.num l)) (text ++ r) r
  | constant {c : Constant} {r : List Char} : ext = true → Reads ext (.value (.constant c)) (c.text ++ r) r
  | str {s : Points} {cs r : List Char} : StringText s cs r → Reads ext (.value (.str s)) cs r
  | arrNil {cs r : List Char} : Spaces cs (']' :: r) → Reads ext (.value (.arr [])) ('[' :: cs) r
  | arr {xs : List JTree} {cs r : List Char} : Reads ext (.elements xs) cs (']' :: r) →
      Reads ext (.value (.arr xs)) ('[' :: cs) r
  | objNil {cs r : List Char} : Spaces cs ('\x7d' :: r) → Reads ext (.value (.obj [])) ('\x7b' :: cs) r
  | obj {ms : List (Points × JTree)} {cs r : List Char} : Reads ext (.members ms) cs ('\x7d' :: r) →
      Reads ext (.value (.obj ms)) ('\x7b' :: cs) r
  | element {x : JTree} {cs cs1 cs2 r : List Char} : Spaces cs cs1 → Reads ext (.value x) cs1 cs2 → Spaces cs2 r →
      Reads ext (.elements [x]) cs r
  | elements {x : JTree} {xs : List JTree} {cs cs1 cs2 cs3 r : List Char} : Spaces cs cs1 →
      Reads ext (.value x) cs1 cs2 → Spaces cs2 (',' :: cs3) → Reads ext (.elements xs) cs3 r →
      Reads ext (.elements (x :: xs)) cs r
  | member {k : Points} {x : JTree} {cs cs1 cs2 cs3 cs4 cs5 r : List Char} : Spaces cs cs1 → StringText k cs1 cs2 →
      Spaces cs2 (':' :: cs3) → Spaces cs3 cs4 → Reads ext (.value x) cs4 cs5 → Spaces cs5 r →
      Reads ext (.members [(k, x)]) cs r
  | members {k : Points} {x : JTree} {ms : List (Points × JTree)} {cs cs1 cs2 cs3 cs4 cs5 cs6 r : List Char} :
      Spaces cs cs1 → StringText k cs1 cs2 → Spaces cs2 (':' :: cs3) → Spaces cs3 cs4 →
      Reads ext (.value x) cs4 cs5 → Spaces cs5 (',' :: cs6) → Reads ext (.members ms) cs6 r →
      Reads ext (.members ((k, x) :: ms)) cs r

/-- The whole text is the value `x`. -/
def JsonText (ext : Bool) (x : JTree) (cs : List Char) : Prop :=
  ∃ cs1 cs2, Spaces cs cs1 ∧ Reads ext (.value x) cs1 cs2 ∧ Spaces cs2 []

/-! ## White space -/

section
variable {cs r : List Char}

theorem spaces_skipSpace (cs : List Char) : Spaces cs (skipSpace cs) :=
  ⟨cs.takeWhile isJsonSpace, List.takeWhile_append_dropWhile.symm, fun _ hc => List.mem_takeWhile_imp hc⟩

theorem Spaces.skipSpace_eq (h : Spaces cs r) : skipSpace cs = skipSpace r := by
  obtain ⟨w, rfl, hw⟩ := h
  exact List.dropWhile_append_of_pos hw

/-- Where something else than white space follows. -/
theorem Spaces.skipSpace_cons {c : Char} (h : Spaces cs (c :: r)) (hc : isJsonSpace c = false) :
    skipSpace cs = c :: r := by
  rw [h.skipSpace_eq]
  simp [skipSpace, hc]

theorem Spaces.length_le (h : Spaces cs r) : r.length ≤ cs.length := by
  obtain ⟨w, rfl, -⟩ := h
  simp

theorem spaces_nil_iff : Spaces cs [] ↔ skipSpace cs = [] := by
  constructor
  · intro h
    rw [h.skipSpace_eq]
    rfl
  · intro h
    have hs := spaces_skipSpace cs
    rwa [h] at hs

end

/-! ## Numbers -/

/-- A number cannot go on here. -/
def Stops (r : List Char) : Prop := ∀ c ∈ r.head?, isDigit c = false ∧ c ≠ '.' ∧ c ≠ 'e' ∧ c ≠ 'E'

section
variable {cs ds r text : List Char} {l : NumLit}

theorem span_digits (hd : ∀ c ∈ ds, isDigit c = true) (hr : ∀ c ∈ r.head?, isDigit c = false) :
    (ds ++ r).span isDigit = (ds, r) := by
  have hno : r.takeWhile isDigit = [] ∧ r.dropWhile isDigit = r := by
    cases r with
    | nil => exact ⟨rfl, rfl⟩
    | cons c r =>
      have hc := hr c rfl
      simp [hc]
  rw [List.span_eq_takeWhile_dropWhile, List.takeWhile_append_of_pos hd, List.dropWhile_append_of_pos hd, hno.1, hno.2,
    List.append_nil]

theorem digits_of_span (h : cs.span isDigit = (ds, r)) (hne : ds ≠ []) : Digits ds ∧ cs = ds ++ r := by
  rw [List.span_eq_takeWhile_dropWhile, Prod.mk.injEq] at h
  obtain ⟨rfl, rfl⟩ := h
  exact ⟨⟨hne, fun c hc => List.mem_takeWhile_imp hc⟩, List.takeWhile_append_dropWhile.symm⟩

theorem integerPart_sound (h : integerPart cs = some (ds, r)) : IntText ds ∧ cs = ds ++ r := by
  unfold integerPart at h
  split at h
  · cases h
    exact ⟨.inl rfl, rfl⟩
  · rename_i hz
    split at h
    · cases h
    · rename_i ds' r' hne hs
      cases h
      obtain ⟨hd, rfl⟩ := digits_of_span hs fun h0 => hne (by rw [h0])
      refine ⟨.inr ⟨hd, fun hh => ?_⟩, rfl⟩
      cases ds with
      | nil => cases hh
      | cons c ds =>
        cases hh
        exact hz (ds ++ r) rfl

theorem integerPart_complete (h : IntText ds) (hr : ∀ c ∈ r.head?, isDigit c = false) :
    integerPart (ds ++ r) = some (ds, r) := by
  rcases h with rfl | ⟨hd, hz⟩
  · rfl
  · unfold integerPart
    split
    · rename_i rest heq
      cases ds with
      | nil => exact absurd rfl hd.1
      | cons c ds =>
        obtain ⟨rfl, -⟩ := List.cons.inj heq
        exact absurd rfl hz
    · rw [span_digits hd.2 hr]
      cases ds with
      | nil => exact absurd rfl hd.1
      | cons c ds => rfl

theorem fractionPart_sound (h : fractionPart cs = some (ds, r)) : ∃ text, FracText ds text ∧ cs = text ++ r := by
  unfold fractionPart at h
  split at h
  · split at h
    · cases h
    · rename_i ds' r' hne hs
      cases h
      obtain ⟨hd, rfl⟩ := digits_of_span hs fun h0 => hne (by rw [h0])
      exact ⟨_, .some hd, rfl⟩
  · cases h
    exact ⟨[], .none, rfl⟩

theorem fractionPart_complete (h : FracText ds text) (hr : ∀ c ∈ r.head?, isDigit c = false ∧ c ≠ '.') :
    fractionPart (text ++ r) = some (ds, r) := by
  unfold fractionPart
  cases h with
  | none =>
    split
    · rename_i rest heq
      have hc := hr '.' (by rw [List.nil_append] at heq; rw [heq]; rfl)
      exact absurd rfl hc.2
    · rfl
  | some hd =>
    rw [List.cons_append]
    simp only
    rw [span_digits hd.2 fun c hc => (hr c hc).1]
    cases ds with
    | nil => exact absurd rfl hd.1
    | cons c ds => rfl

/-- Whether an exponent begins. -/
theorem exponentPart_none (h : ¬ (cs.head? = some 'e' ∨ cs.head? = some 'E')) : exponentPart cs = some (0, cs) := by
  unfold exponentPart
  split
  · rename_i c rest
    rw [if_neg (by simpa using h)]
  · rfl

/-- The sign of an exponent, and the text behind it. -/
def signPart : List Char → Bool × List Char
  | '-' :: r => (true, r)
  | '+' :: r => (false, r)
  | r => (false, r)

theorem exponentPart_cons {c : Char} (h : c = 'e' ∨ c = 'E') : exponentPart (c :: cs) =
    match (signPart cs).2.span isDigit with
    | ([], _) => none
    | (ds, r) => some (if (signPart cs).1 then -(digitsVal ds : Int) else digitsVal ds, r) := by
  unfold exponentPart
  simp only [h, if_true]
  rfl

theorem signPart_sound (cs : List Char) : ∃ sign, SignText (signPart cs).1 sign ∧ cs = sign ++ (signPart cs).2 := by
  unfold signPart
  split
  · exact ⟨['-'], .minus, rfl⟩
  · exact ⟨['+'], .plus, rfl⟩
  · exact ⟨[], .none, rfl⟩

theorem signPart_complete {neg : Bool} {sign : List Char} {d : Char} (h : SignText neg sign) (hd : isDigit d = true) :
    signPart (sign ++ d :: cs) = (neg, d :: cs) := by
  cases h with
  | plus => rfl
  | minus => rfl
  | none =>
    rw [List.nil_append]
    unfold signPart
    split
    · rename_i heq
      cases (List.cons.inj heq).1
      cases hd
    · rename_i heq
      cases (List.cons.inj heq).1
      cases hd
    · rfl

theorem exponentPart_sound {e : Int} (h : exponentPart cs = some (e, r))
    (hhead : cs.head? = some 'e' ∨ cs.head? = some 'E') : ∃ text, ExpText (some e) text ∧ cs = text ++ r := by
  cases cs with
  | nil => simp at hhead
  | cons c rest =>
    have hc : c = 'e' ∨ c = 'E' := by simpa using hhead
    obtain ⟨sign, hsign, hrest⟩ := signPart_sound rest
    rw [exponentPart_cons hc] at h
    split at h
    · cases h
    · rename_i ds r' hne hs
      cases h
      obtain ⟨hd, hr⟩ := digits_of_span hs fun h0 => hne (by rw [h0])
      exact ⟨c :: (sign ++ ds), .some hc hsign hd, by rw [hrest, hr]; simp⟩

theorem exponentPart_complete {e : Option Int} (h : ExpText e text) (hr : Stops r) :
    exponentPart (text ++ r) = some (e.getD 0, r) ∧
      (if (text ++ r).head? = some 'e' ∨ (text ++ r).head? = some 'E' then some (e.getD 0) else none) = e := by
  cases h with
  | none =>
    have hno : ¬ (r.head? = some 'e' ∨ r.head? = some 'E') := by
      rintro (h | h)
      · exact (hr _ h).2.2.1 rfl
      · exact (hr _ h).2.2.2 rfl
    rw [List.nil_append, exponentPart_none hno, if_neg hno]
    exact ⟨rfl, rfl⟩
  | @some c neg sign ds hc hsign hd =>
    refine ⟨?_, if_pos (by simpa using hc)⟩
    have hspan : (ds ++ r).span isDigit = (ds, r) := span_digits hd.2 fun c hc => (hr c hc).1
    cases ds with
    | nil => exact absurd rfl hd.1
    | cons d ds =>
      rw [List.cons_append, List.append_assoc, exponentPart_cons hc, List.cons_append,
        signPart_complete hsign (hd.2 d List.mem_cons_self)]
      rw [List.cons_append] at hspan
      simp only [hspan, Option.getD_some]

theorem numLit_sound (h : numLit cs = some (l, r)) : ∃ text, NumText l text ∧ cs = text ++ r := by
  unfold numLit at h
  obtain ⟨neg, rest, hneg, h⟩ : ∃ (neg : Bool) (rest : List Char), cs = (if neg then ['-'] else []) ++ rest ∧
      ((integerPart rest).bind fun p => (fractionPart p.2).bind fun q => (exponentPart q.2).bind fun e =>
        some (⟨neg, p.1, q.1, if q.2.head? = some 'e' ∨ q.2.head? = some 'E' then some e.1 else none⟩, e.2)) =
        some (l, r) := by
    dsimp only at h
    split at h
    · rename_i rest
      exact ⟨true, rest, rfl, h⟩
    · exact ⟨false, cs, rfl, h⟩
  obtain ⟨⟨int, cs1⟩, hi, h⟩ := Option.bind_eq_some_iff.mp h
  obtain ⟨⟨frac, cs2⟩, hf, h⟩ := Option.bind_eq_some_iff.mp h
  obtain ⟨⟨e, cs3⟩, he, h⟩ := Option.bind_eq_some_iff.mp h
  cases h
  obtain ⟨hint, rfl⟩ := integerPart_sound hi
  obtain ⟨ftext, hfrac, rfl⟩ := fractionPart_sound hf
  by_cases hhead : cs2.head? = some 'e' ∨ cs2.head? = some 'E'
  · obtain ⟨etext, hexp, rfl⟩ := exponentPart_sound he hhead
    rw [if_pos hhead]
    exact ⟨_, ⟨ftext, etext, rfl, hint, hfrac, hexp⟩, by rw [hneg]; simp [List.append_assoc]⟩
  · rw [exponentPart_none hhead] at he
    cases he
    rw [if_neg hhead]
    exact ⟨_, ⟨ftext, [], rfl, hint, hfrac, .none⟩, by rw [hneg]; simp [List.append_assoc]⟩

/-- The sign of a number is no part of what follows it. -/
theorem numLit_eq (neg : Bool) {rest : List Char} (h : ∀ c ∈ rest.head?, c ≠ '-') :
    numLit ((if neg then ['-'] else []) ++ rest) =
      (integerPart rest).bind fun p => (fractionPart p.2).bind fun q => (exponentPart q.2).bind fun e =>
        some (⟨neg, p.1, q.1, if q.2.head? = some 'e' ∨ q.2.head? = some 'E' then some e.1 else none⟩, e.2) := by
  cases neg with
  | true => rfl
  | false =>
    simp only [Bool.false_eq_true, if_false, List.nil_append]
    unfold numLit
    split
    · rename_i heq
      split at heq
      · exact absurd rfl (h '-' rfl)
      · cases heq
        rfl

theorem numLit_complete (h : NumText l text) (hr : Stops r) : numLit (text ++ r) = some (l, r) := by
  obtain ⟨neg, int, frac, exp⟩ := l
  obtain ⟨ftext, etext, rfl, hint, hfrac, hexp⟩ := h
  simp only at hint hfrac hexp
  have hexp' : ∀ c ∈ (etext ++ r).head?, isDigit c = false ∧ c ≠ '.' := by
    intro c hc
    cases hexp with
    | none => exact ⟨(hr c hc).1, (hr c hc).2.1⟩
    | some he _ _ =>
      cases hc
      rcases he with rfl | rfl
      · decide
      · decide
  have hfrac' : ∀ c ∈ (ftext ++ (etext ++ r)).head?, isDigit c = false := by
    intro c hc
    cases hfrac with
    | none => exact (hexp' c hc).1
    | some _ =>
      cases hc
      rfl
  have hint' : ∀ c ∈ (int ++ (ftext ++ (etext ++ r))).head?, c ≠ '-' := by
    intro c hc
    rcases hint with rfl | ⟨hd, -⟩
    · cases hc
      decide
    · rw [List.head?_append_of_ne_nil _ hd.1] at hc
      rintro rfl
      exact absurd (hd.2 _ (List.mem_of_mem_head? hc)) (by decide)
  obtain ⟨he, hopt⟩ := exponentPart_complete hexp hr
  have htext : (if neg then ['-'] else []) ++ (int ++ (ftext ++ etext)) ++ r =
      (if neg then ['-'] else []) ++ (int ++ (ftext ++ (etext ++ r))) := by simp only [List.append_assoc]
  rw [htext, numLit_eq neg hint', integerPart_complete hint hfrac']
  simp only [Option.bind_some]
  rw [fractionPart_complete hfrac hexp']
  simp only [Option.bind_some, he, hopt]

end

/-! ## Strings -/

section
variable {cs r : List Char} {ps : List Piece} {s : Points}

/-- An escape of one character, as `stringPieces` finds it. -/
theorem mem_escapes {c e : Char} (h : (if c = '"' ∨ c = '\\' ∨ c = '/' then some c
    else if c = 'b' then some '\x08'
    else if c = 'f' then some '\x0c'
    else if c = 'n' then some '\n'
    else if c = 'r' then some '\r'
    else if c = 't' then some '\t'
    else none) = some e) : (c, e) ∈ escapes := by
  unfold escapes
  split at h
  · rename_i hc
    cases h
    rcases hc with rfl | rfl | rfl
    · simp
    · simp
    · simp
  repeat' split at h
  all_goals
    first
      | cases h
        simp_all
      | cases h

/-- By recursion on the text, a piece at a time. -/
theorem stringPieces_sound (cs : List Char) : ∀ {ps : List Piece} {r : List Char},
    stringPieces cs = some (ps, r) → CharsText ps cs r := by
  fun_induction stringPieces cs with
  | case1 => intro ps r h; cases h
  | case2 rest =>
    intro ps r h
    cases h
    exact .close
  | case3 a b c d rest u hu ih =>
    intro ps r h
    obtain ⟨⟨ps', r'⟩, h', he⟩ := Option.map_eq_some_iff.mp h
    cases he
    exact .unit hu (ih h')
  | case4 => intro ps r h; cases h
  | case5 =>
    rename_i c rest _ _ p hp ih
    intro ps r h
    obtain ⟨⟨ps', r'⟩, h', he⟩ := Option.map_eq_some_iff.mp h
    cases he
    exact .escape (mem_escapes hp) (ih h')
  | case6 => intro ps r h; cases h
  | case7 => intro ps r h; cases h
  | case8 c rest hquote hunit hesc hlow ih =>
    intro ps r h
    obtain ⟨⟨ps', r'⟩, h', he⟩ := Option.map_eq_some_iff.mp h
    cases he
    obtain ⟨h20, hback⟩ := not_or.mp hlow
    exact .char (by omega) hquote hback (ih h')

theorem CharsText.eq (h : CharsText ps cs r) : stringPieces cs = some (ps, r) := by
  induction h with
  | close => rfl
  | @char c ps cs r h20 hquote hback _ ih =>
    rw [stringPieces.eq_def]
    split
    · simp_all
    · simp_all
    · simp_all
    · simp_all
    · rename_i heq
      obtain ⟨rfl, rfl⟩ := List.cons.inj heq
      rw [if_neg (by simp only [hback, or_false]; omega), ih]
      rfl
  | @escape c e ps cs r hm _ ih =>
    simp only [escapes, List.mem_cons, Prod.mk.injEq, List.not_mem_nil, or_false] at hm
    rcases hm with ⟨rfl, rfl⟩ | ⟨rfl, rfl⟩ | ⟨rfl, rfl⟩ | ⟨rfl, rfl⟩ | ⟨rfl, rfl⟩ | ⟨rfl, rfl⟩ | ⟨rfl, rfl⟩ |
      ⟨rfl, rfl⟩
    all_goals simp [stringPieces, ih]
  | @unit a b c d u ps cs r hu _ ih => simp [stringPieces, hu, ih]

theorem stringText_iff : StringText s ('"' :: cs) r ↔ stringPoints cs = some (s, r) := by
  unfold StringText stringPoints
  constructor
  · rintro ⟨ps, rest, he, h, rfl⟩
    cases he
    rw [h.eq]
    rfl
  · intro h
    obtain ⟨⟨ps, r'⟩, h', he⟩ := Option.map_eq_some_iff.mp h
    cases he
    exact ⟨ps, cs, rfl, stringPieces_sound cs h', rfl⟩

end

/-! ## Soundness -/

section
variable {ext : Bool} {cs r : List Char} {x : JTree} {xs : List JTree} {ms : List (Points × JTree)}

theorem constant?_sound {c : Constant} (h : constant? cs = some (c, r)) : cs = c.text ++ r := by
  unfold constant? at h
  split at h
  · cases h
    rfl
  · cases h
    rfl
  · cases h
    rfl
  · cases h

theorem scanNumber_sound (h : scanNumber ext cs = some (x, r)) : Reads ext (.value x) cs r := by
  unfold scanNumber at h
  split at h
  · rename_i c r' hc
    cases h
    split at hc
    · rename_i hext
      rw [constant?_sound hc]
      exact .constant hext
    · cases hc
  · obtain ⟨⟨l, r'⟩, hl, he⟩ := Option.map_eq_some_iff.mp h
    cases he
    obtain ⟨text, ht, rfl⟩ := numLit_sound hl
    exact .num ht

/-- By induction on the fuel: what each of the three takes, the grammar derives. -/
theorem reads_of_scan (ext : Bool) (n : Nat) :
    (∀ cs x r, scan ext n cs = some (x, r) → Reads ext (.value x) cs r) ∧
    (∀ cs xs r, scanElements ext n (skipSpace cs) = some (xs, r) → Reads ext (.elements xs) cs (']' :: r)) ∧
    ∀ cs ms r, scanMembers ext n (skipSpace cs) = some (ms, r) → Reads ext (.members ms) cs ('\x7d' :: r) := by
  induction n with
  | zero =>
    exact ⟨fun cs x r h => (by cases h), fun cs xs r h => (by cases h), fun cs ms r h => (by cases h)⟩
  | succ n ih =>
    obtain ⟨hv, he, hm⟩ := ih
    refine ⟨fun cs x r h => ?_, fun cs xs r h => ?_, fun cs ms r h => ?_⟩
    · unfold scan at h
      split at h
      · cases h
        exact .null
      · cases h
        exact .yes
      · cases h
        exact .no
      · obtain ⟨⟨s, r'⟩, hs, he⟩ := Option.map_eq_some_iff.mp h
        cases he
        exact .str (stringText_iff.mpr hs)
      · rename_i rest
        split at h
        · rename_i heq
          cases h
          exact .arrNil (heq ▸ spaces_skipSpace rest)
        · obtain ⟨⟨xs, r'⟩, hs, heq⟩ := Option.map_eq_some_iff.mp h
          cases heq
          exact .arr (he rest xs r hs)
      · rename_i rest
        split at h
        · rename_i heq
          cases h
          exact .objNil (heq ▸ spaces_skipSpace rest)
        · obtain ⟨⟨ms, r'⟩, hs, heq⟩ := Option.map_eq_some_iff.mp h
          cases heq
          exact .obj (hm rest ms r hs)
      · exact scanNumber_sound h
    · unfold scanElements at h
      split at h
      · cases h
      · rename_i x r1 hx
        have hx := hv _ _ _ hx
        split at h
        · rename_i r2 heq
          cases h
          exact .element (spaces_skipSpace cs) hx (heq ▸ spaces_skipSpace r1)
        · rename_i r2 heq
          obtain ⟨⟨ys, r'⟩, hs, hcons⟩ := Option.map_eq_some_iff.mp h
          cases hcons
          exact .elements (spaces_skipSpace cs) hx (heq ▸ spaces_skipSpace r1) (he r2 ys r hs)
        · cases h
    · unfold scanMembers at h
      split at h
      · rename_i r1 hquote
        split at h
        · cases h
        · rename_i k r2 hk
          have hk := stringText_iff.mpr hk
          rw [← hquote] at hk
          split at h
          · rename_i r3 hcolon
            split at h
            · cases h
            · rename_i x r4 hx
              have hx := hv _ _ _ hx
              split at h
              · rename_i r5 heq
                cases h
                exact .member (spaces_skipSpace cs) hk (hcolon ▸ spaces_skipSpace r2) (spaces_skipSpace r3) hx
                  (heq ▸ spaces_skipSpace r4)
              · rename_i r5 heq
                obtain ⟨⟨ys, r'⟩, hs, hcons⟩ := Option.map_eq_some_iff.mp h
                cases hcons
                exact .members (spaces_skipSpace cs) hk (hcolon ▸ spaces_skipSpace r2) (spaces_skipSpace r3) hx
                  (heq ▸ spaces_skipSpace r4) (hm r5 ys r hs)
              · cases h
          · cases h
      · cases h

end

/-! ## Completeness -/

section
variable {ext : Bool} {cs r text : List Char} {l : NumLit} {x : JTree} {s : Points}

/-- A number starts with a digit, or with a minus and a digit. -/
theorem NumText.head (h : NumText l text) :
    ∃ d rest, isDigit d = true ∧ (text = d :: rest ∨ text = '-' :: d :: rest) := by
  obtain ⟨frac, e, rfl, hint, -, -⟩ := h
  obtain ⟨d, rest, hi, hd⟩ : ∃ d rest, l.int = d :: rest ∧ isDigit d = true := by
    rcases hint with hz | ⟨hd, -⟩
    · exact ⟨'0', [], hz, rfl⟩
    · obtain ⟨d, rest, he⟩ := List.exists_cons_of_ne_nil hd.1
      exact ⟨d, rest, he, hd.2 d (he ▸ List.mem_cons_self)⟩
  refine ⟨d, rest ++ (frac ++ e), hd, ?_⟩
  rw [hi]
  cases l.neg with
  | false => exact .inl rfl
  | true => exact .inr rfl

theorem constant?_digit {d : Char} (hd : isDigit d = true) (cs : List Char) :
    constant? (d :: cs) = none ∧ constant? ('-' :: d :: cs) = none := by
  constructor
  · unfold constant?
    split
    · rename_i heq
      exact absurd ((List.cons.inj heq).1 ▸ hd) (by decide)
    · rename_i heq
      exact absurd ((List.cons.inj heq).1 ▸ hd) (by decide)
    · rename_i heq
      exact absurd ((List.cons.inj heq).1 ▸ hd) (by decide)
    · rfl
  · unfold constant?
    split
    · rename_i heq
      cases heq
    · rename_i heq
      cases heq
    · rename_i heq
      cases heq
      cases hd
    · rfl

theorem scanNumber_num (h : NumText l text) (hr : Stops r) : scanNumber ext (text ++ r) = some (.num l, r) := by
  have hc : constant? (text ++ r) = none := by
    obtain ⟨d, rest, hd, rfl | rfl⟩ := h.head
    · exact (constant?_digit hd _).1
    · exact (constant?_digit hd _).2
  unfold scanNumber
  rw [hc, numLit_complete h hr]
  cases ext <;> rfl

/-- What starts with a minus or a digit can only be a number or a constant. -/
theorem scan_minus_or_digit {c : Char} (h : c = '-' ∨ isDigit c = true) (n : Nat) :
    scan ext (n + 1) (c :: cs) = scanNumber ext (c :: cs) := by
  have hno : ∀ d, isDigit d = false → d ≠ '-' → c ≠ d := by
    rintro d hd hm rfl
    rcases h with h | h
    · exact hm h
    · rw [hd] at h
      cases h
  unfold scan
  split
  · rename_i heq
    exact absurd (List.cons.inj heq).1 (hno 'n' rfl (by decide))
  · rename_i heq
    exact absurd (List.cons.inj heq).1 (hno 't' rfl (by decide))
  · rename_i heq
    exact absurd (List.cons.inj heq).1 (hno 'f' rfl (by decide))
  · rename_i heq
    exact absurd (List.cons.inj heq).1 (hno '"' rfl (by decide))
  · rename_i heq
    exact absurd (List.cons.inj heq).1 (hno '[' rfl (by decide))
  · rename_i heq
    exact absurd (List.cons.inj heq).1 (hno '\x7b' rfl (by decide))
  · rfl

theorem scan_num (h : NumText l text) (hr : Stops r) (n : Nat) : scan ext (n + 1) (text ++ r) = some (.num l, r) := by
  have hnum : scanNumber ext (text ++ r) = some (.num l, r) := scanNumber_num h hr
  rw [← hnum]
  obtain ⟨d, rest, hd, rfl | rfl⟩ := h.head
  · exact scan_minus_or_digit (.inr hd) n
  · exact scan_minus_or_digit (.inl rfl) n

theorem scan_constant (c : Constant) (n : Nat) : scan true (n + 1) (c.text ++ r) = some (.constant c, r) := by
  cases c <;> rfl

theorem scan_str (h : StringText s cs r) (n : Nat) : scan ext (n + 1) cs = some (.str s, r) := by
  obtain ⟨ps, rest, rfl, -⟩ := id h
  have ht := stringText_iff.mp h
  unfold scan
  simp only [ht, Option.map_some]

theorem scan_bracket (n : Nat) : scan ext n (']' :: cs) = none := by
  cases n with
  | zero => rfl
  | succ n => cases ext <;> rfl

/-- No value starts with white space. -/
theorem Reads.skipSpace_eq (h : Reads ext (.value x) cs r) : skipSpace cs = cs := by
  have hmark : ∀ {c : Char} {cs : List Char}, isJsonSpace c = false → skipSpace (c :: cs) = c :: cs := by
    intro c cs hc
    simp [skipSpace, hc]
  have hdigit : ∀ {d : Char}, isDigit d = true → isJsonSpace d = false := by
    intro d hd
    refine decide_eq_false ?_
    rintro (rfl | rfl | rfl | rfl) <;> cases hd
  cases h with
  | null | yes | no | arrNil | arr | objNil | obj => exact hmark rfl
  | num h =>
    obtain ⟨d, rest, hd, rfl | rfl⟩ := h.head
    · exact hmark (hdigit hd)
    · exact hmark rfl
  | @constant c r _ => cases c <;> exact hmark rfl
  | str h =>
    obtain ⟨ps, rest, rfl, -⟩ := h
    exact hmark rfl

/-- What stands behind a value ends a number. -/
theorem Spaces.stops (h : Spaces cs r) (hr : ∀ c ∈ r.head?, c = ',' ∨ c = ']' ∨ c = '\x7d') : Stops cs := by
  obtain ⟨w, rfl, hw⟩ := h
  intro d hd
  cases w with
  | nil =>
    rcases hr d hd with rfl | rfl | rfl
    · decide
    · decide
    · decide
  | cons e w =>
    cases hd
    have he : d = ' ' ∨ d = '\t' ∨ d = '\n' ∨ d = '\r' := of_decide_eq_true (hw d List.mem_cons_self)
    rcases he with rfl | rfl | rfl | rfl
    · decide
    · decide
    · decide
    · decide

/-- What the scanner is to make of a part, if there is fuel for twice the characters it has. -/
def Taken (ext : Bool) : Part → List Char → List Char → Prop
  | .value x, cs, r => Stops r → ∀ n, 2 * cs.length ≤ 2 * r.length + n → scan ext n cs = some (x, r)
  | .elements xs, cs, r' => ∀ r, r' = ']' :: r → ∀ n, 2 * cs.length < 2 * r'.length + n →
      scanElements ext n (skipSpace cs) = some (xs, r)
  | .members ms, cs, r' => ∀ r, r' = '\x7d' :: r → ∀ n, 2 * cs.length < 2 * r'.length + n →
      scanMembers ext n (skipSpace cs) = some (ms, r)

theorem CharsText.length_lt {ps : List Piece} (h : CharsText ps cs r) : r.length < cs.length := by
  induction h with
  | close => exact Nat.lt_succ_self _
  | char _ _ _ _ ih | escape _ _ ih | unit _ _ ih =>
    simp only [List.length_cons]
    omega

theorem StringText.length_lt (h : StringText s cs r) : r.length < cs.length := by
  obtain ⟨ps, rest, rfl, hc, -⟩ := h
  exact Nat.lt_succ_of_lt hc.length_lt

/-- No part is empty. -/
theorem Reads.length_lt {p : Part} (h : Reads ext p cs r) : r.length < cs.length := by
  induction h with
  | null | yes | no =>
    simp only [List.length_cons]
    omega
  | num h =>
    obtain ⟨d, rest, -, rfl | rfl⟩ := h.head
    · simp only [List.cons_append, List.length_cons, List.length_append]
      omega
    · simp only [List.cons_append, List.length_cons, List.length_append]
      omega
  | @constant c r _ =>
    cases c <;> simp only [Constant.text, List.cons_append, List.nil_append, List.length_cons] <;> omega
  | str h => exact h.length_lt
  | arrNil h | objNil h =>
    have hle := h.length_le
    simp only [List.length_cons] at hle ⊢
    omega
  | arr _ ih | obj _ ih =>
    simp only [List.length_cons] at ih ⊢
    omega
  | element h1 _ h3 ih =>
    have hle1 := h1.length_le
    have hle3 := h3.length_le
    omega
  | elements h1 _ h3 _ ih2 ih4 =>
    have hle1 := h1.length_le
    have hle3 := h3.length_le
    simp only [List.length_cons] at hle3
    omega
  | member h1 h2 h3 h4 _ h6 ih =>
    have hle1 := h1.length_le
    have hlt2 := h2.length_lt
    have hle3 := h3.length_le
    have hle4 := h4.length_le
    have hle6 := h6.length_le
    simp only [List.length_cons] at hle3
    omega
  | members h1 h2 h3 h4 _ h6 _ ih5 ih7 =>
    have hle1 := h1.length_le
    have hlt2 := h2.length_lt
    have hle3 := h3.length_le
    have hle4 := h4.length_le
    have hle6 := h6.length_le
    simp only [List.length_cons] at hle3 hle6
    omega

theorem Reads.fuel_pos {p : Part} (h : Reads ext p cs r) {n : Nat} (hn : 2 * cs.length ≤ 2 * r.length + n) :
    ∃ m, n = m + 1 := by
  have hlt := h.length_lt
  exact ⟨n - 1, by omega⟩

/-- By induction on the derivation. -/
theorem Reads.taken {p : Part} (h : Reads ext p cs r) : Taken ext p cs r := by
  induction h with
  | null =>
    intro _ n hn
    obtain ⟨n, rfl⟩ := Reads.fuel_pos (.null : Reads ext _ _ _) hn
    rfl
  | yes =>
    intro _ n hn
    obtain ⟨n, rfl⟩ := Reads.fuel_pos (.yes : Reads ext _ _ _) hn
    rfl
  | no =>
    intro _ n hn
    obtain ⟨n, rfl⟩ := Reads.fuel_pos (.no : Reads ext _ _ _) hn
    rfl
  | num h =>
    intro hr n hn
    obtain ⟨n, rfl⟩ := Reads.fuel_pos (.num h : Reads ext _ _ _) hn
    exact scan_num h hr n
  | @constant c r hext =>
    intro _ n hn
    obtain ⟨n, rfl⟩ := Reads.fuel_pos (.constant hext : Reads ext _ _ _) hn
    rw [hext]
    exact scan_constant c n
  | str h =>
    intro _ n hn
    obtain ⟨n, rfl⟩ := Reads.fuel_pos (.str h : Reads ext _ _ _) hn
    exact scan_str h n
  | arrNil h =>
    intro _ n hn
    obtain ⟨n, rfl⟩ := Reads.fuel_pos (.arrNil h : Reads ext _ _ _) hn
    unfold scan
    simp only [h.skipSpace_cons rfl]
  | @arr xs cs r h ih =>
    intro _ n hn
    obtain ⟨n, rfl⟩ := Reads.fuel_pos (.arr h : Reads ext _ _ _) hn
    have hx := ih r rfl n (by simp only [List.length_cons] at hn ⊢; omega)
    unfold scan
    simp only
    split
    · rename_i heq
      rw [heq] at hx
      cases n with
      | zero => cases hx
      | succ n =>
        unfold scanElements at hx
        rw [scan_bracket] at hx
        cases hx
    · rw [hx]
      rfl
  | objNil h =>
    intro _ n hn
    obtain ⟨n, rfl⟩ := Reads.fuel_pos (.objNil h : Reads ext _ _ _) hn
    unfold scan
    simp only [h.skipSpace_cons rfl]
  | @obj ms cs r h ih =>
    intro _ n hn
    obtain ⟨n, rfl⟩ := Reads.fuel_pos (.obj h : Reads ext _ _ _) hn
    have hx := ih r rfl n (by simp only [List.length_cons] at hn ⊢; omega)
    unfold scan
    simp only
    split
    · rename_i heq
      rw [heq] at hx
      cases n with
      | zero => cases hx
      | succ n => cases hx
    · rw [hx]
      rfl
  | element h1 h2 h3 ih =>
    rintro r rfl n hn
    have hle1 := h1.length_le
    have hle3 := h3.length_le
    have hlt := h2.length_lt
    obtain ⟨n, rfl⟩ : ∃ m, n = m + 1 := ⟨n - 1, by omega⟩
    have hx := ih (h3.stops (by rintro _ ⟨⟩; exact .inr (.inl rfl))) n (by omega)
    rw [h1.skipSpace_eq, h2.skipSpace_eq]
    unfold scanElements
    simp only [hx, h3.skipSpace_cons rfl]
  | elements h1 h2 h3 h4 ih2 ih4 =>
    rintro r rfl n hn
    have hle1 := h1.length_le
    have hlt2 := h2.length_lt
    have hle3 := h3.length_le
    have hlt4 := h4.length_lt
    simp only [List.length_cons] at hle3
    obtain ⟨n, rfl⟩ : ∃ m, n = m + 1 := ⟨n - 1, by omega⟩
    have hx := ih2 (h3.stops (by rintro _ ⟨⟩; exact .inl rfl)) n (by omega)
    have hxs := ih4 r rfl n (by omega)
    rw [h1.skipSpace_eq, h2.skipSpace_eq]
    unfold scanElements
    simp only [hx, h3.skipSpace_cons rfl, hxs, Option.map_some]
  | member h1 h2 h3 h4 h5 h6 ih =>
    rintro r rfl n hn
    have hle1 := h1.length_le
    have hlt2 := h2.length_lt
    have hle3 := h3.length_le
    have hle4 := h4.length_le
    have hlt5 := h5.length_lt
    have hle6 := h6.length_le
    simp only [List.length_cons] at hle3
    obtain ⟨n, rfl⟩ : ∃ m, n = m + 1 := ⟨n - 1, by omega⟩
    have hx := ih (h6.stops (by rintro _ ⟨⟩; exact .inr (.inr rfl))) n (by omega)
    obtain ⟨ps, rest, rfl, -⟩ := id h2
    have ht := stringText_iff.mp h2
    rw [h1.skipSpace_cons rfl]
    unfold scanMembers
    simp only [ht, h3.skipSpace_cons rfl, h4.skipSpace_eq, h5.skipSpace_eq, hx, h6.skipSpace_cons rfl]
  | members h1 h2 h3 h4 h5 h6 h7 ih5 ih7 =>
    rintro r rfl n hn
    have hle1 := h1.length_le
    have hlt2 := h2.length_lt
    have hle3 := h3.length_le
    have hle4 := h4.length_le
    have hlt5 := h5.length_lt
    have hle6 := h6.length_le
    have hlt7 := h7.length_lt
    simp only [List.length_cons] at hle3 hle6
    obtain ⟨n, rfl⟩ : ∃ m, n = m + 1 := ⟨n - 1, by omega⟩
    have hx := ih5 (h6.stops (by rintro _ ⟨⟩; exact .inl rfl)) n (by omega)
    have hms := ih7 r rfl n (by omega)
    obtain ⟨ps, rest, rfl, -⟩ := id h2
    have ht := stringText_iff.mp h2
    rw [h1.skipSpace_cons rfl]
    unfold scanMembers
    simp only [ht, h3.skipSpace_cons rfl, h4.skipSpace_eq, h5.skipSpace_eq, hx, h6.skipSpace_cons rfl, hms,
      Option.map_some]

/-- A value that a number cannot go on behind is what the scanner takes. -/
theorem Reads.scan_eq (h : Reads ext (.value x) cs r) (hr : Stops r) {n : Nat}
    (hn : 2 * cs.length ≤ 2 * r.length + n) :
    scan ext n cs = some (x, r) := h.taken hr n hn

theorem parseTree_iff : parseTree ext cs = some x ↔ JsonText ext x cs := by
  unfold parseTree
  constructor
  · intro h
    split at h
    · rename_i y rest hs
      split at h
      · rename_i hend
        cases h
        exact ⟨skipSpace cs, rest, spaces_skipSpace cs, (reads_of_scan ext _).1 _ _ _ hs, spaces_nil_iff.mpr hend⟩
      · cases h
    · cases h
  · rintro ⟨cs1, cs2, h1, h2, h3⟩
    have hstop : Stops cs2 := h3.stops (by rintro _ ⟨⟩)
    have hle := h1.length_le
    rw [h1.skipSpace_eq, h2.skipSpace_eq, h2.scan_eq hstop (by omega)]
    simp only [spaces_nil_iff.mp h3, if_true]

/-- A text without constants is one where they are allowed. -/
theorem Reads.weaken {p : Part} (h : Reads false p cs r) : Reads true p cs r := by
  induction h with
  | null => exact .null
  | yes => exact .yes
  | no => exact .no
  | num h => exact .num h
  | constant _ => exact .constant rfl
  | str h => exact .str h
  | arrNil h => exact .arrNil h
  | arr _ ih => exact .arr ih
  | objNil h => exact .objNil h
  | obj _ ih => exact .obj ih
  | element h1 _ h3 ih => exact .element h1 ih h3
  | elements h1 _ h3 _ ih2 ih4 => exact .elements h1 ih2 h3 ih4
  | member h1 h2 h3 h4 _ h6 ih => exact .member h1 h2 h3 h4 ih h6
  | members h1 h2 h3 h4 _ h6 _ ih5 ih7 => exact .members h1 h2 h3 h4 ih5 h6 ih7

theorem JsonText.weaken (h : JsonText false x cs) : JsonText true x cs := by
  obtain ⟨cs1, cs2, h1, h2, h3⟩ := h
  exact ⟨cs1, cs2, h1, h2.weaken, h3⟩

theorem JsonText.unique {y : JTree} (hx : JsonText ext x cs) (hy : JsonText ext y cs) : x = y :=
  Option.some.inj ((parseTree_iff.mpr hx).symm.trans (parseTree_iff.mpr hy))

end

end Js
