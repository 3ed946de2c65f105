import Mathlib.Data.Nat.Log
import Mathlib.Data.Rat.Floor

/-!
# UpTunnel.Lib.Js

The part of ECMAScript that handlers of JSON messages run on: Number values, JSON values, the
coercions `Number(x)` and `` `${x}` ``, and Node's `Buffer.toString("utf8")`.

A Number is a binary64 value, held as the rational it denotes (`0` and `-0` are one value: no
coercion below tells them apart). A string is a Lean string; a lone surrogate, which a Lean string
cannot hold, is U+FFFD: what `Buffer.from(x, "utf8")` makes of it, where `JSON.stringify` writes an escape.
(`Points` of `UpTunnel.Lib.JsonTree` keeps it.) `undefined` is `none`.

* `Json.toStr` and `Json.toNumber` fail exactly where `ToPrimitive` finds no primitive: on an object
  with an own key `toString`, which shadows the inherited method with something not callable, or on
  an array that holds one at any depth (`Json.coercible`).
* `Json.toStrIn` and `Json.toNumberIn` fail on arrays that nest too deep as well: `Array.prototype.join`
  calls itself, and the stack ends.
-/

namespace Js

abbrev Bytes := List UInt8

/-- What a handler can throw. -/
inductive JsError where
  | typeError (message : String)
  | rangeError (message : String)
  deriving DecidableEq, Repr

section
variable {ε α β : Type} {x : Except ε α} {b : β}

/-- A statement that goes on after another one, which did not throw. -/
theorem bind_ok {f : α → Except ε β} : (x >>= f) = .ok b ↔ ∃ a, x = .ok a ∧ f a = .ok b := by
  cases x <;> simp [bind, Except.bind]

theorem map_ok {f : α → β} : x.map f = .ok b ↔ ∃ a, x = .ok a ∧ f a = b := by
  cases x <;> simp [Except.map]

theorem map_error {f : α → β} {e : ε} : x.map f = .error e ↔ x = .error e := by
  cases x <;> simp [Except.map]

theorem exists_ok_iff : (∃ a, x = .ok a) ↔ ¬ ∃ e, x = .error e := by
  cases x <;> simp

theorem toOption_eq_some {a : α} : x.toOption = some a ↔ x = .ok a := by
  cases x <;> simp [Except.toOption]

end

/-! ## Numbers -/

inductive Num where
  | nan
  | inf (negative : Bool)
  | fin (q : ℚ)
  deriving DecidableEq

def roundHalfEven (q : ℚ) : Int :=
  let f := q.floor
  let r := q - f
  if r < 1 / 2 then f
  else if 1 / 2 < r then f + 1
  else if f % 2 = 0 then f else f + 1

def pow2 (e : Int) : ℚ := if 0 ≤ e then (2 ^ e.toNat : Nat) else 1 / (2 ^ (-e).toNat : Nat)

def pow10 (e : Int) : ℚ := if 0 ≤ e then (10 ^ e.toNat : Nat) else 1 / (10 ^ (-e).toNat : Nat)

/-- The binary64 value nearest to `q`, ties to even. -/
def toDouble (q : ℚ) : Num :=
  if q = 0 then .fin 0
  else
    let a := |q|
    let e0 : Int := (a.num.natAbs.log2 : Int) - (a.den.log2 : Int)
    let e := if pow2 e0 ≤ a then e0 else e0 - 1
    let p := max (e - 52) (-1074)
    let v := (roundHalfEven (a / pow2 p) : ℚ) * pow2 p
    if pow2 1024 ≤ v then .inf (q < 0) else .fin (if q < 0 then -v else v)

def Num.isInteger : Num → Bool
  | .fin q => q.den == 1
  | _ => false

/-- The integer a Number denotes, if it is one. -/
def Num.toInt? : Num → Option Int
  | .fin q => if q.den = 1 then some q.num else none
  | _ => none

/-- `Number::toString` of a positive value: `k` digits `s` and the exponent `n` of the shortest
decimal that denotes it, searched from `k` up. Seventeen digits always suffice. -/
def shortest (q : ℚ) (n : Int) : Nat → Nat → Nat × Nat × Int
  | 0, k => ((roundHalfEven (q / pow10 (n - k))).toNat, k, n)
  | fuel + 1, k =>
    let s := (roundHalfEven (q / pow10 (n - k))).toNat
    -- below a power of two the values are closer than above it: the next decimal up may do where the nearest does not
    match [s, s + 1].find? fun s => toDouble ((s : Nat) * pow10 (n - k)) = .fin q with
    | some s => if s = 10 ^ k then (10 ^ (k - 1), k, n + 1) else (s, k, n)
    | none => shortest q n fuel (k + 1)

def zeros (n : Nat) : String := String.ofList (List.replicate n '0')

def posToString (q : ℚ) : String :=
  let n0 : Int := (Nat.log 10 q.num.natAbs : Int) - (Nat.log 10 q.den : Int)
  let n := if pow10 n0 ≤ q then n0 + 1 else n0
  let (s, k, n) := shortest q n 16 1
  let digits := toString s
  if (k : Int) ≤ n ∧ n ≤ 21 then digits ++ zeros (n - k).toNat
  else if 0 < n ∧ n ≤ 21 then
    String.ofList (digits.toList.take n.toNat) ++ "." ++ String.ofList (digits.toList.drop n.toNat)
  else if -6 < n ∧ n ≤ 0 then "0." ++ zeros (-n).toNat ++ digits
  else
    let exponent := (if 0 ≤ n - 1 then "e+" else "e-") ++ toString (n - 1).natAbs
    if k = 1 then digits ++ exponent
    else String.ofList (digits.toList.take 1) ++ "." ++ String.ofList (digits.toList.drop 1) ++ exponent

def Num.toStr : Num → String
  | .nan => "NaN"
  | .inf false => "Infinity"
  | .inf true => "-Infinity"
  | .fin q => if q = 0 then "0" else if q < 0 then "-" ++ posToString (-q) else posToString q

/-! ## Number literals -/

def isDigit (c : Char) : Bool := '0' ≤ c ∧ c ≤ '9'

def digitsVal (ds : List Char) : Nat := ds.foldl (fun n c => 10 * n + (c.toNat - '0'.toNat)) 0

/-- An optional exponent part, at the head of `cs`: its value and the rest. -/
def exponentPart (cs : List Char) : Option (Int × List Char) :=
  match cs with
  | e :: rest =>
    if e = 'e' ∨ e = 'E' then
      let (neg, rest) := match rest with
        | '-' :: r => (true, r)
        | '+' :: r => (false, r)
        | r => (false, r)
      match rest.span isDigit with
      | ([], _) => none
      | (ds, r) => some (if neg then -(digitsVal ds : Int) else digitsVal ds, r)
    else some (0, cs)
  | [] => some (0, [])

/-- Digits before the point, digits after it, exponent. -/
def decimal (int frac : List Char) (e : Int) : ℚ :=
  digitsVal (int ++ frac) * pow10 (e - frac.length)

/-- The white space and line terminators that `String.prototype.trim` removes. -/
def isSpace (c : Char) : Bool :=
  c ∈ ['\t', '\n', '\x0b', '\x0c', '\r', ' ', '\u00a0', '\u1680', '\u2028', '\u2029', '\u202f',
    '\u205f', '\u3000', '\ufeff'] ∨ ('\u2000' ≤ c ∧ c ≤ '\u200a')

def trimChars (cs : List Char) : List Char :=
  ((cs.dropWhile isSpace).reverse.dropWhile isSpace).reverse

def trim (s : String) : String := String.ofList (trimChars s.toList)

/-- `StrUnsignedDecimalLiteral`. -/
def unsignedDecimal (cs : List Char) : Num :=
  if cs = "Infinity".toList then .inf false
  else
    let (int, rest) := cs.span isDigit
    let (frac, rest) := match rest with
      | '.' :: r => r.span isDigit
      | r => ([], r)
    if int = [] ∧ frac = [] then .nan
    else match exponentPart rest with
      | some (e, []) => toDouble (decimal int frac e)
      | _ => .nan

def radixDigit (radix : Nat) (c : Char) : Option Nat :=
  let v := if isDigit c then c.toNat - '0'.toNat
    else if 'a' ≤ c ∧ c ≤ 'f' then c.toNat - 'a'.toNat + 10
    else if 'A' ≤ c ∧ c ≤ 'F' then c.toNat - 'A'.toNat + 10
    else 16
  if v < radix then some v else none

def radixLiteral (radix : Nat) (cs : List Char) : Num :=
  match cs with
  | [] => .nan
  | _ => match cs.mapM (radixDigit radix) with
    | some ds => toDouble (ds.foldl (fun n d => radix * n + d) 0 : Nat)
    | none => .nan

/-- `StringToNumber`. -/
def stringToNumber (s : String) : Num :=
  match trimChars s.toList with
  | [] => .fin 0
  | '0' :: 'x' :: r | '0' :: 'X' :: r => radixLiteral 16 r
  | '0' :: 'o' :: r | '0' :: 'O' :: r => radixLiteral 8 r
  | '0' :: 'b' :: r | '0' :: 'B' :: r => radixLiteral 2 r
  | '-' :: r => match unsignedDecimal r with
    | .fin q => .fin (-q)
    | .inf _ => .inf true
    | .nan => .nan
  | '+' :: r => unsignedDecimal r
  | cs => unsignedDecimal cs

/-! ## JSON values and their coercions -/

/-- A value that `JSON.parse` can return. The keys of an object are pairwise different. -/
inductive Json where
  | null
  | bool (b : Bool)
  | num (n : Num)
  | str (s : String)
  | arr (xs : List Json)
  | obj (kvs : List (String × Json))

/-- The own properties of an object. -/
abbrev Obj := List (String × Json)

def Obj.get (o : Obj) (key : String) : Option Json := o.lookup key

/-- Assignment to a property: a key that is there keeps its place. -/
def Obj.set (o : Obj) (key : String) (v : Json) : Obj :=
  if o.any (·.1 == key) then o.map fun kv => if kv.1 = key then (key, v) else kv
  else o ++ [(key, v)]

def noPrimitive : JsError := .typeError "Cannot convert object to primitive value"

def stackOverflow : JsError := .rangeError "Maximum call stack size exceeded"

namespace Json

mutual

/-- `` `${x}` ``. An own `toString` is data, so not callable, and the inherited `valueOf` returns
the object itself. -/
def toStr : Json → Except JsError String
  | null => .ok "null"
  | bool b => .ok (if b then "true" else "false")
  | num n => .ok n.toStr
  | str s => .ok s
  | arr xs => (joinElems xs).map fun ss => ",".intercalate ss
  | obj kvs => if kvs.any (·.1 == "toString") then .error noPrimitive else .ok "[object Object]"

/-- The element strings of `Array.prototype.join`. -/
def joinElems : List Json → Except JsError (List String)
  | [] => .ok []
  | null :: xs => (joinElems xs).map ("" :: ·)
  | x :: xs => do
    let s ← toStr x
    (joinElems xs).map (s :: ·)

end

/-- `Number(x)`. -/
def toNumber : Json → Except JsError Num
  | null => .ok (.fin 0)
  | bool b => .ok (.fin (if b then 1 else 0))
  | num n => .ok n
  | str s => .ok (stringToNumber s)
  | x => (toStr x).map stringToNumber

mutual

/-- `ToPrimitive` finds a primitive. -/
def coercible : Json → Bool
  | arr xs => coercibleAll xs
  | obj kvs => !kvs.any (·.1 == "toString")
  | _ => true

def coercibleAll : List Json → Bool
  | [] => true
  | x :: xs => coercible x && coercibleAll xs

end

mutual

theorem toStr_error_iff : ∀ x : Json, (∃ e, toStr x = .error e) ↔ coercible x = false
  | null => by simp [toStr, coercible]
  | bool _ => by simp [toStr, coercible]
  | num _ => by simp [toStr, coercible]
  | str _ => by simp [toStr, coercible]
  | arr xs => by
    have ih := joinElems_error_iff xs
    simp only [toStr, coercible, ← ih]
    cases joinElems xs <;> simp [Except.map]
  | obj kvs => by
    simp only [toStr, coercible]
    cases kvs.any (·.1 == "toString") <;> simp

theorem joinElems_error_iff : ∀ xs : List Json, (∃ e, joinElems xs = .error e) ↔ coercibleAll xs = false
  | [] => by simp [joinElems, coercibleAll]
  | x :: xs => by
    have ih := joinElems_error_iff xs
    have hx := toStr_error_iff x
    cases x with
    | null =>
      simp only [joinElems, coercibleAll, coercible, Bool.true_and, ← ih]
      cases joinElems xs <;> simp [Except.map]
    | bool _ | num _ | str _ | arr _ | obj _ =>
      simp only [joinElems, coercibleAll, Bool.and_eq_false_iff, ← hx, ← ih, bind, Except.bind]
      split
      · rename_i h; simp [h]
      · rename_i h
        simp only [h]
        cases joinElems xs <;> simp [Except.map]

end

theorem toNumber_error_iff (x : Json) : (∃ e, toNumber x = .error e) ↔ coercible x = false := by
  cases x with
  | null | bool _ | num _ | str _ => simp [toNumber, coercible]
  | arr xs =>
    rw [← toStr_error_iff]
    simp only [toNumber]
    cases toStr (.arr xs) <;> simp [Except.map]
  | obj kvs =>
    rw [← toStr_error_iff]
    simp only [toNumber]
    cases toStr (.obj kvs) <;> simp [Except.map]

/-! ### Where the stack ends -/

mutual

/-- `toStr`, where at most `limit` calls of `join` fit on the stack. -/
def toStrIn (limit : Nat) : Json → Except JsError String
  | arr xs =>
    match limit with
    | 0 => .error stackOverflow
    | limit + 1 => (joinElemsIn limit xs).map fun ss => ",".intercalate ss
  | x => toStr x

def joinElemsIn (limit : Nat) : List Json → Except JsError (List String)
  | [] => .ok []
  | null :: xs => (joinElemsIn limit xs).map ("" :: ·)
  | x :: xs => do
    let s ← toStrIn limit x
    (joinElemsIn limit xs).map (s :: ·)

end

/-- `Number(x)`, likewise. -/
def toNumberIn (limit : Nat) : Json → Except JsError Num
  | arr xs => (toStrIn limit (arr xs)).map stringToNumber
  | x => x.toNumber

mutual

/-- How many arrays there are, one in the other. -/
def arrays : Json → Nat
  | arr xs => arraysAll xs + 1
  | _ => 0

def arraysAll : List Json → Nat
  | [] => 0
  | x :: xs => max (arrays x) (arraysAll xs)

end

mutual

/-- How many arrays and objects there are, one in the other. -/
def nesting : Json → Nat
  | arr xs => nestingAll xs + 1
  | obj kvs => nestingFields kvs + 1
  | _ => 0

def nestingAll : List Json → Nat
  | [] => 0
  | x :: xs => max (nesting x) (nestingAll xs)

def nestingFields : List (String × Json) → Nat
  | [] => 0
  | (_, x) :: kvs => max (nesting x) (nestingFields kvs)

end

theorem nestingFields_le {limit : Nat} : ∀ kvs : List (String × Json),
    nestingFields kvs ≤ limit ↔ ∀ kv ∈ kvs, nesting kv.2 ≤ limit
  | [] => by simp [nestingFields]
  | (k, x) :: kvs => by simp [nestingFields, nestingFields_le kvs]

mutual

theorem toStrIn_error_iff : ∀ (limit : Nat) (x : Json),
    (∃ e, toStrIn limit x = .error e) ↔ coercible x = false ∨ limit < arrays x
  | 0, arr xs => by simp [toStrIn, arrays]
  | limit + 1, arr xs => by
    have ih := joinElemsIn_error_iff limit xs
    simp only [toStrIn, coercible, arrays, map_error, ih, Nat.add_lt_add_iff_right]
  | _, null | _, bool _ | _, num _ | _, str _ | _, obj _ => by simp [toStrIn, toStr_error_iff, arrays]

theorem joinElemsIn_error_iff : ∀ (limit : Nat) (xs : List Json),
    (∃ e, joinElemsIn limit xs = .error e) ↔ coercibleAll xs = false ∨ limit < arraysAll xs
  | _, [] => by simp [joinElemsIn, coercibleAll, arraysAll]
  | limit, x :: xs => by
    have ih := joinElemsIn_error_iff limit xs
    have hx := toStrIn_error_iff limit x
    cases x with
    | null =>
      simp only [joinElemsIn, coercibleAll, coercible, Bool.true_and, arraysAll, arrays, Nat.zero_max, map_error, ih]
    | bool _ | num _ | str _ | arr _ | obj _ =>
      -- an element throws, or else one behind it
      have hor : ∀ {p q : Prop} {m n : Nat}, (p ∨ q) ∨ limit < max m n ↔ (p ∨ limit < m) ∨ q ∨ limit < n := by
        intro p q m n
        rw [lt_max_iff, or_or_or_comm]
      simp only [joinElemsIn, coercibleAll, Bool.and_eq_false_iff, arraysAll, hor, ← hx, ← ih, bind, Except.bind]
      split
      · rename_i h
        simp [h]
      · rename_i h
        simp [h, map_error]

end

theorem toNumberIn_error_iff (limit : Nat) (x : Json) :
    (∃ e, toNumberIn limit x = .error e) ↔ coercible x = false ∨ limit < arrays x := by
  cases x with
  | arr xs => simp only [toNumberIn, map_error, toStrIn_error_iff]
  | null | bool _ | num _ | str _ | obj _ => simp [toNumberIn, toNumber_error_iff, arrays]

end Json

/-- `Number(x)` where `x` may be undefined. -/
def toNumber? : Option Json → Except JsError Num
  | none => .ok .nan
  | some x => x.toNumber

def toNumberIn? (limit : Nat) : Option Json → Except JsError Num
  | none => .ok .nan
  | some x => x.toNumberIn limit

/-- `` `${x}` `` where `x` may be undefined. -/
def toStrIn? (limit : Nat) : Option Json → Except JsError String
  | none => .ok "undefined"
  | some x => x.toStrIn limit

/-- `String(o[key] ?? otherwise)`. -/
def Obj.strOr (o : Obj) (key otherwise : String) : Except JsError String :=
  match o.get key with
  | none | some .null => .ok otherwise
  | some x => x.toStr

/-- `typeof x === "string" ? x : …` -/
def str? : Option Json → Option String
  | some (.str s) => some s
  | _ => none

end Js
