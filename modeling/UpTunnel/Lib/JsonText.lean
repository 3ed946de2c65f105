import UpTunnel.Lib.Js

/-!
# UpTunnel.Lib.JsonText

JSON as text and as bytes: `JSON.parse`, `JSON.stringify`, `Buffer.from(s, "utf8")` and
`Buffer.toString("utf8")`.

The parser is recursive descent on the list of characters. Its recursion is bounded by a count:
every second call takes a character off the input, so `2 * length + 2` calls are never used up.
-/

namespace Js

/-! ## UTF-8 -/

def utf8Encode (s : String) : Bytes := s.toList.flatMap String.utf8EncodeChar

def replacement : Char := '\ufffd'

def isTail (b : UInt8) : Bool := 0x80 ≤ b ∧ b ≤ 0xbf

/-- The second byte that a lead byte allows: not overlong, not a surrogate, at most U+10FFFF. -/
def isSecond (lead b : UInt8) : Bool :=
  if lead = 0xe0 then 0xa0 ≤ b ∧ b ≤ 0xbf
  else if lead = 0xed then 0x80 ≤ b ∧ b ≤ 0x9f
  else if lead = 0xf0 then 0x90 ≤ b ∧ b ≤ 0xbf
  else if lead = 0xf4 then 0x80 ≤ b ∧ b ≤ 0x8f
  else isTail b

def tailBits (b : UInt8) : Nat := b.toNat % 0x40

/-- `Buffer.toString("utf8")`: a maximal part of an ill-formed sequence becomes one U+FFFD. -/
def utf8Chars : Bytes → List Char
  | [] => []
  | a :: rest =>
    if a < 0x80 then Char.ofNat a.toNat :: utf8Chars rest
    else if 0xc2 ≤ a ∧ a ≤ 0xdf then
      match rest with
      | b :: rest1 =>
        if isTail b then Char.ofNat (a.toNat % 0x20 * 0x40 + tailBits b) :: utf8Chars rest1
        else replacement :: utf8Chars (b :: rest1)
      | [] => [replacement]
    else if 0xe0 ≤ a ∧ a ≤ 0xef then
      match rest with
      | b :: c :: rest2 =>
        if isSecond a b then
          if isTail c then
            Char.ofNat (a.toNat % 0x10 * 0x1000 + tailBits b * 0x40 + tailBits c) :: utf8Chars rest2
          else replacement :: utf8Chars (c :: rest2)
        else replacement :: utf8Chars (b :: c :: rest2)
      | [b] => if isSecond a b then [replacement] else replacement :: utf8Chars [b]
      | [] => [replacement]
    else if 0xf0 ≤ a ∧ a ≤ 0xf4 then
      match rest with
      | b :: c :: d :: rest3 =>
        if isSecond a b then
          if isTail c then
            if isTail d then
              Char.ofNat (a.toNat % 0x08 * 0x40000 + tailBits b * 0x1000 + tailBits c * 0x40
                + tailBits d) :: utf8Chars rest3
            else replacement :: utf8Chars (d :: rest3)
          else replacement :: utf8Chars (c :: d :: rest3)
        else replacement :: utf8Chars (b :: c :: d :: rest3)
      | [b, c] =>
        if isSecond a b then
          if isTail c then [replacement] else replacement :: utf8Chars [c]
        else replacement :: utf8Chars [b, c]
      | [b] => if isSecond a b then [replacement] else replacement :: utf8Chars [b]
      | [] => [replacement]
    else replacement :: utf8Chars rest

/-! ## `JSON.parse` -/

def isJsonSpace (c : Char) : Bool := c = ' ' ∨ c = '\t' ∨ c = '\n' ∨ c = '\r'

def skipSpace (cs : List Char) : List Char := cs.dropWhile isJsonSpace

def hexVal (cs : List Char) : Option Nat :=
  (cs.mapM (radixDigit 16)).map fun ds => ds.foldl (fun n d => 16 * n + d) 0

/-- A code unit that is no surrogate, or half of a pair that has lost the other. -/
def loneUnit (u : Nat) : Char := if 0xd800 ≤ u ∧ u ≤ 0xdfff then replacement else Char.ofNat u

/-- A character of a string literal, or the code unit of an escape. -/
inductive Piece where
  | char (c : Char)
  | unit (u : Nat)

/-- The pieces of a string up to its closing quote, and the text after it. -/
def stringPieces : List Char → Option (List Piece × List Char)
  | [] => none
  | '"' :: rest => some ([], rest)
  | '\\' :: 'u' :: a :: b :: c :: d :: rest =>
    match hexVal [a, b, c, d] with
    | some u => (stringPieces rest).map fun (ps, r) => (.unit u :: ps, r)
    | none => none
  | '\\' :: c :: rest =>
    let plain? : Option Char :=
      if c = '"' ∨ c = '\\' ∨ c = '/' then some c
      else if c = 'b' then some '\x08'
      else if c = 'f' then some '\x0c'
      else if c = 'n' then some '\n'
      else if c = 'r' then some '\r'
      else if c = 't' then some '\t'
      else none
    match plain? with
    | some p => (stringPieces rest).map fun (ps, r) => (.char p :: ps, r)
    | none => none
  | c :: rest =>
    if c.toNat < 0x20 ∨ c = '\\' then none else (stringPieces rest).map fun (ps, r) => (.char c :: ps, r)

/-- Two escapes in a row may be one character. -/
def joinPieces : List Piece → List Char
  | [] => []
  | .char c :: ps => c :: joinPieces ps
  | .unit hi :: ps =>
    match ps with
    | .unit lo :: ps1 =>
      if (0xd800 ≤ hi ∧ hi ≤ 0xdbff) ∧ 0xdc00 ≤ lo ∧ lo ≤ 0xdfff then
        Char.ofNat (0x10000 + (hi - 0xd800) * 0x400 + (lo - 0xdc00)) :: joinPieces ps1
      else loneUnit hi :: joinPieces (.unit lo :: ps1)
    | ps => loneUnit hi :: joinPieces ps

/-- The characters of a string up to its closing quote, and the text after it. -/
def stringBody (cs : List Char) : Option (List Char × List Char) :=
  (stringPieces cs).map fun (ps, r) => (joinPieces ps, r)

/-- The integer part: no digit may follow a leading zero. -/
def integerPart (cs : List Char) : Option (List Char × List Char) :=
  match cs with
  | '0' :: rest => some (['0'], rest)
  | _ => match cs.span isDigit with
    | ([], _) => none
    | (ds, rest) => some (ds, rest)

def fractionPart (cs : List Char) : Option (List Char × List Char) :=
  match cs with
  | '.' :: rest => match rest.span isDigit with
    | ([], _) => none
    | (ds, r) => some (ds, r)
  | _ => some ([], cs)

def numberText (cs : List Char) : Option (Num × List Char) := do
  let (neg, cs) := match cs with
    | '-' :: rest => (true, rest)
    | _ => (false, cs)
  let (int, cs) ← integerPart cs
  let (frac, cs) ← fractionPart cs
  let (e, cs) ← exponentPart cs
  let q := decimal int frac e
  some (toDouble (if neg then -q else q), cs)

mutual

/-- A value at the head of `cs`, with no space before it, and the text after it. -/
def value : Nat → List Char → Option (Json × List Char)
  | 0, _ => none
  | n + 1, cs =>
    match cs with
    | 'n' :: 'u' :: 'l' :: 'l' :: rest => some (.null, rest)
    | 't' :: 'r' :: 'u' :: 'e' :: rest => some (.bool true, rest)
    | 'f' :: 'a' :: 'l' :: 's' :: 'e' :: rest => some (.bool false, rest)
    | '"' :: rest => (stringBody rest).map fun (s, r) => (.str (String.ofList s), r)
    | '[' :: rest =>
      match skipSpace rest with
      | ']' :: r => some (.arr [], r)
      | r => (elements n r).map fun (xs, r) => (.arr xs, r)
    | '\x7b' :: rest =>
      match skipSpace rest with
      | '\x7d' :: r => some (.obj [], r)
      | r => (members n [] r).map fun (kvs, r) => (.obj kvs, r)
    | _ => (numberText cs).map fun (q, r) => (.num q, r)

/-- The elements of an array that is not empty, up to its bracket. -/
def elements : Nat → List Char → Option (List Json × List Char)
  | 0, _ => none
  | n + 1, cs =>
    match value n cs with
    | none => none
    | some (x, r) =>
      match skipSpace r with
      | ']' :: r => some ([x], r)
      | ',' :: r => (elements n (skipSpace r)).map fun (xs, r) => (x :: xs, r)
      | _ => none

/-- The members of an object that is not empty, up to its brace. The last of two equal keys counts. -/
def members : Nat → Obj → List Char → Option (Obj × List Char)
  | 0, _, _ => none
  | n + 1, kvs, cs =>
    match cs with
    | '"' :: r =>
      match stringBody r with
      | none => none
      | some (k, r) =>
        match skipSpace r with
        | ':' :: r =>
          match value n (skipSpace r) with
          | none => none
          | some (v, r) =>
            let kvs := kvs.set (String.ofList k) v
            match skipSpace r with
            | '\x7d' :: r => some (kvs, r)
            | ',' :: r => members n kvs (skipSpace r)
            | _ => none
        | _ => none
    | _ => none

end

/-- `JSON.parse`; `none` is the `SyntaxError`. -/
def jsonParse (cs : List Char) : Option Json :=
  match value (2 * cs.length + 2) (skipSpace cs) with
  | some (x, rest) => if skipSpace rest = [] then some x else none
  | none => none

/-! ## `JSON.stringify` -/

def hexDigit (n : Nat) : Char :=
  if n < 10 then Char.ofNat (n + '0'.toNat) else Char.ofNat (n - 10 + 'a'.toNat)

def quoteChar (c : Char) : List Char :=
  if c = '"' then ['\\', '"']
  else if c = '\\' then ['\\', '\\']
  else if c = '\x08' then ['\\', 'b']
  else if c = '\x0c' then ['\\', 'f']
  else if c = '\n' then ['\\', 'n']
  else if c = '\r' then ['\\', 'r']
  else if c = '\t' then ['\\', 't']
  else if c.toNat < 0x20 then ['\\', 'u', '0', '0', hexDigit (c.toNat / 16), hexDigit (c.toNat % 16)]
  else [c]

def quote (s : String) : String := String.ofList ('"' :: s.toList.flatMap quoteChar ++ ['"'])

mutual

def Json.stringify : Json → String
  | .null => "null"
  | .bool b => if b then "true" else "false"
  | .num (.fin q) => (Num.fin q).toStr
  | .num _ => "null"
  | .str s => quote s
  | .arr xs => "[" ++ ",".intercalate (elemTexts xs) ++ "]"
  | .obj kvs => "\x7b" ++ ",".intercalate (memberTexts kvs) ++ "\x7d"

def elemTexts : List Json → List String
  | [] => []
  | x :: xs => Json.stringify x :: elemTexts xs

def memberTexts : List (String × Json) → List String
  | [] => []
  | (k, v) :: kvs => (quote k ++ ":" ++ Json.stringify v) :: memberTexts kvs

end

end Js
