import UpTunnel.Protocol

/-!
# UpTunnel.Client.HostRewrite

`rewriteHostHeader` of `client-node/src/stream.ts`: `text.replace(/^Host:[^\r\n]*/im, …)` on the
latin1 text of a buffer, with the `$` patterns that a replacement string of `replace` may hold.
-/

namespace UpTunnel

open Js

def latin1Decode (buf : Bytes) : List Char := buf.map fun b => Char.ofNat b.toNat

/-- `Buffer.from(text, "latin1")`: the low byte of every UTF-16 code unit. -/
def latin1Encode (text : List Char) : Bytes :=
  text.flatMap fun c =>
    if c.toNat < 0x10000 then [UInt8.ofNat c.toNat]
    else
      let u := c.toNat - 0x10000
      [UInt8.ofNat (0xd800 + u / 0x400), UInt8.ofNat (0xdc00 + u % 0x400)]

def isLineEnd (c : Char) : Bool := c = '\r' ∨ c = '\n'

/-- `/Host:/i` at the head of `cs`. -/
def hostPrefix : List Char → Option (List Char × List Char)
  | h :: o :: s :: t :: ':' :: rest =>
    if [h, o, s, t].map Char.toLower = ['h', 'o', 's', 't'] then some ([h, o, s, t, ':'], rest) else none
  | _ => none

/-- The first match of `/^Host:[^\r\n]*/im`: the text before it, the match, the text after it. With
the flag `m`, `^` also matches behind a CR or an LF. -/
def findHost (lineStart : Bool) : List Char → Option (List Char × List Char × List Char)
  | [] => none
  | c :: cs =>
    match if lineStart then hostPrefix (c :: cs) else none with
    | some (p, rest) =>
      let (line, post) := rest.span fun c => !isLineEnd c
      some ([], p ++ line, post)
    | none => (findHost (isLineEnd c) cs).map fun (pre, m, post) => (c :: pre, m, post)

/-- `GetSubstitution` for a pattern without groups. -/
def expandReplacement (pre matched post : List Char) : List Char → List Char
  | '$' :: '$' :: r => '$' :: expandReplacement pre matched post r
  | '$' :: '&' :: r => matched ++ expandReplacement pre matched post r
  | '$' :: '`' :: r => pre ++ expandReplacement pre matched post r
  | '$' :: '\'' :: r => post ++ expandReplacement pre matched post r
  | c :: r => c :: expandReplacement pre matched post r
  | [] => []

def rewriteHostHeader (head : Bytes) (target : String) : Bytes :=
  match findHost true (latin1Decode head) with
  | none => head
  | some (pre, matched, post) =>
    latin1Encode (pre ++ expandReplacement pre matched post ("Host: " ++ target).toList ++ post)

end UpTunnel
