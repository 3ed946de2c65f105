import UpTunnel.Lib.Py
import UpTunnel.Lib.Search

/-!
# UpTunnel.Python.Cli

`_parse_target` of `client/uptunnel/cli.py`, which reads where a tunnel leads.
-/

namespace UpTunnel.Python

/-- The ValueErrors that leave `_parse_target`. -/
inductive ValueError where
  /-- `target %r must include a port` -/
  | noPort (text : String)
  /-- `str.index`: substring not found -/
  | notFound
  /-- `int`: no number, or one of too many digits -/
  | invalidLiteral (text : String)
  deriving DecidableEq, Repr

def int (maxStrDigits : Nat) (text : List Char) : Except ValueError Int :=
  match Py.int maxStrDigits text with
  | none => .error (.invalidLiteral (String.ofList text))
  | some n => .ok n

/-- Accepts `3000`, `localhost:3000`, or `[::1]:3000`. -/
def parseTarget (maxStrDigits : Nat) (value : String) (defaultHost : String) : Except ValueError (String × Int) :=
  let text := Py.strip value.toList
  if Py.isdigit text then (int maxStrDigits text).map (defaultHost, ·)
  else if text.head? = some '[' then
    match text.idxOf? ']' with
    | none => .error .notFound
    | some close =>
      (int maxStrDigits (text.drop (close + 2))).map (String.ofList ((text.take close).drop 1), ·)
  else
    match Search.lastIndexOf ':' text with
    | none => .error (.noPort (String.ofList text))
    | some colon =>
      let host := String.ofList (text.take colon)
      (int maxStrDigits (text.drop (colon + 1))).map (if host = "" then defaultHost else host, ·)

end UpTunnel.Python
