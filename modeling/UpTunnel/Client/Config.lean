import UpTunnel.Lib.JsonText
import UpTunnel.Lib.Search
import UpTunnel.Lib.Text

/-!
# UpTunnel.Client.Config

`parseTarget` of `client-node/src/config.ts`, which reads where a tunnel leads.
-/

namespace UpTunnel

open Js

/-- `ConfigError`, by its message. -/
structure ConfigError where
  message : String
  deriving DecidableEq, Repr

namespace Client

def requirePort (text : List Char) : Except ConfigError Int :=
  match parseInt text with
  | none => .error ⟨quote (String.ofList text) ++ " is not a port number"⟩
  | some port =>
    if port < 1 ∨ port > 65535 then .error ⟨quote (String.ofList text) ++ " is not a port number"⟩
    else .ok port

/-- Accepts `3000`, `localhost:3000`, or `[::1]:3000`. -/
def parseTarget (value : String) (defaultHost : String) : Except ConfigError (String × Int) :=
  let text := trimChars value.toList
  if text ≠ [] ∧ text.all isDigit then (requirePort text).map (defaultHost, ·)
  else if text.head? = some '[' then
    match text.idxOf? ']' with
    | none => .error ⟨"target " ++ quote (String.ofList text) ++ " is not a valid [ipv6]:port"⟩
    | some close =>
      if text[close + 1]? ≠ some ':' then
        .error ⟨"target " ++ quote (String.ofList text) ++ " is not a valid [ipv6]:port"⟩
      else (requirePort (text.drop (close + 2))).map (String.ofList ((text.take close).drop 1), ·)
  else
    match Search.lastIndexOf ':' text with
    | none => .error ⟨"target " ++ quote (String.ofList text) ++ " must include a port"⟩
    | some colon =>
      let host := String.ofList (text.take colon)
      (requirePort (text.drop (colon + 1))).map (if host = "" then defaultHost else host, ·)

end Client

end UpTunnel
