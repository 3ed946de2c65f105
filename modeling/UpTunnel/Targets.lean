import UpTunnel.Client.Config
import UpTunnel.Python.Cli

/-!
# UpTunnel.Targets

What a target may look like, and what the two agents make of one.

* `IsTarget`: the three forms of a target, and the host and port each means.
* `Client.Strict`, `Python.Strict`: what an agent reads as a port is written as one.
* `agree_iff`: exactly then both agents accept the targets and nothing else, and mean the same.
-/

namespace UpTunnel

open Js Search

/-- A port as it is written: ASCII digits, from 1 to 65535. -/
structure IsPort (text : List Char) (port : Int) : Prop where
  nonempty : text ≠ []
  digits : ∀ c ∈ text, isDigit c = true
  value : port = digitsVal text
  pos : 1 ≤ port
  le : port ≤ 65535

/-- An empty host is the device itself. -/
def hostOr (host : List Char) : String := if host = [] then "127.0.0.1" else String.ofList host

/-- `3000`, `localhost:3000` and `[::1]:3000`; the colon before the port is the last one. -/
inductive IsTarget : List Char → String → Int → Prop where
  | bare {text : List Char} {port : Int} : IsPort text port → IsTarget text "127.0.0.1" port
  | host {host text : List Char} {port : Int} :
      host.head? ≠ some '[' → IsPort text port → IsTarget (host ++ ':' :: text) (hostOr host) port
  | bracket {host text : List Char} {port : Int} :
      ']' ∉ host → IsPort text port → IsTarget ('[' :: host ++ ']' :: ':' :: text) (hostOr host) port

/-- Both agents read `value` alike, and each accepts it exactly where it is a target once trimmed. -/
def Agree (maxStrDigits : Nat) (value : String) : Prop :=
  (Client.parseTarget value "127.0.0.1").toOption =
      (Python.parseTarget maxStrDigits value "127.0.0.1").toOption ∧
    (∀ host port, (Client.parseTarget value "127.0.0.1").toOption = some (host, port) ↔
      IsTarget (trimChars value.toList) host port) ∧
    ∀ host port, (Python.parseTarget maxStrDigits value "127.0.0.1").toOption = some (host, port) ↔
      IsTarget (Py.strip value.toList) host port

/-! ## Ports -/

variable {text host a b : List Char} {port n : Int} {h : String} {maxStrDigits : Nat}

theorem isDigit_ne {c d : Char} (hc : isDigit c = true) (hd : isDigit d = false) : c ≠ d := by
  rintro rfl
  rw [hc] at hd
  cases hd

theorem IsPort.notMem (hp : IsPort text port) {d : Char} (hd : isDigit d = false) : d ∉ text := fun hm =>
  isDigit_ne (hp.digits d hm) hd rfl

theorem requirePort_iff :
    (Client.requirePort text).toOption = some n ↔ parseInt text = some n ∧ 1 ≤ n ∧ n ≤ 65535 := by
  unfold Client.requirePort
  cases parseInt text with
  | none => simp [Except.toOption]
  | some m =>
    dsimp only
    split
    · rename_i h1
      simp only [Except.toOption, reduceCtorEq, Option.some.injEq, false_iff, not_and]
      rintro rfl
      omega
    · rename_i h1
      simp only [Except.toOption, Option.some.injEq]
      refine ⟨?_, fun h2 => h2.1⟩
      rintro rfl
      exact ⟨rfl, by omega, by omega⟩

theorem IsPort.requirePort (hp : IsPort text port) : (Client.requirePort text).toOption = some port := by
  rw [requirePort_iff, parseInt_of_digits hp.nonempty hp.digits, hp.value]
  exact ⟨rfl, hp.value ▸ hp.pos, hp.value ▸ hp.le⟩

theorem isPort_of_requirePort (hne : text ≠ []) (hd : ∀ c ∈ text, isDigit c = true)
    (hr : (Client.requirePort text).toOption = some n) : IsPort text n := by
  rw [requirePort_iff, parseInt_of_digits hne hd] at hr
  exact ⟨hne, hd, (Option.some.inj hr.1).symm, hr.2.1, hr.2.2⟩

theorem int_iff : (Python.int maxStrDigits text).toOption = some n ↔ Py.int maxStrDigits text = some n := by
  unfold Python.int
  cases Py.int maxStrDigits text <;> simp [Except.toOption]

theorem IsPort.int (hp : IsPort text port) (hlen : maxStrDigits = 0 ∨ text.length ≤ maxStrDigits) :
    Py.int maxStrDigits text = some port := by
  rw [Py.int_of_digits maxStrDigits hp.nonempty hp.digits, if_neg (by omega), hp.value]

theorem IsPort.le_of_int (hp : IsPort text port) (hi : (Py.int maxStrDigits text).isSome) :
    maxStrDigits = 0 ∨ text.length ≤ maxStrDigits := by
  rw [Py.int_of_digits maxStrDigits hp.nonempty hp.digits] at hi
  by_contra hn
  rw [if_pos (by omega)] at hi
  cases hi

theorem toOption_map_pair {ε α β : Type} {x : Except ε β} {a a' : α} {b : β} :
    (x.map (a, ·)).toOption = some (a', b) ↔ a' = a ∧ x.toOption = some b := by
  cases x <;> simp [Except.map, Except.toOption, eq_comm]

/-! ## The forms of a text -/

/-- How a text divides for both agents. -/
inductive Form : List Char → Prop where
  | bracket (host text : List Char) : ']' ∉ host → Form ('[' :: host ++ ']' :: text)
  | unclosed (text : List Char) : ']' ∉ text → Form ('[' :: text)
  | host (host text : List Char) : host.head? ≠ some '[' → ':' ∉ text → Form (host ++ ':' :: text)
  | bare (text : List Char) : text.head? ≠ some '[' → ':' ∉ text → Form text

theorem form (text : List Char) : Form text := by
  by_cases hb : text.head? = some '['
  · obtain ⟨rest, rfl⟩ : ∃ rest, text = '[' :: rest := by
      cases text with
      | nil => cases hb
      | cons c rest => exact ⟨rest, by rw [Option.some.inj hb]⟩
    by_cases hc : ']' ∈ rest
    · obtain ⟨host, text, rfl, hn⟩ := List.eq_append_cons_of_mem hc
      exact .bracket host text hn
    · exact .unclosed rest hc
  · by_cases hc : ':' ∈ text
    · obtain ⟨host, port, rfl, hn⟩ := exists_last hc
      refine .host host port (fun hh => hb ?_) hn
      cases host with
      | nil => cases hh
      | cons c rest => exact hh
    · exact .bare text hb hc

/-- A text in brackets is not one with a host in front of its last colon. -/
theorem bracket_ne_host {rest : List Char} (hh : host.head? ≠ some '[') : '[' :: rest ≠ host ++ ':' :: text := by
  intro he
  cases host with
  | nil => simp at he
  | cons c l =>
    simp only [List.cons_append, List.cons.injEq] at he
    exact hh (by rw [← he.1]; rfl)

/-- The first closing bracket is in one place. -/
theorem bracket_unique {host' text' : List Char} (he : '[' :: host ++ ']' :: text = '[' :: host' ++ ']' :: text')
    (hb : ']' ∉ host) (hb' : ']' ∉ host') : host = host' ∧ text = text' := by
  simp only [List.cons_append, List.cons.injEq, true_and] at he
  have h1 := span_of_split (b := text) hb
  rw [he, span_of_split hb'] at h1
  simp only [Prod.mk.injEq, List.cons.injEq, true_and] at h1
  exact ⟨h1.1.symm, h1.2.symm⟩

theorem target_bracket (hb : ']' ∉ host) : IsTarget ('[' :: host ++ ']' :: text) h port ↔
    ∃ rest, text = ':' :: rest ∧ h = hostOr host ∧ IsPort rest port := by
  constructor
  · intro ht
    generalize hx : '[' :: host ++ ']' :: text = x at ht
    cases ht with
    | bare hp => exact absurd (hx ▸ by simp : '[' ∈ x) (hp.notMem (by decide))
    | host hh hp => exact absurd hx (bracket_ne_host hh)
    | bracket hb' hp =>
      obtain ⟨rfl, rfl⟩ := bracket_unique hx hb hb'
      exact ⟨_, rfl, rfl, hp⟩
  · rintro ⟨rest, rfl, rfl, hp⟩
    exact .bracket hb hp

theorem target_unclosed (hb : ']' ∉ text) : ¬ IsTarget ('[' :: text) h port := by
  intro ht
  generalize hx : '[' :: text = x at ht
  cases ht with
  | bare hp => exact absurd (hx ▸ by simp : '[' ∈ x) (hp.notMem (by decide))
  | host hh hp => exact bracket_ne_host hh hx
  | bracket hb' hp =>
    simp only [List.cons_append, List.cons.injEq, true_and] at hx
    exact hb (by rw [hx]; simp)

theorem target_host (hh : host.head? ≠ some '[') (hc : ':' ∉ text) : IsTarget (host ++ ':' :: text) h port ↔
    h = hostOr host ∧ IsPort text port := by
  constructor
  · intro ht
    generalize hx : host ++ ':' :: text = x at ht
    cases ht with
    | bare hp => exact absurd (hx ▸ by simp : ':' ∈ x) (hp.notMem (by decide))
    | host hh' hp =>
      obtain ⟨rfl, rfl⟩ := split_last_unique hx hc (hp.notMem (by decide))
      exact ⟨rfl, hp⟩
    | bracket hb' hp => exact absurd hx.symm (bracket_ne_host hh)
  · rintro ⟨rfl, hp⟩
    exact .host hh hp

theorem target_bare (hb : text.head? ≠ some '[') (hc : ':' ∉ text) : IsTarget text h port ↔
    h = "127.0.0.1" ∧ IsPort text port := by
  constructor
  · intro ht
    cases ht with
    | bare hp => exact ⟨rfl, hp⟩
    | host hh' hp => simp at hc
    | bracket hb' hp => simp at hb
  · rintro ⟨rfl, hp⟩
    exact .bare hp

/-! ## The Node agent -/

namespace Client

/-- What `parseInt` reads as a port is written in digits only. -/
def StrictPort (port : List Char) : Prop :=
  ∀ n, parseInt port = some n → 1 ≤ n → n ≤ 65535 → ∀ c ∈ port, isDigit c = true

/-- What stands for the port is strict, and no host in brackets is empty. -/
structure Strict (text : List Char) : Prop where
  host : ∀ host port, text = host ++ ':' :: port → host.head? ≠ some '[' → ':' ∉ port → StrictPort port
  bracket : ∀ host port, text = '[' :: host ++ ']' :: ':' :: port → ']' ∉ host →
    StrictPort port ∧ ∀ n, IsPort port n → host ≠ []

theorem strictPort_iff : StrictPort text ↔ ∀ n, (requirePort text).toOption = some n ↔ IsPort text n := by
  constructor
  · intro hs n
    refine ⟨fun hr => ?_, IsPort.requirePort⟩
    obtain ⟨hn, h1, h2⟩ := requirePort_iff.mp hr
    refine isPort_of_requirePort ?_ (hs n hn h1 h2) hr
    rintro rfl
    cases hn
  · intro hs n hn h1 h2
    exact ((hs n).mp (requirePort_iff.mpr ⟨hn, h1, h2⟩)).digits

variable {value : String}

theorem parseTarget_bracket (hv : trimChars value.toList = '[' :: host ++ ']' :: ':' :: text) (hb : ']' ∉ host) :
    (parseTarget value "127.0.0.1").toOption = some (h, port) ↔
      h = String.ofList host ∧ (requirePort text).toOption = some port := by
  have hx : ('[' :: host ++ ']' :: ':' :: text).idxOf? ']' = some (host.length + 1) :=
    idxOf?_of_split (a := '[' :: host) (by simpa using hb)
  unfold parseTarget
  rw [hv, if_neg (by simp [isDigit]), if_pos (by simp), hx]
  have h2 : ('[' :: host ++ ']' :: ':' :: text).drop (host.length + 1 + 2) = text := by
    simp [List.drop_append]
  have h3 : (('[' :: host ++ ']' :: ':' :: text).take (host.length + 1)).drop 1 = host := by simp
  dsimp only
  rw [if_neg (by simp), h2, h3]
  exact toOption_map_pair

theorem parseTarget_no_colon (hv : trimChars value.toList = '[' :: host ++ ']' :: text) (hb : ']' ∉ host)
    (hc : text.head? ≠ some ':') : (parseTarget value "127.0.0.1").toOption = none := by
  have hx : ('[' :: host ++ ']' :: text).idxOf? ']' = some (host.length + 1) :=
    idxOf?_of_split (a := '[' :: host) (by simpa using hb)
  unfold parseTarget
  rw [hv, if_neg (by simp [isDigit]), if_pos (by simp), hx]
  have h1 : ('[' :: host ++ ']' :: text)[host.length + 1 + 1]? = text.head? := by
    simp [List.getElem?_append_right, List.head?_eq_getElem?]
  dsimp only
  rw [if_pos (by rwa [h1])]
  rfl

theorem parseTarget_unclosed (hv : trimChars value.toList = '[' :: text) (hb : ']' ∉ text) :
    (parseTarget value "127.0.0.1").toOption = none := by
  unfold parseTarget
  rw [hv, if_neg (by simp [isDigit]), if_pos (by simp), List.idxOf?_eq_none_iff.mpr (by simpa using hb)]
  rfl

theorem parseTarget_host (hv : trimChars value.toList = host ++ ':' :: text) (hh : host.head? ≠ some '[')
    (hc : ':' ∉ text) : (parseTarget value "127.0.0.1").toOption = some (h, port) ↔
      h = hostOr host ∧ (requirePort text).toOption = some port := by
  have hb : (host ++ ':' :: text).head? ≠ some '[' := by
    cases host with
    | nil => simp
    | cons c rest => exact hh
  unfold parseTarget
  rw [hv, if_neg (by simp [isDigit]), if_neg hb, lastIndexOf_of_split hc]
  have h1 : (host ++ ':' :: text).drop (host.length + 1) = text := by simp [List.drop_append]
  have h2 : (if String.ofList host = "" then "127.0.0.1" else String.ofList host) = hostOr host := by
    simp [hostOr]
  dsimp only
  rw [h1, List.take_left, h2]
  exact toOption_map_pair

theorem parseTarget_bare (hb : (trimChars value.toList).head? ≠ some '[') (hc : ':' ∉ trimChars value.toList) :
    (parseTarget value "127.0.0.1").toOption = some (h, port) ↔
      h = "127.0.0.1" ∧ IsPort (trimChars value.toList) port := by
  unfold parseTarget
  dsimp only
  by_cases hd : trimChars value.toList ≠ [] ∧ (trimChars value.toList).all isDigit = true
  · rw [if_pos hd, toOption_map_pair]
    simp only [and_congr_right_iff]
    rintro -
    exact ⟨isPort_of_requirePort hd.1 (by simpa using hd.2), IsPort.requirePort⟩
  · rw [if_neg hd, if_neg hb, lastIndexOf_of_notMem hc]
    simp only [Except.toOption, reduceCtorEq, false_iff, not_and]
    rintro - hp
    exact hd ⟨hp.nonempty, by simpa using hp.digits⟩

/-- The Node agent accepts the targets, and nothing else, of a text that leaves no room for more. -/
theorem parseTarget_iff : (∀ host port, (parseTarget value "127.0.0.1").toOption = some (host, port) ↔
    IsTarget (trimChars value.toList) host port) ↔ Strict (trimChars value.toList) := by
  have hform := form (trimChars value.toList)
  generalize hv : trimChars value.toList = x at hform
  cases hform with
  | bracket host text hb =>
    by_cases hc : text.head? = some ':'
    · obtain ⟨rest, rfl⟩ : ∃ rest, text = ':' :: rest := by
        cases text with
        | nil => cases hc
        | cons c rest => exact ⟨rest, by rw [Option.some.inj hc]⟩
      have hparse : ∀ h port, (parseTarget value "127.0.0.1").toOption = some (h, port) ↔
          h = String.ofList host ∧ (requirePort rest).toOption = some port := fun h port => parseTarget_bracket hv hb
      have htarget : ∀ h port, IsTarget ('[' :: host ++ ']' :: ':' :: rest) h port ↔
          h = hostOr host ∧ IsPort rest port := by
        intro h port
        rw [target_bracket hb]
        simp
      simp only [hparse, htarget]
      constructor
      · intro hI
        refine ⟨fun host' port' he hh hn => ?_, fun host' port' he hb' => ?_⟩
        · exact absurd he (bracket_ne_host hh)
        · obtain ⟨rfl, hrest⟩ := bracket_unique he hb hb'
          cases hrest
          have hhost : ∀ n, IsPort rest n → hostOr host = String.ofList host := fun n hp =>
            ((hI (hostOr host) n).mpr ⟨rfl, hp⟩).1
          refine ⟨strictPort_iff.mpr fun n => ⟨fun hr => ((hI _ n).mp ⟨rfl, hr⟩).2, IsPort.requirePort⟩, fun n hp => ?_⟩
          rintro rfl
          have h1 := hhost n hp
          simp [hostOr] at h1
      · intro hS h port
        obtain ⟨h1, h2⟩ := hS.bracket host rest rfl hb
        rw [strictPort_iff.mp h1 port]
        refine and_congr_left fun hp => ?_
        rw [hostOr, if_neg (h2 port hp)]
    · have hnone := parseTarget_no_colon hv hb hc
      simp only [hnone, reduceCtorEq, false_iff, target_bracket hb]
      refine iff_of_true (fun h port => ?_) ⟨fun host' port' he hh hn => ?_, fun host' port' he hb' => ?_⟩
      · rintro ⟨rest, rfl, -⟩
        exact hc rfl
      · exact absurd he (bracket_ne_host hh)
      · obtain ⟨-, rfl⟩ := bracket_unique he hb hb'
        exact absurd rfl hc
  | unclosed text hb =>
    have hnone := parseTarget_unclosed hv hb
    simp only [hnone, reduceCtorEq, false_iff]
    refine iff_of_true (fun h port => target_unclosed hb) ⟨fun host' port' he hh hn => ?_, fun host' port' he hb' => ?_⟩
    · exact absurd he (bracket_ne_host hh)
    · simp only [List.cons_append, List.cons.injEq, true_and] at he
      exact absurd (by rw [he]; simp) hb
  | host host text hh hc =>
    have hparse : ∀ h port, (parseTarget value "127.0.0.1").toOption = some (h, port) ↔
        h = hostOr host ∧ (requirePort text).toOption = some port := fun h port => parseTarget_host hv hh hc
    simp only [hparse, target_host hh hc]
    constructor
    · intro hI
      refine ⟨fun host' port' he hh' hn => ?_, fun host' port' he hb' => ?_⟩
      · obtain ⟨rfl, rfl⟩ := split_last_unique he hc hn
        exact strictPort_iff.mpr fun n => ⟨fun hr => ((hI _ n).mp ⟨rfl, hr⟩).2, IsPort.requirePort⟩
      · exact absurd he.symm (bracket_ne_host hh)
    · intro hS h port
      rw [strictPort_iff.mp (hS.host host text rfl hh hc) port]
  | bare text hb hc =>
    have hparse : ∀ h port, (parseTarget value "127.0.0.1").toOption = some (h, port) ↔
        h = "127.0.0.1" ∧ IsPort x port := by
      intro h port
      rw [parseTarget_bare (hv ▸ hb) (hv ▸ hc), hv]
    simp only [hparse, target_bare hb hc]
    refine iff_of_true (fun h port => trivial) ⟨fun host' port' he hh hn => ?_, fun host' port' he hb' => ?_⟩
    · exact absurd (by rw [he]; simp) hc
    · exact absurd (by rw [he]; rfl) hb

end Client

/-! ## The Python agent -/

namespace Python

/-- What `int` reads is written in ASCII digits and a port, and no port has too many digits for it. -/
structure StrictPort (maxStrDigits : Nat) (port : List Char) : Prop where
  digits : ∀ n, Py.int maxStrDigits port = some n → (∀ c ∈ port, isDigit c = true) ∧ 1 ≤ n ∧ n ≤ 65535
  short : (∀ c ∈ port, isDigit c = true) → 1 ≤ digitsVal port → digitsVal port ≤ 65535 →
    maxStrDigits = 0 ∨ port.length ≤ maxStrDigits

/-- What stands for the port is strict; a bracket is followed by a colon, and no host in brackets is
empty, where what comes then is a number. -/
structure Strict (maxStrDigits : Nat) (text : List Char) : Prop where
  bare : Py.isdigit text = true → StrictPort maxStrDigits text
  host : ∀ host port, text = host ++ ':' :: port → host.head? ≠ some '[' → ':' ∉ port → StrictPort maxStrDigits port
  bracket : ∀ host port, text = '[' :: host ++ ']' :: ':' :: port → ']' ∉ host →
    StrictPort maxStrDigits port ∧ ∀ n, IsPort port n → host ≠ []
  colon : ∀ host c port, text = '[' :: host ++ ']' :: c :: port → ']' ∉ host → c ≠ ':' →
    Py.int maxStrDigits port = none

theorem strictPort_iff :
    StrictPort maxStrDigits text ↔ ∀ n, (int maxStrDigits text).toOption = some n ↔ IsPort text n := by
  simp only [int_iff]
  constructor
  · intro hs n
    constructor
    · intro hi
      obtain ⟨hd, h1, h2⟩ := hs.digits n hi
      have hne : text ≠ [] := by
        rintro rfl
        cases hi
      rw [Py.int_of_digits maxStrDigits hne hd] at hi
      split at hi
      · cases hi
      · exact ⟨hne, hd, (Option.some.inj hi).symm, h1, h2⟩
    · intro hp
      have h1 := hp.pos
      have h2 := hp.le
      rw [hp.value] at h1 h2
      exact hp.int (hs.short hp.digits (by omega) (by omega))
  · intro hs
    refine ⟨fun n hi => ?_, fun hd h1 h2 => ?_⟩
    · have hp := (hs n).mp hi
      exact ⟨hp.digits, hp.pos, hp.le⟩
    · have hne : text ≠ [] := by
        rintro rfl
        cases h1
      have hp : IsPort text (digitsVal text) := ⟨hne, hd, rfl, by omega, by omega⟩
      refine hp.le_of_int ?_
      rw [(hs _).mpr hp]
      rfl

theorem isdigit_of_mem {c : Char} (hm : c ∈ text) (hc : Py.isDigitChar c = false) : Py.isdigit text = false := by
  have hall : text.all Py.isDigitChar = false := List.all_eq_false.mpr ⟨c, hm, by simp [hc]⟩
  simp [Py.isdigit, hall]

theorem isdigit_of_isPort (hp : IsPort text port) : Py.isdigit text = true := by
  have hall : text.all Py.isDigitChar = true := List.all_eq_true.mpr fun c hc => by
    simp [Py.isDigitChar, Py.decimal_of_isDigit (hp.digits c hc)]
  simp [Py.isdigit, hall, hp.nonempty]

variable {value : String}

theorem parseTarget_bracket (hv : Py.strip value.toList = '[' :: host ++ ']' :: text) (hb : ']' ∉ host) :
    (parseTarget maxStrDigits value "127.0.0.1").toOption = some (h, port) ↔
      h = String.ofList host ∧ (int maxStrDigits (text.drop 1)).toOption = some port := by
  have hx : ('[' :: host ++ ']' :: text).idxOf? ']' = some (host.length + 1) :=
    idxOf?_of_split (a := '[' :: host) (by simpa using hb)
  have hd : Py.isdigit ('[' :: host ++ ']' :: text) = false := isdigit_of_mem (c := '[') (by simp) (by decide)
  unfold parseTarget
  rw [hv, if_neg (Bool.eq_false_iff.mp hd), if_pos (by simp), hx]
  have h1 : ('[' :: host ++ ']' :: text).drop (host.length + 1 + 2) = text.drop 1 := by
    simp [List.drop_append]
  have h2 : (('[' :: host ++ ']' :: text).take (host.length + 1)).drop 1 = host := by simp
  dsimp only
  rw [h1, h2]
  exact toOption_map_pair

theorem parseTarget_unclosed (hv : Py.strip value.toList = '[' :: text) (hb : ']' ∉ text) :
    (parseTarget maxStrDigits value "127.0.0.1").toOption = none := by
  have hd : Py.isdigit ('[' :: text) = false := isdigit_of_mem (c := '[') (by simp) (by decide)
  unfold parseTarget
  rw [hv, if_neg (Bool.eq_false_iff.mp hd), if_pos (by simp), List.idxOf?_eq_none_iff.mpr (by simpa using hb)]
  rfl

theorem parseTarget_host (hv : Py.strip value.toList = host ++ ':' :: text) (hh : host.head? ≠ some '[')
    (hc : ':' ∉ text) : (parseTarget maxStrDigits value "127.0.0.1").toOption = some (h, port) ↔
      h = hostOr host ∧ (int maxStrDigits text).toOption = some port := by
  have hb : (host ++ ':' :: text).head? ≠ some '[' := by
    cases host with
    | nil => simp
    | cons c rest => exact hh
  have hd : Py.isdigit (host ++ ':' :: text) = false := isdigit_of_mem (c := ':') (by simp) (by decide)
  unfold parseTarget
  rw [hv, if_neg (Bool.eq_false_iff.mp hd), if_neg hb, lastIndexOf_of_split hc]
  have h1 : (host ++ ':' :: text).drop (host.length + 1) = text := by simp [List.drop_append]
  have h2 : (if String.ofList host = "" then "127.0.0.1" else String.ofList host) = hostOr host := by
    simp [hostOr]
  dsimp only
  rw [h1, List.take_left, h2]
  exact toOption_map_pair

theorem parseTarget_bare (hb : (Py.strip value.toList).head? ≠ some '[') (hc : ':' ∉ Py.strip value.toList) :
    (parseTarget maxStrDigits value "127.0.0.1").toOption = some (h, port) ↔ h = "127.0.0.1" ∧
      Py.isdigit (Py.strip value.toList) = true ∧ (int maxStrDigits (Py.strip value.toList)).toOption = some port := by
  unfold parseTarget
  dsimp only
  by_cases hd : Py.isdigit (Py.strip value.toList) = true
  · rw [if_pos hd, toOption_map_pair]
    simp [hd]
  · rw [if_neg hd, if_neg hb, lastIndexOf_of_notMem hc]
    simp [Except.toOption, hd]

/-- The Python agent accepts the targets, and nothing else, of a text that leaves no room for more. -/
theorem parseTarget_iff : (∀ host port, (parseTarget maxStrDigits value "127.0.0.1").toOption = some (host, port) ↔
    IsTarget (Py.strip value.toList) host port) ↔ Strict maxStrDigits (Py.strip value.toList) := by
  have hform := form (Py.strip value.toList)
  generalize hv : Py.strip value.toList = x at hform
  cases hform with
  | bracket host text hb =>
    have hd : Py.isdigit ('[' :: host ++ ']' :: text) = false := isdigit_of_mem (c := '[') (by simp) (by decide)
    have hparse : ∀ h port, (parseTarget maxStrDigits value "127.0.0.1").toOption = some (h, port) ↔
        h = String.ofList host ∧ (int maxStrDigits (text.drop 1)).toOption = some port :=
      fun h port => parseTarget_bracket hv hb
    simp only [hparse, target_bracket hb]
    constructor
    · intro hI
      refine ⟨fun h1 => ?_, fun host' port' he hh hn => ?_, fun host' port' he hb' => ?_,
        fun host' c port' he hb' hc => ?_⟩
      · rw [hd] at h1
        cases h1
      · exact absurd he (bracket_ne_host hh)
      · obtain ⟨rfl, rfl⟩ := bracket_unique he hb hb'
        refine ⟨strictPort_iff.mpr fun n => ⟨fun hr => ?_, fun hp => ((hI _ n).mpr ⟨port', rfl, rfl, hp⟩).2⟩,
          fun n hp => ?_⟩
        · obtain ⟨rest, hrest, -, hp⟩ := (hI _ n).mp ⟨rfl, hr⟩
          cases hrest
          exact hp
        · have h1 := ((hI _ n).mpr ⟨port', rfl, rfl, hp⟩).1
          rintro rfl
          simp [hostOr] at h1
      · obtain ⟨rfl, rfl⟩ := bracket_unique he hb hb'
        refine Option.eq_none_iff_forall_ne_some.mpr fun n hn => ?_
        obtain ⟨rest, hrest, -⟩ := (hI _ n).mp ⟨rfl, int_iff.mpr hn⟩
        cases hrest
        exact hc rfl
    · intro hS h port
      cases text with
      | nil =>
        refine iff_of_false (fun h1 => ?_) (by rintro ⟨rest, hrest, -⟩; cases hrest)
        cases int_iff.mp h1.2
      | cons c rest =>
        by_cases hc : c = ':'
        · subst hc
          obtain ⟨h1, h2⟩ := hS.bracket host rest rfl hb
          rw [List.drop_one, List.tail_cons, strictPort_iff.mp h1 port]
          constructor
          · rintro ⟨rfl, hp⟩
            exact ⟨rest, rfl, by rw [hostOr, if_neg (h2 port hp)], hp⟩
          · rintro ⟨rest', hrest, rfl, hp⟩
            cases hrest
            exact ⟨by rw [hostOr, if_neg (h2 port hp)], hp⟩
        · refine iff_of_false (fun h1 => ?_) (by rintro ⟨rest', hrest, -⟩; cases hrest; exact hc rfl)
          have h2 := hS.colon host c rest rfl hb hc
          cases h2.symm.trans (int_iff.mp h1.2)
  | unclosed text hb =>
    have hd : Py.isdigit ('[' :: text) = false := isdigit_of_mem (c := '[') (by simp) (by decide)
    have hnone : (parseTarget maxStrDigits value "127.0.0.1").toOption = none := parseTarget_unclosed hv hb
    have hclosed : ∀ host' rest : List Char, '[' :: text ≠ '[' :: host' ++ ']' :: rest := by
      intro host' rest he
      simp only [List.cons_append, List.cons.injEq, true_and] at he
      exact hb (by rw [he]; simp)
    simp only [hnone, reduceCtorEq, false_iff]
    refine iff_of_true (fun h port => target_unclosed hb) ⟨fun h1 => ?_, fun host' port' he hh hn => ?_,
      fun host' port' he hb' => absurd he (hclosed _ _), fun host' c port' he hb' => absurd he (hclosed _ _)⟩
    · rw [hd] at h1
      cases h1
    · exact absurd he (bracket_ne_host hh)
  | host host text hh hc =>
    have hd : Py.isdigit (host ++ ':' :: text) = false := isdigit_of_mem (c := ':') (by simp) (by decide)
    have hparse : ∀ h port, (parseTarget maxStrDigits value "127.0.0.1").toOption = some (h, port) ↔
        h = hostOr host ∧ (int maxStrDigits text).toOption = some port := fun h port => parseTarget_host hv hh hc
    simp only [hparse, target_host hh hc]
    constructor
    · intro hI
      refine ⟨fun h1 => ?_, fun host' port' he hh' hn => ?_,
        fun host' port' he hb' => absurd he.symm (bracket_ne_host hh),
        fun host' c port' he hb' => absurd he.symm (bracket_ne_host hh)⟩
      · rw [hd] at h1
        cases h1
      · obtain ⟨rfl, rfl⟩ := split_last_unique he hc hn
        refine strictPort_iff.mpr fun n => ⟨fun hr => ((hI _ n).mp ⟨rfl, hr⟩).2, fun hp => ((hI _ n).mpr ⟨rfl, hp⟩).2⟩
    · intro hS h port
      rw [strictPort_iff.mp (hS.host host text rfl hh hc) port]
  | bare text hb hc =>
    have hparse : ∀ h port, (parseTarget maxStrDigits value "127.0.0.1").toOption = some (h, port) ↔
        h = "127.0.0.1" ∧ Py.isdigit x = true ∧ (int maxStrDigits x).toOption = some port := by
      intro h port
      rw [parseTarget_bare (hv ▸ hb) (hv ▸ hc), hv]
    simp only [hparse, target_bare hb hc]
    constructor
    · intro hI
      refine ⟨fun h1 => ?_, fun host' port' he hh hn => ?_, fun host' port' he hb' => ?_,
        fun host' c port' he hb' => ?_⟩
      · refine strictPort_iff.mpr fun n => ⟨fun hr => ((hI _ n).mp ⟨rfl, h1, hr⟩).2, fun hp => ?_⟩
        exact ((hI _ n).mpr ⟨rfl, hp⟩).2.2
      · exact absurd (by rw [he]; simp) hc
      · exact absurd (by rw [he]; rfl) hb
      · exact absurd (by rw [he]; rfl) hb
    · intro hS h port
      refine and_congr_right fun _ => ⟨fun h1 => ?_, fun hp => ?_⟩
      · exact (strictPort_iff.mp (hS.bare h1.1) port).mp h1.2
      · have h1 := isdigit_of_isPort hp
        exact ⟨h1, (strictPort_iff.mp (hS.bare h1) port).mpr hp⟩

end Python

/-! ## Both agents -/

/-- A target ends in a digit. -/
theorem IsTarget.concat (ht : IsTarget text h port) : ∃ init c, text = init ++ [c] ∧ isDigit c = true := by
  have hport : ∀ {t : List Char}, IsPort t port → ∃ init c, t = init ++ [c] ∧ isDigit c = true := by
    intro t hp
    refine ⟨t.dropLast, t.getLast hp.nonempty, (List.dropLast_append_getLast hp.nonempty).symm, ?_⟩
    exact hp.digits _ (List.getLast_mem hp.nonempty)
  cases ht with
  | bare hp => exact hport hp
  | host hh hp =>
    rename_i host text
    obtain ⟨init, c, rfl, hc⟩ := hport hp
    exact ⟨host ++ ':' :: init, c, by simp, hc⟩
  | bracket hb hp =>
    rename_i host text
    obtain ⟨init, c, rfl, hc⟩ := hport hp
    exact ⟨'[' :: host ++ ']' :: ':' :: init, c, by simp, hc⟩

/-- A character that `trim` or `strip` may take away. -/
structure Blank (c : Char) : Prop where
  digit : isDigit c = false
  bracket : c ≠ '['
  colon : c ≠ ':'

theorem blank_of_isSpace {c : Char} (hc : isSpace c = true) : Blank c where
  digit := Bool.eq_false_iff.mpr fun hd => by
    rw [isSpace_of_isDigit hd] at hc
    cases hc
  bracket := by rintro rfl; exact absurd hc (by decide)
  colon := by rintro rfl; exact absurd hc (by decide)

theorem blank_of_isspace {c : Char} (hc : Py.isspace c = true) : Blank c where
  digit := Bool.eq_false_iff.mpr fun hd => by
    rw [Py.isspace_of_isDigit hd] at hc
    cases hc
  bracket := by rintro rfl; exact absurd hc (by decide)
  colon := by rintro rfl; exact absurd hc (by decide)

/-- Blanks in front of a target are part of its host. -/
theorem IsTarget.no_blanks {s : List Char} (hs : ∀ c ∈ s, Blank c) (ht : IsTarget text h port)
    (ht' : IsTarget (s ++ text) h port) : s = [] := by
  cases s with
  | nil => rfl
  | cons c s =>
    exfalso
    have hblank := hs c List.mem_cons_self
    have hhead : ∀ l, (c :: s ++ l).head? ≠ some '[' := fun l he => hblank.bracket (Option.some.inj he)
    -- the default host begins with a digit
    have hdefault : ∀ l, String.ofList (c :: s ++ l) ≠ "127.0.0.1" := by
      intro l he
      have hl := congrArg String.toList he
      rw [String.toList_ofList, List.cons_append, show "127.0.0.1".toList = '1' :: "27.0.0.1".toList from rfl,
        List.cons.injEq] at hl
      have hd := hblank.digit
      rw [hl.1] at hd
      cases hd
    by_cases hcolon : ':' ∈ text
    · obtain ⟨q, t, rfl, hn⟩ := exists_last hcolon
      rw [← List.append_assoc] at ht'
      obtain ⟨h1, -⟩ := (target_host (hhead q) hn).mp ht'
      rw [hostOr, if_neg (by simp)] at h1
      generalize hx : q ++ ':' :: t = x at ht
      cases ht with
      | bare hp => exact absurd (hx ▸ by simp : ':' ∈ x) (hp.notMem (by decide))
      | host hh hp =>
        obtain ⟨rfl, rfl⟩ := split_last_unique hx hn (hp.notMem (by decide))
        unfold hostOr at h1
        split at h1
        · exact hdefault q h1.symm
        · have h2 := congrArg String.length h1
          simp at h2
          omega
      | bracket hb hp =>
        rename_i host' text'
        have hx' : q ++ ':' :: t = ('[' :: host' ++ [']']) ++ ':' :: text' := by simpa using hx
        obtain ⟨rfl, rfl⟩ := split_last_unique hx' hn (hp.notMem (by decide))
        unfold hostOr at h1
        split at h1
        · exact hdefault _ h1.symm
        · have h2 := congrArg String.length h1
          simp at h2
          omega
    · have hc' : ':' ∉ c :: s ++ text := by
        rintro hm
        rcases List.mem_append.mp hm with hm | hm
        · exact (hs ':' hm).colon rfl
        · exact hcolon hm
      obtain ⟨-, hp⟩ := (target_bare (hhead text) hc').mp ht'
      have hd := hp.digits c (by simp)
      rw [hblank.digit] at hd
      cases hd

/-- Two ways to trim a text that leave the same target leave the same text. -/
theorem trim_unique {l u w a' b' : List Char} (hu : l = a ++ u ++ b) (hw : l = a' ++ w ++ b')
    (hblank : ∀ c ∈ a ++ b, Blank c) (hblank' : ∀ c ∈ a' ++ b', Blank c) (ht : IsTarget u h port)
    (ht' : IsTarget w h port) : u = w := by
  -- both end at the last digit
  have hend : ∀ {u w a b a' b' : List Char}, a ++ u ++ b = a' ++ w ++ b' → (∀ c ∈ a ++ b, Blank c) → IsTarget w h port →
      ∀ c, a' ++ w = a ++ u ++ c → b = c ++ b' → c = [] := by
    intro u w a b a' b' _ hblank ht' c hc hb
    obtain ⟨init, d, rfl, hd⟩ := ht'.concat
    by_contra hne
    have hlast := congrArg List.getLast? hc
    rw [← List.append_assoc, List.getLast?_concat, List.getLast?_append_of_ne_nil _ hne] at hlast
    have hm : d ∈ c := List.mem_of_getLast? hlast.symm
    have hbl := hblank d (by rw [hb]; simp [hm])
    rw [hbl.digit] at hd
    cases hd
  have he : a ++ u = a' ++ w := by
    rcases List.append_eq_append_iff.mp (hu.symm.trans hw) with ⟨c, h1, h2⟩ | ⟨c, h1, h2⟩
    · have := hend (hu.symm.trans hw) hblank ht' c h1 h2
      simpa [this] using h1.symm
    · have := hend (hw.symm.trans hu) hblank' ht c h1 h2
      simpa [this] using h1
  rcases List.append_eq_append_iff.mp he with ⟨s, rfl, rfl⟩ | ⟨s, rfl, rfl⟩
  · have hs : s = [] := IsTarget.no_blanks (fun c hc => hblank' c (by simp [hc])) ht' ht
    simp [hs]
  · have hs : s = [] := IsTarget.no_blanks (fun c hc => hblank c (by simp [hc])) ht ht'
    simp [hs]

/-- The agents agree on a text, and with the grammar, exactly where both trim it alike, or none of what
they leave is a target, and each is strict about what is left. -/
theorem agree_iff (maxStrDigits : Nat) (value : String) : Agree maxStrDigits value ↔
    (trimChars value.toList = Py.strip value.toList ∨ ∀ host port,
      ¬ IsTarget (trimChars value.toList) host port ∧ ¬ IsTarget (Py.strip value.toList) host port) ∧
    Client.Strict (trimChars value.toList) ∧ Python.Strict maxStrDigits (Py.strip value.toList) := by
  unfold Agree
  rw [Client.parseTarget_iff, Python.parseTarget_iff]
  refine ⟨fun ⟨heq, hc, hp⟩ => ⟨?_, hc, hp⟩, fun ⟨htrim, hc, hp⟩ => ⟨?_, hc, hp⟩⟩
  · have hnode := Client.parseTarget_iff.mpr hc
    have hpython := Python.parseTarget_iff.mpr hp
    have hiff : ∀ host port, IsTarget (trimChars value.toList) host port ↔ IsTarget (Py.strip value.toList) host port := by
      intro host port
      rw [← hnode host port, ← hpython host port, heq]
    by_cases ht : ∃ host port, IsTarget (trimChars value.toList) host port
    · obtain ⟨host, port, ht⟩ := ht
      obtain ⟨a, b, hb, he⟩ := exists_trim value.toList
      obtain ⟨a', b', hb', he'⟩ := Py.exists_strip value.toList
      exact .inl (trim_unique he he' (fun c hc => blank_of_isSpace (hb c hc))
        (fun c hc => blank_of_isspace (hb' c hc)) ht ((hiff host port).mp ht))
    · have hn : ∀ host port, ¬ IsTarget (trimChars value.toList) host port := fun host port h => ht ⟨host, port, h⟩
      exact .inr fun host port => ⟨hn host port, fun h => hn host port ((hiff host port).mpr h)⟩
  · have hnode := Client.parseTarget_iff.mpr hc
    have hpython := Python.parseTarget_iff.mpr hp
    refine Option.ext fun r => ?_
    obtain ⟨host, port⟩ := r
    rw [hnode host port, hpython host port]
    rcases htrim with htrim | htrim
    · rw [htrim]
    · exact iff_of_false (htrim host port).1 (htrim host port).2

/-- A slash after the port: `parseInt` does not mind, `int` does. -/
theorem not_agree : ¬ ∀ value, Agree 4300 value := by
  intro h
  have h1 := (h "localhost:3000/").1
  revert h1
  decide +kernel

end UpTunnel
