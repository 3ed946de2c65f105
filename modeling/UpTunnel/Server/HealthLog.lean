import UpTunnel.Lib.Lines
import UpTunnel.Lib.Reach

/-!
# UpTunnel.Server.HealthLog

The health log of `healthlog.ts`: a file of lines, the counter that bounds it, and the trim.

* `trim_spec`: what a trim leaves of a file of lines.
* `Good.step`: a record of one line keeps the counter and the file in step.
* `ceiling_iff`: the log keeps its ceiling exactly as long as no record has a newline in it and the lines a trim keeps
  are UTF-8.
-/

namespace UpTunnel

namespace HealthLog

open Js Lines

/-! ## The module -/

/-- The variables of the module, and what is on disk under the name `file`. File operations succeed, so `broken` stays
unset. -/
structure Log where
  file : Option String
  maxLines : Nat
  lines : Nat
  disk : Option Bytes
  atLeast : 10 ≤ maxLines

def Log.content (log : Log) : Bytes := log.disk.getD []

/-- `Math.floor(maxLines * KEEP_RATIO)`. -/
def Log.keep (log : Log) : Nat := log.maxLines * 8 / 10

def countLines (disk : Option Bytes) : Nat :=
  match disk with
  | none => 0
  | some b =>
    let body := utf8Chars b
    if body.length = 0 then 0
    else (body.splitOn '\n').length - (if body.getLast? = some '\n' then 1 else 0)

def configure (log : Log) (path : Option String) (max : Int) (disk : Option Bytes) : Log :=
  let maxLines := if 10 < max then max.toNat else 10
  have atLeast : 10 ≤ maxLines := by
    simp only [maxLines]
    split <;> omega
  match path with
  | none => { log with file := none, maxLines, atLeast }
  | some p =>
    if p = "" then { log with file := none, maxLines, atLeast }
    else { file := some p, maxLines, lines := countLines disk, disk, atLeast }

def trim (log : Log) : Log :=
  let body := utf8Chars log.content
  let all := body.splitOn '\n'
  let all := if all.getLast? = some [] then all.dropLast else all
  let kept := all.rtake log.keep
  { log with disk := some (utf8Encode (String.ofList (['\n'].intercalate kept ++ ['\n']))), lines := kept.length }

/-- The variables as the module sets them. -/
def initial : Log := { file := none, maxLines := 10000, lines := 0, disk := none, atLeast := by decide }

/-- `new Date().toISOString()`. -/
structure Instant where
  text : List Char
  oneLine : '\n' ∉ text

structure Call where
  now : Instant
  msg : String
  fields : Option (List (String × Option Json))

/-- The fields that are neither `undefined` nor `null`. -/
def entries (fields : List (String × Option Json)) : List (String × Json) :=
  fields.filterMap fun (k, v) =>
    match v with
    | none => none
    | some .null => none
    | some v => some (k, v)

def shown : Json → String
  | .str s => s
  | v => v.stringify

def tail : Option (List (String × Option Json)) → List Char
  | none => []
  | some fields => ' ' :: [' '].intercalate ((entries fields).map fun e => e.1.toList ++ '=' :: (shown e.2).toList)

/-- A record without the newline that ends it. -/
def Call.text (c : Call) : List Char := c.now.text ++ ' ' :: c.msg.toList ++ tail c.fields

def Call.record (c : Call) : Bytes := utf8Encode (String.ofList (c.text ++ ['\n']))

def health (log : Log) (c : Call) : Log :=
  match log.file with
  | none => log
  | some _ =>
    let log := { log with disk := some (log.content ++ c.record), lines := log.lines + 1 }
    if log.maxLines ≤ log.lines then trim log else log

def run (log : Log) (calls : List Call) : Log := calls.foldl health log

/-! ## Records -/

/-- No newline in the message, in a key or in a string among the values. -/
def Call.OneLine (c : Call) : Prop :=
  '\n' ∉ c.msg.toList ∧
    ∀ e ∈ entries (c.fields.getD []), '\n' ∉ e.1.toList ∧ ∀ s, e.2 = .str s → '\n' ∉ s.toList

theorem newline_shown {v : Json} : '\n' ∈ (shown v).toList ↔ ∃ s, v = .str s ∧ '\n' ∈ s.toList := by
  cases v with
  | str s => simp [shown]
  | _ => simp [shown, newline_stringify]

theorem mem_intercalate_space {c : Char} (hc : c ≠ ' ') (ts : List (List Char)) :
    c ∈ [' '].intercalate ts ↔ ∃ t ∈ ts, c ∈ t := by
  induction ts with
  | nil => simp
  | cons t ts ih =>
    cases ts with
    | nil => simp
    | cons u us => simp [ih, hc]

theorem newline_tail (fields : Option (List (String × Option Json))) :
    '\n' ∈ tail fields ↔
      ∃ e ∈ entries (fields.getD []), '\n' ∈ e.1.toList ∨ ∃ s, e.2 = .str s ∧ '\n' ∈ s.toList := by
  cases fields with
  | none => simp [tail, entries]
  | some fields => simp [tail, mem_intercalate_space, newline_shown]

theorem oneLine_iff {c : Call} : c.OneLine ↔ '\n' ∉ c.text := by
  have h1 := c.now.oneLine
  simp only [Call.OneLine, Call.text, List.mem_append, List.mem_cons, newline_tail, h1, false_or, not_or, not_exists,
    not_and]
  simp

theorem record_eq (c : Call) : c.record = utf8Encode (String.ofList c.text) ++ [10] := by
  simp only [Call.record, utf8Encode, String.toList_ofList, List.flatMap_append]
  rfl

/-! ## The file as lines -/

section
variable {ls : List Bytes}

theorem newline_map_utf8Chars (h : ∀ l ∈ ls, 10 ∉ l) : ∀ t ∈ ls.map utf8Chars, '\n' ∉ t := by
  intro t ht
  obtain ⟨l, hl, rfl⟩ := List.mem_map.mp ht
  exact newline_utf8Chars (h l hl)

theorem countLines_unlines (h : ∀ l ∈ ls, 10 ∉ l) {disk : Option Bytes} (hd : disk.getD [] = unlines 10 ls) :
    countLines disk = ls.length := by
  cases disk with
  | none =>
    cases ls with
    | nil => rfl
    | cons l ls => simp at hd
  | some b =>
    obtain rfl : b = unlines 10 ls := hd
    have hsplit := splitOn_unlines (newline_map_utf8Chars h)
    cases hls : ls.reverse with
    | nil =>
      obtain rfl : ls = [] := by simpa using hls
      rfl
    | cons l rev =>
      obtain rfl : ls = rev.reverse ++ [l] := by
        rw [← List.reverse_reverse ls, hls, List.reverse_cons]
      simp only [countLines, utf8Chars_unlines, hsplit]
      simp [unlines_append]

/-- The lines of the file once they have been read and written again. -/
def rewritten (l : Bytes) : Bytes := utf8Encode (String.ofList (utf8Chars l))

theorem newline_rewritten (h : ∀ l ∈ ls, 10 ∉ l) : ∀ l ∈ ls.map rewritten, 10 ∉ l := by
  intro m hm
  obtain ⟨l, hl, rfl⟩ := List.mem_map.mp hm
  exact newline_utf8Encode (newline_utf8Chars (h l hl))

theorem rewritten_unlines (ls : List Bytes) : rewritten (unlines 10 ls) = unlines 10 (ls.map rewritten) := by
  rw [rewritten, utf8Chars_unlines, utf8Encode_unlines, List.map_map]
  rfl

theorem map_rtake {α β : Type} {f : α → β} (l : List α) (n : Nat) : (l.map f).rtake n = (l.rtake n).map f := by
  rw [List.rtake, List.rtake, List.length_map, List.map_drop]

theorem keep_pos (log : Log) : 0 < log.keep := by
  have h := log.atLeast
  unfold Log.keep
  omega

theorem keep_lt (log : Log) : log.keep < log.maxLines := by
  have h := log.atLeast
  unfold Log.keep
  omega

theorem trim_spec {log : Log} (h : ∀ l ∈ ls, 10 ∉ l) (hne : ls ≠ []) (hc : log.content = unlines 10 ls) :
    (trim log).content = unlines 10 ((ls.rtake log.keep).map rewritten) ∧
      (trim log).lines = (ls.rtake log.keep).length := by
  have hsplit : (utf8Chars log.content).splitOn '\n' = ls.map utf8Chars ++ [[]] := by
    rw [hc, utf8Chars_unlines, splitOn_unlines (newline_map_utf8Chars h)]
  have hkept : (ls.map utf8Chars).rtake log.keep ≠ [] := by
    have hk := keep_pos log
    have hl := List.length_pos_iff.mpr hne
    rw [← List.length_pos_iff, List.rtake, List.length_drop, List.length_map]
    omega
  have hjoin := intercalate_unlines (x := '\n') hkept
  have htrim : trim log = { log with
      disk := some (unlines 10 ((ls.rtake log.keep).map rewritten)), lines := (ls.rtake log.keep).length } := by
    have hbody : utf8Encode (String.ofList (['\n'].intercalate ((ls.map utf8Chars).rtake log.keep) ++ ['\n'])) =
        unlines 10 ((ls.rtake log.keep).map rewritten) := by
      rw [hjoin, utf8Encode_unlines, map_rtake, List.map_map]
      rfl
    simp only [trim, hsplit, List.getLast?_concat, if_true, List.dropLast_concat, hbody]
    simp only [map_rtake, List.length_map]
  rw [htrim]
  exact ⟨rfl, rfl⟩

end

/-! ## The ceiling -/

/-- What is claimed of one call: `old` is the file as it was configured, `past` the calls before. -/
structure Keeps (old : Bytes) (past : List Call) (log : Log) (c : Call) : Prop where
  one : c.record.count 10 = 1
  counted : (health log c).content.count 10 ≤ (health log c).lines
  ceiling : (health log c).content.count 10 < (health log c).maxLines
  suffix : (health log c).content <:+ old ++ (past ++ [c]).flatMap Call.record
  newest : (health log c).content = log.content ++ c.record ∨
    (health log c).content = newest 10 log.keep (log.content ++ c.record)

/-- If this call makes the log trim, the lines that stay are UTF-8. -/
def Log.Readable (log : Log) (c : Call) : Prop :=
  log.maxLines ≤ log.lines + 1 →
    rewritten (Lines.newest 10 log.keep (log.content ++ c.record)) = Lines.newest 10 log.keep (log.content ++ c.record)

/-- The counter and the file are in step. -/
structure Good (old : Bytes) (past : List Call) (log : Log) : Prop where
  on : log.file ≠ none
  inStep : ∃ ls, log.content = unlines 10 ls ∧ (∀ l ∈ ls, 10 ∉ l) ∧ log.lines = ls.length
  suffix : log.content <:+ old ++ past.flatMap Call.record

section
variable {old : Bytes} {past : List Call} {log : Log} {c : Call}

theorem record_unlines (c : Call) : c.record = unlines 10 [utf8Encode (String.ofList c.text)] := by
  rw [record_eq]
  simp

theorem one_iff : c.record.count 10 = 1 ↔ c.OneLine := by
  rw [oneLine_iff, record_eq, List.count_append]
  constructor
  · intro h hm
    have h1 : 10 ∈ utf8Encode (String.ofList c.text) := by
      simp only [utf8Encode, String.toList_ofList, List.mem_flatMap]
      exact ⟨'\n', hm, by decide⟩
    have h2 := List.count_pos_iff.mpr h1
    simp at h
    omega
  · intro h
    rw [List.count_eq_zero.mpr (newline_utf8Encode h)]
    rfl

/-- A record of one line is one more line, and a trim may follow. -/
theorem health_spec {ls : List Bytes} (hon : log.file ≠ none) (hc : log.content = unlines 10 ls)
    (hls : ∀ l ∈ ls, 10 ∉ l) (hlines : log.lines = ls.length) (hone : c.OneLine) :
    ∃ ms, log.content ++ c.record = unlines 10 ms ∧ (∀ l ∈ ms, 10 ∉ l) ∧ ms.length = log.lines + 1 ∧
      (health log c).file = log.file ∧ (health log c).maxLines = log.maxLines ∧
      if log.maxLines ≤ log.lines + 1 then
        (health log c).content = unlines 10 ((ms.rtake log.keep).map rewritten) ∧
          (health log c).lines = (ms.rtake log.keep).length
      else (health log c).content = unlines 10 ms ∧ (health log c).lines = ms.length := by
  have htext := newline_utf8Encode (oneLine_iff.mp hone)
  have happ : log.content ++ c.record = unlines 10 (ls ++ [utf8Encode (String.ofList c.text)]) := by
    rw [hc, record_unlines, unlines_append]
  have hms : ∀ l ∈ ls ++ [utf8Encode (String.ofList c.text)], 10 ∉ l := by
    intro l hl
    rcases List.mem_append.mp hl with hl | hl
    · exact hls l hl
    · obtain rfl := List.mem_singleton.mp hl
      exact htext
  refine ⟨_, happ, hms, by simp [hlines], ?_⟩
  obtain ⟨p, hp⟩ := Option.ne_none_iff_exists'.mp hon
  by_cases hfull : log.maxLines ≤ log.lines + 1
  · have h := @trim_spec _ { log with disk := some (log.content ++ c.record), lines := log.lines + 1 } hms (by simp)
      happ
    have hhealth : health log c =
        trim { log with disk := some (log.content ++ c.record), lines := log.lines + 1 } := by
      simp only [health, hp, hfull, if_true]
    rw [hhealth, if_pos hfull]
    exact ⟨rfl, rfl, h⟩
  · have hhealth : health log c = { log with disk := some (log.content ++ c.record), lines := log.lines + 1 } := by
      simp only [health, hp, hfull, if_false]
    rw [hhealth, if_neg hfull]
    exact ⟨rfl, rfl, happ, by simp [hlines]⟩

theorem length_rtake {α : Type} (l : List α) (n : Nat) : (l.rtake n).length = min n l.length := by
  rw [List.rtake, List.length_drop]
  omega

theorem keeps_iff (hg : Good old past log) : Keeps old past log c ↔ c.OneLine ∧ log.Readable c := by
  obtain ⟨ls, hc, hls, hlines⟩ := hg.inStep
  have hsuffix : log.content ++ c.record <:+ old ++ (past ++ [c]).flatMap Call.record := by
    obtain ⟨pre, hpre⟩ := hg.suffix
    refine ⟨pre, ?_⟩
    rw [List.flatMap_append, ← List.append_assoc, ← List.append_assoc, ← hpre]
    simp
  constructor
  · intro hk
    have hone := one_iff.mp hk.one
    refine ⟨hone, fun hfull => ?_⟩
    obtain ⟨ms, happ, hms, -, -, -, hspec⟩ := health_spec hg.on hc hls hlines hone
    rw [if_pos hfull] at hspec
    have hrt : ∀ l ∈ ms.rtake log.keep, 10 ∉ l := fun l hl => hms l (List.mem_of_mem_drop hl)
    have hk2 := hk.newest
    rw [happ, newest_unlines hms, hspec.1] at hk2
    rw [happ, newest_unlines hms, rewritten_unlines]
    rcases hk2 with hk2 | hk2
    · -- nothing was cut off, so that the lines that stay are all lines
      have hall := unlines_inj (newline_rewritten hrt) hms hk2
      have hlen := congrArg List.length hall
      rw [List.length_map, length_rtake] at hlen
      have hsame : ms.rtake log.keep = ms := by
        rw [List.rtake, Nat.sub_eq_zero_of_le (by omega), List.drop_zero]
      rw [hk2, hsame]
    · exact hk2
  · rintro ⟨hone, hread⟩
    obtain ⟨ms, happ, hms, hlen, -, hmax, hspec⟩ := health_spec hg.on hc hls hlines hone
    have hrt : ∀ l ∈ ms.rtake log.keep, 10 ∉ l := fun l hl => hms l (List.mem_of_mem_drop hl)
    by_cases hfull : log.maxLines ≤ log.lines + 1
    · rw [if_pos hfull] at hspec
      have hr := hread hfull
      rw [happ, newest_unlines hms, rewritten_unlines] at hr
      have hcount := count_unlines hrt
      have hlt := keep_lt log
      have hle : (ms.rtake log.keep).length ≤ log.keep := by
        rw [length_rtake]
        exact Nat.min_le_left _ _
      rw [hr] at hspec
      refine ⟨one_iff.mpr hone, ?_, ?_, ?_, .inr ?_⟩
      · rw [hspec.1, hspec.2, hcount]
      · rw [hspec.1, hcount, hmax]
        omega
      · rw [hspec.1]
        exact (unlines_rtake_suffix log.keep).trans (happ ▸ hsuffix)
      · rw [hspec.1, happ, newest_unlines hms]
    · rw [if_neg hfull] at hspec
      have hcount := count_unlines hms
      refine ⟨one_iff.mpr hone, ?_, ?_, ?_, .inl ?_⟩
      · rw [hspec.1, hspec.2, hcount]
      · rw [hspec.1, hcount, hmax]
        omega
      · rw [hspec.1]
        exact happ ▸ hsuffix
      · rw [hspec.1, happ]

theorem Good.step (hg : Good old past log) (hc : c.OneLine ∧ log.Readable c) :
    Good old (past ++ [c]) (health log c) := by
  have hk := (keeps_iff hg).mpr hc
  obtain ⟨ls, hcontent, hls, hlines⟩ := hg.inStep
  obtain ⟨ms, happ, hms, -, hfile, -, hspec⟩ := health_spec hg.on hcontent hls hlines hc.1
  refine ⟨by rw [hfile]; exact hg.on, ?_, hk.suffix⟩
  by_cases hfull : log.maxLines ≤ log.lines + 1
  · rw [if_pos hfull] at hspec
    have hrt : ∀ l ∈ ms.rtake log.keep, 10 ∉ l := fun l hl => hms l (List.mem_of_mem_drop hl)
    exact ⟨_, hspec.1, newline_rewritten hrt, by rw [hspec.2, List.length_map]⟩
  · rw [if_neg hfull] at hspec
    exact ⟨ms, hspec.1, hms, hspec.2⟩

end

theorem good_configure {path : String} (hpath : path ≠ "") {disk : Option Bytes}
    (hdisk : disk.getD [] = [] ∨ (disk.getD []).getLast? = some 10) (log : Log) (max : Int) :
    Good (disk.getD []) [] (configure log (some path) max disk) := by
  obtain ⟨ls, hc, hls⟩ := exists_unlines hdisk
  have hlines := countLines_unlines hls hc
  simp only [configure, if_neg hpath]
  exact ⟨by simp, ⟨ls, hc, hls, hlines⟩, by simp [Log.content]⟩

/-- The log keeps its ceiling as long as every record is one line and what a trim keeps is UTF-8, and no longer. -/
theorem ceiling_iff {path : String} (hpath : path ≠ "") {disk : Option Bytes}
    (hdisk : disk.getD [] = [] ∨ (disk.getD []).getLast? = some 10) (log : Log) (max : Int) (calls : List Call) :
    (∀ pre c post, calls = pre ++ c :: post →
      Keeps (disk.getD []) pre (run (configure log (some path) max disk) pre) c) ↔
    ∀ pre c post, calls = pre ++ c :: post →
      c.OneLine ∧ (run (configure log (some path) max disk) pre).Readable c :=
  Lts.foldl_iff (P := Keeps (disk.getD [])) (C := fun _ log c => c.OneLine ∧ log.Readable c) keeps_iff Good.step calls
    (good_configure hpath hdisk log max)

/-- The record that the handshake writes for an agent of that name. -/
def connected (name : String) : Call where
  now := { text := "2025-01-01T00:00:00.000Z".toList, oneLine := by decide +kernel }
  msg := "agent connected"
  fields := some [("name", some (.str name)), ("lanIp", some .null), ("lanPort", some (.num (.fin 8080)))]

instance (log : Log) (c : Call) : Decidable (log.Readable c) := by
  unfold Log.Readable
  infer_instance

/-- Nine lines of an earlier run. -/
def earlier : Bytes := (List.replicate 9 [111, 107, 10]).flatten

/-- The first agent makes the log trim what it found, the second is one more line. -/
theorem ceiling_iff_trimmed :
    Keeps earlier [] (configure initial (some "health.log") 10 (some earlier)) (connected "pico") ∧
    Keeps earlier [connected "pico"] (run (configure initial (some "health.log") 10 (some earlier)) [connected "pico"])
      (connected "nano") ∧
    (run (configure initial (some "health.log") 10 (some earlier)) [connected "pico"]).lines = 8 ∧
    (run (configure initial (some "health.log") 10 (some earlier)) [connected "pico", connected "nano"]).lines = 9 := by
  have hpath : "health.log" ≠ "" := by decide
  have hends : (some earlier).getD [] = [] ∨ ((some earlier).getD []).getLast? = some 10 := .inr (by decide +kernel)
  have hkeeps := (ceiling_iff hpath hends initial 10 [connected "pico", connected "nano"]).mpr fun pre c post he => by
    cases pre with
    | nil =>
      obtain ⟨rfl, -⟩ := List.cons.inj he
      exact ⟨oneLine_iff.mpr (by decide +kernel), by decide +kernel⟩
    | cons c1 pre =>
      obtain ⟨rfl, hrest⟩ := List.cons.inj he
      cases pre with
      | nil =>
        obtain ⟨rfl, -⟩ := List.cons.inj hrest
        exact ⟨oneLine_iff.mpr (by decide +kernel), by decide +kernel⟩
      | cons c2 pre => simp at he
  exact ⟨hkeeps [] _ _ rfl, hkeeps [_] _ _ rfl, by decide +kernel, by decide +kernel⟩

/-- A name of eleven newlines: twelve lines in a file of at most nine, and a counter of one. -/
theorem not_ceiling :
    (run (configure initial (some "health.log") 10 none) [connected "x\n\n\n\n\n\n\n\n\n\n\ny"]).content.count 10 = 12 ∧
    (run (configure initial (some "health.log") 10 none) [connected "x\n\n\n\n\n\n\n\n\n\n\ny"]).lines = 1 ∧
    ¬ ∀ (path : String) (disk : Option Bytes) (log : Log) (max : Int) (calls : List Call), path ≠ "" →
      (disk.getD [] = [] ∨ (disk.getD []).getLast? = some 10) → ∀ pre c post, calls = pre ++ c :: post →
        Keeps (disk.getD []) pre (run (configure log (some path) max disk) pre) c := by
  refine ⟨by decide +kernel, by decide +kernel, fun h => ?_⟩
  have hk := h "health.log" none initial 10 [connected "x\n\n\n\n\n\n\n\n\n\n\ny"] (by decide) (.inl rfl)
    [] _ [] rfl
  exact absurd hk.one (by decide +kernel)

end HealthLog

end UpTunnel
