import UpTunnel.Lib.JsonText

/-!
# UpTunnel.Lib.JsonRound

What `JSON.stringify` and `Buffer.from` make of strings, `Buffer.toString` and `JSON.parse` take back.

* `utf8Chars_utf8Encode`: the characters of a string come back from its bytes.
* `stringBody_quote`: so does a string from its literal.
* `jsonParse_stringify`: and so does an object whose members are strings.
-/

namespace Js

/-! ## UTF-8 -/

section
variable {a b c d : UInt8} {rest : Bytes}

theorem utf8Chars_one (h : a < 0x80) : utf8Chars (a :: rest) = Char.ofNat a.toNat :: utf8Chars rest := by
  rw [utf8Chars.eq_def]
  simp only [h, if_true]

theorem utf8Chars_two (h : 0xc2 ≤ a ∧ a ≤ 0xdf) (hb : isTail b = true) : utf8Chars (a :: b :: rest) =
    Char.ofNat (a.toNat % 0x20 * 0x40 + tailBits b) :: utf8Chars rest := by
  rw [utf8Chars.eq_def]
  dsimp only
  rw [if_neg, if_pos h, if_pos hb]
  simp only [UInt8.lt_iff_toNat_lt, UInt8.le_iff_toNat_le, UInt8.reduceToNat] at h ⊢
  omega

theorem utf8Chars_three (h : 0xe0 ≤ a ∧ a ≤ 0xef) (hb : isSecond a b = true) (hc : isTail c = true) :
    utf8Chars (a :: b :: c :: rest) =
    Char.ofNat (a.toNat % 0x10 * 0x1000 + tailBits b * 0x40 + tailBits c) :: utf8Chars rest := by
  rw [utf8Chars.eq_def]
  dsimp only
  rw [if_neg, if_neg, if_pos h, if_pos hb, if_pos hc]
  all_goals
    simp only [UInt8.lt_iff_toNat_lt, UInt8.le_iff_toNat_le, UInt8.reduceToNat] at h ⊢
    omega

theorem utf8Chars_four (h : 0xf0 ≤ a ∧ a ≤ 0xf4) (hb : isSecond a b = true) (hc : isTail c = true)
    (hd : isTail d = true) : utf8Chars (a :: b :: c :: d :: rest) =
    Char.ofNat (a.toNat % 0x08 * 0x40000 + tailBits b * 0x1000 + tailBits c * 0x40 + tailBits d) ::
      utf8Chars rest := by
  rw [utf8Chars.eq_def]
  dsimp only
  rw [if_neg, if_neg, if_neg, if_pos h, if_pos hb, if_pos hc, if_pos hd]
  all_goals
    simp only [UInt8.lt_iff_toNat_lt, UInt8.le_iff_toNat_le, UInt8.reduceToNat] at h ⊢
    omega

end

theorem toNat_ofNat {n : Nat} (h : n < 256) : (UInt8.ofNat n).toNat = n := by
  rw [UInt8.toNat_ofNat']
  omega

/-- The last six bits, in a byte of their own. -/
theorem isTail_ofNat (v : Nat) : isTail (UInt8.ofNat (v % 0x40 + 0x80)) = true := by
  have h := toNat_ofNat (n := v % 0x40 + 0x80) (by omega)
  simp only [isTail, UInt8.le_iff_toNat_le, UInt8.reduceToNat, h, decide_eq_true_eq]
  omega

theorem tailBits_ofNat (v : Nat) : tailBits (UInt8.ofNat (v % 0x40 + 0x80)) = v % 0x40 := by
  rw [tailBits, toNat_ofNat (by omega)]
  omega

/-- The second byte is one that the lead byte `n` allows. -/
theorem isSecond_ofNat {n v : Nat} (hn : n < 256) (h0 : n = 0xe0 → 0x20 ≤ v % 0x40) (h1 : n = 0xed → v % 0x40 < 0x20)
    (h2 : n = 0xf0 → 0x10 ≤ v % 0x40) (h3 : n = 0xf4 → v % 0x40 < 0x10) :
    isSecond (UInt8.ofNat n) (UInt8.ofNat (v % 0x40 + 0x80)) = true := by
  have hlead : ∀ m : UInt8, UInt8.ofNat n = m ↔ n = m.toNat := fun m => by
    rw [← UInt8.toNat_inj, toNat_ofNat hn]
  have hb := toNat_ofNat (n := v % 0x40 + 0x80) (by omega)
  unfold isSecond
  simp only [hlead, UInt8.reduceToNat, isTail_ofNat, UInt8.le_iff_toNat_le, hb]
  split
  · simp only [decide_eq_true_eq]
    omega
  split
  · simp only [decide_eq_true_eq]
    omega
  split
  · simp only [decide_eq_true_eq]
    omega
  split
  · simp only [decide_eq_true_eq]
    omega
  · rfl

theorem utf8Chars_encodeChar (c : Char) (rest : Bytes) :
    utf8Chars (String.utf8EncodeChar c ++ rest) = c :: utf8Chars rest := by
  have hc : Char.ofNat c.val.toNat = c := Char.ofNat_toNat c
  have hvalid := c.valid
  simp only [UInt32.isValidChar, Nat.isValidChar] at hvalid
  unfold String.utf8EncodeChar
  generalize c.val.toNat = v at hc hvalid
  simp only []
  split
  · rw [List.singleton_append, utf8Chars_one, toNat_ofNat (by omega), hc]
    simp only [UInt8.lt_iff_toNat_lt, UInt8.reduceToNat, toNat_ofNat (n := v) (by omega)]
    omega
  split
  · have hlead := toNat_ofNat (n := v / 64 % 0x20 + 0xc0) (by omega)
    rw [List.cons_append, List.singleton_append, utf8Chars_two _ (isTail_ofNat v), tailBits_ofNat, hlead]
    · rw [show (v / 64 % 0x20 + 0xc0) % 0x20 * 0x40 + v % 0x40 = v by omega, hc]
    · simp only [UInt8.le_iff_toNat_le, UInt8.reduceToNat, hlead]
      omega
  split
  · have hlead := toNat_ofNat (n := v / 4096 % 0x10 + 0xe0) (by omega)
    rw [List.cons_append, List.cons_append, List.singleton_append,
      utf8Chars_three _ (isSecond_ofNat (by omega) (by omega) (by omega) (by omega) (by omega)) (isTail_ofNat v),
      tailBits_ofNat, tailBits_ofNat, hlead]
    · rw [show (v / 4096 % 0x10 + 0xe0) % 0x10 * 0x1000 + v / 64 % 0x40 * 0x40 + v % 0x40 = v by omega, hc]
    · simp only [UInt8.le_iff_toNat_le, UInt8.reduceToNat, hlead]
      omega
  · have hlead := toNat_ofNat (n := v / 262144 % 0x08 + 0xf0) (by omega)
    rw [List.cons_append, List.cons_append, List.cons_append, List.singleton_append,
      utf8Chars_four _ (isSecond_ofNat (by omega) (by omega) (by omega) (by omega) (by omega))
        (isTail_ofNat (v / 64)) (isTail_ofNat v), tailBits_ofNat, tailBits_ofNat, tailBits_ofNat, hlead]
    · rw [show (v / 262144 % 0x08 + 0xf0) % 0x08 * 0x40000 + v / 4096 % 0x40 * 0x1000 + v / 64 % 0x40 * 0x40 +
        v % 0x40 = v by omega, hc]
    · simp only [UInt8.le_iff_toNat_le, UInt8.reduceToNat, hlead]
      omega

theorem utf8Chars_utf8Encode (s : String) : utf8Chars (utf8Encode s) = s.toList := by
  unfold utf8Encode
  induction s.toList with
  | nil => rw [List.flatMap_nil, utf8Chars]
  | cons c cs ih => rw [List.flatMap_cons, utf8Chars_encodeChar, ih]

/-- What `stringPieces` makes of a character that `quoteChar` has written. -/
def pieceOf (c : Char) : Piece :=
  if c.toNat < 0x20 ∧ c ∉ ['\x08', '\x0c', '\n', '\r', '\t'] then .unit c.toNat else .char c

theorem hexVal_hexDigit : ∀ n, n < 0x20 → hexVal ['0', '0', hexDigit (n / 16), hexDigit (n % 16)] = some n := by
  decide

theorem stringPieces_quoteChar (c : Char) (rest : List Char) : stringPieces (quoteChar c ++ rest) =
    (stringPieces rest).map fun (ps, r) => (pieceOf c :: ps, r) := by
  unfold quoteChar
  split
  · subst_vars
    simp [stringPieces, pieceOf]
  split
  · subst_vars
    simp [stringPieces, pieceOf]
  split
  · subst_vars
    simp [stringPieces, pieceOf]
  split
  · subst_vars
    simp [stringPieces, pieceOf]
  split
  · subst_vars
    simp [stringPieces, pieceOf]
  split
  · subst_vars
    simp [stringPieces, pieceOf]
  split
  · subst_vars
    simp [stringPieces, pieceOf]
  split
  · rename_i hlow
    have hv := hexVal_hexDigit c.toNat hlow
    simp only [List.cons_append, List.nil_append, stringPieces, hv]
    rw [pieceOf, if_pos ⟨hlow, by simp [*]⟩]
  · rename_i hlow
    rw [pieceOf, if_neg fun h => hlow h.1, List.singleton_append, stringPieces.eq_def]
    split <;> simp_all

theorem joinPieces_unit {u : Nat} (h : u < 0x20) (ps : List Piece) :
    joinPieces (.unit u :: ps) = Char.ofNat u :: joinPieces ps := by
  have hl : loneUnit u = Char.ofNat u := if_neg (by omega)
  cases ps with
  | nil => simp [joinPieces, hl]
  | cons p ps =>
    cases p with
    | char c => simp [joinPieces, hl]
    | unit lo =>
      rw [joinPieces, if_neg (by omega), hl]

theorem joinPieces_map (cs : List Char) : joinPieces (cs.map pieceOf) = cs := by
  induction cs with
  | nil => rfl
  | cons c cs ih =>
    rw [List.map_cons, pieceOf]
    split
    · rename_i h
      rw [joinPieces_unit h.1, ih, Char.ofNat_toNat]
    · rw [joinPieces, ih]

theorem stringPieces_quote (cs r : List Char) :
    stringPieces (cs.flatMap quoteChar ++ '"' :: r) = some (cs.map pieceOf, r) := by
  induction cs with
  | nil => rfl
  | cons c cs ih =>
    simp only [List.flatMap_cons, List.append_assoc, stringPieces_quoteChar, ih, Option.map_some, List.map_cons]

/-- The text of a literal after its first quote. -/
def quoted (s : String) : List Char := s.toList.flatMap quoteChar ++ ['"']

theorem stringBody_quote (s : String) (r : List Char) : stringBody (quoted s ++ r) = some (s.toList, r) := by
  rw [stringBody, quoted, List.append_assoc, List.singleton_append, stringPieces_quote]
  simp [joinPieces_map]

theorem toList_quote (s : String) : (quote s).toList = '"' :: quoted s := by
  simp [quote, quoted]

/-! ## Objects -/

/-- The object whose members are the strings of `ms`. -/
def texts (ms : List (String × String)) : Obj := ms.map fun m => (m.1, .str m.2)

/-- One member as `JSON.stringify` writes it. -/
def member (m : String × String) : List Char := '"' :: quoted m.1 ++ ':' :: '"' :: quoted m.2

theorem toList_stringify (ms : List (String × String)) :
    (Json.obj (texts ms)).stringify.toList = '\x7b' :: [','].intercalate (ms.map member) ++ ['\x7d'] := by
  have h : (memberTexts (texts ms)).map String.toList = ms.map member := by
    unfold texts
    induction ms with
    | nil => rfl
    | cons m ms ih =>
      simp only [List.map_cons, memberTexts, ih, String.toList_append, toList_quote, Json.stringify]
      simp [member]
  rw [Json.stringify, String.toList_append, String.toList_append, String.toList_intercalate, h]
  rfl

theorem skipSpace_mark {c : Char} {r : List Char} (h : isJsonSpace c = false) : skipSpace (c :: r) = c :: r := by
  simp [skipSpace, h]

theorem value_str (n : Nat) (s : String) (r : List Char) :
    value (n + 1) ('"' :: quoted s ++ r) = some (.str s, r) := by
  rw [List.cons_append, value, stringBody_quote]
  simp

theorem set_of_new {o : Obj} {k : String} (h : k ∉ o.map (·.1)) (v : Json) : o.set k v = o ++ [(k, v)] := by
  rw [Obj.set, if_neg]
  simpa [Prod.forall] using h

theorem skipSpace_members (m : String × String) (ms : List (String × String)) (r : List Char) :
    skipSpace ([','].intercalate ((m :: ms).map member) ++ r) = [','].intercalate ((m :: ms).map member) ++ r := by
  cases ms with
  | nil => simp [member, skipSpace, isJsonSpace]
  | cons m' ms => simp [member, skipSpace, isJsonSpace, List.intercalate_cons_cons]

theorem length_members (ms : List (String × String)) : ms.length ≤ ([','].intercalate (ms.map member)).length := by
  induction ms with
  | nil => simp
  | cons m ms ih =>
    cases ms with
    | nil => simp [member]
    | cons m' ms =>
      rw [List.map_cons, List.map_cons, List.intercalate_cons_cons]
      simp only [List.map_cons, List.length_append, List.length_cons] at ih ⊢
      omega

section
variable {m : String × String} {kvs : Obj} (n : Nat) (r : List Char)

theorem members_last (h : m.1 ∉ kvs.map (·.1)) :
    members (n + 2) kvs (member m ++ '\x7d' :: r) = some (kvs ++ [(m.1, .str m.2)], r) := by
  have hm : member m ++ '\x7d' :: r = '"' :: (quoted m.1 ++ ':' :: '"' :: (quoted m.2 ++ '\x7d' :: r)) := by
    simp [member]
  have hv : value (n + 1) ('"' :: (quoted m.2 ++ '\x7d' :: r)) = some (.str m.2, '\x7d' :: r) := value_str n _ _
  rw [hm, members]
  simp (disch := decide) only [stringBody_quote, skipSpace_mark, hv, String.ofList_toList, set_of_new h]

theorem members_next (h : m.1 ∉ kvs.map (·.1)) : members (n + 2) kvs (member m ++ ',' :: r) =
    members (n + 1) (kvs ++ [(m.1, .str m.2)]) (skipSpace r) := by
  have hm : member m ++ ',' :: r = '"' :: (quoted m.1 ++ ':' :: '"' :: (quoted m.2 ++ ',' :: r)) := by simp [member]
  have hv : value (n + 1) ('"' :: (quoted m.2 ++ ',' :: r)) = some (.str m.2, ',' :: r) := value_str n _ _
  rw [hm, members]
  simp (disch := decide) only [stringBody_quote, skipSpace_mark, hv, String.ofList_toList, set_of_new h]

end

/-- By induction on the members: each is read, and its key is new. -/
theorem members_texts (r : List Char) : ∀ (ms : List (String × String)) (m : String × String) (n : Nat) (kvs : Obj),
    ms.length ≤ n → (kvs.map (·.1) ++ (m :: ms).map (·.1)).Nodup →
      members (n + 2) kvs ([','].intercalate ((m :: ms).map member) ++ '\x7d' :: r) = some (kvs ++ texts (m :: ms), r)
  | [], m, n, kvs, _, hk => by
    have hnew : m.1 ∉ kvs.map (·.1) := fun hm => (List.nodup_append.mp hk).2.2 _ hm _ List.mem_cons_self rfl
    rw [List.map_singleton, List.intercalate_singleton, members_last n r hnew]
    rfl
  | m' :: ms, m, 0, _, hn, _ => by simp at hn
  | m' :: ms, m, n + 1, kvs, hn, hk => by
    have hnew : m.1 ∉ kvs.map (·.1) := fun hm => (List.nodup_append.mp hk).2.2 _ hm _ List.mem_cons_self rfl
    have ih := members_texts r ms m' n (kvs ++ [(m.1, .str m.2)]) (by simpa using hn)
      (by simpa [List.append_assoc] using hk)
    rw [List.map_cons, List.map_cons, List.intercalate_cons_cons, List.append_assoc, List.append_assoc,
      List.singleton_append, members_next _ _ hnew, ← List.map_cons, skipSpace_members, ih, List.append_assoc]
    rfl

/-- An object whose members are strings comes back from its text. -/
theorem jsonParse_stringify {ms : List (String × String)} (h : (ms.map (·.1)).Nodup) :
    jsonParse (Json.obj (texts ms)).stringify.toList = some (.obj (texts ms)) := by
  rw [toList_stringify, jsonParse]
  cases ms with
  | nil => rfl
  | cons m ms =>
    obtain ⟨n, hn, hl⟩ : ∃ n, 2 * ('\x7b' :: [','].intercalate ((m :: ms).map member) ++ ['\x7d']).length + 2 = n + 3 ∧
        ms.length ≤ n := by
      have hl := length_members (m :: ms)
      refine ⟨2 * ([','].intercalate ((m :: ms).map member)).length + 3, ?_, ?_⟩
      · simp only [List.length_append, List.length_cons, List.length_nil]
        omega
      · rw [List.length_cons] at hl
        omega
    have hm := members_texts [] ms m n [] hl (by simpa using h)
    have hv : value (n + 3) ('\x7b' :: ([','].intercalate ((m :: ms).map member) ++ ['\x7d'])) =
        some (.obj (texts (m :: ms)), []) := by
      rw [value, skipSpace_members]
      split
      · rename_i he
        cases ms <;> simp [member, List.intercalate_cons_cons] at he
      · rw [hm]
        rfl
    rw [hn, List.cons_append, skipSpace_mark rfl, hv]
    rfl

end Js
