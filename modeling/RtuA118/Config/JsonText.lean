import RtuA118.Config.Json

/-!
# RtuA118.Config.JsonText

**JSON texts**, as syntax trees: what a text says, and how it is written.

A tree has everything that a text chooses: blanks, escapes, the case of a hexadecimal digit, the
form of a number. Two things a tree cannot say: the character of code 0, which the parser drops,
and an exponent that no `int` holds, which wraps. The parser reads every text as what it says
(`cJSONParse_text`), and in particular unescapes each string into a block that is large enough.
-/

namespace RtuA118

/-! ### Blanks -/

/-- What `skip` passes over. -/
structure Blank where
  chars : List UInt8
  skipped : ∀ c ∈ chars, c ≠ 0 ∧ c ≤ 32

theorem skip_blank (w : Blank) (s : List UInt8) : skip (w.chars ++ s) = skip s := by
  obtain ⟨cs, hcs⟩ := w
  dsimp only
  induction cs with
  | nil => rfl
  | cons c cs ih =>
      rw [List.cons_append, skip, if_pos (hcs c List.mem_cons_self)]
      exact ih fun c' hc' => hcs c' (List.mem_cons_of_mem _ hc')

theorem skip_cons {c : UInt8} {s : List UInt8} (h : 32 < c) : skip (c :: s) = c :: s := by
  rw [skip, if_neg]
  exact fun hc => absurd hc.2 (UInt8.not_le.2 h)

theorem skip_skip (s : List UInt8) : skip (skip s) = skip s := by
  induction s with
  | nil => rfl
  | cons c s ih =>
      rw [skip]
      split
      · exact ih
      · rename_i h
        rw [skip, if_neg h]

/-! ### Digits -/

abbrev Digit := Fin 10

def digitByte (d : Digit) : UInt8 := UInt8.ofNat (48 + d)

def digitBytes (ds : List Digit) : List UInt8 := ds.map digitByte

/-- The digits behind those of `n`. -/
def digitsValue (n : Nat) (ds : List Digit) : Nat :=
  ds.foldl (fun (n : Nat) (d : Digit) => n * 10 + d.val) n

theorem isDigit_digitByte : ∀ d : Digit, isDigit (digitByte d) = true := by decide

theorem toNat_digitByte : ∀ d : Digit, (digitByte d).toNat - 48 = d := by decide

/-- A digit is none of the other characters of a number. -/
theorem digitByte_ne : ∀ d : Digit, digitByte d ≠ byte '-' ∧ digitByte d ≠ byte '+' := by decide

theorem readDigits_stop {n : Nat} {s : List UInt8} (h : isDigit (peek s) = false) :
    readDigits n s = (n, 0, s) := by
  cases s with
  | nil => rfl
  | cons c s => rw [readDigits, if_neg (by rw [show isDigit c = false from h]; decide)]

theorem readDigits_bytes {s : List UInt8} (h : isDigit (peek s) = false) (ds : List Digit) :
    ∀ n, readDigits n (digitBytes ds ++ s) = (digitsValue n ds, ds.length, s) := by
  induction ds with
  | nil => exact fun n => readDigits_stop h
  | cons d ds ih =>
      intro n
      have hstep := ih (n * 10 + d)
      rw [digitBytes, List.map_cons, List.cons_append, readDigits, if_pos (isDigit_digitByte d),
        toNat_digitByte]
      exact congrArg (fun r => (r.1, r.2.1 + 1, r.2.2)) hstep

/-! ### Numbers -/

/-- The digits before the point. -/
inductive WholeText where
  | zero
  | digits (first : Fin 9) (more : List Digit)

/-- `e` or `E`, a sign, the digits of an `int`. -/
structure ExponentText where
  upper : Bool
  sign : Option Bool
  first : Digit
  more : List Digit
  fits : digitsValue 0 (first :: more) < 0x80000000

/-- No `places` and no `exponent` are not written. -/
structure NumberText where
  negative : Bool
  whole : WholeText
  places : List Digit
  exponent : Option ExponentText

def WholeText.text : WholeText → List UInt8
  | zero => [byte '0']
  | digits first more => digitBytes (first.succ :: more)

def WholeText.value : WholeText → Nat
  | zero => 0
  | digits first more => digitsValue 0 (first.succ :: more)

def placesText (places : List Digit) : List UInt8 :=
  if places = [] then [] else byte '.' :: digitBytes places

/-- The sign of an exponent, `true` being a minus. -/
def signText : Option Bool → List UInt8
  | none => []
  | some true => [byte '-']
  | some false => [byte '+']

def ExponentText.text (e : ExponentText) : List UInt8 :=
  (if e.upper then byte 'E' else byte 'e') :: (signText e.sign ++ digitBytes (e.first :: e.more))

def ExponentText.value (e : ExponentText) : Int :=
  let subscale := digitsValue 0 (e.first :: e.more)
  if e.sign.getD false then -(subscale : Int) else subscale

def exponentText : Option ExponentText → List UInt8 := (·.elim [] ExponentText.text)

def exponentValue : Option ExponentText → Int := (·.elim 0 ExponentText.value)

namespace NumberText

variable (v : NumberText)

def text : List UInt8 :=
  (if v.negative then [byte '-'] else []) ++ (v.whole.text ++ (placesText v.places ++
    exponentText v.exponent))

def value : JsonNumber :=
  ⟨v.negative, digitsValue v.whole.value v.places, exponentValue v.exponent - v.places.length⟩

end NumberText

/-- No number goes on here. -/
structure NumberEnds (s : List UInt8) : Prop where
  digit : isDigit (peek s) = false
  point : peek s ≠ byte '.'
  exponent : peek s ≠ byte 'e' ∧ peek s ≠ byte 'E'

section Numbers

variable {s : List UInt8}

theorem parseExponentSign_text (sign : Option Bool) (first : Digit) (more : List Digit) :
    parseExponentSign (signText sign ++ (digitBytes (first :: more) ++ s)) =
      (sign.getD false, digitBytes (first :: more) ++ s) := by
  unfold parseExponentSign
  match sign with
  | none =>
      have hfirst : peek (digitBytes (first :: more) ++ s) = digitByte first := rfl
      rw [signText, List.nil_append, hfirst, if_neg (digitByte_ne first).2,
        if_neg (digitByte_ne first).1]
      rfl
  | some true =>
      rw [signText, List.singleton_append, peek_cons, if_neg (by decide), if_pos rfl]
      rfl
  | some false =>
      rw [signText, List.singleton_append, peek_cons, if_pos rfl]
      rfl

theorem parseExponent_text {e : Option ExponentText} (h : NumberEnds s) :
    parseExponent (exponentText e ++ s) = (exponentValue e, s) := by
  unfold parseExponent
  cases e with
  | none => exact if_neg (not_or.2 h.exponent)
  | some e =>
      obtain ⟨upper, sign, first, more, fits⟩ := e
      have hletter : ∀ upper : Bool, (if upper then byte 'E' else byte 'e') = byte 'e' ∨
          (if upper then byte 'E' else byte 'e') = byte 'E' := by decide
      have hcons : exponentText (some ⟨upper, sign, first, more, fits⟩) ++ s =
          (if upper then byte 'E' else byte 'e') ::
            (signText sign ++ (digitBytes (first :: more) ++ s)) := by
        rw [exponentText, Option.elim, ExponentText.text, List.cons_append, List.append_assoc]
      rw [hcons, peek_cons, if_pos (hletter upper), List.tail_cons, parseExponentSign_text]
      dsimp only
      rw [readDigits_bytes h.digit, exponentValue, Option.elim]
      -- an exponent that an `int` holds has not wrapped
      refine congrArg (·, s) (Int.bmod_eq_of_le ?_ ?_) <;> split <;> omega

/-- An exponent, or the end of the number, starts with neither a digit nor a point. -/
theorem exponentText_starts (e : Option ExponentText) (h : NumberEnds s) :
    isDigit (peek (exponentText e ++ s)) = false ∧ peek (exponentText e ++ s) ≠ byte '.' := by
  cases e with
  | none => exact ⟨h.digit, h.point⟩
  | some e =>
      have hletter : ∀ upper : Bool, isDigit (if upper then byte 'E' else byte 'e') = false ∧
          (if upper then byte 'E' else byte 'e') ≠ byte '.' := by decide
      exact hletter e.upper

theorem parsePlaces_text {n : Nat} {places : List Digit} (hdigit : isDigit (peek s) = false)
    (hpoint : peek s ≠ byte '.') :
    parsePlaces n (placesText places ++ s) = (digitsValue n places, places.length, s) := by
  unfold parsePlaces placesText
  cases places with
  | nil => exact if_neg fun hs => hpoint hs.1
  | cons d places =>
      have hfirst : isDigit (peek (digitBytes (d :: places) ++ s)) = true := isDigit_digitByte d
      rw [if_neg (List.cons_ne_nil _ _), List.cons_append, peek_cons, List.tail_cons,
        if_pos ⟨rfl, hfirst⟩]
      exact readDigits_bytes hdigit (d :: places) n

/-- The places, or what follows, do not start with a digit. -/
theorem placesText_starts (places : List Digit) (hdigit : isDigit (peek s) = false) :
    isDigit (peek (placesText places ++ s)) = false := by
  unfold placesText
  split
  · exact hdigit
  · exact show isDigit (byte '.') = false by decide

theorem parseWhole_text {whole : WholeText} (h : isDigit (peek s) = false) :
    parseWhole (whole.text ++ s) = (whole.value, s) := by
  unfold parseWhole
  cases whole with
  | zero =>
      have hno : ¬ (byte '1' ≤ peek s ∧ peek s ≤ byte '9') := by
        rintro ⟨hlo, hhi⟩
        rw [UInt8.le_iff_toNat_le] at hlo hhi
        have hd : isDigit (peek s) = true := isDigit_iff.2 ⟨Nat.le_of_succ_le hlo, hhi⟩
        rw [h] at hd
        cases hd
      rw [WholeText.text, List.singleton_append, peek_cons, if_pos rfl]
      exact if_neg hno
  | digits first more =>
      have hfirst : ∀ first : Fin 9, digitByte first.succ ≠ byte '0' ∧
          byte '1' ≤ digitByte first.succ ∧ digitByte first.succ ≤ byte '9' := by decide
      have hcons : (WholeText.digits first more).text ++ s =
          digitByte first.succ :: (digitBytes more ++ s) := rfl
      rw [hcons, peek_cons, if_neg (hfirst first).1]
      dsimp only
      rw [peek_cons, if_pos (hfirst first).2, ← hcons, WholeText.text, readDigits_bytes h]
      rfl

theorem wholeText_starts (whole : WholeText) : peek (whole.text ++ s) ≠ byte '-' ∧
    isDigit (peek (whole.text ++ s)) = true := by
  cases whole with
  | zero => exact show byte '0' ≠ byte '-' ∧ isDigit (byte '0') = true by decide
  | digits first more => exact ⟨(digitByte_ne _).1, isDigit_digitByte _⟩

/-- **A number reads as what its digits say.** -/
theorem parseNumber_text (v : NumberText) (h : NumberEnds s) :
    parseNumber (v.text ++ s) = (v.value, s) := by
  obtain ⟨negative, whole, places, exponent⟩ := v
  have hexp := exponentText_starts exponent h
  have hplaces := placesText_starts places hexp.1
  have hsign : parseSign (NumberText.text ⟨negative, whole, places, exponent⟩ ++ s) =
      (negative, whole.text ++ (placesText places ++ (exponentText exponent ++ s))) := by
    unfold parseSign NumberText.text
    cases negative with
    | false =>
        rw [if_neg Bool.false_ne_true, List.nil_append, List.append_assoc, List.append_assoc,
          if_neg (wholeText_starts whole).1]
    | true =>
        rw [if_pos rfl, List.append_assoc, List.append_assoc, List.append_assoc,
          if_pos (show peek ([byte '-'] ++ _) = byte '-' from rfl)]
        rfl
  unfold parseNumber
  rw [hsign]
  dsimp only
  rw [parseWhole_text hplaces]
  dsimp only
  rw [parsePlaces_text hexp.1 hexp.2]
  dsimp only
  rw [parseExponent_text h]
  rfl

end Numbers

/-! ### Characters -/

/-- The escapes of one letter. -/
inductive Escape where
  | quote
  | backslash
  | slash
  | b
  | f
  | n
  | r
  | t

def Escape.letter : Escape → UInt8
  | quote => byte '"'
  | backslash => byte '\\'
  | slash => byte '/'
  | b => byte 'b'
  | f => byte 'f'
  | n => byte 'n'
  | r => byte 'r'
  | t => byte 't'

def Escape.value : Escape → UInt8
  | quote => byte '"'
  | backslash => byte '\\'
  | slash => byte '/'
  | b => 8
  | f => 12
  | n => 10
  | r => 13
  | t => 9

def hexByte (upper : Bool) (d : Nat) : UInt8 :=
  UInt8.ofNat (if d < 10 then 48 + d else if upper then 55 + d else 87 + d)

/-- `\u` and four digits, each in one case or the other. -/
def unitText (upper : Nat → Bool) (v : Nat) : List UInt8 :=
  [byte '\\', byte 'u', hexByte (upper 0) (v / 4096 % 16), hexByte (upper 1) (v / 256 % 16),
    hexByte (upper 2) (v / 16 % 16), hexByte (upper 3) (v % 16)]

/-- A character by its UTF-16. -/
def unicodeText (upper : Nat → Bool) (c : Char) : List UInt8 :=
  if c.toNat < 0x10000 then unitText upper c.toNat
  else unitText upper (0xD800 + (c.toNat - 0x10000) / 1024) ++
    unitText (fun k => upper (k + 4)) (0xDC00 + (c.toNat - 0x10000) % 1024)

/-- A byte as it is; an escape; or a character, but the one that ends a string. -/
inductive JsonChar where
  | plain (c : UInt8) (h : c ≠ byte '"' ∧ c ≠ byte '\\' ∧ c ≠ 0)
  | escape (e : Escape)
  | unicode (c : Char) (h : c.toNat ≠ 0) (upper : Nat → Bool)

def JsonChar.text : JsonChar → List UInt8
  | plain c _ => [c]
  | escape e => [byte '\\', e.letter]
  | unicode c _ upper => unicodeText upper c

def JsonChar.value : JsonChar → List UInt8
  | plain c _ => [c]
  | escape e => [e.value]
  | unicode c _ _ => String.utf8EncodeChar c

def charsText (cs : List JsonChar) : List UInt8 := cs.flatMap JsonChar.text

def charsValue (cs : List JsonChar) : List UInt8 := cs.flatMap JsonChar.value

/-! ### Unescaping -/

section Utf8

/-- A byte behind the first has six bits. -/
theorem continuation_eq (v : Nat) :
    (UInt8.ofNat v ||| 0x80) &&& 0xBF = UInt8.ofNat (v % 0x40) + 0x80 := by
  have hall : ∀ m < 256, (UInt8.ofNat m ||| 0x80) &&& 0xBF = UInt8.ofNat (m % 0x40) + 0x80 := by
    decide +kernel
  have hbyte : UInt8.ofNat v = UInt8.ofNat (v % 256) := UInt8.toNat_inj.1 (Nat.mod_mod v 256).symm
  have hlow : v % 256 % 0x40 = v % 0x40 := Nat.mod_mod_of_dvd _ (by decide)
  rw [hbyte, hall _ (Nat.mod_lt _ (by decide)), hlow]

/-- The first byte of two, of three and of four. -/
theorem mark_two : ∀ v < 0x20, UInt8.ofNat (v ||| 0xC0) = UInt8.ofNat (v % 0x20 + 0xC0) := by
  decide

theorem mark_three : ∀ v < 0x10, UInt8.ofNat (v ||| 0xE0) = UInt8.ofNat (v % 0x10 + 0xE0) := by
  decide

theorem mark_four : ∀ v < 0x08, UInt8.ofNat (v ||| 0xF0) = UInt8.ofNat (v % 0x08 + 0xF0) := by
  decide

theorem toNat_lt (c : Char) : c.toNat < 0xD800 ∨ 0xDFFF < c.toNat ∧ c.toNat < 0x110000 := c.valid

/-- **The bytes that the source makes** of a code point are its UTF-8. -/
theorem utf8Of_toNat (c : Char) : utf8Of c.toNat = String.utf8EncodeChar c := by
  have hmax := toNat_lt c
  have hval : c.val.toNat = c.toNat := rfl
  unfold utf8Of String.utf8EncodeChar
  rw [hval]
  by_cases h1 : c.toNat < 0x80
  · have hle : c.toNat ≤ 0x7f := by omega
    simp [h1, hle, fillUtf8, firstByteMark]
  have hle1 : ¬ c.toNat ≤ 0x7f := by omega
  by_cases h2 : c.toNat < 0x800
  · have hle : c.toNat ≤ 0x7ff := by omega
    have hmark := mark_two (c.toNat / 64) (by omega)
    simp [h1, h2, hle1, hle, fillUtf8, firstByteMark, continuation_eq, Nat.shiftRight_eq_div_pow,
      hmark]
  have hle2 : ¬ c.toNat ≤ 0x7ff := by omega
  by_cases h3 : c.toNat < 0x10000
  · have hle : c.toNat ≤ 0xffff := by omega
    have hmark := mark_three (c.toNat / 4096) (by omega)
    simp [h1, h2, h3, hle1, hle2, hle, fillUtf8, firstByteMark, continuation_eq,
      Nat.shiftRight_eq_div_pow, Nat.div_div_eq_div_mul, hmark]
  · have hle3 : ¬ c.toNat ≤ 0xffff := by omega
    have hmark := mark_four (c.toNat / 262144) (by omega)
    simp [h1, h2, h3, hle1, hle2, hle3, fillUtf8, firstByteMark, continuation_eq,
      Nat.shiftRight_eq_div_pow, Nat.div_div_eq_div_mul, hmark]

end Utf8

/-! ### Hexadecimal -/

theorem hexDigit_hexByte : ∀ (upper : Bool) (d : Fin 16), hexDigit (hexByte upper d) = some d := by
  decide

theorem hexDigit_hexByte_mod (upper : Bool) (v : Nat) :
    hexDigit (hexByte upper (v % 16)) = some (v % 16) :=
  hexDigit_hexByte upper ⟨v % 16, Nat.mod_lt _ (by decide)⟩

/-- Four digits read as what they write. -/
theorem parseHex4_text (upper : Nat → Bool) {v : Nat} (hv : v < 0x10000) (s : List UInt8) :
    parseHex4 (hexByte (upper 0) (v / 4096 % 16) :: hexByte (upper 1) (v / 256 % 16) ::
      hexByte (upper 2) (v / 16 % 16) :: hexByte (upper 3) (v % 16) :: s) = v := by
  simp only [parseHex4, List.getD_cons_zero, List.getD_cons_succ, hexDigit_hexByte_mod]
  omega

/-- The two surrogates of a character give it back. -/
theorem surrogates {v : Nat} (hlo : 0x10000 ≤ v) (hhi : v < 0x110000) :
    0x10000 + ((((0xD800 + (v - 0x10000) / 1024) &&& 0x3FF) <<< 10) |||
      ((0xDC00 + (v - 0x10000) % 1024) &&& 0x3FF)) = v := by
  have hand : ∀ n : Nat, n &&& 0x3FF = n % 1024 := fun n => Nat.and_two_pow_sub_one_eq_mod n 10
  have hhigh : (0xD800 + (v - 0x10000) / 1024) % 1024 = (v - 0x10000) / 1024 := by omega
  have hlow : (0xDC00 + (v - 0x10000) % 1024) % 1024 = (v - 0x10000) % 1024 := by omega
  rw [hand, hand, hhigh, hlow, ← Nat.shiftLeft_add_eq_or_of_lt (Nat.mod_lt _ (by decide)),
    Nat.shiftLeft_eq]
  omega

/-! ### Strings -/

section Strings

variable {s : List UInt8}

theorem unescapeUnicode_text {c : Char} (hc : c.toNat ≠ 0) (upper : Nat → Bool) :
    unescapeUnicode ((unicodeText upper c ++ s).tail) = (String.utf8EncodeChar c, s) := by
  have hmax := toNat_lt c
  rw [← utf8Of_toNat]
  unfold unicodeText unescapeUnicode
  by_cases hbmp : c.toNat < 0x10000
  · rw [if_pos hbmp]
    simp only [unitText, List.cons_append, List.nil_append, List.tail_cons, List.drop_succ_cons,
      List.drop_zero, parseHex4_text upper hbmp]
    rw [if_neg (by omega), if_neg (by omega)]
  · have hhigh : 0xD800 + (c.toNat - 0x10000) / 1024 < 0x10000 := by omega
    have hlow : 0xDC00 + (c.toNat - 0x10000) % 1024 < 0x10000 := by omega
    rw [if_neg hbmp]
    simp only [unitText, List.cons_append, List.nil_append, List.tail_cons, List.drop_succ_cons,
      List.drop_zero, parseHex4_text upper hhigh, List.getD_cons_succ, List.getD_cons_zero]
    rw [if_neg (by omega), if_pos (by omega), if_neg (by simp),
      parseHex4_text (fun k => upper (k + 4)) hlow s,
      if_neg (by omega), surrogates (by omega) (by omega)]

theorem unescape_backslash : unescape (byte '\\' :: s) =
    ((unescapeOne s).1 ++ (unescape (unescapeOne s).2).1, (unescape (unescapeOne s).2).2) := by
  rw [unescape, if_neg (by decide), if_neg (by decide)]

/-- A character is unescaped into what it stands for. -/
theorem unescape_char (ch : JsonChar) :
    unescape (ch.text ++ s) = (ch.value ++ (unescape s).1, (unescape s).2) := by
  cases ch with
  | plain c h =>
      rw [JsonChar.text, List.singleton_append, unescape, if_neg (not_or.2 ⟨h.1, h.2.2⟩),
        if_pos h.2.1]
      rfl
  | escape e =>
      have hone : unescapeOne (e.letter :: s) = ([e.value], s) := by
        cases e <;> rfl
      rw [JsonChar.text, List.cons_append, List.singleton_append, unescape_backslash, hone]
      rfl
  | unicode c h upper =>
      have hcons : unicodeText upper c ++ s = byte '\\' :: (unicodeText upper c ++ s).tail := by
        unfold unicodeText
        split <;> rfl
      have hu : peek (unicodeText upper c ++ s).tail = byte 'u' := by
        unfold unicodeText
        split <;> rfl
      have hone : unescapeOne (unicodeText upper c ++ s).tail = (String.utf8EncodeChar c, s) := by
        unfold unescapeOne
        rw [hu]
        exact unescapeUnicode_text h upper
      rw [JsonChar.text, hcons, unescape_backslash, hone]
      rfl

theorem unescape_chars (cs : List JsonChar) :
    unescape (charsText cs ++ byte '"' :: s) = (charsValue cs, byte '"' :: s) := by
  induction cs with
  | nil => rw [charsText, List.flatMap_nil, List.nil_append, unescape, if_pos (.inl rfl)]; rfl
  | cons ch cs ih =>
      rw [charsText, List.flatMap_cons, List.append_assoc, unescape_char, ← charsText, ih]
      rfl

/-! ### The block of a string -/

theorem stringLen_cons {c : UInt8} (h : c ≠ byte '"' ∧ c ≠ byte '\\' ∧ c ≠ 0) :
    stringLen (c :: s) = stringLen s + 1 := by
  cases s with
  | nil => exact if_neg (not_or.2 ⟨h.1, h.2.2⟩)
  | cons d s => rw [stringLen, if_neg (not_or.2 ⟨h.1, h.2.2⟩), if_neg h.2.1]

theorem stringLen_backslash (d : UInt8) : stringLen (byte '\\' :: d :: s) = stringLen s + 1 := by
  rw [stringLen, if_neg (by decide), if_pos rfl]

theorem hexByte_plain (upper : Bool) (v : Nat) : hexByte upper (v % 16) ≠ byte '"' ∧
    hexByte upper (v % 16) ≠ byte '\\' ∧ hexByte upper (v % 16) ≠ 0 := by
  have hall : ∀ (upper : Bool) (d : Fin 16), hexByte upper d ≠ byte '"' ∧
      hexByte upper d ≠ byte '\\' ∧ hexByte upper d ≠ 0 := by decide
  exact hall upper ⟨v % 16, Nat.mod_lt _ (by decide)⟩

theorem stringLen_unitText (upper : Nat → Bool) (v : Nat) :
    stringLen (unitText upper v ++ s) = stringLen s + 5 := by
  simp only [unitText, List.cons_append, List.nil_append, stringLen_backslash,
    stringLen_cons (hexByte_plain _ _)]

theorem utf8EncodeChar_length (c : Char) : (String.utf8EncodeChar c).length ≤ 4 ∧
    (c.toNat < 0x10000 → (String.utf8EncodeChar c).length ≤ 3) := by
  have hval : c.val.toNat = c.toNat := rfl
  unfold String.utf8EncodeChar
  rw [hval]
  dsimp only
  split_ifs <;> simp only [List.length_cons, List.length_nil] <;> omega

/-- What a character is measured as is enough for what it is unescaped into. -/
theorem stringLen_char (ch : JsonChar) :
    ch.value.length + stringLen s ≤ stringLen (ch.text ++ s) := by
  cases ch with
  | plain c h =>
      rw [JsonChar.text, List.singleton_append, stringLen_cons h, JsonChar.value,
        List.length_singleton]
      omega
  | escape e =>
      rw [JsonChar.text, List.cons_append, List.singleton_append, stringLen_backslash,
        JsonChar.value, List.length_singleton]
      omega
  | unicode c h upper =>
      obtain ⟨hfour, hthree⟩ := utf8EncodeChar_length c
      rw [JsonChar.text, JsonChar.value, unicodeText]
      split
      · rename_i hbmp
        have hle := hthree hbmp
        rw [stringLen_unitText]
        omega
      · rw [List.append_assoc, stringLen_unitText, stringLen_unitText]
        omega

theorem stringLen_chars (cs : List JsonChar) :
    (charsValue cs).length ≤ stringLen (charsText cs ++ s) := by
  induction cs with
  | nil => exact Nat.zero_le _
  | cons ch cs ih =>
      have hch := stringLen_char (s := charsText cs ++ s) ch
      rw [charsValue, List.flatMap_cons, List.length_append, ← charsValue, charsText,
        List.flatMap_cons, List.append_assoc, ← charsText]
      omega

/-- A string and its quotes. -/
def stringText (cs : List JsonChar) : List UInt8 := byte '"' :: (charsText cs ++ [byte '"'])

/-- **A string reads as what its characters stand for**, in a block that is large enough. -/
theorem parseString_text (cs : List JsonChar) :
    parseString (stringText cs ++ s) = .ok (charsValue cs) s := by
  have htail : (stringText cs ++ s).tail = charsText cs ++ byte '"' :: s := by
    rw [stringText, List.cons_append, List.tail_cons, List.append_assoc]
    rfl
  have hhead : peek (stringText cs ++ s) = byte '"' := rfl
  unfold parseString
  rw [if_neg (not_not_intro hhead), htail, unescape_chars]
  dsimp only
  rw [if_neg (Nat.not_lt.2 (stringLen_chars cs)), peek_cons, if_pos rfl, List.tail_cons]

end Strings

/-! ### Texts -/

mutual

/-- A value. -/
inductive JsonText where
  | null
  | false
  | true
  | number (v : NumberText)
  | string (cs : List JsonChar)
  | emptyArray (w : Blank)
  | array (items : ItemsText)
  | emptyObject (w : Blank)
  | object (fields : FieldsText)

/-- The items of an array, and the blanks around each. -/
inductive ItemsText where
  | last (w : Blank) (v : JsonText) (w' : Blank)
  | more (w : Blank) (v : JsonText) (w' : Blank) (items : ItemsText)

/-- The fields of an object, with the blanks around the name and around the value. -/
inductive FieldsText where
  | last (n : Blank) (name : List JsonChar) (n' : Blank) (w : Blank) (v : JsonText) (w' : Blank)
  | more (n : Blank) (name : List JsonChar) (n' : Blank) (w : Blank) (v : JsonText) (w' : Blank)
      (fields : FieldsText)

end

mutual

def JsonText.text : JsonText → List UInt8
  | .null => bytes ['n', 'u', 'l', 'l']
  | .false => bytes ['f', 'a', 'l', 's', 'e']
  | .true => bytes ['t', 'r', 'u', 'e']
  | .number v => v.text
  | .string cs => stringText cs
  | .emptyArray w => byte '[' :: (w.chars ++ [byte ']'])
  | .array items => byte '[' :: (items.text ++ [byte ']'])
  | .emptyObject w => byte '{' :: (w.chars ++ [byte '}'])
  | .object fields => byte '{' :: (fields.text ++ [byte '}'])

def ItemsText.text : ItemsText → List UInt8
  | .last w v w' => w.chars ++ (v.text ++ w'.chars)
  | .more w v w' items => w.chars ++ (v.text ++ (w'.chars ++ byte ',' :: items.text))

def FieldsText.text : FieldsText → List UInt8
  | .last n name n' w v w' =>
    n.chars ++ (stringText name ++ (n'.chars ++ byte ':' :: (w.chars ++ (v.text ++ w'.chars))))
  | .more n name n' w v w' fields =>
    n.chars ++ (stringText name ++ (n'.chars ++ byte ':' :: (w.chars ++ (v.text ++
      (w'.chars ++ byte ',' :: fields.text)))))

end

mutual

def JsonText.value : JsonText → JsonItem
  | .null => .null
  | .false => .false
  | .true => .true
  | .number v => .number v.value
  | .string cs => .string (charsValue cs)
  | .emptyArray _ => .array []
  | .array items => .array items.values
  | .emptyObject _ => .object []
  | .object fields => .object fields.values

def ItemsText.values : ItemsText → List JsonItem
  | .last _ v _ => [v.value]
  | .more _ v _ items => v.value :: items.values

def FieldsText.values : FieldsText → List (List UInt8 × JsonItem)
  | .last _ name _ _ v _ => [(charsValue name, v.value)]
  | .more _ name _ _ v _ fields => (charsValue name, v.value) :: fields.values

end

/-! ### The parser on a text -/

section Parse

variable {s : List UInt8}

/-- What a value starts with: nothing that is passed over or ends anything. -/
def Starts (c : UInt8) : Prop := 32 < c ∧ c ≠ byte ']' ∧ c ≠ byte '}'

instance (c : UInt8) : Decidable (Starts c) := inferInstanceAs (Decidable (_ ∧ _ ∧ _))

theorem WholeText.starts (whole : WholeText) : ∃ c t, whole.text = c :: t ∧ isDigit c = true ∧
    Starts c := by
  have hall : ∀ d : Digit, Starts (digitByte d) := by decide
  cases whole with
  | zero => exact ⟨_, _, rfl, by decide, by decide⟩
  | digits first more => exact ⟨_, _, rfl, isDigit_digitByte _, hall _⟩

theorem NumberText.starts (v : NumberText) : ∃ c t, v.text = c :: t ∧
    (c = byte '-' ∨ isDigit c = true) ∧ Starts c := by
  obtain ⟨c, t, htext, hdigit, hc⟩ := v.whole.starts
  unfold NumberText.text
  split
  · exact ⟨_, _, rfl, .inl rfl, by decide⟩
  · rw [List.nil_append, htext]
    exact ⟨_, _, rfl, .inr hdigit, hc⟩

theorem JsonText.starts (d : JsonText) : ∃ c t, d.text = c :: t ∧ Starts c := by
  cases d with
  | number v =>
      obtain ⟨c, t, htext, -, hc⟩ := v.starts
      exact ⟨c, t, by rw [JsonText.text, htext], hc⟩
  | null | false | true => exact ⟨_, _, rfl, by decide⟩
  | string cs => exact ⟨_, _, by rw [JsonText.text, stringText], by decide⟩
  | _ => exact ⟨_, _, by rw [JsonText.text], by decide⟩

theorem parseValue_number (v : NumberText) (depth : Nat) (hs : NumberEnds s) :
    parseValue (depth + 1) (v.text ++ s) = .ok (.number v.value) s := by
  obtain ⟨c, t, htext, hc, -⟩ := v.starts
  have hle : c.toNat ≤ 57 := by
    rcases hc with rfl | hc
    · decide
    · exact (isDigit_iff.1 hc).2
  have hquote : c ≠ byte '"' := by
    rintro rfl
    exact absurd hc (by decide)
  have hword : ∀ l w, 57 < (byte l).toNat →
      ¬ startsWith (bytes (l :: w)) (c :: (t ++ s)) = true := by
    intro l w hl
    show ¬ (byte l == c && startsWith (bytes w) (t ++ s)) = true
    rw [Bool.and_eq_true, beq_iff_eq]
    rintro ⟨rfl, -⟩
    omega
  have hcons : v.text ++ s = c :: (t ++ s) := by rw [htext, List.cons_append]
  rw [parseValue, hcons, if_neg (hword _ _ (by decide)), if_neg (hword _ _ (by decide)),
    if_neg (hword _ _ (by decide)), peek_cons, if_neg hquote, if_pos hc, ← hcons,
    parseNumber_text v hs]

/-- A blank, a comma and a bracket end a number. -/
theorem numberEnds_cons {c : UInt8} (h : c ≤ 32 ∨ c = byte ',' ∨ c = byte ']' ∨ c = byte '}') :
    NumberEnds (c :: s) := by
  have hc : isDigit c = false ∧ c ≠ byte '.' ∧ c ≠ byte 'e' ∧ c ≠ byte 'E' := by
    rcases h with h | rfl | rfl | rfl
    · rw [UInt8.le_iff_toNat_le] at h
      have hne : ∀ c', 32 < c'.toNat → c ≠ c' := by
        rintro c' hc' rfl
        exact absurd h (Nat.not_le.2 hc')
      refine ⟨Bool.eq_false_iff.2 fun hd => ?_, hne _ (by decide), hne _ (by decide),
        hne _ (by decide)⟩
      exact absurd (Nat.le_trans (isDigit_iff.1 hd).1 h) (by decide)
    all_goals decide
  exact ⟨hc.1, hc.2.1, hc.2.2⟩

theorem numberEnds_blank (w : Blank) {c : UInt8}
    (h : c = byte ',' ∨ c = byte ']' ∨ c = byte '}') : NumberEnds (w.chars ++ c :: s) := by
  obtain ⟨cs, hcs⟩ := w
  cases cs with
  | nil => exact numberEnds_cons (.inr h)
  | cons c' cs => exact numberEnds_cons (.inl (hcs c' List.mem_cons_self).2)

/-- The first value or name behind blanks. -/
theorem skip_starts (w : Blank) {c : UInt8} {t : List UInt8} (hc : Starts c) :
    skip (w.chars ++ c :: t) = c :: t := by
  rw [skip_blank, skip_cons hc.1]

theorem skip_value (w : Blank) (d : JsonText) (s : List UInt8) :
    skip (w.chars ++ (d.text ++ s)) = d.text ++ s := by
  obtain ⟨c, t, htext, hc⟩ := d.starts
  rw [htext, List.cons_append, skip_starts w hc]

theorem skip_string (w : Blank) (cs : List JsonChar) (s : List UInt8) :
    skip (w.chars ++ (stringText cs ++ s)) = stringText cs ++ s := by
  rw [stringText, List.cons_append, skip_starts w (by decide)]

theorem parseItems_skip (depth : Nat) (s : List UInt8) :
    parseItems depth (skip s) = parseItems depth s := by
  cases depth with
  | zero => rfl
  | succ depth => rw [parseItems, parseItems, skip_skip]

theorem parseFields_skip (depth : Nat) (s : List UInt8) :
    parseFields depth (skip s) = parseFields depth s := by
  cases depth with
  | zero => rfl
  | succ depth => rw [parseFields, parseFields, skip_skip]

/-- The items of an array, and the fields of an object, do not start with its end. -/
theorem ItemsText.starts (items : ItemsText) (s : List UInt8) :
    ∃ c t, skip (items.text ++ s) = c :: t ∧ Starts c := by
  cases items with
  | last w v w' | more w v w' items =>
      obtain ⟨c, t, htext, hc⟩ := v.starts
      rw [ItemsText.text, List.append_assoc, List.append_assoc, skip_value, htext, List.cons_append]
      exact ⟨c, _, rfl, hc⟩

theorem FieldsText.starts (fields : FieldsText) (s : List UInt8) :
    ∃ c t, skip (fields.text ++ s) = c :: t ∧ Starts c := by
  cases fields with
  | last n name n' w v w' | more n name n' w v w' fields =>
      rw [FieldsText.text, List.append_assoc, List.append_assoc, skip_string, stringText,
        List.cons_append]
      exact ⟨byte '"', _, rfl, by decide⟩

/-! ### Every text is read -/

mutual

/-- A value, in as many calls as it has bytes. -/
theorem parseValue_text (d : JsonText) (depth : Nat) (s : List UInt8)
    (hdepth : d.text.length ≤ depth) (hs : NumberEnds s) :
    parseValue depth (d.text ++ s) = .ok d.value s := by
  obtain ⟨depth, rfl⟩ : ∃ k, depth = k + 1 := by
    obtain ⟨c, t, htext, -⟩ := d.starts
    rw [htext, List.length_cons] at hdepth
    exact ⟨depth - 1, by omega⟩
  match d with
  | .null => rfl
  | .false => rfl
  | .true => rfl
  | .number v => exact parseValue_number v depth hs
  | .string cs =>
      have hparse : parseValue (depth + 1) (stringText cs ++ s) =
          (parseString (stringText cs ++ s)).map .string := rfl
      rw [JsonText.text, hparse, parseString_text]
      rfl
  | .emptyArray w =>
      have hskip : skip (w.chars ++ byte ']' :: s) = byte ']' :: s := by
        rw [skip_blank, skip_cons (by decide)]
      have hcons : (JsonText.emptyArray w).text ++ s = byte '[' :: (w.chars ++ byte ']' :: s) := by
        rw [JsonText.text, List.cons_append, List.append_assoc]
        rfl
      have hparse : parseValue (depth + 1) (byte '[' :: (w.chars ++ byte ']' :: s)) =
          let s := skip (w.chars ++ byte ']' :: s)
          if peek s = byte ']' then .ok (.array []) s.tail
          else (parseItems depth s).map .array := rfl
      rw [hcons, hparse, hskip]
      rfl
  | .array items =>
      have hitems : items.text.length + 1 ≤ depth := by
        rw [JsonText.text, List.length_cons, List.length_append, List.length_singleton] at hdepth
        omega
      have hcons : (JsonText.array items).text ++ s =
          byte '[' :: (items.text ++ byte ']' :: s) := by
        rw [JsonText.text, List.cons_append, List.append_assoc]
        rfl
      have hparse : parseValue (depth + 1) (byte '[' :: (items.text ++ byte ']' :: s)) =
          let s := skip (items.text ++ byte ']' :: s)
          if peek s = byte ']' then .ok (.array []) s.tail
          else (parseItems depth s).map .array := rfl
      obtain ⟨c, t, hskip, hc⟩ := items.starts (byte ']' :: s)
      rw [hcons, hparse, hskip]
      dsimp only
      rw [peek_cons, if_neg hc.2.1, ← hskip, parseItems_skip,
        parseItems_text items depth s hitems]
      rfl
  | .emptyObject w =>
      have hskip : skip (w.chars ++ byte '}' :: s) = byte '}' :: s := by
        rw [skip_blank, skip_cons (by decide)]
      have hcons : (JsonText.emptyObject w).text ++ s = byte '{' :: (w.chars ++ byte '}' :: s) := by
        rw [JsonText.text, List.cons_append, List.append_assoc]
        rfl
      have hparse : parseValue (depth + 1) (byte '{' :: (w.chars ++ byte '}' :: s)) =
          let s := skip (w.chars ++ byte '}' :: s)
          if peek s = byte '}' then .ok (.object []) s.tail
          else (parseFields depth s).map .object := rfl
      rw [hcons, hparse, hskip]
      rfl
  | .object fields =>
      have hfields : fields.text.length + 1 ≤ depth := by
        rw [JsonText.text, List.length_cons, List.length_append, List.length_singleton] at hdepth
        omega
      have hcons : (JsonText.object fields).text ++ s =
          byte '{' :: (fields.text ++ byte '}' :: s) := by
        rw [JsonText.text, List.cons_append, List.append_assoc]
        rfl
      have hparse : parseValue (depth + 1) (byte '{' :: (fields.text ++ byte '}' :: s)) =
          let s := skip (fields.text ++ byte '}' :: s)
          if peek s = byte '}' then .ok (.object []) s.tail
          else (parseFields depth s).map .object := rfl
      obtain ⟨c, t, hskip, hc⟩ := fields.starts (byte '}' :: s)
      rw [hcons, hparse, hskip]
      dsimp only
      rw [peek_cons, if_neg hc.2.2, ← hskip, parseFields_skip,
        parseFields_text fields depth s hfields]
      rfl

theorem parseItems_text (items : ItemsText) (depth : Nat) (s : List UInt8)
    (hdepth : items.text.length + 1 ≤ depth) :
    parseItems depth (items.text ++ byte ']' :: s) = .ok items.values s := by
  obtain ⟨depth, rfl⟩ : ∃ k, depth = k + 1 := ⟨depth - 1, by omega⟩
  match items with
  | .last w v w' =>
      rw [ItemsText.text, List.length_append, List.length_append] at hdepth
      rw [ItemsText.text, List.append_assoc, List.append_assoc, parseItems, skip_value,
        parseValue_text v depth _ (by omega) (numberEnds_blank w' (.inr (.inl rfl))),
        Parsed.bind_ok, skip_blank, skip_cons (by decide)]
      rfl
  | .more w v w' items =>
      rw [ItemsText.text, List.length_append, List.length_append, List.length_append,
        List.length_cons] at hdepth
      rw [ItemsText.text, List.append_assoc, List.append_assoc, List.append_assoc,
        List.cons_append, parseItems, skip_value,
        parseValue_text v depth _ (by omega) (numberEnds_blank w' (.inl rfl)),
        Parsed.bind_ok, skip_blank, skip_cons (by decide)]
      dsimp only
      rw [peek_cons, if_pos rfl, List.tail_cons, parseItems_text items depth s (by omega)]
      rfl

theorem parseFields_text (fields : FieldsText) (depth : Nat) (s : List UInt8)
    (hdepth : fields.text.length + 1 ≤ depth) :
    parseFields depth (fields.text ++ byte '}' :: s) = .ok fields.values s := by
  obtain ⟨depth, rfl⟩ : ∃ k, depth = k + 1 := ⟨depth - 1, by omega⟩
  match fields with
  | .last n name n' w v w' =>
      have hlen : v.text.length ≤ depth := by
        simp only [FieldsText.text, List.length_append, List.length_cons] at hdepth
        omega
      rw [FieldsText.text, List.append_assoc, List.append_assoc, List.append_assoc,
        List.cons_append, List.append_assoc, List.append_assoc, parseFields, skip_string,
        parseString_text, Parsed.bind_ok, skip_blank, skip_cons (by decide)]
      dsimp only
      rw [peek_cons, if_pos rfl, List.tail_cons, skip_value,
        parseValue_text v depth _ hlen (numberEnds_blank w' (.inr (.inr rfl))),
        Parsed.bind_ok, skip_blank, skip_cons (by decide)]
      rfl
  | .more n name n' w v w' fields =>
      have hlen : v.text.length ≤ depth ∧ fields.text.length + 1 ≤ depth := by
        simp only [FieldsText.text, List.length_append, List.length_cons] at hdepth
        omega
      rw [FieldsText.text, List.append_assoc, List.append_assoc, List.append_assoc,
        List.cons_append, List.append_assoc, List.append_assoc, List.append_assoc,
        List.cons_append, parseFields, skip_string, parseString_text, Parsed.bind_ok, skip_blank,
        skip_cons (by decide)]
      dsimp only
      rw [peek_cons, if_pos rfl, List.tail_cons, skip_value,
        parseValue_text v depth _ hlen.1 (numberEnds_blank w' (.inl rfl)),
        Parsed.bind_ok, skip_blank, skip_cons (by decide)]
      rw [peek_cons, if_pos rfl, List.tail_cons, parseFields_text fields depth s hlen.2]
      rfl

end

theorem numberEnds_blanks (w : Blank) : NumberEnds w.chars := by
  obtain ⟨cs, hcs⟩ := w
  cases cs with
  | nil => exact ⟨rfl, show peek [] ≠ byte '.' by decide, show peek [] ≠ _ ∧ peek [] ≠ _ by decide⟩
  | cons c cs => exact numberEnds_cons (.inl (hcs c List.mem_cons_self).2)

/-- A text behind blanks. -/
theorem cJSONParse_of_text (w : Blank) (d : JsonText) (hs : NumberEnds s) :
    cJSONParse (w.chars ++ (d.text ++ s)) = .ok d.value s := by
  unfold cJSONParse
  rw [skip_value]
  refine parseValue_text d _ _ ?_ hs
  simp only [List.length_append]
  omega

end Parse
end RtuA118
