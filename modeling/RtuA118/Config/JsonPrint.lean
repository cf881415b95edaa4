import Mathlib.Algebra.Order.Floor.Ring
import Mathlib.Data.Rat.Floor
import RtuA118.Config.JsonText

/-!
# RtuA118.Config.JsonPrint

`cJSON_Print` and `cJSON_PrintUnformatted`, and the **round trip**.

Each function measures what it is about to write, and writes it into a block of that size: none
writes behind it. What is printed is the text of the item, so that the parser gives it back
(`cJSONPrint_parse`), if its numbers are integers of C. How other numbers look is a parameter.
-/

namespace RtuA118

/-! ### Numbers -/

/-- The number, as a `double` would have it that were exact. -/
def JsonNumber.valuedouble (v : JsonNumber) : Rat :=
  (if v.negative then -1 else 1) * v.n * 10 ^ v.exponent

/-- `(int)n`. -/
def JsonNumber.valueint (v : JsonNumber) : Int :=
  if 0 ≤ v.valuedouble then ⌊v.valuedouble⌋ else ⌈v.valuedouble⌉

/-- The digits of `%d`, the first one first. -/
def decimalDigits (n : Nat) : List Digit :=
  if n < 10 then [Fin.ofNat 10 n] else decimalDigits (n / 10) ++ [Fin.ofNat 10 n]

/-- `sprintf(str, "%d", i)`. -/
def printInt (i : Int) : List UInt8 :=
  (if i < 0 then [byte '-'] else []) ++ digitBytes (decimalDigits i.natAbs)

/-- Writes of `text` and its zero into a block of `len` bytes. -/
def writeTo (len : Nat) (text : List UInt8) : Option (List UInt8) :=
  if text.length + 1 ≤ len then some text else none

theorem writeTo_of_le {len : Nat} {text : List UInt8} (h : text.length + 1 ≤ len) :
    writeTo len text = some text := if_pos h

/-- `print_number`, with how `%.0f`, `%e` and `%f` would print what is no `int`. -/
def printNumber (showDouble : Rat → List UInt8) (v : JsonNumber) : Option (List UInt8) :=
  let d := v.valuedouble
  if |(v.valueint : Rat) - d| ≤ 2 ^ (-52 : Int) ∧ d ≤ 2 ^ 31 - 1 ∧ -2 ^ 31 ≤ d then
    writeTo 21 (printInt v.valueint)
  else writeTo 64 (showDouble d)

/-! ### Strings -/

/-- What a byte of a string is printed as. -/
def printByte (token : UInt8) : List UInt8 :=
  if token > 31 ∧ token ≠ byte '"' ∧ token ≠ byte '\\' then [token]
  else if token = byte '\\' then [byte '\\', byte '\\']
  else if token = byte '"' then [byte '\\', byte '"']
  else if token = 8 then [byte '\\', byte 'b']
  else if token = 12 then [byte '\\', byte 'f']
  else if token = 10 then [byte '\\', byte 'n']
  else if token = 13 then [byte '\\', byte 'r']
  else if token = 9 then [byte '\\', byte 't']
  else unitText (fun _ => false) token.toNat

/-- What the first loop of `print_string_ptr` counts for it. -/
def printedLen (token : UInt8) : Nat :=
  if token ∈ [byte '"', byte '\\', 8, 12, 10, 13, 9] then 2 else if token < 32 then 6 else 1

/-- `print_string_ptr`. -/
def printStringPtr (s : List UInt8) : Option (List UInt8) :=
  writeTo ((s.map printedLen).sum + 3) (byte '"' :: (s.flatMap printByte ++ [byte '"']))

/-! ### Arrays and objects -/

/-- The entries of an array with a comma after each but the last. -/
def joinEntries (fmt : Bool) : List (List UInt8) → List UInt8
  | [] => []
  | [entry] => entry
  | entry :: entries =>
    entry ++ (byte ',' :: ((if fmt then [byte ' '] else []) ++ joinEntries fmt entries))

/-- `print_array` of the entries, where `fmt` is whether to format. -/
def printArray (fmt : Bool) (entries : List (List UInt8)) : Option (List UInt8) :=
  if entries = [] then writeTo 3 [byte '[', byte ']']
  else
    writeTo (5 + (entries.map fun entry => entry.length + 2 + if fmt then 1 else 0).sum)
      (byte '[' :: (joinEntries fmt entries ++ [byte ']']))

def tabs (n : Nat) : List UInt8 := .replicate n 9

/-- The fields of an object at this depth. -/
def joinFields (fmt : Bool) (depth : Nat) : List (List UInt8 × List UInt8) → List UInt8
  | [] => []
  | (name, entry) :: fields =>
    (if fmt then tabs depth else []) ++ (name ++ (byte ':' :: ((if fmt then [9] else []) ++
      (entry ++ ((if fields = [] then [] else [byte ',']) ++ ((if fmt then [10] else []) ++
        joinFields fmt depth fields))))))

/-- `print_object` of the fields, at the depth of the object. -/
def printObject (fmt : Bool) (depth : Nat) (fields : List (List UInt8 × List UInt8)) :
    Option (List UInt8) :=
  if fields = [] then
    writeTo (if fmt then depth + 4 else 3)
      (byte '{' :: ((if fmt then 10 :: tabs (depth - 1) else []) ++ [byte '}']))
  else
    writeTo (7 + (if fmt then depth + 1 else 0) + (fields.map fun field =>
        field.2.length + field.1.length + 2 + if fmt then 2 + (depth + 1) else 0).sum)
      (byte '{' :: ((if fmt then [10] else []) ++ (joinFields fmt (depth + 1) fields ++
        ((if fmt then tabs depth else []) ++ [byte '}']))))

section Print

variable (showDouble : Rat → List UInt8) (fmt : Bool)

mutual

/-- `print_value`. -/
def printValue : JsonItem → Nat → Option (List UInt8)
  | .null, _ => some (bytes ['n', 'u', 'l', 'l'])
  | .false, _ => some (bytes ['f', 'a', 'l', 's', 'e'])
  | .true, _ => some (bytes ['t', 'r', 'u', 'e'])
  | .number v, _ => printNumber showDouble v
  | .string s, _ => printStringPtr s
  | .array child, depth => (printEntries child (depth + 1)).bind (printArray fmt)
  | .object child, depth => (printFields child (depth + 1)).bind (printObject fmt depth)

def printEntries : List JsonItem → Nat → Option (List (List UInt8))
  | [], _ => some []
  | v :: child, depth =>
    (printValue v depth).bind fun entry => (printEntries child depth).map (entry :: ·)

def printFields : List (List UInt8 × JsonItem) → Nat → Option (List (List UInt8 × List UInt8))
  | [], _ => some []
  | (string, v) :: child, depth =>
    (printStringPtr string).bind fun name => (printValue v depth).bind fun entry =>
      (printFields child depth).map ((name, entry) :: ·)

end

/-- `cJSON_Print`, and with `fmt` cleared `cJSON_PrintUnformatted`. -/
def cJSONPrint (item : JsonItem) : Option (List UInt8) := printValue showDouble fmt item 0

end Print

/-! ### Integers -/

/-- An `int`, written as one: a 0 has no sign. -/
structure JsonNumber.IsInt (v : JsonNumber) : Prop where
  exponent : v.exponent = 0
  sign : v.negative = true → 0 < v.n
  max : v.negative = false → v.n < 2 ^ 31
  min : v.n ≤ 2 ^ 31

section Integers

variable {v : JsonNumber}

/-- The number, as an integer. -/
def JsonNumber.toInt (v : JsonNumber) : Int := if v.negative then -(v.n : Int) else v.n

theorem JsonNumber.IsInt.valuedouble (h : v.IsInt) : v.valuedouble = v.toInt := by
  unfold JsonNumber.valuedouble JsonNumber.toInt
  rw [h.exponent]
  cases v.negative <;> simp

theorem JsonNumber.IsInt.valueint (h : v.IsInt) : v.valueint = v.toInt := by
  unfold JsonNumber.valueint
  rw [h.valuedouble]
  split
  · exact Int.floor_intCast _
  · exact Int.ceil_intCast _

theorem decimalDigits_length {k : Nat} : ∀ {n : Nat}, n < 10 ^ (k + 1) →
    (decimalDigits n).length ≤ k + 1 := by
  induction k with
  | zero =>
      intro n hn
      rw [decimalDigits, if_pos (by simpa using hn)]
      exact Nat.le_refl _
  | succ k ih =>
      intro n hn
      rw [decimalDigits]
      split
      · simp
      · have hdiv : n / 10 < 10 ^ (k + 1) := by
          rw [Nat.div_lt_iff_lt_mul (by decide), ← Nat.pow_succ]
          exact hn
        have hle := ih hdiv
        rw [List.length_append, List.length_singleton]
        omega

theorem digitsValue_append (n : Nat) (ds : List Digit) (d : Digit) :
    digitsValue n (ds ++ [d]) = digitsValue n ds * 10 + d := by
  rw [digitsValue, List.foldl_append]
  rfl

/-- The digits of a positive number start with none that is 0. -/
theorem decimalDigits_spec (n : Nat) (h : 0 < n) : ∃ (first : Fin 9) (more : List Digit),
    decimalDigits n = first.succ :: more ∧ digitsValue 0 (first.succ :: more) = n := by
  induction n using Nat.strong_induction_on with
  | _ n ih =>
      rw [decimalDigits]
      split
      · rename_i hlt
        refine ⟨⟨n - 1, by omega⟩, [], ?_, ?_⟩
        · rw [List.cons.injEq]
          refine ⟨Fin.ext ?_, rfl⟩
          simp [Fin.ofNat, Nat.mod_eq_of_lt hlt]
          omega
        · simp [digitsValue]
          omega
      · rename_i hge
        obtain ⟨first, more, hdigits, hvalue⟩ := ih (n / 10) (by omega) (by omega)
        refine ⟨first, more ++ [Fin.ofNat 10 n], ?_, ?_⟩
        · rw [hdigits, List.cons_append]
        · rw [← List.cons_append, digitsValue_append, hvalue]
          simp [Fin.ofNat]
          omega

theorem printWhole_text (n : Nat) :
    ∃ whole : WholeText, whole.text = digitBytes (decimalDigits n) ∧ whole.value = n := by
  rcases Nat.eq_zero_or_pos n with rfl | hpos
  · exact ⟨.zero, by rw [decimalDigits]; rfl, rfl⟩
  · obtain ⟨first, more, hdigits, hvalue⟩ := decimalDigits_spec n hpos
    exact ⟨.digits first more, by rw [hdigits]; rfl, hvalue⟩

/-- **An integer is printed as its text.** -/
theorem printNumber_text (showDouble : Rat → List UInt8) (h : v.IsInt) :
    ∃ t : NumberText, printNumber showDouble v = some t.text ∧ t.value = v := by
  obtain ⟨whole, htext, hvalue⟩ := printWhole_text v.n
  have habs : v.toInt.natAbs = v.n := by
    unfold JsonNumber.toInt
    split <;> simp
  have hneg : v.toInt < 0 ↔ v.negative = true := by
    have hsign := h.sign
    unfold JsonNumber.toInt
    split
    · rename_i hn
      have hpos := hsign hn
      simp [hn]
      omega
    · rename_i hn
      simp [hn]
  have hint : printInt v.toInt = (NumberText.mk v.negative whole [] none).text := by
    have hends : placesText [] ++ exponentText none = [] := rfl
    unfold printInt NumberText.text
    simp only [hneg, habs, htext, hends, List.append_nil]
  have hrange : v.toInt ≤ 2 ^ 31 - 1 ∧ -2 ^ 31 ≤ v.toInt := by
    have hmax := h.max
    have hmin := h.min
    unfold JsonNumber.toInt
    split
    · omega
    · rename_i hn
      have hlt := hmax (Bool.eq_false_of_not_eq_true hn)
      omega
  have hlen : (printInt v.toInt).length + 1 ≤ 21 := by
    have hmin := h.min
    have hdigits := decimalDigits_length (k := 9) (n := v.n) (by omega)
    unfold printInt digitBytes
    rw [habs, List.length_append, List.length_map]
    split <;> simp only [List.length_singleton, List.length_nil] <;> omega
  refine ⟨⟨v.negative, whole, [], none⟩, ?_, ?_⟩
  · unfold printNumber
    dsimp only
    rw [h.valuedouble, h.valueint, if_pos, writeTo_of_le hlen, hint]
    refine ⟨by simp, ?_, ?_⟩
    · exact_mod_cast hrange.1
    · exact_mod_cast hrange.2
  · unfold NumberText.value
    rw [hvalue]
    obtain ⟨negative, n, exponent⟩ := v
    have hexp : exponent = 0 := h.exponent
    subst hexp
    rfl

end Integers

/-! ### Strings -/

section Strings

/-- A byte is printed as long as it was counted. -/
theorem printByte_length (token : UInt8) : (printByte token).length = printedLen token := by
  have hall : ∀ n < 256, (printByte (UInt8.ofNat n)).length = printedLen (UInt8.ofNat n) := by
    decide +kernel
  have htoken := hall token.toNat token.toNat_lt
  rwa [UInt8.ofNat_toNat] at htoken

/-- **A byte is printed as the text of a character** that stands for it. -/
theorem printByte_text {token : UInt8} (h : token ≠ 0) :
    ∃ ch : JsonChar, ch.text = printByte token ∧ ch.value = [token] := by
  unfold printByte
  split_ifs with h1 h2 h3 h4 h5 h6 h7 h8
  · exact ⟨.plain token ⟨h1.2.1, h1.2.2, h⟩, rfl, rfl⟩
  · exact ⟨.escape .backslash, rfl, by rw [h2]; rfl⟩
  · exact ⟨.escape .quote, rfl, by rw [h3]; rfl⟩
  · exact ⟨.escape .b, rfl, by rw [h4]; rfl⟩
  · exact ⟨.escape .f, rfl, by rw [h5]; rfl⟩
  · exact ⟨.escape .n, rfl, by rw [h6]; rfl⟩
  · exact ⟨.escape .r, rfl, by rw [h7]; rfl⟩
  · exact ⟨.escape .t, rfl, by rw [h8]; rfl⟩
  · -- a control character
    have hall : ∀ n < 32, (Char.ofNat n).toNat = n ∧
        String.utf8EncodeChar (Char.ofNat n) = [UInt8.ofNat n] := by decide
    have hlt : token.toNat < 32 := by
      by_contra hge
      exact h1 ⟨UInt8.lt_iff_toNat_lt.2 (show 31 < token.toNat by omega), h3, h2⟩
    obtain ⟨hcode, hutf8⟩ := hall token.toNat hlt
    have hzero : (Char.ofNat token.toNat).toNat ≠ 0 := by
      rw [hcode]
      exact fun h0 => h (UInt8.toNat_inj.1 h0)
    refine ⟨.unicode (Char.ofNat token.toNat) hzero fun _ => false, ?_, ?_⟩
    · rw [JsonChar.text, unicodeText, hcode, if_pos (by omega)]
    · rw [JsonChar.value, hutf8, UInt8.ofNat_toNat]

/-- A string of C. -/
def CString (s : List UInt8) : Prop := ∀ c ∈ s, c ≠ 0

instance (s : List UInt8) : Decidable (CString s) := List.decidableBAll (· ≠ 0) s

/-- **A string is printed as its text**, into the block that was counted. -/
theorem printStringPtr_text {s : List UInt8} (h : CString s) :
    ∃ cs : List JsonChar, printStringPtr s = some (stringText cs) ∧ charsValue cs = s := by
  have hlen : (s.flatMap printByte).length = (s.map printedLen).sum := by
    rw [List.length_flatMap]
    exact congrArg List.sum (List.map_congr_left fun token _ => printByte_length token)
  have hchars : ∃ cs : List JsonChar, charsText cs = s.flatMap printByte ∧ charsValue cs = s := by
    clear hlen
    induction s with
    | nil => exact ⟨[], rfl, rfl⟩
    | cons token s ih =>
        obtain ⟨ch, htext, hvalue⟩ := printByte_text (h token List.mem_cons_self)
        obtain ⟨cs, hcs, hs⟩ := ih fun c hc => h c (List.mem_cons_of_mem _ hc)
        refine ⟨ch :: cs, ?_, ?_⟩
        · rw [charsText, List.flatMap_cons, htext, ← charsText, hcs, List.flatMap_cons]
        · rw [charsValue, List.flatMap_cons, hvalue, ← charsValue, hs, List.singleton_append]
  obtain ⟨cs, hcs, hs⟩ := hchars
  refine ⟨cs, ?_, hs⟩
  rw [printStringPtr, writeTo_of_le, stringText, hcs]
  rw [List.length_cons, List.length_append, hlen, List.length_singleton]

end Strings

/-! ### Arrays and objects -/

def noBlank : Blank := ⟨[], nofun⟩

/-- A character, or none. -/
def Blank.single (fmt : Bool) {c : UInt8} (hc : c ≠ 0 ∧ c ≤ 32) : Blank where
  chars := if fmt then [c] else []
  skipped := by
    cases fmt with
    | false => exact nofun
    | true => exact List.forall_mem_singleton.2 hc

/-- What `fmt` puts before an entry that follows another; before a field at this depth; between a
name and its entry; and before the end of an object. -/
def entryBlank (fmt : Bool) : Blank := .single fmt (c := byte ' ') (by decide)

def fieldBlank (fmt : Bool) (depth : Nat) : Blank where
  chars := if fmt then 10 :: tabs depth else []
  skipped := by
    intro c hc
    split at hc
    · rcases List.mem_cons.1 hc with rfl | hc
      · decide
      · obtain rfl := List.eq_of_mem_replicate hc
        decide
    · cases hc

def nameBlank (fmt : Bool) : Blank := .single fmt (c := 9) (by decide)

/-- The items of a printed array. -/
def itemsOf (fmt : Bool) (w : Blank) (d : JsonText) : List JsonText → ItemsText
  | [] => .last w d noBlank
  | d' :: ds => .more w d noBlank (itemsOf fmt (entryBlank fmt) d' ds)

theorem itemsOf_text (fmt : Bool) (ds : List JsonText) : ∀ (w : Blank) (d : JsonText),
    (itemsOf fmt w d ds).text = w.chars ++ joinEntries fmt ((d :: ds).map JsonText.text) := by
  induction ds with
  | nil => intro w d; rw [itemsOf, ItemsText.text]; exact congrArg _ (List.append_nil _)
  | cons d' ds ih =>
      intro w d
      rw [itemsOf, ItemsText.text, ih]
      rfl

theorem itemsOf_values (fmt : Bool) (ds : List JsonText) : ∀ (w : Blank) (d : JsonText),
    (itemsOf fmt w d ds).values = (d :: ds).map JsonText.value := by
  induction ds with
  | nil => intro w d; rfl
  | cons d' ds ih => intro w d; rw [itemsOf, ItemsText.values, ih]; rfl

theorem joinEntries_length (fmt : Bool) (entries : List (List UInt8)) :
    (joinEntries fmt entries).length ≤
      (entries.map fun entry => entry.length + 2 + if fmt then 1 else 0).sum := by
  induction entries with
  | nil => exact Nat.zero_le _
  | cons entry entries ih =>
      cases entries with
      | nil => simp [joinEntries]; omega
      | cons entry' entries =>
          have hjoin : joinEntries fmt (entry :: entry' :: entries) = entry ++ (byte ',' ::
              ((if fmt then [byte ' '] else []) ++ joinEntries fmt (entry' :: entries))) := rfl
          rw [hjoin, List.map_cons, List.sum_cons, List.length_append, List.length_cons,
            List.length_append]
          cases fmt <;> simp only [if_true, if_false, Bool.false_eq_true, List.length_nil,
            List.length_singleton] at ih ⊢ <;> omega

/-- **An array is printed as its text.** -/
theorem printArray_text (fmt : Bool) (ds : List JsonText) : ∃ d : JsonText,
    printArray fmt (ds.map JsonText.text) = some d.text ∧
      d.value = .array (ds.map JsonText.value) := by
  cases ds with
  | nil => exact ⟨.emptyArray noBlank, rfl, rfl⟩
  | cons d ds =>
      refine ⟨.array (itemsOf fmt noBlank d ds), ?_, by rw [JsonText.value, itemsOf_values]⟩
      have hlen := joinEntries_length fmt ((d :: ds).map JsonText.text)
      rw [printArray, if_neg (by simp), JsonText.text, itemsOf_text, writeTo_of_le]
      · rfl
      · rw [List.length_cons, List.length_append, List.length_singleton]
        omega

/-- The fields of a printed object. -/
def fieldsOf (fmt : Bool) (depth : Nat) (f : List JsonChar × JsonText) :
    List (List JsonChar × JsonText) → FieldsText
  | [] => .last (fieldBlank fmt (depth + 1)) f.1 noBlank (nameBlank fmt) f.2 (fieldBlank fmt depth)
  | f' :: fs =>
    .more (fieldBlank fmt (depth + 1)) f.1 noBlank (nameBlank fmt) f.2 noBlank
      (fieldsOf fmt depth f' fs)

/-- What is printed of a field. -/
def printedField (f : List JsonChar × JsonText) : List UInt8 × List UInt8 :=
  (stringText f.1, f.2.text)

theorem fieldsOf_text (fmt : Bool) (depth : Nat) (fs : List (List JsonChar × JsonText)) :
    ∀ f, (fieldsOf fmt depth f fs).text = (if fmt then [10] else []) ++
      (joinFields fmt (depth + 1) ((f :: fs).map printedField) ++
        if fmt then tabs depth else []) := by
  induction fs with
  | nil =>
      intro f
      rw [fieldsOf, FieldsText.text]
      cases fmt <;> simp [joinFields, printedField, fieldBlank, nameBlank, Blank.single, noBlank]
  | cons f' fs ih =>
      intro f
      rw [fieldsOf, FieldsText.text, ih]
      cases fmt <;> simp [joinFields, printedField, fieldBlank, nameBlank, Blank.single, noBlank]

theorem fieldsOf_values (fmt : Bool) (depth : Nat) (fs : List (List JsonChar × JsonText)) :
    ∀ f, (fieldsOf fmt depth f fs).values = (f :: fs).map fun f => (charsValue f.1, f.2.value) := by
  induction fs with
  | nil => intro f; rfl
  | cons f' fs ih => intro f; rw [fieldsOf, FieldsText.values, ih]; rfl

theorem joinFields_length (fmt : Bool) (depth : Nat) (fields : List (List UInt8 × List UInt8)) :
    (joinFields fmt depth fields).length ≤ (fields.map fun field =>
      field.2.length + field.1.length + 2 + if fmt then 2 + depth else 0).sum := by
  induction fields with
  | nil => exact Nat.zero_le _
  | cons field fields ih =>
      obtain ⟨name, entry⟩ := field
      have hcomma : (if fields = [] then [] else [byte ',']).length ≤ 1 := by split <;> simp
      rw [List.map_cons, List.sum_cons, joinFields]
      cases fmt <;> simp only [if_true, if_false, Bool.false_eq_true, List.length_nil,
        List.length_append, List.length_cons, tabs, List.length_replicate] at ih ⊢ <;> omega

/-- **An object is printed as its text.** -/
theorem printObject_text (fmt : Bool) (depth : Nat) (fs : List (List JsonChar × JsonText)) :
    ∃ d : JsonText,
      printObject fmt depth (fs.map printedField) = some d.text ∧
        d.value = .object (fs.map fun f => (charsValue f.1, f.2.value)) := by
  cases fs with
  | nil =>
      refine ⟨.emptyObject (fieldBlank fmt (depth - 1)), ?_, rfl⟩
      rw [List.map_nil, printObject, if_pos rfl, JsonText.text, writeTo_of_le]
      · rfl
      · cases fmt <;> simp [tabs]
  | cons f fs =>
      refine ⟨.object (fieldsOf fmt depth f fs), ?_, by rw [JsonText.value, fieldsOf_values]⟩
      have hlen := joinFields_length fmt (depth + 1) ((f :: fs).map printedField)
      rw [printObject, if_neg (by simp), JsonText.text, fieldsOf_text, writeTo_of_le]
      · simp only [List.append_assoc]
      · cases fmt <;> simp only [if_true, if_false, Bool.false_eq_true, List.length_cons,
          List.length_nil, List.length_append, tabs, List.length_replicate] at hlen ⊢ <;> omega

/-! ### The round trip -/

mutual

/-- Numbers are integers, and strings are those of C. -/
def JsonItem.Printable : JsonItem → Prop
  | .null | .false | .true => True
  | .number v => v.IsInt
  | .string s => CString s
  | .array child => ItemsPrintable child
  | .object child => FieldsPrintable child

def ItemsPrintable : List JsonItem → Prop
  | [] => True
  | v :: child => v.Printable ∧ ItemsPrintable child

def FieldsPrintable : List (List UInt8 × JsonItem) → Prop
  | [] => True
  | (string, v) :: child => CString string ∧ v.Printable ∧ FieldsPrintable child

end

section RoundTrip

variable (showDouble : Rat → List UInt8) (fmt : Bool)

mutual

/-- An item is printed as a text that says it. -/
theorem printValue_text : ∀ (v : JsonItem) (depth : Nat), v.Printable →
    ∃ d : JsonText, printValue showDouble fmt v depth = some d.text ∧ d.value = v
  | .null, _, _ => ⟨.null, rfl, rfl⟩
  | .false, _, _ => ⟨.false, rfl, rfl⟩
  | .true, _, _ => ⟨.true, rfl, rfl⟩
  | .number _, _, h => by
      obtain ⟨t, htext, hvalue⟩ := printNumber_text showDouble h
      exact ⟨.number t, htext, congrArg JsonItem.number hvalue⟩
  | .string _, _, h => by
      obtain ⟨cs, htext, hvalue⟩ := printStringPtr_text h
      exact ⟨.string cs, htext, congrArg JsonItem.string hvalue⟩
  | .array child, depth, h => by
      obtain ⟨ds, hds, hvalues⟩ := printEntries_text child (depth + 1) h
      obtain ⟨d, htext, hvalue⟩ := printArray_text fmt ds
      refine ⟨d, ?_, by rw [hvalue, hvalues]⟩
      rw [printValue, hds]
      exact htext
  | .object child, depth, h => by
      obtain ⟨fs, hfs, hvalues⟩ := printFields_text child (depth + 1) h
      obtain ⟨d, htext, hvalue⟩ := printObject_text fmt depth fs
      refine ⟨d, ?_, by rw [hvalue, hvalues]⟩
      rw [printValue, hfs]
      exact htext

theorem printEntries_text : ∀ (child : List JsonItem) (depth : Nat), ItemsPrintable child →
    ∃ ds : List JsonText, printEntries showDouble fmt child depth = some (ds.map JsonText.text) ∧
      ds.map JsonText.value = child
  | [], _, _ => ⟨[], rfl, rfl⟩
  | v :: child, depth, h => by
      obtain ⟨d, hd, hv⟩ := printValue_text v depth h.1
      obtain ⟨ds, hds, hvalues⟩ := printEntries_text child depth h.2
      refine ⟨d :: ds, ?_, by rw [List.map_cons, hv, hvalues]⟩
      rw [printEntries, hd, hds]
      rfl

theorem printFields_text : ∀ (child : List (List UInt8 × JsonItem)) (depth : Nat),
    FieldsPrintable child → ∃ fs : List (List JsonChar × JsonText),
      printFields showDouble fmt child depth = some (fs.map printedField) ∧
        fs.map (fun f => (charsValue f.1, f.2.value)) = child
  | [], _, _ => ⟨[], rfl, rfl⟩
  | (string, v) :: child, depth, h => by
      obtain ⟨cs, hcs, hname⟩ := printStringPtr_text h.1
      obtain ⟨d, hd, hv⟩ := printValue_text v depth h.2.1
      obtain ⟨fs, hfs, hvalues⟩ := printFields_text child depth h.2.2
      refine ⟨(cs, d) :: fs, ?_, by rw [List.map_cons, hname, hv, hvalues]⟩
      rw [printFields, hcs, hd, hfs]
      rfl

end

end RoundTrip

/-- **What is printed parses as what was printed**, formatted or not; and neither way writes behind
a block. -/
theorem cJSONPrint_parse (showDouble : Rat → List UInt8) (fmt : Bool) (item : JsonItem)
    (h : item.Printable) : ∃ text, cJSONPrint showDouble fmt item = some text ∧
      cJSONParse text = .ok item [] := by
  obtain ⟨d, htext, hvalue⟩ := printValue_text showDouble fmt item 0 h
  have hparse := cJSONParse_of_text noBlank d (numberEnds_blanks noBlank)
  rw [hvalue] at hparse
  refine ⟨d.text, htext, ?_⟩
  simpa [noBlank] using hparse

/-- A name that needs escapes, and a list. -/
def namedRates : JsonItem :=
  .object [(bytes ['n'], .string (bytes ['a', '"', '\n'])),
    (bytes ['r'], .array [.number ⟨true, 9600, 0⟩, .null])]

theorem namedRates_parse : ∃ text, cJSONPrint (fun _ => []) true namedRates = some text ∧
    cJSONParse text = .ok namedRates [] :=
  cJSONPrint_parse _ _ _ ⟨by decide, show CString _ by decide, by decide,
    ⟨⟨rfl, by decide, by decide, by decide⟩, trivial, trivial⟩, trivial⟩
end RtuA118
