import P101Report.Library.Json

/-!
# Reading a JSON string

`readString` reads the string literal in front of a text. It succeeds exactly on the literals of the
grammar, with their code units (`readChars_of_chars`, `chars_of_readChars`), so that a literal has
one reading. `readText` is what a consumer makes of a whole literal: the code units are UTF-16, and
a pair of surrogates is one character.
-/

set_option autoImplicit false

namespace Json

/-! ## The reader -/

/-- The value of four hexadecimal digits. -/
def hexUnit (a b c d : UInt8) : Option Nat := do
  let wa ← hexValue a
  let wb ← hexValue b
  let wc ← hexValue c
  let wd ← hexValue d
  return ((wa * 16 + wb) * 16 + wc) * 16 + wd

/-- A code unit in front of what has been read. -/
def withUnit (unit : Nat) : Option (List Nat × List UInt8) → Option (List Nat × List UInt8)
  | none => none
  | some (units, rest) => some (unit :: units, rest)

/-- The code units up to the closing quote, and the text behind it. -/
def readChars : List UInt8 → Option (List Nat × List UInt8)
  | [] => none
  | 0x5c :: 0x75 :: a :: b :: c :: d :: text =>
    match hexUnit a b c d with
    | none => none
    | some unit => withUnit unit (readChars text)
  | 0x5c :: b :: text =>
    match escapedUnit b with
    | none => none
    | some unit => withUnit unit (readChars text)
  | b :: text =>
    if b = 0x22 then some ([], text)
    else if Unescaped b then withUnit b.toNat (readChars text)
    else none

/-- The string literal in front of a text. -/
def readString : List UInt8 → Option (List Nat × List UInt8)
  | 0x22 :: text => readChars text
  | _ => none

/-- The characters of UTF-16 code units: a high surrogate and a low one behind it are one. -/
def codePoints : List Nat → List Nat
  | [] => []
  | [unit] => [unit]
  | high :: low :: units =>
    if 0xd800 ≤ high ∧ high ≤ 0xdbff ∧ 0xdc00 ≤ low ∧ low ≤ 0xdfff then
      (0x10000 + (high - 0xd800) * 0x400 + (low - 0xdc00)) :: codePoints units
    else high :: codePoints (low :: units)

/-- The text that a string literal stands for, as code points. -/
def readText (literal : List UInt8) : Option (List Nat) :=
  match readString literal with
  | some (units, []) => some (codePoints units)
  | _ => none

/-- The bytes that a string literal stands for when each code unit is one byte. -/
def readBytes (literal : List UInt8) : Option (List UInt8) :=
  match readString literal with
  | some (units, []) => if ∀ unit ∈ units, unit < 256 then some (units.map UInt8.ofNat) else none
  | _ => none

/-! ## The reader against the grammar -/

theorem hexUnit_eq_some {a b c d : UInt8} {unit : Nat} (h : hexUnit a b c d = some unit) :
    ∃ wa wb wc wd, hexValue a = some wa ∧ hexValue b = some wb ∧ hexValue c = some wc ∧
      hexValue d = some wd ∧ unit = ((wa * 16 + wb) * 16 + wc) * 16 + wd := by
  simp only [hexUnit, Option.bind_eq_bind, Option.bind_eq_some_iff, Option.pure_def,
    Option.some.injEq] at h
  obtain ⟨wa, ha, wb, hb, wc, hc, wd, hd, rfl⟩ := h
  exact ⟨wa, wb, wc, wd, ha, hb, hc, hd, rfl⟩

theorem withUnit_eq_some {unit : Nat} {read : Option (List Nat × List UInt8)} {units : List Nat}
    {rest : List UInt8} (h : withUnit unit read = some (units, rest)) :
    ∃ later, read = some (later, rest) ∧ units = unit :: later := by
  match read with
  | none => cases h
  | some (later, rest') =>
    simp only [withUnit, Option.some.injEq, Prod.mk.injEq] at h
    obtain ⟨rfl, rfl⟩ := h
    exact ⟨later, rfl, rfl⟩

/-- Completeness: every string of the grammar is read, up to its closing quote. -/
theorem readChars_of_chars {units : List Nat} {text : List UInt8} (h : Chars units text)
    (rest : List UInt8) : readChars (text ++ 0x22 :: rest) = some (units, rest) := by
  induction h with
  | nil =>
    rw [List.nil_append, readChars.eq_4 _ _ (by simp) (by simp)]
    rfl
  | @unescaped b _ text hb _ ih =>
    have hquote : b ≠ 0x22 := hb.2.2.1
    have hbackslash : b ≠ 0x5c := hb.2.2.2
    rw [List.cons_append, readChars.eq_4 _ _ (by simp [hbackslash]) (by simp [hbackslash]),
      if_neg hquote, if_pos hb, ih]
    rfl
  | @escaped b _ _ text hb _ ih =>
    have hunicode : b ≠ 0x75 := by
      rintro rfl
      cases hb
    rw [List.cons_append, List.cons_append, readChars.eq_3 _ _ (by simp [hunicode]), hb, ih]
    rfl
  | @unicode a b c d wa wb wc wd _ text ha hb hc hd _ ih =>
    have hunit : hexUnit a b c d = some (((wa * 16 + wb) * 16 + wc) * 16 + wd) := by
      rw [hexUnit, ha, hb, hc, hd]
      rfl
    simp only [List.cons_append]
    rw [readChars.eq_2, hunit, ih]
    rfl

/-- Soundness: what is read in front of a quote is a string of the grammar. -/
theorem chars_of_readChars {text : List UInt8} {units : List Nat} {rest : List UInt8}
    (h : readChars text = some (units, rest)) :
    ∃ chars, text = chars ++ 0x22 :: rest ∧ Chars units chars := by
  fun_induction readChars text generalizing units with
  | case1 => cases h
  | case2 => cases h
  | case3 a b c d text unit hunit ih =>
    obtain ⟨later, hread, rfl⟩ := withUnit_eq_some h
    obtain ⟨chars, rfl, hchars⟩ := ih hread
    obtain ⟨wa, wb, wc, wd, ha, hb, hc, hd, rfl⟩ := hexUnit_eq_some hunit
    exact ⟨0x5c :: 0x75 :: a :: b :: c :: d :: chars, rfl, .unicode ha hb hc hd hchars⟩
  | case4 => cases h
  | case5 b text _ unit hunit ih =>
    obtain ⟨later, hread, rfl⟩ := withUnit_eq_some h
    obtain ⟨chars, rfl, hchars⟩ := ih hread
    exact ⟨0x5c :: b :: chars, rfl, .escaped hunit hchars⟩
  | case6 text =>
    obtain ⟨rfl, rfl⟩ := Prod.mk.inj (Option.some.inj h)
    exact ⟨[], rfl, .nil⟩
  | case7 b text _ _ _ hb ih =>
    obtain ⟨later, hread, rfl⟩ := withUnit_eq_some h
    obtain ⟨chars, rfl, hchars⟩ := ih hread
    exact ⟨b :: chars, rfl, .unescaped hb hchars⟩
  | case8 => cases h

/-- **One reading.** A literal is read as the code units of the grammar, with nothing left. -/
theorem readString_eq_some_iff {literal : List UInt8} {units : List Nat} :
    readString literal = some (units, []) ↔
      ∃ chars, literal = 0x22 :: (chars ++ [0x22]) ∧ Chars units chars := by
  constructor
  · intro h
    unfold readString at h
    split at h
    · obtain ⟨chars, rfl, hchars⟩ := chars_of_readChars h
      exact ⟨chars, rfl, hchars⟩
    · cases h
  · rintro ⟨chars, rfl, hchars⟩
    exact readChars_of_chars hchars []

/-! ## Text and bytes -/

/-- Code units below the surrogates are code points. -/
theorem codePoints_eq_self {units : List Nat} (h : ∀ unit ∈ units, unit < 0xd800) :
    codePoints units = units := by
  fun_induction codePoints units with
  | case1 => rfl
  | case2 unit => rfl
  | case3 high low units hsurrogates _ =>
    have := h high (by simp)
    omega
  | case4 high low units _ ih =>
    rw [ih fun unit hunit => h unit (List.mem_cons_of_mem _ hunit)]

/-- A byte of a printable range is ASCII, and no control byte. -/
theorem ascii_of_range {low high b : UInt8} (h : low ≤ b ∧ b ≤ high)
    (hlow : 0x20 ≤ low := by decide) (hhigh : high < 0x80 := by decide) : 0x20 ≤ b ∧ b < 0x80 :=
  ⟨UInt8.le_trans hlow h.1, UInt8.lt_of_le_of_lt h.2 hhigh⟩

theorem ascii_of_escapedUnit {b : UInt8} {unit : Nat} (h : escapedUnit b = some unit) :
    0x20 ≤ b ∧ b < 0x80 := by
  unfold escapedUnit at h
  repeat' split at h
  all_goals first | (rename_i hb; subst hb; decide) | cases h

theorem ascii_of_hexValue {b : UInt8} {value : Nat} (h : hexValue b = some value) :
    0x20 ≤ b ∧ b < 0x80 := by
  unfold hexValue at h
  split at h
  · exact ascii_of_range ‹_›
  · split at h
    · exact ascii_of_range ‹_›
    · split at h
      · exact ascii_of_range ‹_›
      · cases h

/-- A string of the grammar is printable ASCII but for the byte `0x7f`. -/
theorem Chars.ascii {units : List Nat} {text : List UInt8} (h : Chars units text) :
    ∀ b ∈ text, 0x20 ≤ b ∧ b < 0x80 := by
  induction h with
  | nil => simp
  | unescaped hb _ ih =>
    refine List.forall_mem_cons.2 ⟨⟨hb.1, ?_⟩, ih⟩
    have := UInt8.le_iff_toNat_le.1 hb.2.1
    rw [UInt8.lt_iff_toNat_lt]
    exact Nat.lt_succ_of_le this
  | escaped hb _ ih =>
    exact List.forall_mem_cons.2 ⟨by decide, List.forall_mem_cons.2 ⟨ascii_of_escapedUnit hb, ih⟩⟩
  | unicode ha hb hc hd _ ih =>
    simp only [List.forall_mem_cons]
    exact ⟨by decide, by decide, ascii_of_hexValue ha, ascii_of_hexValue hb, ascii_of_hexValue hc,
      ascii_of_hexValue hd, ih⟩

/-! ## UTF-8 -/

/-- The UTF-8 bytes of characters. -/
def utf8 (chars : List Char) : List UInt8 := chars.flatMap String.utf8EncodeChar

@[simp] theorem utf8_cons (c : Char) (chars : List Char) :
    utf8 (c :: chars) = String.utf8EncodeChar c ++ utf8 chars := rfl

theorem utf8EncodeChar_of_ascii {c : Char} (h : c.toNat < 0x80) :
    String.utf8EncodeChar c = [UInt8.ofNat c.toNat] :=
  if_pos (Nat.le_of_lt_succ h)

/-- A character outside ASCII ends with a continuation byte. -/
theorem exists_high_byte {c : Char} (h : ¬c.toNat < 0x80) :
    ∃ b ∈ String.utf8EncodeChar c, ¬b < 0x80 := by
  have hlast : ¬UInt8.ofNat (c.toNat % 0x40 + 0x80) < 0x80 := by
    rw [UInt8.lt_iff_toNat_lt, UInt8.toNat_ofNat']
    have hbyte : (c.toNat % 0x40 + 0x80) % 2 ^ 8 = c.toNat % 0x40 + 0x80 :=
      Nat.mod_eq_of_lt (by omega)
    rw [hbyte]
    exact Nat.not_lt.2 (Nat.le_add_left _ _)
  refine ⟨UInt8.ofNat (c.toNat % 0x40 + 0x80), ?_, hlast⟩
  have hlow : ¬c.val.toNat ≤ 0x7f := fun hle => h (Nat.lt_succ_of_le hle)
  rw [String.utf8EncodeChar, if_neg hlow]
  repeat' split
  all_goals simp

/-- The bytes of a text are ASCII exactly when its characters are. -/
theorem utf8_ascii_iff (chars : List Char) :
    (∀ b ∈ utf8 chars, b < 0x80) ↔ ∀ c ∈ chars, c.toNat < 0x80 := by
  constructor
  · intro h c hc
    by_contra hascii
    obtain ⟨b, hb, hhigh⟩ := exists_high_byte hascii
    exact hhigh (h b (List.mem_flatMap.2 ⟨c, hc, hb⟩))
  · intro h b hb
    obtain ⟨c, hc, hb⟩ := List.mem_flatMap.1 hb
    have hascii := h c hc
    rw [utf8EncodeChar_of_ascii hascii, List.mem_singleton] at hb
    rw [hb, UInt8.lt_iff_toNat_lt, UInt8.toNat_ofNat', Nat.mod_eq_of_lt (by omega)]
    exact hascii

theorem length_le_utf8 (chars : List Char) : chars.length ≤ (utf8 chars).length := by
  induction chars with
  | nil => exact Nat.le_refl _
  | cons c chars ih =>
    have hpos := Char.utf8Size_pos c
    rw [utf8_cons, List.length_append, String.length_utf8EncodeChar, List.length_cons]
    omega

/-- One byte a character is ASCII. -/
theorem ascii_of_length {chars : List Char} (h : (utf8 chars).length = chars.length) :
    ∀ c ∈ chars, c.toNat < 0x80 := by
  induction chars with
  | nil => simp
  | cons c chars ih =>
    have hpos := Char.utf8Size_pos c
    have hlater := length_le_utf8 chars
    rw [utf8_cons, List.length_append, String.length_utf8EncodeChar, List.length_cons] at h
    have hone : c.val ≤ 127 := Char.utf8Size_eq_one_iff.1 (by omega)
    exact List.forall_mem_cons.2 ⟨Nat.lt_succ_of_le (UInt32.le_iff_toNat_le.1 hone), ih (by omega)⟩

theorem utf8_of_ascii {chars : List Char} (h : ∀ c ∈ chars, c.toNat < 0x80) :
    (utf8 chars).map UInt8.toNat = chars.map Char.toNat := by
  induction chars with
  | nil => rfl
  | cons c chars ih =>
    obtain ⟨hc, hchars⟩ := List.forall_mem_cons.1 h
    have hbyte : (UInt8.ofNat c.toNat).toNat = c.toNat := by
      rw [UInt8.toNat_ofNat', Nat.mod_eq_of_lt (by omega)]
    rw [utf8_cons, utf8EncodeChar_of_ascii hc, List.map_append, List.map_singleton, hbyte,
      ih hchars, List.map_cons, List.singleton_append]

/-- **Bytes as code points.** The bytes of a text, one a code point, are the text exactly when it is
ASCII. -/
theorem utf8_eq_codes_iff (chars : List Char) :
    (utf8 chars).map UInt8.toNat = chars.map Char.toNat ↔ ∀ b ∈ utf8 chars, b < 0x80 := by
  rw [utf8_ascii_iff]
  constructor
  · intro h
    have hlength := congrArg List.length h
    rw [List.length_map, List.length_map] at hlength
    exact ascii_of_length hlength
  · exact utf8_of_ascii

end Json
