import P101Report.Library.JsonReader
import P101Report.Output.JsonReport

/-!
# What a consumer reads back from a string

`p101_report_json_string` writes one ASCII literal for every C string, and the bytes come back when
each code unit is read as a byte (`jsonString_roundTrip`). By the rules of JSON a code unit is a
code point: the text comes back exactly when it is ASCII (`jsonString_text_iff`).
-/

set_option autoImplicit false

namespace P101Report

open Json

/-- The body of a literal is a string of the grammar, with the bytes as its code units. -/
theorem chars_flatMap_jsonByte (bytes : List UInt8) :
    Chars (bytes.map UInt8.toNat) (bytes.flatMap jsonByte) := by
  induction bytes with
  | nil => exact .nil
  | cons current rest ih => exact (chars_jsonByte current).append ih

theorem readString_jsonString (text : Text) :
    readString (jsonString (some text)) = some (text.bytes.map UInt8.toNat, []) :=
  readString_eq_some_iff.2 ⟨_, rfl, chars_flatMap_jsonByte text.bytes⟩

theorem readBytes_jsonString (text : Text) :
    readBytes (jsonString (some text)) = some text.bytes := by
  have hbyte : ∀ unit ∈ text.bytes.map UInt8.toNat, unit < 256 := by
    intro unit hunit
    obtain ⟨b, -, rfl⟩ := List.mem_map.1 hunit
    exact b.toNat_lt
  rw [readBytes, readString_jsonString]
  dsimp only
  rw [if_pos hbyte, List.map_map]
  have hid : UInt8.ofNat ∘ UInt8.toNat = id := funext fun _ => UInt8.ofNat_toNat
  rw [hid, List.map_id]

/-- **Round trip on bytes.** What is written is one literal of ASCII bytes without control bytes, it
is read back as the bytes of the string, and different strings have different literals. -/
theorem jsonString_roundTrip :
    (∀ text : Text, ∃ body,
      jsonString (some text) = 0x22 :: (body ++ [0x22]) ∧
        Chars (text.bytes.map UInt8.toNat) body ∧ (∀ b ∈ body, 0x20 ≤ b ∧ b < 0x80) ∧
        readBytes (jsonString (some text)) = some text.bytes) ∧
      Function.Injective fun text : Text => jsonString (some text) := by
  constructor
  · intro text
    have hchars := chars_flatMap_jsonByte text.bytes
    exact ⟨text.bytes.flatMap jsonByte, rfl, hchars, hchars.ascii, readBytes_jsonString text⟩
  · intro text other heq
    have hbytes := congrArg readBytes heq
    dsimp only at hbytes
    rw [readBytes_jsonString, readBytes_jsonString, Option.some.injEq] at hbytes
    cases text
    cases other
    simpa using hbytes

/-! ## Text -/

/-- A consumer reads every byte as a code point. -/
theorem readText_jsonString (text : Text) :
    readText (jsonString (some text)) = some (text.bytes.map UInt8.toNat) := by
  have hbyte : ∀ unit ∈ text.bytes.map UInt8.toNat, unit < 0xd800 := by
    intro unit hunit
    obtain ⟨b, -, rfl⟩ := List.mem_map.1 hunit
    exact Nat.lt_of_lt_of_le b.toNat_lt (by decide)
  rw [readText, readString_jsonString]
  dsimp only
  rw [codePoints_eq_self hbyte]

/-- **Text.** The characters of a string in UTF-8 come back exactly when all its bytes are ASCII. -/
theorem jsonString_text_iff (text : Text) (chars : List Char) (hvalid : text.bytes = utf8 chars) :
    readText (jsonString (some text)) = some (chars.map Char.toNat) ↔
      ∀ b ∈ text.bytes, b < 0x80 := by
  rw [readText_jsonString, Option.some.injEq, hvalid]
  exact utf8_eq_codes_iff chars

/-- `main.c` comes back. -/
theorem jsonString_text_ascii :
    readText (jsonString (some (lit "main.c"))) =
      some (['m', 'a', 'i', 'n', '.', 'c'].map Char.toNat) :=
  (jsonString_text_iff (lit "main.c") ['m', 'a', 'i', 'n', '.', 'c'] (by decide)).2
    (@of_decide_eq_true _ (List.decidableBAll _ (lit "main.c").bytes) rfl)

/-- A string of the one character U+00E9 is read as the two characters U+00C3 and U+00A9. -/
theorem jsonString_text_latin :
    utf8 ['é'] = [0xc3, 0xa9] ∧
      readText (jsonString (some ⟨[0xc3, 0xa9], by decide⟩)) = some [0xc3, 0xa9] ∧
      some [0xc3, 0xa9] ≠ some (['é'].map Char.toNat) := by
  decide

end P101Report
