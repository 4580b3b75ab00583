import P101Report.Library.Decimal

/-!
# JSON documents

The JSON grammar over bytes, for documents that are all ASCII: `Value v text` says that `text` is
one of the spellings of the value `v`, with spaces wherever the grammar allows them. A number is
kept as its literal, a string as its UTF-16 code units.

A writer that puts objects and arrays together piece by piece is right when each piece is
(`Value.of_fields`, `Value.of_items`): the pieces of one object or array are separated by commas,
and each may have spaces in front.
-/

set_option autoImplicit false

/-- A JSON value. -/
inductive Json
  | null
  | bool (b : Bool)
  | number (literal : List UInt8)
  | string (units : List Nat)
  | array (items : List Json)
  | object (members : List (List Nat × Json))

namespace Json

open Decimal

/-! ## Tokens -/

/-- A space, a tab, a line feed or a carriage return. -/
def IsSpace (b : UInt8) : Prop := b = 0x20 ∨ b = 0x09 ∨ b = 0x0a ∨ b = 0x0d

instance (b : UInt8) : Decidable (IsSpace b) := inferInstanceAs (Decidable (_ ∨ _ ∨ _ ∨ _))

/-- Spaces that mean nothing. -/
def Spaces (text : List UInt8) : Prop := ∀ b ∈ text, IsSpace b

-- named, for otherwise the quantifier may be decided over all bytes instead of those of the text
instance (text : List UInt8) : Decidable (Spaces text) := List.decidableBAll _ text

def IsDigit (b : UInt8) : Prop := 0x30 ≤ b ∧ b ≤ 0x39

/-- The integer part of a number: `0`, or digits that do not begin with `0`. -/
def IntegerPart (text : List UInt8) : Prop :=
  text = [0x30] ∨
    ∃ first rest, text = first :: rest ∧ 0x31 ≤ first ∧ first ≤ 0x39 ∧ ∀ b ∈ rest, IsDigit b

/-- A point and digits, or nothing. -/
def FractionPart (text : List UInt8) : Prop :=
  text = [] ∨ ∃ digits, text = 0x2e :: digits ∧ digits ≠ [] ∧ ∀ b ∈ digits, IsDigit b

/-- `e` or `E`, an optional sign and digits, or nothing. -/
def ExponentPart (text : List UInt8) : Prop :=
  text = [] ∨ ∃ e sign digits, text = e :: (sign ++ digits) ∧ (e = 0x65 ∨ e = 0x45) ∧
    (sign = [] ∨ sign = [0x2b] ∨ sign = [0x2d]) ∧ digits ≠ [] ∧ ∀ b ∈ digits, IsDigit b

/-- A number literal. -/
def IsNumber (text : List UInt8) : Prop :=
  ∃ sign integer fraction exponent, text = sign ++ (integer ++ (fraction ++ exponent)) ∧
    (sign = [] ∨ sign = [0x2d]) ∧ IntegerPart integer ∧ FractionPart fraction ∧
    ExponentPart exponent

/-- A byte that stands for itself in a string: no control byte, no quote and no backslash. -/
def Unescaped (b : UInt8) : Prop := 0x20 ≤ b ∧ b ≤ 0x7f ∧ b ≠ 0x22 ∧ b ≠ 0x5c

instance (b : UInt8) : Decidable (Unescaped b) := inferInstanceAs (Decidable (_ ∧ _ ∧ _ ∧ _))

/-- Bytes that all stand for themselves. -/
def Plain (text : List UInt8) : Prop := ∀ b ∈ text, Unescaped b

instance (text : List UInt8) : Decidable (Plain text) := List.decidableBAll _ text

/-- The code unit of a two-byte escape. -/
def escapedUnit (b : UInt8) : Option Nat :=
  if b = 0x22 then some 0x22
  else if b = 0x5c then some 0x5c
  else if b = 0x2f then some 0x2f
  else if b = 0x62 then some 0x08
  else if b = 0x66 then some 0x0c
  else if b = 0x6e then some 0x0a
  else if b = 0x72 then some 0x0d
  else if b = 0x74 then some 0x09
  else none

/-- The value of a hexadecimal digit. -/
def hexValue (b : UInt8) : Option Nat :=
  if 0x30 ≤ b ∧ b ≤ 0x39 then some (b.toNat - 0x30)
  else if 0x41 ≤ b ∧ b ≤ 0x46 then some (b.toNat - 0x37)
  else if 0x61 ≤ b ∧ b ≤ 0x66 then some (b.toNat - 0x57)
  else none

/-- What stands between the quotes of a string, and its code units. -/
inductive Chars : List Nat → List UInt8 → Prop
  | nil : Chars [] []
  | unescaped {b : UInt8} {units : List Nat} {text : List UInt8} (h : Unescaped b)
      (rest : Chars units text) : Chars (b.toNat :: units) (b :: text)
  | escaped {b : UInt8} {unit : Nat} {units : List Nat} {text : List UInt8}
      (h : escapedUnit b = some unit) (rest : Chars units text) :
      Chars (unit :: units) (0x5c :: b :: text)
  | unicode {a b c d : UInt8} {wa wb wc wd : Nat} {units : List Nat} {text : List UInt8}
      (ha : hexValue a = some wa) (hb : hexValue b = some wb) (hc : hexValue c = some wc)
      (hd : hexValue d = some wd) (rest : Chars units text) :
      Chars ((((wa * 16 + wb) * 16 + wc) * 16 + wd) :: units)
        (0x5c :: 0x75 :: a :: b :: c :: d :: text)

/-! ## Values -/

mutual

/-- The spellings of a value. -/
inductive Value : Json → List UInt8 → Prop
  | null : Value .null [0x6e, 0x75, 0x6c, 0x6c]
  | true : Value (.bool true) [0x74, 0x72, 0x75, 0x65]
  | false : Value (.bool false) [0x66, 0x61, 0x6c, 0x73, 0x65]
  | number {literal : List UInt8} (h : IsNumber literal) : Value (.number literal) literal
  | string {units : List Nat} {text : List UInt8} (h : Chars units text) :
      Value (.string units) (0x22 :: (text ++ [0x22]))
  | emptyArray {text : List UInt8} (h : Spaces text) : Value (.array []) (0x5b :: (text ++ [0x5d]))
  | array {items : List Json} {text : List UInt8} (h : Items items text) :
      Value (.array items) (0x5b :: (text ++ [0x5d]))
  | emptyObject {text : List UInt8} (h : Spaces text) :
      Value (.object []) (0x7b :: (text ++ [0x7d]))
  | object {members : List (List Nat × Json)} {text : List UInt8} (h : Members members text) :
      Value (.object members) (0x7b :: (text ++ [0x7d]))

/-- A value with the spaces around it; a document is one. -/
inductive Item : Json → List UInt8 → Prop
  | mk {value : Json} {left text right : List UInt8} (hleft : Spaces left) (h : Value value text)
      (hright : Spaces right) : Item value (left ++ (text ++ right))

/-- The items of an array, separated by commas. -/
inductive Items : List Json → List UInt8 → Prop
  | one {item : Json} {text : List UInt8} (h : Item item text) : Items [item] text
  | more {item : Json} {items : List Json} {text later : List UInt8} (h : Item item text)
      (rest : Items items later) : Items (item :: items) (text ++ 0x2c :: later)

/-- A key and its value, with the spaces around them. -/
inductive Member : List Nat × Json → List UInt8 → Prop
  | mk {key : List Nat} {value : Json} {left chars before text : List UInt8} (hleft : Spaces left)
      (hkey : Chars key chars) (hbefore : Spaces before) (h : Item value text) :
      Member (key, value) (left ++ 0x22 :: (chars ++ 0x22 :: (before ++ 0x3a :: text)))

/-- The members of an object, separated by commas. -/
inductive Members : List (List Nat × Json) → List UInt8 → Prop
  | one {member : List Nat × Json} {text : List UInt8} (h : Member member text) :
      Members [member] text
  | more {member : List Nat × Json} {members : List (List Nat × Json)} {text later : List UInt8}
      (h : Member member text) (rest : Members members later) :
      Members (member :: members) (text ++ 0x2c :: later)

end

/-- No object of the value, at any level, has two members of one key. -/
inductive KeysDistinct : Json → Prop
  | null : KeysDistinct .null
  | bool (b : Bool) : KeysDistinct (.bool b)
  | number (literal : List UInt8) : KeysDistinct (.number literal)
  | string (units : List Nat) : KeysDistinct (.string units)
  | array {items : List Json} (h : ∀ item ∈ items, KeysDistinct item) : KeysDistinct (.array items)
  | object {members : List (List Nat × Json)} (hkeys : (members.map Prod.fst).Nodup)
      (h : ∀ member ∈ members, KeysDistinct member.2) : KeysDistinct (.object members)

attribute [simp] KeysDistinct.null KeysDistinct.bool KeysDistinct.number KeysDistinct.string

/-! ## Numbers and strings -/

theorem isNumber_of_integer {sign integer : List UInt8} (hsign : sign = [] ∨ sign = [0x2d])
    (h : IntegerPart integer) : IsNumber (sign ++ integer) :=
  ⟨sign, integer, [], [], by simp, hsign, h, Or.inl rfl, Or.inl rfl⟩

theorem integerPart_decimalNat (n : Nat) : IntegerPart (decimalNat n) := by
  rcases Nat.eq_zero_or_pos n with rfl | hn
  · exact Or.inl decimalNat_zero
  · obtain ⟨first, rest, heq, hlow, hhigh⟩ := decimalNat_head hn
    refine Or.inr ⟨first, rest, heq, hlow, hhigh, ?_⟩
    intro b hb
    exact decimalNat_digit (heq ▸ List.mem_cons_of_mem first hb)

/-- Natural numbers and integers in decimal are numbers. -/
theorem Value.decimalNat (n : Nat) : Value (.number (decimalNat n)) (decimalNat n) :=
  .number (isNumber_of_integer (Or.inl rfl) (integerPart_decimalNat n))

theorem Value.decimalInt (i : Int) : Value (.number (decimalInt i)) (decimalInt i) := by
  apply Value.number
  rw [Decimal.decimalInt]
  split
  · exact isNumber_of_integer (Or.inr rfl) (integerPart_decimalNat i.natAbs)
  · exact isNumber_of_integer (Or.inl rfl) (integerPart_decimalNat i.natAbs)

/-- Bytes that stand for themselves are a string of their own values. -/
theorem Chars.of_plain {text : List UInt8} (h : Plain text) :
    Chars (text.map UInt8.toNat) text := by
  induction text with
  | nil => exact .nil
  | cons b rest ih => exact .unescaped (h b (by simp)) (ih fun c hc => h c (by simp [hc]))

theorem Chars.append {units units' : List Nat} {text text' : List UInt8} (h : Chars units text)
    (h' : Chars units' text') : Chars (units ++ units') (text ++ text') := by
  induction h with
  | nil => exact h'
  | unescaped hb _ ih => exact .unescaped hb ih
  | escaped hb _ ih => exact .escaped hb ih
  | unicode ha hb hc hd _ ih => exact .unicode ha hb hc hd ih

/-! ## Writing piece by piece -/

/-- Pieces behind other ones: each behind a comma. -/
def continued (pieces : List (List UInt8)) : List UInt8 := pieces.flatMap fun piece => 0x2c :: piece

/-- Pieces separated by commas. -/
def separated : List (List UInt8) → List UInt8
  | [] => []
  | first :: later => first ++ continued later

@[simp] theorem continued_nil : continued [] = [] := rfl

@[simp] theorem continued_cons (piece : List UInt8) (later : List (List UInt8)) :
    continued (piece :: later) = 0x2c :: (piece ++ continued later) := rfl

@[simp] theorem continued_append (pieces later : List (List UInt8)) :
    continued (pieces ++ later) = continued pieces ++ continued later :=
  List.flatMap_append

theorem separated_append {pieces : List (List UInt8)} (h : pieces ≠ [])
    (later : List (List UInt8)) :
    separated (pieces ++ later) = separated pieces ++ continued later := by
  cases pieces with
  | nil => exact absurd rfl h
  | cons first rest => simp [separated]

/-- The piece of a key and the text of its value. -/
def fieldText (left key value : List UInt8) : List UInt8 :=
  left ++ 0x22 :: (key ++ 0x22 :: 0x3a :: 0x20 :: value)

/-- An object from its pieces, with spaces before the closing brace. -/
def objectText (pieces : List (List UInt8)) (closing : List UInt8) : List UInt8 :=
  0x7b :: (separated pieces ++ (closing ++ [0x7d]))

/-- An array from its pieces, with spaces before the closing bracket. -/
def arrayText (pieces : List (List UInt8)) (closing : List UInt8) : List UInt8 :=
  0x5b :: (separated pieces ++ (closing ++ [0x5d]))

theorem Spaces.append {text text' : List UInt8} (h : Spaces text) (h' : Spaces text') :
    Spaces (text ++ text') := by
  intro b hb
  rcases List.mem_append.1 hb with hb | hb
  · exact h b hb
  · exact h' b hb

theorem Spaces.nil : Spaces [] := fun _ h => absurd h List.not_mem_nil

theorem Item.of_value {value : Json} {left text : List UInt8} (hleft : Spaces left)
    (h : Value value text) : Item value (left ++ text) := by
  have hitem := Item.mk hleft h Spaces.nil
  rwa [List.append_nil] at hitem

theorem Item.append {value : Json} {text closing : List UInt8} (h : Item value text)
    (hclosing : Spaces closing) : Item value (text ++ closing) := by
  cases h with
  | mk hleft hvalue hright =>
    simp only [List.append_assoc]
    exact .mk hleft hvalue (hright.append hclosing)

theorem Member.append {member : List Nat × Json} {text closing : List UInt8}
    (h : Member member text) (hclosing : Spaces closing) : Member member (text ++ closing) := by
  cases h with
  | mk hleft hkey hbefore hitem =>
    simp only [List.append_assoc, List.cons_append]
    exact .mk hleft hkey hbefore (hitem.append hclosing)

theorem Member.of_value {left key text : List UInt8} {value : Json} (h : Value value text)
    (hleft : Spaces left := by decide) (hkey : Plain key := by decide) :
    Member (key.map UInt8.toNat, value) (fieldText left key text) := by
  have hspace : Spaces [0x20] := by decide
  exact .mk hleft (Chars.of_plain hkey) Spaces.nil (Item.of_value hspace h)

/-- Items separated by commas, the last one with spaces behind it. -/
theorem Items.of_pieces {item : Json} {items : List Json} {first closing : List UInt8}
    {later : List (List UInt8)} (hfirst : Item item first) (hlater : List.Forall₂ Item items later)
    (hclosing : Spaces closing) :
    Items (item :: items) (first ++ (continued later ++ closing)) := by
  induction hlater generalizing item first with
  | nil => exact .one (hfirst.append hclosing)
  | cons h _ ih => simpa using Items.more hfirst (ih h)

theorem Members.of_pieces {member : List Nat × Json} {members : List (List Nat × Json)}
    {first closing : List UInt8} {later : List (List UInt8)} (hfirst : Member member first)
    (hlater : List.Forall₂ Member members later) (hclosing : Spaces closing) :
    Members (member :: members) (first ++ (continued later ++ closing)) := by
  induction hlater generalizing member first with
  | nil => exact .one (hfirst.append hclosing)
  | cons h _ ih => simpa using Members.more hfirst (ih h)

/-- An array is right when its pieces are. -/
theorem Value.of_items {items : List Json} {pieces : List (List UInt8)} {closing : List UInt8}
    (h : List.Forall₂ Item items pieces) (hclosing : Spaces closing := by decide) :
    Value (.array items) (arrayText pieces closing) := by
  cases h with
  | nil => exact .emptyArray hclosing
  | cons hfirst hlater =>
    simpa [arrayText, separated] using Value.array (Items.of_pieces hfirst hlater hclosing)

/-- An object is right when its pieces are. -/
theorem Value.of_fields {members : List (List Nat × Json)} {pieces : List (List UInt8)}
    {closing : List UInt8} (h : List.Forall₂ Member members pieces)
    (hclosing : Spaces closing := by decide) :
    Value (.object members) (objectText pieces closing) := by
  cases h with
  | nil => exact .emptyObject hclosing
  | cons hfirst hlater =>
    simpa [objectText, separated] using Value.object (Members.of_pieces hfirst hlater hclosing)

end Json
