import P101Report.Library.JsonReader

/-!
# Reading a JSON document

A reader of whole documents, by recursive descent. It accepts exactly the documents of the grammar,
with their value (`readDocument_eq_some_iff`), so a document has one value.
-/

set_option autoImplicit false

namespace Json

/-! ## The reader -/

/-- The text behind its leading spaces. -/
def skipSpaces (text : List UInt8) : List UInt8 := text.dropWhile fun b => IsSpace b

instance (b : UInt8) : Decidable (IsDigit b) := inferInstanceAs (Decidable (_ ∧ _))

/-- A byte that a number can have. -/
def IsNumberByte (b : UInt8) : Prop :=
  IsDigit b ∨ b = 0x2b ∨ b = 0x2d ∨ b = 0x2e ∨ b = 0x45 ∨ b = 0x65

instance (b : UInt8) : Decidable (IsNumberByte b) :=
  inferInstanceAs (Decidable (_ ∨ _ ∨ _ ∨ _ ∨ _ ∨ _))

/-- The digits in front of a text. -/
def digitsOf (text : List UInt8) : List UInt8 := text.takeWhile fun b => IsDigit b

/-- The text behind them. -/
def afterDigits (text : List UInt8) : List UInt8 := text.dropWhile fun b => IsDigit b

/-- A text without the sign in front. -/
def unsigned (signs text : List UInt8) : List UInt8 :=
  match text with
  | [] => []
  | b :: rest => if b ∈ signs then rest else text

/-- At least one digit and nothing else. -/
def readDigits (text : List UInt8) : Bool := text ≠ [] && afterDigits text = []

def readExponent (text : List UInt8) : Bool :=
  match text with
  | [] => true
  | b :: rest => (b = 0x65 || b = 0x45) && readDigits (unsigned [0x2b, 0x2d] rest)

def readFraction (text : List UInt8) : Bool :=
  match text with
  | [] => true
  | b :: rest =>
    if b = 0x2e then digitsOf rest ≠ [] && readExponent (afterDigits rest)
    else readExponent text

/-- Whether a text is a number literal. -/
def readNumber (text : List UInt8) : Bool :=
  let text := unsigned [0x2d] text
  (digitsOf text = [0x30] || (digitsOf text).head?.any (· ≠ 0x30)) &&
    readFraction (afterDigits text)

mutual

/-- The value in front of a text, and the text behind it. -/
def readValue : Nat → List UInt8 → Option (Json × List UInt8)
  | 0, _ => none
  | _ + 1, [] => none
  | fuel + 1, b :: text =>
    if b = 0x22 then
      match readChars text with
      | none => none
      | some (units, rest) => some (.string units, rest)
    else if b = 0x5b then
      if (skipSpaces text).head? = some 0x5d then some (.array [], (skipSpaces text).tail)
      else
        match readItems fuel text with
        | none => none
        | some (items, rest) => some (.array items, rest)
    else if b = 0x7b then
      if (skipSpaces text).head? = some 0x7d then some (.object [], (skipSpaces text).tail)
      else
        match readMembers fuel text with
        | none => none
        | some (members, rest) => some (.object members, rest)
    else if [0x6e, 0x75, 0x6c, 0x6c] <+: b :: text then some (.null, text.drop 3)
    else if [0x74, 0x72, 0x75, 0x65] <+: b :: text then some (.bool true, text.drop 3)
    else if [0x66, 0x61, 0x6c, 0x73, 0x65] <+: b :: text then some (.bool false, text.drop 4)
    else
      let literal := (b :: text).takeWhile fun b => IsNumberByte b
      if readNumber literal then
        some (.number literal, (b :: text).dropWhile fun b => IsNumberByte b)
      else none

/-- The items of an array up to its closing bracket, and the text behind it. -/
def readItems : Nat → List UInt8 → Option (List Json × List UInt8)
  | 0, _ => none
  | fuel + 1, text =>
    match readValue fuel (skipSpaces text) with
    | none => none
    | some (item, rest) =>
      match skipSpaces rest with
      | [] => none
      | b :: rest =>
        if b = 0x5d then some ([item], rest)
        else if b = 0x2c then
          match readItems fuel rest with
          | none => none
          | some (items, rest) => some (item :: items, rest)
        else none

/-- The members of an object up to its closing brace, and the text behind it. -/
def readMembers : Nat → List UInt8 → Option (List (List Nat × Json) × List UInt8)
  | 0, _ => none
  | fuel + 1, text =>
    match readString (skipSpaces text) with
    | none => none
    | some (key, rest) =>
      match skipSpaces rest with
      | [] => none
      | b :: rest =>
        if b = 0x3a then
          match readValue fuel (skipSpaces rest) with
          | none => none
          | some (value, rest) =>
            match skipSpaces rest with
            | [] => none
            | b :: rest =>
              if b = 0x7d then some ([(key, value)], rest)
              else if b = 0x2c then
                match readMembers fuel rest with
                | none => none
                | some (members, rest) => some ((key, value) :: members, rest)
              else none
        else none

end

/-- The value of a document; two steps for each byte are enough. -/
def readDocument (text : List UInt8) : Option Json :=
  match readValue (2 * text.length) (skipSpaces text) with
  | none => none
  | some (value, rest) => if skipSpaces rest = [] then some value else none

/-! ## Numbers -/

theorem digitsOf_append {digits rest : List UInt8} (h : ∀ b ∈ digits, IsDigit b)
    (hrest : ∀ b, rest.head? = some b → ¬ IsDigit b) :
    digitsOf (digits ++ rest) = digits ∧ afterDigits (digits ++ rest) = rest := by
  have hall : ∀ b ∈ digits, decide (IsDigit b) = true := fun b hb => decide_eq_true (h b hb)
  rw [digitsOf, afterDigits, List.takeWhile_append_of_pos hall, List.dropWhile_append_of_pos hall]
  cases rest with
  | nil => simp
  | cons b rest =>
    have hb : decide (IsDigit b) = false := decide_eq_false (hrest b rfl)
    simp [hb]

theorem digitsOf_digits {text : List UInt8} : ∀ b ∈ digitsOf text, IsDigit b :=
  fun _ hb => by simpa using List.mem_takeWhile_imp hb

theorem digitsOf_afterDigits (text : List UInt8) : digitsOf text ++ afterDigits text = text :=
  List.takeWhile_append_dropWhile

theorem readDigits_iff {text : List UInt8} :
    readDigits text = true ↔ text ≠ [] ∧ ∀ b ∈ text, IsDigit b := by
  simp [readDigits, afterDigits, List.dropWhile_eq_nil_iff]

theorem not_isDigit_sign {b : UInt8} (h : b = 0x2b ∨ b = 0x2d) : ¬ IsDigit b := by
  rcases h with rfl | rfl <;> decide

theorem unsigned_of_digits {signs text : List UInt8} (hsigns : ∀ b ∈ signs, ¬ IsDigit b)
    (h : ∀ b, text.head? = some b → IsDigit b) : unsigned signs text = text := by
  cases text with
  | nil => rfl
  | cons b rest => exact if_neg fun hb => hsigns b hb (h b rfl)

theorem readExponent_iff {text : List UInt8} : readExponent text = true ↔ ExponentPart text := by
  constructor
  · intro h
    match text with
    | [] => exact Or.inl rfl
    | e :: rest =>
      simp only [readExponent, Bool.and_eq_true, Bool.or_eq_true, decide_eq_true_eq,
        readDigits_iff] at h
      obtain ⟨he, hne, hdigits⟩ := h
      match rest with
      | [] => exact absurd rfl hne
      | b :: rest =>
        by_cases hb : b ∈ [(0x2b : UInt8), 0x2d]
        · simp only [unsigned, if_pos hb] at hne hdigits
          refine Or.inr ⟨e, [b], rest, rfl, he, Or.inr ?_, hne, hdigits⟩
          simpa using hb
        · simp only [unsigned, if_neg hb] at hne hdigits
          exact Or.inr ⟨e, [], b :: rest, rfl, he, Or.inl rfl, hne, hdigits⟩
  · rintro (rfl | ⟨e, sign, digits, rfl, he, hsign, hne, hdigits⟩)
    · rfl
    · have hunsigned : unsigned [0x2b, 0x2d] (sign ++ digits) = digits := by
        obtain rfl | rfl | rfl := hsign
        · exact unsigned_of_digits (fun b hb => not_isDigit_sign (by simpa using hb))
            fun b hb => hdigits b (List.mem_of_mem_head? hb)
        · rfl
        · rfl
      simp only [readExponent, hunsigned, Bool.and_eq_true, Bool.or_eq_true, decide_eq_true_eq,
        readDigits_iff]
      exact ⟨he, hne, hdigits⟩

/-- An exponent begins with no digit and no point. -/
theorem head_exponent {text : List UInt8} (h : ExponentPart text) {b : UInt8}
    (hb : text.head? = some b) : b = 0x65 ∨ b = 0x45 := by
  obtain rfl | ⟨e, sign, digits, rfl, he, -⟩ := h
  · cases hb
  · cases hb
    exact he

theorem readFraction_iff {text : List UInt8} :
    readFraction text = true ↔
      ∃ fraction exponent, text = fraction ++ exponent ∧ FractionPart fraction ∧
        ExponentPart exponent := by
  constructor
  · intro h
    match text with
    | [] => exact ⟨[], [], rfl, Or.inl rfl, Or.inl rfl⟩
    | b :: rest =>
      rw [readFraction] at h
      split at h
      · rename_i hb
        simp only [Bool.and_eq_true, decide_eq_true_eq, readExponent_iff] at h
        refine ⟨b :: digitsOf rest, afterDigits rest, ?_, ?_, h.2⟩
        · rw [List.cons_append, digitsOf_afterDigits]
        · exact Or.inr ⟨digitsOf rest, by rw [hb], h.1, digitsOf_digits⟩
      · exact ⟨[], b :: rest, rfl, Or.inl rfl, readExponent_iff.1 h⟩
  · rintro ⟨fraction, exponent, rfl, hfraction, hexponent⟩
    have hhead := @head_exponent exponent hexponent
    obtain rfl | ⟨digits, rfl, hne, hdigits⟩ := hfraction
    · cases exponent with
      | nil => rfl
      | cons b rest =>
        have hb : b ≠ 0x2e := by
          rcases hhead rfl with rfl | rfl <;> decide
        rw [List.nil_append, readFraction, if_neg hb]
        exact readExponent_iff.2 hexponent
    · obtain ⟨htake, hdrop⟩ := @digitsOf_append _ exponent hdigits fun b hb => by
        rcases hhead hb with rfl | rfl <;> decide
      rw [List.cons_append, readFraction, if_pos rfl, htake, hdrop]
      simp only [Bool.and_eq_true, decide_eq_true_eq]
      exact ⟨hne, readExponent_iff.2 hexponent⟩

/-- The integer part of a number, as its digits. -/
theorem integerPart_iff {text : List UInt8} (h : ∀ b ∈ text, IsDigit b) :
    IntegerPart text ↔ text = [0x30] ∨ text.head?.any (· ≠ 0x30) = true := by
  refine or_congr_right ⟨?_, ?_⟩
  · rintro ⟨first, rest, rfl, hlow, -, -⟩
    have hne : first ≠ 0x30 := by
      rintro rfl
      exact absurd hlow (by decide)
    simpa using hne
  · intro hany
    match text with
    | [] => cases hany
    | first :: rest =>
      have hne : first ≠ 0x30 := by simpa using hany
      obtain ⟨hlow, hhigh⟩ := h first List.mem_cons_self
      refine ⟨first, rest, rfl, ?_, hhigh, fun b hb => h b (List.mem_cons_of_mem _ hb)⟩
      rw [UInt8.le_iff_toNat_le] at hlow ⊢
      have hnat : first.toNat ≠ 0x30 := fun heq => hne (UInt8.toNat_inj.1 heq)
      change 48 ≤ first.toNat at hlow
      change 49 ≤ first.toNat
      omega

theorem isDigit_integerPart {text : List UInt8} (h : IntegerPart text) : ∀ b ∈ text, IsDigit b := by
  intro b hb
  obtain rfl | ⟨first, rest, rfl, hlow, hhigh, hrest⟩ := h
  · rw [List.mem_singleton.1 hb]
    decide
  · obtain rfl | hb := List.mem_cons.1 hb
    · exact ⟨UInt8.le_trans (by decide) hlow, hhigh⟩
    · exact hrest b hb

theorem integerPart_ne_nil {text : List UInt8} (h : IntegerPart text) : text ≠ [] := by
  obtain rfl | ⟨first, rest, rfl, -⟩ := h
  · simp
  · simp

/-- Behind the integer part no digit follows. -/
theorem head_fraction {fraction exponent : List UInt8} (hfraction : FractionPart fraction)
    (hexponent : ExponentPart exponent) {b : UInt8} (hb : (fraction ++ exponent).head? = some b) :
    b = 0x2e ∨ b = 0x65 ∨ b = 0x45 := by
  obtain rfl | ⟨digits, rfl, -⟩ := hfraction
  · exact Or.inr (head_exponent hexponent hb)
  · cases hb
    exact Or.inl rfl

theorem unsigned_minus (text : List UInt8) :
    ∃ sign, (sign = [] ∨ sign = [0x2d]) ∧ text = sign ++ unsigned [0x2d] text := by
  cases text with
  | nil => exact ⟨[], Or.inl rfl, rfl⟩
  | cons b rest =>
    by_cases hb : b ∈ [(0x2d : UInt8)]
    · refine ⟨[0x2d], Or.inr rfl, ?_⟩
      rw [unsigned, if_pos hb, List.mem_singleton.1 hb]
      rfl
    · exact ⟨[], Or.inl rfl, by rw [unsigned, if_neg hb, List.nil_append]⟩

/-- A literal is a number when its parts are. -/
theorem readNumber_iff {text : List UInt8} : readNumber text = true ↔ IsNumber text := by
  simp only [readNumber, Bool.and_eq_true, Bool.or_eq_true, decide_eq_true_eq,
    ← integerPart_iff digitsOf_digits, readFraction_iff]
  constructor
  · rintro ⟨hinteger, fraction, exponent, hrest, hfraction, hexponent⟩
    obtain ⟨sign, hsign, htext⟩ := unsigned_minus text
    refine ⟨sign, digitsOf (unsigned [0x2d] text), fraction, exponent, ?_, hsign, hinteger,
      hfraction, hexponent⟩
    rw [← hrest, digitsOf_afterDigits]
    exact htext
  · rintro ⟨sign, integer, fraction, exponent, rfl, hsign, hinteger, hfraction, hexponent⟩
    have hdigits := isDigit_integerPart hinteger
    obtain ⟨htake, hdrop⟩ := @digitsOf_append _ (fraction ++ exponent) hdigits fun b hb => by
      rcases head_fraction hfraction hexponent hb with rfl | rfl | rfl <;> decide
    have hunsigned : unsigned [0x2d] (sign ++ (integer ++ (fraction ++ exponent))) =
        integer ++ (fraction ++ exponent) := by
      obtain rfl | rfl := hsign
      · refine unsigned_of_digits (fun b hb => not_isDigit_sign (by simpa using Or.inr hb)) ?_
        intro b hb
        rw [List.nil_append, List.head?_append_of_ne_nil _ (integerPart_ne_nil hinteger)] at hb
        exact hdigits b (List.mem_of_mem_head? hb)
      · rfl
    rw [hunsigned, htake, hdrop]
    exact ⟨hinteger, fraction, exponent, rfl, hfraction, hexponent⟩

/-! ## Spaces and first bytes -/

theorem skipSpaces_append {left : List UInt8} (h : Spaces left) (text : List UInt8) :
    skipSpaces (left ++ text) = skipSpaces text :=
  List.dropWhile_append_of_pos fun b hb => decide_eq_true (h b hb)

theorem skipSpaces_cons {b : UInt8} (hb : ¬ IsSpace b) (text : List UInt8) :
    skipSpaces (b :: text) = b :: text := by
  simp [skipSpaces, hb]

theorem skipSpaces_spaces {text : List UInt8} (h : Spaces text) : skipSpaces text = [] := by
  simpa [skipSpaces] using fun b hb => h b hb

/-- The spaces in front of a text. -/
theorem spaces_skipSpaces (text : List UInt8) :
    ∃ left, Spaces left ∧ text = left ++ skipSpaces text :=
  ⟨text.takeWhile fun b => IsSpace b, fun b hb => by simpa using List.mem_takeWhile_imp hb,
    List.takeWhile_append_dropWhile.symm⟩

theorem not_isSpace_isNumberByte {b : UInt8} (h : IsNumberByte b) : ¬ IsSpace b := by
  rintro (rfl | rfl | rfl | rfl) <;> revert h <;> decide

theorem isNumberByte_of_isNumber {literal : List UInt8} (h : IsNumber literal) :
    ∀ b ∈ literal, IsNumberByte b := by
  obtain ⟨sign, integer, fraction, exponent, rfl, hsign, hinteger, hfraction, hexponent⟩ := h
  intro b hb
  simp only [List.mem_append] at hb
  obtain hb | hb | hb | hb := hb
  · obtain rfl | rfl := hsign
    · cases hb
    · rw [List.mem_singleton.1 hb]
      decide
  · exact Or.inl (isDigit_integerPart hinteger b hb)
  · obtain rfl | ⟨digits, rfl, -, hdigits⟩ := hfraction
    · cases hb
    · obtain rfl | hb := List.mem_cons.1 hb
      · decide
      · exact Or.inl (hdigits b hb)
  · obtain rfl | ⟨e, sign, digits, rfl, he, hsign, -, hdigits⟩ := hexponent
    · cases hb
    · obtain rfl | hb := List.mem_cons.1 hb
      · obtain rfl | rfl := he <;> decide
      · obtain hb | hb := List.mem_append.1 hb
        · obtain rfl | rfl | rfl := hsign
          · cases hb
          · rw [List.mem_singleton.1 hb]
            decide
          · rw [List.mem_singleton.1 hb]
            decide
        · exact Or.inl (hdigits b hb)

/-- A number begins with a minus sign or a digit. -/
theorem head_isNumber {literal : List UInt8} (h : IsNumber literal) :
    ∃ b rest, literal = b :: rest ∧ IsNumberByte b := by
  cases literal with
  | nil => exact absurd (readNumber_iff.2 h) (by decide)
  | cons b rest => exact ⟨b, rest, rfl, isNumberByte_of_isNumber h b List.mem_cons_self⟩

/-- A value begins with no space and no closing bracket. -/
theorem head_value {value : Json} {text : List UInt8} (h : Value value text) :
    ∃ b rest, text = b :: rest ∧ ¬ IsSpace b ∧ b ≠ 0x5d := by
  cases h with
  | null => exact ⟨_, _, rfl, by decide, by decide⟩
  | true => exact ⟨_, _, rfl, by decide, by decide⟩
  | false => exact ⟨_, _, rfl, by decide, by decide⟩
  | number h =>
    obtain ⟨b, rest, rfl, hb⟩ := head_isNumber h
    refine ⟨b, rest, rfl, not_isSpace_isNumberByte hb, ?_⟩
    rintro rfl
    revert hb
    decide
  | string => exact ⟨_, _, rfl, by decide, by decide⟩
  | emptyArray => exact ⟨_, _, rfl, by decide, by decide⟩
  | array => exact ⟨_, _, rfl, by decide, by decide⟩
  | emptyObject => exact ⟨_, _, rfl, by decide, by decide⟩
  | object => exact ⟨_, _, rfl, by decide, by decide⟩

/-- A value is read in front of a text that does not go on with a number. -/
def Stops (rest : List UInt8) : Prop := ∀ b, rest.head? = some b → ¬ IsNumberByte b

/-! ## Completeness -/

theorem readValue_number {literal rest : List UInt8} (h : IsNumber literal) (hrest : Stops rest)
    (fuel : Nat) : readValue (fuel + 1) (literal ++ rest) = some (.number literal, rest) := by
  have hall : ∀ b ∈ literal, decide (IsNumberByte b) = true :=
    fun b hb => decide_eq_true (isNumberByte_of_isNumber h b hb)
  have htake : (literal ++ rest).takeWhile (fun b => decide (IsNumberByte b)) = literal ∧
      (literal ++ rest).dropWhile (fun b => decide (IsNumberByte b)) = rest := by
    rw [List.takeWhile_append_of_pos hall, List.dropWhile_append_of_pos hall]
    cases rest with
    | nil => simp
    | cons b rest =>
      have hb : decide (IsNumberByte b) = false := decide_eq_false (hrest b rfl)
      simp [hb]
  obtain ⟨b, later, hliteral, hb⟩ := head_isNumber h
  -- no other value begins like a number
  have hne : ∀ c, ¬ IsNumberByte c → b ≠ c := by
    rintro c hc rfl
    exact hc hb
  have hbegins : ∀ c word, ¬ IsNumberByte c → ¬ (c :: word) <+: b :: (later ++ rest) :=
    fun c word hc hword => hne c hc (List.cons_prefix_cons.1 hword).1.symm
  rw [hliteral, List.cons_append] at htake
  rw [hliteral, List.cons_append, readValue, if_neg (hne _ (by decide)),
    if_neg (hne _ (by decide)), if_neg (hne _ (by decide)), if_neg (hbegins _ _ (by decide)),
    if_neg (hbegins _ _ (by decide)), if_neg (hbegins _ _ (by decide)), htake.1, htake.2,
    ← hliteral, if_pos (readNumber_iff.2 h)]

/-- What the readers do with so much fuel: they read what the grammar spells, if it is short
enough. -/
structure Complete (fuel : Nat) : Prop where
  value : ∀ {value : Json} {text rest : List UInt8}, Value value text → 2 * text.length ≤ fuel →
    Stops rest → readValue fuel (text ++ rest) = some (value, rest)
  items : ∀ {items : List Json} {text : List UInt8}, Items items text →
    2 * text.length + 1 ≤ fuel → ∀ rest,
      readItems fuel (text ++ 0x5d :: rest) = some (items, rest)
  members : ∀ {members : List (List Nat × Json)} {text : List UInt8}, Members members text →
    2 * text.length + 1 ≤ fuel → ∀ rest,
      readMembers fuel (text ++ 0x7d :: rest) = some (members, rest)

/-- A delimiter: a byte that no value goes on with. -/
def Delimits (b : UInt8) : Prop := ¬ IsSpace b ∧ ¬ IsNumberByte b

/-- An item is read up to the spaces behind it. -/
theorem Complete.item {fuel : Nat} (hfuel : Complete fuel) {value : Json} {text : List UInt8}
    (h : Item value text) (hlength : 2 * text.length ≤ fuel) {b : UInt8} (hb : Delimits b)
    (rest : List UInt8) :
    ∃ behind, readValue fuel (skipSpaces (text ++ b :: rest)) = some (value, behind) ∧
      skipSpaces behind = b :: rest := by
  cases h with
  | @mk _ left text right hleft hvalue hright =>
    obtain ⟨c, later, htext, hspace, -⟩ := head_value hvalue
    have hskip : skipSpaces (left ++ (text ++ right) ++ b :: rest) =
        text ++ (right ++ b :: rest) := by
      rw [List.append_assoc, List.append_assoc, skipSpaces_append hleft, htext, List.cons_append,
        skipSpaces_cons hspace]
    have hstops : Stops (right ++ b :: rest) := by
      intro d hd
      cases right with
      | nil =>
        cases hd
        exact hb.2
      | cons e right =>
        cases hd
        exact fun hnumber => not_isSpace_isNumberByte hnumber (hright d List.mem_cons_self)
    refine ⟨right ++ b :: rest, ?_, ?_⟩
    · rw [hskip]
      exact hfuel.value hvalue (by simp only [List.length_append] at hlength; omega) hstops
    · rw [skipSpaces_append hright, skipSpaces_cons hb.1]

theorem complete_items {fuel : Nat} (hfuel : Complete fuel) {items : List Json} {text : List UInt8}
    (h : Items items text) (hlength : 2 * text.length ≤ fuel) (rest : List UInt8) :
    readItems (fuel + 1) (text ++ 0x5d :: rest) = some (items, rest) := by
  cases h with
  | one h =>
    obtain ⟨behind, hread, hskip⟩ :=
      hfuel.item h hlength (b := 0x5d) ⟨by decide, by decide⟩ rest
    rw [readItems, hread]
    simp only [hskip, if_true]
  | @more item items text later h hlater =>
    simp only [List.length_append, List.length_cons] at hlength
    obtain ⟨behind, hread, hskip⟩ :=
      hfuel.item h (by omega) (b := 0x2c) ⟨by decide, by decide⟩ (later ++ 0x5d :: rest)
    have hcomma : (0x2c : UInt8) ≠ 0x5d := by decide
    rw [List.append_assoc, List.cons_append, readItems, hread]
    simp only [hskip, hfuel.items hlater (by omega) rest, if_true, if_neg hcomma]

/-- A member is read up to the spaces behind it. -/
theorem Complete.member {fuel : Nat} (hfuel : Complete fuel) {member : List Nat × Json}
    {text : List UInt8} (h : Member member text) (hlength : 2 * text.length ≤ fuel) {b : UInt8}
    (hb : Delimits b) (rest : List UInt8) :
    ∃ afterKey afterColon behind,
      readString (skipSpaces (text ++ b :: rest)) = some (member.1, afterKey) ∧
      skipSpaces afterKey = 0x3a :: afterColon ∧
      readValue fuel (skipSpaces afterColon) = some (member.2, behind) ∧
      skipSpaces behind = b :: rest := by
  cases h with
  | @mk key value left chars before text hleft hkey hbefore hitem =>
    simp only [List.length_append, List.length_cons] at hlength
    obtain ⟨behind, hread, hskip⟩ := hfuel.item hitem (by omega) hb rest
    refine ⟨before ++ 0x3a :: (text ++ b :: rest), text ++ b :: rest, behind, ?_, ?_, hread, hskip⟩
    · simp only [List.append_assoc, List.cons_append]
      rw [skipSpaces_append hleft, skipSpaces_cons (by decide)]
      exact readChars_of_chars hkey _
    · rw [skipSpaces_append hbefore, skipSpaces_cons (by decide)]

theorem complete_members {fuel : Nat} (hfuel : Complete fuel) {members : List (List Nat × Json)}
    {text : List UInt8} (h : Members members text) (hlength : 2 * text.length ≤ fuel)
    (rest : List UInt8) :
    readMembers (fuel + 1) (text ++ 0x7d :: rest) = some (members, rest) := by
  cases h with
  | @one member text h =>
    obtain ⟨afterKey, afterColon, behind, hkey, hcolon, hread, hskip⟩ :=
      hfuel.member h hlength (b := 0x7d) ⟨by decide, by decide⟩ rest
    rw [readMembers, hkey]
    simp only [hcolon, hread, hskip, if_true]
  | @more member members text later h hlater =>
    simp only [List.length_append, List.length_cons] at hlength
    obtain ⟨afterKey, afterColon, behind, hkey, hcolon, hread, hskip⟩ :=
      hfuel.member h (by omega) (b := 0x2c) ⟨by decide, by decide⟩ (later ++ 0x7d :: rest)
    have hcomma : (0x2c : UInt8) ≠ 0x7d := by decide
    rw [List.append_assoc, List.cons_append, readMembers, hkey]
    simp only [hcolon, hread, hskip, hfuel.members hlater (by omega) rest, if_true, if_neg hcomma]

/-- Items and members begin like a value, not with a closing bracket. -/
theorem head_items {items : List Json} {text : List UInt8} (h : Items items text)
    (rest : List UInt8) : (skipSpaces (text ++ rest)).head? ≠ some 0x5d := by
  have hitem : ∀ {value : Json} {text : List UInt8}, Item value text → ∀ rest,
      (skipSpaces (text ++ rest)).head? ≠ some 0x5d := by
    rintro _ _ (@⟨_, left, text, right, hleft, hvalue, hright⟩) rest
    obtain ⟨b, later, rfl, hspace, hb⟩ := head_value hvalue
    rw [List.append_assoc, skipSpaces_append hleft, List.append_assoc, List.cons_append,
      skipSpaces_cons hspace]
    simpa using hb
  cases h with
  | one h => exact hitem h rest
  | more h =>
    rw [List.append_assoc]
    exact hitem h _

theorem head_members {members : List (List Nat × Json)} {text : List UInt8}
    (h : Members members text) (rest : List UInt8) :
    (skipSpaces (text ++ rest)).head? ≠ some 0x7d := by
  have hmember : ∀ {member : List Nat × Json} {text : List UInt8}, Member member text → ∀ rest,
      (skipSpaces (text ++ rest)).head? ≠ some 0x7d := by
    rintro _ _ (@⟨_, _, left, _, _, _, hleft, _, _, _⟩) rest
    rw [List.append_assoc, skipSpaces_append hleft, List.cons_append, skipSpaces_cons (by decide)]
    simp
  cases h with
  | one h => exact hmember h rest
  | more h =>
    rw [List.append_assoc]
    exact hmember h _

theorem complete_value {fuel : Nat} (hfuel : Complete fuel) {value : Json}
    {text rest : List UInt8} (h : Value value text) (hlength : 2 * text.length ≤ fuel + 1)
    (hrest : Stops rest) : readValue (fuel + 1) (text ++ rest) = some (value, rest) := by
  cases h with
  | null => simp [readValue]
  | true => simp [readValue]
  | false => simp [readValue]
  | number h => exact readValue_number h hrest fuel
  | @string units text h =>
    rw [List.cons_append, readValue, if_pos rfl, List.append_assoc, List.singleton_append,
      readChars_of_chars h]
  | @emptyArray text h =>
    have hskip : skipSpaces (text ++ 0x5d :: rest) = 0x5d :: rest := by
      rw [skipSpaces_append h]
      exact skipSpaces_cons (by decide) rest
    simp [readValue, hskip]
  | @array items text h =>
    simp only [List.length_append, List.length_cons, List.length_nil] at hlength
    rw [List.cons_append, readValue, if_neg (by decide), if_pos rfl, List.append_assoc,
      if_neg (head_items h _), List.singleton_append, hfuel.items h (by omega) rest]
  | @emptyObject text h =>
    have hskip : skipSpaces (text ++ 0x7d :: rest) = 0x7d :: rest := by
      rw [skipSpaces_append h]
      exact skipSpaces_cons (by decide) rest
    simp [readValue, hskip]
  | @object members text h =>
    simp only [List.length_append, List.length_cons, List.length_nil] at hlength
    rw [List.cons_append, readValue, if_neg (by decide), if_neg (by decide), if_pos rfl,
      List.append_assoc, if_neg (head_members h _), List.singleton_append,
      hfuel.members h (by omega) rest]

theorem complete (fuel : Nat) : Complete fuel := by
  induction fuel with
  | zero =>
    refine ⟨fun h hlength _ => ?_, fun _ hlength => absurd hlength (by omega),
      fun _ hlength => absurd hlength (by omega)⟩
    obtain ⟨b, rest, rfl, -⟩ := head_value h
    simp at hlength
  | succ fuel ih =>
    exact ⟨complete_value ih, fun h hlength rest => complete_items ih h (by omega) rest,
      fun h hlength rest => complete_members ih h (by omega) rest⟩

/-! ## Soundness -/

/-- What the readers read with so much fuel is spelled in the text. -/
structure Sound (fuel : Nat) : Prop where
  value : ∀ {text rest : List UInt8} {value : Json}, readValue fuel text = some (value, rest) →
    ∃ used, text = used ++ rest ∧ Value value used
  items : ∀ {text rest : List UInt8} {items : List Json},
    readItems fuel text = some (items, rest) →
      ∃ used, text = used ++ 0x5d :: rest ∧ Items items used
  members : ∀ {text rest : List UInt8} {members : List (List Nat × Json)},
    readMembers fuel text = some (members, rest) →
      ∃ used, text = used ++ 0x7d :: rest ∧ Members members used

/-- A value between spaces is an item, up to what stands behind the spaces. -/
theorem Sound.item {fuel : Nat} (hfuel : Sound fuel) {text behind : List UInt8} {value : Json}
    (h : readValue fuel (skipSpaces text) = some (value, behind)) :
    ∃ used, text = used ++ skipSpaces behind ∧ Item value used := by
  obtain ⟨left, hleft, htext⟩ := spaces_skipSpaces text
  obtain ⟨used, hused, hvalue⟩ := hfuel.value h
  obtain ⟨right, hright, hbehind⟩ := spaces_skipSpaces behind
  refine ⟨left ++ (used ++ right), ?_, .mk hleft hvalue hright⟩
  rw [htext, hused, List.append_assoc, List.append_assoc, ← hbehind]

theorem readString_eq_some {text rest : List UInt8} {key : List Nat}
    (h : readString text = some (key, rest)) :
    ∃ chars, text = 0x22 :: (chars ++ 0x22 :: rest) ∧ Chars key chars := by
  unfold readString at h
  split at h
  · obtain ⟨chars, rfl, hchars⟩ := chars_of_readChars h
    exact ⟨chars, rfl, hchars⟩
  · cases h

/-- A key, a colon and an item are a member, up to what stands behind the spaces. -/
theorem Sound.member {fuel : Nat} (hfuel : Sound fuel)
    {text afterKey afterColon behind : List UInt8} {key : List Nat} {value : Json}
    (hkey : readString (skipSpaces text) = some (key, afterKey))
    (hcolon : skipSpaces afterKey = 0x3a :: afterColon)
    (hvalue : readValue fuel (skipSpaces afterColon) = some (value, behind)) :
    ∃ used, text = used ++ skipSpaces behind ∧ Member (key, value) used := by
  obtain ⟨left, hleft, htext⟩ := spaces_skipSpaces text
  obtain ⟨chars, hchars, hkey⟩ := readString_eq_some hkey
  obtain ⟨before, hbefore, hafter⟩ := spaces_skipSpaces afterKey
  obtain ⟨used, hused, hitem⟩ := hfuel.item hvalue
  refine ⟨left ++ 0x22 :: (chars ++ 0x22 :: (before ++ 0x3a :: used)), ?_,
    .mk hleft hkey hbefore hitem⟩
  rw [htext, hchars, hafter, hcolon, hused]
  simp only [List.append_assoc, List.cons_append]

theorem sound_items {fuel : Nat} (hfuel : Sound fuel) {text rest : List UInt8} {items : List Json}
    (h : readItems (fuel + 1) text = some (items, rest)) :
    ∃ used, text = used ++ 0x5d :: rest ∧ Items items used := by
  rw [readItems] at h
  split at h
  · cases h
  · rename_i item behind hitem
    obtain ⟨used, rfl, hused⟩ := hfuel.item hitem
    split at h
    · cases h
    · rename_i b later hskip
      rw [hskip]
      split at h
      · -- a closing bracket: the last item
        rename_i hb
        cases h
        exact ⟨used, by rw [hb], .one hused⟩
      · split at h
        · -- a comma: more items behind it
          rename_i hb
          split at h
          · cases h
          · rename_i items' rest' hitems
            cases h
            obtain ⟨used', rfl, hused'⟩ := hfuel.items hitems
            refine ⟨used ++ 0x2c :: used', ?_, .more hused hused'⟩
            rw [hb, List.append_assoc, List.cons_append]
        · cases h

theorem sound_members {fuel : Nat} (hfuel : Sound fuel) {text rest : List UInt8}
    {members : List (List Nat × Json)}
    (h : readMembers (fuel + 1) text = some (members, rest)) :
    ∃ used, text = used ++ 0x7d :: rest ∧ Members members used := by
  rw [readMembers] at h
  split at h
  · cases h
  · rename_i key afterKey hkey
    split at h
    · cases h
    · rename_i b afterColon hskip
      split at h
      · rename_i hb
        split at h
        · cases h
        · rename_i value behind hvalue
          obtain ⟨used, rfl, hused⟩ := hfuel.member hkey (hb ▸ hskip) hvalue
          split at h
          · cases h
          · rename_i c later hskip'
            rw [hskip']
            split at h
            · -- a closing brace: the last member
              rename_i hc
              cases h
              exact ⟨used, by rw [hc], .one hused⟩
            · split at h
              · -- a comma: more members behind it
                rename_i hc
                split at h
                · cases h
                · rename_i members' rest' hmembers
                  cases h
                  obtain ⟨used', rfl, hused'⟩ := hfuel.members hmembers
                  refine ⟨used ++ 0x2c :: used', ?_, .more hused hused'⟩
                  rw [hc, List.append_assoc, List.cons_append]
              · cases h
      · cases h

/-- Brackets with spaces between them. -/
theorem closing_of_head {text : List UInt8} {b : UInt8} (h : (skipSpaces text).head? = some b) :
    ∃ left, Spaces left ∧ text = left ++ b :: (skipSpaces text).tail := by
  obtain ⟨left, hleft, htext⟩ := spaces_skipSpaces text
  obtain ⟨tail, htail⟩ := List.head?_eq_some_iff.1 h
  refine ⟨left, hleft, ?_⟩
  rw [htail, List.tail_cons, ← htail]
  exact htext

theorem drop_of_prefix {word text : List UInt8} (h : word <+: text) :
    text = word ++ text.drop word.length :=
  (List.prefix_iff_eq_append.1 h).symm

theorem sound_value {fuel : Nat} (hfuel : Sound fuel) {text rest : List UInt8} {value : Json}
    (h : readValue (fuel + 1) text = some (value, rest)) :
    ∃ used, text = used ++ rest ∧ Value value used := by
  cases text with
  | nil => cases h
  | cons b text =>
    rw [readValue] at h
    -- the first byte decides, in the order of the reader
    split at h
    · -- a string
      rename_i hb
      split at h
      · cases h
      · rename_i units rest' hchars
        cases h
        obtain ⟨chars, rfl, hunits⟩ := chars_of_readChars hchars
        exact ⟨0x22 :: (chars ++ [0x22]), by simp [hb], .string hunits⟩
    split at h
    · -- an array
      rename_i hb
      split at h
      · rename_i hhead
        cases h
        obtain ⟨left, hleft, htext⟩ := closing_of_head hhead
        refine ⟨0x5b :: (left ++ [0x5d]), ?_, .emptyArray hleft⟩
        rw [hb, List.cons_append, List.append_assoc, List.singleton_append, ← htext]
      · split at h
        · cases h
        · rename_i items rest' hitems
          cases h
          obtain ⟨used, rfl, hused⟩ := hfuel.items hitems
          exact ⟨0x5b :: (used ++ [0x5d]), by simp [hb], .array hused⟩
    split at h
    · -- an object
      rename_i hb
      split at h
      · rename_i hhead
        cases h
        obtain ⟨left, hleft, htext⟩ := closing_of_head hhead
        refine ⟨0x7b :: (left ++ [0x7d]), ?_, .emptyObject hleft⟩
        rw [hb, List.cons_append, List.append_assoc, List.singleton_append, ← htext]
      · split at h
        · cases h
        · rename_i members rest' hmembers
          cases h
          obtain ⟨used, rfl, hused⟩ := hfuel.members hmembers
          exact ⟨0x7b :: (used ++ [0x7d]), by simp [hb], .object hused⟩
    split at h
    · rename_i hword
      cases h
      exact ⟨_, drop_of_prefix hword, .null⟩
    split at h
    · rename_i hword
      cases h
      exact ⟨_, drop_of_prefix hword, .true⟩
    split at h
    · rename_i hword
      cases h
      exact ⟨_, drop_of_prefix hword, .false⟩
    -- anything else has to be a number
    dsimp only at h
    split at h
    · rename_i hnumber
      cases h
      exact ⟨_, List.takeWhile_append_dropWhile.symm, .number (readNumber_iff.1 hnumber)⟩
    · cases h

theorem sound (fuel : Nat) : Sound fuel := by
  induction fuel with
  | zero =>
    refine ⟨fun h => ?_, fun h => ?_, fun h => ?_⟩
    · simp [readValue] at h
    · simp [readItems] at h
    · simp [readMembers] at h
  | succ fuel ih => exact ⟨sound_value ih, sound_items ih, sound_members ih⟩

/-! ## Documents -/

/-- **The reader and the grammar agree.** A document has a value exactly when the grammar spells
it. -/
theorem readDocument_eq_some_iff {text : List UInt8} {value : Json} :
    readDocument text = some value ↔ Item value text := by
  unfold readDocument
  constructor
  · intro h
    split at h
    · cases h
    · rename_i value' behind hread
      split at h
      · rename_i hskip
        cases h
        obtain ⟨used, hused, hitem⟩ := (sound _).item hread
        rw [hused, hskip, List.append_nil]
        exact hitem
      · cases h
  · rintro (@⟨_, left, text, right, hleft, hvalue, hright⟩)
    obtain ⟨b, later, htext, hspace, -⟩ := head_value hvalue
    have hskip : skipSpaces (left ++ (text ++ right)) = text ++ right := by
      rw [skipSpaces_append hleft, htext, List.cons_append, skipSpaces_cons hspace]
    have hstops : Stops right := fun d hd hnumber =>
      not_isSpace_isNumberByte hnumber (hright d (List.mem_of_mem_head? hd))
    have hlength : 2 * text.length ≤ 2 * (left ++ (text ++ right)).length := by
      simp only [List.length_append]
      omega
    rw [hskip, (complete _).value hvalue hlength hstops]
    simp only [skipSpaces_spaces hright, if_true]

end Json
