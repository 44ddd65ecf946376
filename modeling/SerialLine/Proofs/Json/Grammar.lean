import SerialLine.Proofs.Json.Numbers
/-!
# The form of JSON texts

The grammar of JSON, apart from any reader. `WellFormed` says which texts are values, nested to any
depth; an object has a list of members, each a key and the text of its value (`IsObject`), whatever
blanks stand between them. A key is a text, however it is written: as it stands, with short escapes,
with numbered ones, or with the two surrogates of a character (`Spells`). Inside a value that nobody
asks for, a surrogate may stand alone (`Inside`).
-/

set_option autoImplicit false

namespace SerialLine.Json

open Reader

/-! ### Texts between quotes -/

/-- What may stand between quotes. -/
inductive Inside : List Char → Prop
  | nil : Inside []
  | plain {c : Char} {cs : List Char} (notQuote : c ≠ '"') (notEscape : c ≠ '\\')
      (notControl : ¬ c.toNat < 0x20) (later : Inside cs) : Inside (c :: cs)
  | short {letter c : Char} {cs : List Char} (stands : shortEscape? letter = some c)
      (later : Inside cs) : Inside ('\\' :: letter :: cs)
  | numbered {digits cs : List Char} {n : Nat} (four : digits.length = 4)
      (stands : hexNumber? digits = some n) (later : Inside cs) :
      Inside ('\\' :: 'u' :: (digits ++ cs))

/-- What stands between quotes, and the characters it stands for. -/
inductive Spells : List Char → List Char → Prop
  | nil : Spells [] []
  | plain {c : Char} {cs s : List Char} (notQuote : c ≠ '"') (notEscape : c ≠ '\\')
      (notControl : ¬ c.toNat < 0x20) (later : Spells cs s) : Spells (c :: cs) (c :: s)
  | short {letter c : Char} {cs s : List Char} (stands : shortEscape? letter = some c)
      (later : Spells cs s) : Spells ('\\' :: letter :: cs) (c :: s)
  | numbered {digits cs s : List Char} {n : Nat} (four : digits.length = 4)
      (stands : hexNumber? digits = some n) (notLow : ¬ IsLowSurrogate n)
      (notHigh : ¬ IsHighSurrogate n) (later : Spells cs s) :
      Spells ('\\' :: 'u' :: (digits ++ cs)) (Char.ofNat n :: s)
  | paired {high low cs s : List Char} {m n : Nat} (fourHigh : high.length = 4)
      (standsHigh : hexNumber? high = some m) (isHigh : IsHighSurrogate m)
      (fourLow : low.length = 4) (standsLow : hexNumber? low = some n) (isLow : IsLowSurrogate n)
      (later : Spells cs s) :
      Spells ('\\' :: 'u' :: (high ++ '\\' :: 'u' :: (low ++ cs)))
        (Char.ofNat (0x10000 + (m - 0xD800) * 0x400 + (n - 0xDC00)) :: s)

theorem Spells.inside {cs s : List Char} (h : Spells cs s) : Inside cs := by
  induction h with
  | nil => exact .nil
  | plain notQuote notEscape notControl _ ih => exact .plain notQuote notEscape notControl ih
  | short stands _ ih => exact .short stands ih
  | numbered four stands _ _ _ ih => exact .numbered four stands ih
  | paired fourHigh standsHigh _ fourLow standsLow _ _ ih =>
    exact .numbered fourHigh standsHigh (.numbered fourLow standsLow ih)

/-- No quote, no escape and no control character. -/
def isPlain (c : Char) : Bool := c ≠ '"' ∧ c ≠ '\\' ∧ ¬ c.toNat < 0x20

/-- A text of plain characters stands for itself. -/
theorem spells_self {cs : List Char} (h : cs.all isPlain) : Spells cs cs := by
  induction cs with
  | nil => exact .nil
  | cons c cs ih =>
    rw [List.all_cons, Bool.and_eq_true] at h
    obtain ⟨notQuote, notEscape, notControl⟩ := of_decide_eq_true h.1
    exact .plain notQuote notEscape notControl (ih h.2)

/-- A text with its quotes. -/
def between (cs : List Char) : List Char := '"' :: (cs ++ ['"'])

/-- A text between quotes that stands for a string. -/
def IsText (s : String) (t : List Char) : Prop := ∃ cs, Spells cs s.toList ∧ t = between cs

/-! ### Numbers -/

/-- At least one digit. -/
def Digits (cs : List Char) : Prop := cs ≠ [] ∧ ∀ c ∈ cs, c.isDigit

/-- The digits before the point. -/
def IsWhole (cs : List Char) : Prop := cs = ['0'] ∨ (Digits cs ∧ cs.head? ≠ some '0')

/-- The digits after the point, which may be left out with it. -/
inductive IsFraction : List Nat → List Char → Prop
  | none : IsFraction [] []
  | some {ds : List Char} (digits : Digits ds) : IsFraction (values ds) ('.' :: ds)

/-- The power of ten, which may be left out. -/
inductive IsPower : Option (Bool × List Nat) → List Char → Prop
  | none : IsPower none []
  | bare {e : Char} {ds : List Char} (letter : e = 'e' ∨ e = 'E') (digits : Digits ds) :
      IsPower (some (false, values ds)) (e :: ds)
  | signed {e : Char} {ds : List Char} (down : Bool) (letter : e = 'e' ∨ e = 'E')
      (digits : Digits ds) : IsPower (some (down, values ds)) (e :: (if down then '-' else '+') :: ds)

/-- The parts of a number and its text. -/
inductive IsNumber : Literal → List Char → Prop
  | mk (negative : Bool) {whole : List Char} {fraction : List Nat} {fractionText : List Char}
      {power : Option (Bool × List Nat)} {powerText : List Char} (isWhole : IsWhole whole)
      (isFraction : IsFraction fraction fractionText) (isPower : IsPower power powerText) :
      IsNumber ⟨negative, values whole, fraction, power⟩
        ((if negative then ['-'] else []) ++ (whole ++ (fractionText ++ powerText)))

/-! ### Values -/

/-- A value without parts. -/
inductive IsScalar : List Char → Prop
  | null : IsScalar ['n', 'u', 'l', 'l']
  | true : IsScalar ['t', 'r', 'u', 'e']
  | false : IsScalar ['f', 'a', 'l', 's', 'e']
  | number {l : Literal} {t : List Char} (isNumber : IsNumber l t) : IsScalar t
  | text {cs : List Char} (inside : Inside cs) : IsScalar (between cs)

def Reader.Bracket.opening : Bracket → Char
  | .list => '['
  | .object => '{'

/-- What stands before a value inside a bracket: in an object its key and a colon. -/
inductive IsLabel : Bracket → List Char → Prop
  | list : IsLabel .list []
  | object {before cs after : List Char} (blank : Blank before) (inside : Inside cs)
      (blank' : Blank after) : IsLabel .object (before ++ (between cs ++ (after ++ [':'])))

/-- The texts of values, and of what stands inside the brackets of each kind if that is not
empty. -/
inductive WellFormed : Option Bracket → List Char → Prop
  | scalar {t : List Char} (isScalar : IsScalar t) : WellFormed none t
  | empty {b : Bracket} {gap : List Char} (blank : Blank gap) :
      WellFormed none (b.opening :: (gap ++ [b.closing]))
  | bracket {b : Bracket} {items : List Char} (inner : WellFormed (some b) items) :
      WellFormed none (b.opening :: (items ++ [b.closing]))
  | last {b : Bracket} {label before v after : List Char} (isLabel : IsLabel b label)
      (blank : Blank before) (value : WellFormed none v) (blank' : Blank after) :
      WellFormed (some b) (label ++ (before ++ (v ++ after)))
  | more {b : Bracket} {label before v after items : List Char} (isLabel : IsLabel b label)
      (blank : Blank before) (value : WellFormed none v) (blank' : Blank after)
      (later : WellFormed (some b) items) :
      WellFormed (some b) (label ++ (before ++ (v ++ (after ++ ',' :: items))))

/-- The text of any value. -/
abbrev IsValue (t : List Char) : Prop := WellFormed none t

/-! ### Objects with their members -/

/-- A key and a colon. -/
def IsKey (key : String) (label : List Char) : Prop :=
  ∃ before t after, IsText key t ∧ Blank before ∧ Blank after ∧ label = before ++ (t ++ (after ++ [':']))

/-- The members of an object that has some, each a key and the text of a value. -/
inductive Members : List (String × List Char) → List Char → Prop
  | last {key : String} {label before v after : List Char} (isKey : IsKey key label)
      (blank : Blank before) (value : IsValue v) (blank' : Blank after) :
      Members [(key, v)] (label ++ (before ++ (v ++ after)))
  | more {key : String} {label before v after : List Char} {ms : List (String × List Char)}
      {items : List Char} (isKey : IsKey key label) (blank : Blank before) (value : IsValue v)
      (blank' : Blank after) (later : Members ms items) :
      Members ((key, v) :: ms) (label ++ (before ++ (v ++ (after ++ ',' :: items))))

/-- The text of an object with its members. -/
inductive IsObject : List (String × List Char) → List Char → Prop
  | empty {gap : List Char} (blank : Blank gap) : IsObject [] ('{' :: (gap ++ ['}']))
  | members {ms : List (String × List Char)} {items : List Char} (inner : Members ms items) :
      IsObject ms ('{' :: (items ++ ['}']))

variable {key : String} {label t items : List Char} {ms : List (String × List Char)}

theorem IsKey.isLabel (h : IsKey key label) : IsLabel .object label := by
  obtain ⟨before, t, after, ⟨cs, hcs, rfl⟩, hbefore, hafter, rfl⟩ := h
  exact .object hbefore hcs.inside hafter

theorem Members.wellFormed (h : Members ms items) : WellFormed (some .object) items := by
  induction h with
  | last isKey blank value blank' => exact .last isKey.isLabel blank value blank'
  | more isKey blank value blank' _ ih => exact .more isKey.isLabel blank value blank' ih

theorem isKey_self (h : key.toList.all isPlain) :
    IsKey key (between key.toList ++ [':']) :=
  ⟨[], _, [], ⟨_, spells_self h, rfl⟩, fun _ h ↦ absurd h List.not_mem_nil,
    fun _ h ↦ absurd h List.not_mem_nil, rfl⟩

/-- An object is a value. -/
theorem IsObject.isValue (h : IsObject ms t) : IsValue t := by
  cases h with
  | empty blank => exact WellFormed.empty (b := .object) blank
  | members inner => exact WellFormed.bracket (b := .object) inner.wellFormed

end SerialLine.Json
