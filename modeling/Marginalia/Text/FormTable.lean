import Marginalia.Number.Digit
import Marginalia.Text.Search

/-!
Tables that give characters other forms. A row names the first of some characters that follow each
other, in hexadecimal digits, and behind it their forms: the characters of a form with plus signs
between them. Two characters with a hyphen are as many forms of one character each, from the one to
the other.
-/

namespace Marginalia.Text

/-- The forms of characters that follow each other. -/
structure FormRow where
  first : Nat
  forms : Array (List Char)

/-- The forms of some characters. -/
structure FormTable where
  rows : List FormRow

/-- The code point that digits stand for. -/
def codePointOf (digits : List Char) : Nat := (Digit.number? 16 digits).getD 0

/-- A form, or a run of forms. -/
def formsOf (entry : List Char) : List (List Char) :=
  match splitAtFirst? '-' entry with
  | some (first, last) =>
    let first := codePointOf first
    (List.range (codePointOf last + 1 - first)).map fun i => [Char.ofNat (first + i)]
  | none => [(splitAtEach '+' entry).map fun digits => Char.ofNat (codePointOf digits)]

/-- The row that a line writes down. -/
def FormRow.ofLine (line : String) : FormRow :=
  match splitAtEach ' ' line.toList with
  | [] => ⟨0, #[]⟩
  | first :: entries => ⟨codePointOf first, (entries.flatMap formsOf).toArray⟩

namespace FormTable

/-- The table that lines write down. -/
def ofRows (lines : List String) : FormTable := ⟨lines.map FormRow.ofLine⟩

/-- The form of a character. -/
def form? (t : FormTable) (c : Char) : Option (List Char) :=
  t.rows.findSome? fun r => if r.first ≤ c.toNat then r.forms[c.toNat - r.first]? else none

/-- The first character with a form. -/
def charOf? (t : FormTable) (form : List Char) : Option Char :=
  t.rows.findSome? fun r => (r.forms.findIdx? (· == form)).map fun i => Char.ofNat (r.first + i)

/-- A table without lines gives no character a form. -/
@[simp] theorem form?_ofRows_nil (c : Char) : (ofRows []).form? c = none := rfl

end FormTable

end Marginalia.Text
