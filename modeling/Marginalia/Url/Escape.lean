import Marginalia.Number.Digit

/-!
Escapes in addresses. A character that may not stand in some part of an address is written by the
bytes of its encoding, each as a percent sign and two digits; the parts differ in the characters
they take.
-/

namespace Marginalia.Url

/-- A byte by its number. -/
def escapeByte (b : UInt8) : List Char :=
  let digit (n : Nat) : Char := (Nat.digitChar n).toUpper
  ['%', digit (b.toNat / 16), digit (b.toNat % 16)]

/-- Text with control characters, characters outside of ASCII and those of `extra` written by their
bytes. -/
def escape (extra : List Char) (text : List Char) : List Char :=
  text.flatMap fun c =>
    if c.toNat < 32 || c.toNat > 126 || extra.contains c then
      (String.singleton c).toByteArray.toList.flatMap escapeByte
    else [c]

/-- The bytes that text with escapes stands for. A percent sign that starts no escape is kept. -/
def unescape : List Char → List UInt8
  | [] => []
  | '%' :: a :: b :: rest =>
    match Digit.value? 16 a, Digit.value? 16 b with
    | some high, some low => UInt8.ofNat (16 * high + low) :: unescape rest
    | _, _ => '%'.toUInt8 :: unescape (a :: b :: rest)
  | c :: rest => (String.singleton c).toByteArray.toList ++ unescape rest

/-- The text that text with escapes stands for, if its bytes are that of some text. -/
def unescaped? (text : List Char) : Option (List Char) :=
  (String.fromUTF8? ⟨(unescape text).toArray⟩).map String.toList

/-- What is escaped in a fragment. -/
def fragmentExtra : List Char := [' ', '"', '<', '>', '\x60']

/-- What is escaped in a query. -/
def queryExtra : List Char := [' ', '"', '#', '<', '>']

/-- What is escaped in a path. -/
def pathExtra : List Char := fragmentExtra ++ ['#', '?', '\x7b', '\x7d']

/-- What is escaped in a user name and a password. -/
def userExtra : List Char := pathExtra ++ ['/', ':', ';', '=', '@', '[', '\\', ']', '^', '|']

/-- Text that needs no escape is kept. -/
theorem escape_of_plain {extra text : List Char}
    (h : ∀ c ∈ text, 32 ≤ c.toNat ∧ c.toNat ≤ 126 ∧ c ∉ extra) : escape extra text = text := by
  induction text with
  | nil => rfl
  | cons c rest ih =>
    simp only [List.mem_cons, forall_eq_or_imp] at h
    obtain ⟨⟨h1, h2, h3⟩, hr⟩ := h
    have plain : (decide (c.toNat < 32) || decide (c.toNat > 126) || extra.contains c) = false := by
      simp [Nat.not_lt.mpr h1, Nat.not_lt.mpr h2, h3]
    have hrest := ih hr
    simp only [escape] at hrest ⊢
    rw [List.flatMap_cons, hrest, plain]
    rfl

end Marginalia.Url
