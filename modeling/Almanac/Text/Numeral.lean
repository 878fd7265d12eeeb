set_option autoImplicit false

/-!
# Numerals

Numbers are read from the digits of ASCII alone, with at most one sign in front, and written in
decimal with leading zeros where a width asks for them.
-/

namespace Almanac.Text

def asciiValue (c : Char) : Nat :=
  c.toNat - 48

def positional : Nat → List Char → Nat
  | n, [] => n
  | n, c :: s => positional (10 * n + asciiValue c) s

theorem positional_append (n : Nat) (s t : List Char) :
    positional n (s ++ t) = positional (positional n s) t := by
  induction s generalizing n with
  | nil => rfl
  | cons c s ih => exact ih _

def readDigits? (s : List Char) : Option Nat :=
  if s ≠ [] ∧ s.all Char.isDigit then some (positional 0 s) else none

def readNat? (bound : Nat) (s : List Char) : Option Nat :=
  (readDigits? (if s.head? = some '+' then s.tail else s)).filter (· ≤ bound)

def readInt? : List Char → Option Int
  | '-' :: s => (readDigits? s).map fun n => -(n : Int)
  | '+' :: s => (readDigits? s).map fun n => (n : Int)
  | s => (readDigits? s).map fun n => (n : Int)

def wordLimit : Int := 9223372036854775807

/-- The number that a numeral denotes as a signed word of 64 bits. A numeral that is too long or has
digits beyond ASCII counts as the limit on its side of zero, outside every range that is checked. -/
def saturated (s : List Char) : Int :=
  match (readInt? s).filter fun n => -wordLimit - 1 ≤ n ∧ n ≤ wordLimit with
  | some n => n
  | none => if s.head? = some '-' then -wordLimit else wordLimit

def decimal (n : Nat) : List Char :=
  if n < 10 then [Nat.digitChar n] else decimal (n / 10) ++ [Nat.digitChar (n % 10)]

def padStart (width : Nat) (s : List Char) : List Char :=
  List.replicate (width - s.length) '0' ++ s

def padded (width : Nat) (n : Int) : List Char :=
  if n < 0 then '-' :: padStart (width - 1) (decimal n.natAbs)
  else padStart width (decimal n.natAbs)

theorem length_padStart (width : Nat) (s : List Char) :
    (padStart width s).length = max width s.length := by
  simp only [padStart, List.length_append, List.length_replicate]
  omega

def written (n : Int) : String :=
  String.ofList (padded 0 n)

end Almanac.Text
