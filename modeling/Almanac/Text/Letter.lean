set_option autoImplicit false

/-!
# Letters without regard to case

Two foldings are in use. Names are looked up after `lower`, which knows the letters of ASCII alone.
Patterns compare characters after `fold`, which also takes the long s for an s and the Kelvin sign
for a k, the only other characters that simple case folding sends to a letter of ASCII.
-/

namespace Almanac.Text

def lower (s : List Char) : List Char :=
  s.map Char.toLower

def longS : Char := Char.ofNat 0x17F

def kelvin : Char := Char.ofNat 0x212A

def fold (c : Char) : Char :=
  if c = longS then 's'
  else if c = kelvin then 'k'
  else c.toLower

def isLetter (c : Char) : Bool :=
  (fold c).isLower

def sameLetters (s t : List Char) : Bool :=
  lower s == lower t

@[simp] theorem lower_nil : lower [] = [] := rfl

@[simp] theorem lower_cons (c : Char) (s : List Char) : lower (c :: s) = c.toLower :: lower s := rfl

end Almanac.Text
