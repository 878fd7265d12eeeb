set_option autoImplicit false

/-!
# Blank characters

The characters with the property White_Space, and the tidying of text at them: the blanks at its
ends are cut off, and a run of blanks inside becomes one space.
-/

namespace Almanac.Text

def blankRanges : List (Nat × Nat) :=
  [(0x09, 0x0D), (0x20, 0x20), (0x85, 0x85), (0xA0, 0xA0), (0x1680, 0x1680), (0x2000, 0x200A),
   (0x2028, 0x2029), (0x202F, 0x202F), (0x205F, 0x205F), (0x3000, 0x3000)]

def isBlank (c : Char) : Bool :=
  blankRanges.any fun r => r.1 ≤ c.toNat && c.toNat ≤ r.2

@[simp] theorem isBlank_space : isBlank ' ' = true := rfl

def trimStart (s : List Char) : List Char :=
  s.dropWhile isBlank

def trimEnd (s : List Char) : List Char :=
  (s.reverse.dropWhile isBlank).reverse

def trim (s : List Char) : List Char :=
  trimEnd (trimStart s)

-- A gap is owed when blanks were passed and is paid before the next character that is none, so
-- blanks at the end leave no trace.
def spaced : Bool → List Char → List Char
  | _, [] => []
  | gap, c :: s =>
      if isBlank c then spaced true s
      else if gap then ' ' :: c :: spaced false s
      else c :: spaced false s

def squeeze (s : List Char) : List Char :=
  spaced false (trimStart s)

@[simp] theorem spaced_nil (gap : Bool) : spaced gap [] = [] := by
  cases gap <;> rfl

end Almanac.Text
