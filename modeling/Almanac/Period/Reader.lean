import Almanac.Period.Form

set_option autoImplicit false

/-!
# Reading period specs

The blanks of a text are tidied first. Then a skip is cut off its end, and what stands before the
skip is matched against the forms.
-/

namespace Almanac

namespace Skip

open Text (Fields Pattern)

def pattern : Pattern Field :=
  .seq
    (.field .direction (.seq (.one (.among ['<', '>'])) (.opt (.one (.among ['='])))))
    Form.weekdayWord

def build (fields : Fields Field) : Except Error Skip := do
  let sign := Form.letters fields .direction
  let weekday ← Weekday.read (Form.letters fields .weekday)
  return {
    direction := if sign.head? = some '<' then .before else .after
    inclusive := sign.getLast? = some '='
    weekday }

/-- The text before the first end of it that is a skip, and the fields of the skip. -/
def cut? : List Char → Option (List Char × Fields Field)
  | [] => none
  | c :: s =>
      match pattern.match? (c :: s) with
      | some fields => some ([], fields)
      | none => (cut? s).map fun found => (c :: found.1, found.2)

def split (text : List Char) : Except Error (List Char × Option Skip) :=
  match cut? text with
  | some (before, fields) => do return (Text.trimEnd before, some (← build fields))
  | none => .ok (text, none)

end Skip

def Period.read? (forms : List Form) (text : List Char) : Option (Except Error Period) :=
  forms.findSome? fun form => (form.pattern.match? text).map form.build

def Spec.readWith (forms : List Form) (text : List Char) : Except Error Spec := do
  let tidy := Text.squeeze text
  let (base, skip) ← Skip.split tidy
  match Period.read? forms base with
  | some period => return ⟨← period, skip⟩
  | none => .error (.unrecognizedSpec tidy)

def Spec.read (text : List Char) : Except Error Spec :=
  Spec.readWith Form.all text

end Almanac
