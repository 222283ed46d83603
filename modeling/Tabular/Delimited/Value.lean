import Tabular.Schema.Options
import Tabular.Number.Binary64
import Tabular.Calendar.Reading

/-! # Values of delimited text

What a trimmed value can be read as. Reading a value as a given type and finding out which type
it has use the same four readings, in one fixed order.
-/
namespace Tabular.Delimited

def int? (value : String) : Option Int := Number.Decimal.int64? value.toList

def float? (value : String) : Option Number.Binary64 := Number.Binary64.parse? value.toList

/-- A value as a boolean: a digit, or a word in any case. -/
def bool? (value : String) : Option Bool :=
  if value == "1" then some true
  else if value == "0" then some false
  else match value.toLower with
    | "true" => some true
    | "false" => some false
    | _ => none

/-- The tag of a raw value; none if it is null. Integers come first, so that a digit is one, then
doubles, booleans and timestamps. -/
def detect (o : Options) (raw : String) : Option Schema.Tag :=
  if o.isNull raw then none
  else
    let value := Text.strip raw
    if (int? value).isSome then some .int64
    else if (float? value).isSome then some .float64
    else if (bool? value).isSome then some .boolean
    else match o.timestampFormat with
      | some pattern =>
        if (Calendar.timestamp? pattern value).isSome then some .timestamp else some .string
      | none => some .string

end Tabular.Delimited
