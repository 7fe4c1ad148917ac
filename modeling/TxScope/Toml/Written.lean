import TxScope.Toml.Moment
import TxScope.Settings.Value

/-!
# Values as they are written

What stands in a file, before anyone asks what it is. Dates are kept as text, a table keeps all its
entries, also two under one key, and whether it was made by dotted keys, which alone may add to it.
`Written.value?` says which value was meant, if any.

A table whose first key is `momentKey` is another way to write a date: its text stands under that
key, and nothing else in the table counts.
-/

namespace TxScope.Toml

open Settings (Value Table lookup)

inductive Written where
  | plain (v : Value)
  | moment (text : List Char)
  | array (items : List Written)
  | table (dotted : Bool) (entries : List (String × Written))

/-- Puts a value at a dotted key. -/
def Written.insert (w : Written) : List String → List (String × Written) →
    Option (List (String × Written))
  | [], _ => none
  | [key], entries => some (entries ++ [(key, w)])
  | key :: path, entries =>
    match entries with
    | [] => (Written.insert w path []).map fun es => [(key, .table true es)]
    | (k, x) :: rest =>
      if k = key then
        match x with
        | .table true es => (Written.insert w path es).map fun es => (k, .table true es) :: rest
        | _ => none
      else (Written.insert w (key :: path) rest).map ((k, x) :: ·)
termination_by path entries => (path.length, entries.length)

/-- The key of the only entry of a date. -/
def momentKey : String := "$__toml_private_datetime"

/-- The date under its key. -/
def Written.moment? : Written → Option Value
  | .plain (.string s) => (Moment.normal? s.toList).map .moment
  | _ => none

mutual

/-- The value that is meant; `none` for what looks like a date and is none, and for a table with two
entries under one key. -/
def Written.value? : Written → Option Value
  | .plain v => some v
  | .moment text => (Moment.normal? text).map .moment
  | .array items => (Written.values? items).map .array
  | .table _ [] => some (.table [])
  | .table _ ((k, w) :: rest) =>
    if k = momentKey then w.moment?
    else do
      let v ← w.value?
      let t ← Written.entries? [(k, v)] rest
      return .table t

def Written.values? : List Written → Option (List Value)
  | [] => some []
  | w :: ws => do
    let v ← w.value?
    let vs ← Written.values? ws
    return v :: vs

/-- The entries behind the ones in `done`. -/
def Written.entries? (done : Table) : List (String × Written) → Option Table
  | [] => some done
  | (k, w) :: rest =>
    if (lookup k done).isSome then none
    else do
      let v ← w.value?
      Written.entries? (done ++ [(k, v)]) rest

end

end TxScope.Toml
