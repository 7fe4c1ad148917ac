import TxScope.Toml.Written

/-!
# The sections of a file

A header opens a section; the entries in front of all headers are one too. The tables of the file
are put together from its sections: a table takes those whose path begins with its own, in their
order, and each section is read once.

A table may be opened by one section only, before or after the ones below it. A section with double
brackets is the next element of an array of tables, which has everything up to the next element.
-/

namespace TxScope.Toml

open Settings (Value Table lookup)

structure Section where
  path : List String
  /-- The header had double brackets. -/
  many : Bool
  /-- What is still to be read. -/
  entries : Option (List (String × Written))

namespace Section

/-- The first section from `start` up to, and without, `limit` that a test holds for. -/
def find? (test : Section → Bool) (start limit : Nat) (sections : List Section) : Option Nat :=
  let i := start + ((sections.take limit).drop start).findIdx test
  if i < limit then some i else none

/-- The next section under a path that was not read. -/
def nextUnder? (path : List String) (start limit : Nat) (sections : List Section) : Option Nat :=
  find? (fun s => s.entries.isSome && path.isPrefixOf s.path) start limit sections

/-- The next element of the array that an element belongs to; `limit` if there is none. -/
def nextElement (element : Section) (start limit : Nat) (sections : List Section) : Nat :=
  (find? (fun s => s.many && s.path == element.path) start limit sections).getD limit

/-- The sections, one of them marked as read. -/
def markRead (i : Nat) (sections : List Section) : List Section :=
  sections.modify i fun s => { s with entries := none }

mutual

/-- The table at a depth that the section `owner` opened, or one below it. `start` and `limit`
bound the sections it is made of, `pending` are entries to put into it before them, behind the ones
in `done`. The fuel bounds the steps. -/
def tableOf (fuel depth owner start limit : Nat) (pending : List (String × Written)) (done : Table)
    (sections : List Section) : Option (Value × List Section) :=
  match fuel, pending with
  | 0, _ => none
  | fuel + 1, (k, w) :: pending =>
    if done.isEmpty && k = momentKey then w.moment?.map (·, sections)
    else if (lookup k done).isSome then none
    else do
      let v ← w.value?
      tableOf fuel depth owner start limit pending (done ++ [(k, v)]) sections
  | fuel + 1, [] => do
    let first ← sections[owner]?
    match nextUnder? (first.path.take depth) start limit sections with
    | none => return (.table done, sections)
    | some i =>
      let s ← sections[i]?
      if i ≠ owner ∧ s.path = first.path then none
      else
        let owner := if s.path.length < first.path.length then i else owner
        match s.path.drop depth with
        | [] =>
          if s.many then none
          else
            let entries ← s.entries
            tableOf fuel depth owner i limit entries done (markRead i sections)
        | key :: deeper =>
          if (done.isEmpty && key = momentKey) || (lookup key done).isSome then none
          else
            let (v, sections) ←
              if s.many && deeper.isEmpty then do
                let (items, sections) ← elementsOf fuel depth i limit sections
                pure (Value.array items, sections)
              else tableOf fuel (depth + 1) i 0 limit [] [] sections
            tableOf fuel depth owner (i + 1) limit [] (done ++ [(key, v)]) sections

/-- The elements of an array of tables from the section `element` on. -/
def elementsOf (fuel depth element limit : Nat) (sections : List Section) :
    Option (List Value × List Section) :=
  match fuel with
  | 0 => none
  | fuel + 1 =>
    if limit ≤ element then some ([], sections)
    else do
      let s ← sections[element]?
      let entries ← s.entries
      let next := nextElement s (element + 1) limit sections
      let (v, sections) ←
        tableOf fuel (depth + 1) element 0 next entries [] (markRead element sections)
      let (vs, sections) ← elementsOf fuel depth next limit sections
      return (v :: vs, sections)

end

/-- The steps that putting sections together may take: one for each entry, and for each section one
at each depth of its path. -/
def stepBound (sections : List Section) : Nat :=
  sections.foldr (fun s n => (s.entries.getD []).length + 2 * s.path.length + 4 + n) 4

/-- The table of the whole file. A file that is a date has none. -/
def table? (sections : List Section) : Option Table :=
  if sections.isEmpty then some []
  else
    match tableOf (stepBound sections) 0 0 0 sections.length [] [] sections with
    | some (.table t, _) => some t
    | some _ => some []
    | none => none

end Section

end TxScope.Toml
